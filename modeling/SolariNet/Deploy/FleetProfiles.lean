/-
# No armed profile is lost or left behind

An undisturbed call is one in which nobody else moves and every operation succeeds (`calm`).  A
sweep lists the profiles that are armed, and disarms those whose run has ended if the lock of the
MAC is free; it leaves nothing for a second one to do (`sweepArmed_spec`).
-/
import SolariNet.Deploy.FleetSafety

namespace SolariNet.Fleet

open Function Lib Lib.Prog
open List hiding rec

variable {ι : Type} [DecidableEq ι]

/-! ## Undisturbed calls -/

section
omit [DecidableEq ι]

def calmGate {α : Type} (w : FleetWorld ι) (run : RunId) (detail : String) (a : α) :
    Gate α × FleetWorld ι :=
  if w.statusOf run = some .running then (.ran a, w.setDetail run detail)
  else (.stopped (w.statusOf run), w)

end

def calm (i : ι) : (o : FleetOp) → FleetWorld ι → FleetRes o × FleetWorld ι
  | .prepare, w => (some ⟨.opensuse, "suse", "x86_64"⟩, w)
  | .openRun entity mac, w => (some w.nextRun, w.openRun i entity mac w.nextRun)
  | .selectOpen entity except, w => (some (w.openRuns entity except), w)
  | .status run, w => (some (w.statusOf run), w)
  | .advance run status detail, w =>
    match w.runs run with
    | none => (.missing, w)
    | some row =>
      if row.status.forward status = true then (.done, w.advance i run row status detail)
      else (.notForward row.status, w)
  | .setDetail run detail, w => (true, w.setDetail run detail)
  | .setRunningDetail run detail, w => (true, w.noteStaged run detail)
  | .step run detail, w => calmGate w run detail ()
  | .bootstrap run detail, w => calmGate w run detail true
  | .probeFacts run detail, w => calmGate w run detail (some ("suse", "x86_64"))
  | .playbook run _ detail, w => calmGate w run detail true
  | .pendingRuns only, w => (some (w.pendingRows only fun _ => 0), w)
  | .selectTerminal runs, w =>
    (some (runs.filter fun run => ((w.statusOf run).map (·.terminal)).getD false), w)
  | .getLock l, w =>
    if w.sessions.holder l = none then (.got, w.getLock i l) else (.refused, w)
  | .releaseLock l, w => ((), w.releaseLock i l)
  | .close, w => ((), w.stop i)
  | .requireStore, w | .writeVars _, w | .ready, w | .sharedFiles, w => (true, w)
  | .writeRecord run rec, w =>
    (true, { w with records := Function.update w.records run (some rec) })
  | .readRecord run, w =>
    match w.records run with
    | none => (.absent, w)
    | some rec => (.found rec, w)
  | .readMarker _, w => (some none, w)
  | .forget _, w => ((), w)
  | .spawn run mac, w => (true, w.spawn i run mac)
  | .mkdir mac, w => (true, { w with dirs := w.dirs.insert mac })
  | .put mac f run, w => (true, w.put i mac f run)
  | .rm s mac fs, w => (true, w.remove i s mac fs)
  | .mv s mac source target, w =>
    if w.files mac source = none then (false, w) else (true, w.move i s mac source target)
  | .test mac f, w => (some (w.files mac f).isSome, w)
  | .grepRun mac run, w => (some (decide (w.files mac .profileEnv = some run)), w)
  | .owner mac, w => (some (w.files mac .profileEnv), w)
  | .glob, w => (some (w.dirs.filter fun mac => (w.files mac .profileEnv).isSome), w)

def calmOk (i : ι) (_ : FleetOp) (w : FleetWorld ι) : Bool :=
  decide (i ∉ w.sessions.ended) && (w.runs w.nextRun).isNone

section
variable {i : ι} {w : FleetWorld ι}

omit [DecidableEq ι] in
theorem calmGate_sem {α : Type} {run : RunId} {detail : String} {a : α} :
    gateSem run detail w (calmGate w run detail a).1 (calmGate w run detail a).2 := by
  unfold calmGate
  split
  · next h => exact ⟨h, rfl⟩
  · next h => exact ⟨rfl, h, rfl⟩

theorem calm_sem (i : ι) (o : FleetOp) (w : FleetWorld ι) (hok : calmOk i o w = true) :
    fleetSem i o w (calm i o w).1 (calm i o w).2 := by
  obtain ⟨hi, hnext⟩ := Bool.and_eq_true_iff.1 hok
  have hi : i ∉ w.sessions.ended := of_decide_eq_true hi
  cases o with
  | prepare | requireStore | writeVars | readMarker | forget | ready | sharedFiles | releaseLock
  | close => exact ⟨hi, rfl⟩
  | openRun => exact ⟨hi, .inr ⟨w.nextRun, rfl, Option.isNone_iff_eq_none.1 hnext, rfl⟩⟩
  | selectOpen | status | selectTerminal | test | grepRun | owner | glob =>
    exact ⟨hi, .inr rfl, rfl⟩
  | advance run status detail =>
    cases hrow : w.runs run with
    | none =>
      simp only [calm, hrow]
      exact ⟨hi, .inr (.inl ⟨hrow, rfl, rfl⟩)⟩
    | some row =>
      simp only [calm, hrow]
      by_cases hf : row.status.forward status = true
      · rw [if_pos hf]
        exact ⟨hi, .inr (.inr ⟨row, hrow, .inr ⟨hf, .inl ⟨rfl, rfl⟩⟩⟩)⟩
      · rw [if_neg hf]
        exact ⟨hi, .inr (.inr ⟨row, hrow, .inl ⟨eq_false_of_ne_true hf, rfl, rfl⟩⟩)⟩
  | setDetail | setRunningDetail | spawn | put | rm => exact ⟨hi, .inr ⟨rfl, rfl⟩⟩
  | step | bootstrap | probeFacts | playbook => exact ⟨hi, calmGate_sem⟩
  | pendingRuns => exact ⟨hi, .inr ⟨_, rfl⟩, rfl⟩
  | getLock l =>
    by_cases hfree : w.sessions.holder l = none
    · simp only [calm, if_pos hfree]
      exact ⟨hi, .inr ⟨rfl, hfree, rfl⟩⟩
    · simp only [calm, if_neg hfree]
      exact ⟨hi, .inl ⟨by simp, rfl⟩⟩
  | writeRecord | mkdir => exact ⟨hi, .inr rfl⟩
  | readRecord run =>
    cases hrec : w.records run with
    | none | some rec =>
      simp only [calm, hrec]
      exact ⟨hi, rfl, hrec⟩
  | mv s mac source target =>
    by_cases hgone : w.files mac source = none
    · simp only [calm, if_pos hgone]
      exact ⟨hi, .inl ⟨rfl, rfl⟩⟩
    · simp only [calm, if_neg hgone]
      exact ⟨hi, .inr ⟨rfl, hgone, rfl⟩⟩

/-- An undisturbed call of process `i`: what it returns or raises, and the state after it. -/
def undisturbed {α : Type} (i : ι) (x : FleetM α) (w : FleetWorld ι) :
    Except FleetErr α × FleetWorld ι := Prog.run (calm i) x.run w

variable {α β : Type}

@[simp] theorem undisturbed_pure (a : α) : undisturbed i (pure a) w = (.ok a, w) := rfl

@[simp] theorem undisturbed_act (o : FleetOp) :
    undisturbed i (act o) w = (.ok (calm i o w).1, (calm i o w).2) := rfl

variable {source target : File} {body x : FleetM α} {done : List RunId} {s : Script}
  {shown : String}

theorem undisturbed_bind {f : α → FleetM β} :
    undisturbed i (x >>= f) w = match undisturbed i x w with
      | (.ok a, w') => undisturbed i (f a) w'
      | (.error e, w') => (.error e, w') := by
  have hrun : undisturbed i (x >>= f) w = Prog.run (calm i)
      (ExceptT.bindCont f (undisturbed i x w).1) (undisturbed i x w).2 := Prog.run_bind _ _ _ _
  rw [hrun]
  cases undisturbed i x w with
  | mk r w' =>
    cases r with
    | error e | ok a => rfl

theorem undisturbed_tryCatch {f : FleetErr → FleetM α} :
    undisturbed i (tryCatch x f) w = match undisturbed i x w with
      | (.ok a, w') => (.ok a, w')
      | (.error e, w') => undisturbed i (f e) w' := by
  change Prog.run (calm i) (x.run >>= _) w = _
  rw [Prog.run_bind]
  unfold undisturbed
  cases Prog.run (calm i) x.run w with
  | mk r w' =>
    cases r with
    | error e | ok a => rfl

theorem undisturbed_after : undisturbed i (Call.after x o) w =
      ((undisturbed i x w).1, (calm i o (undisturbed i x w).2).2) := Prog.run_bind _ _ _ _

/-! ## The clean-up of one MAC -/

variable {mac : Mac} {run : RunId} {e : FleetErr}

section
omit [DecidableEq ι]
variable {w' w'' : FleetWorld ι}

structure Touched (mac : Mac) (w w' : FleetWorld ι) : Prop where
  sessions : w'.sessions = w.sessions
  runs : w'.runs = w.runs
  dirs : w'.dirs = w.dirs
  others : ∀ m, m ≠ mac → w'.files m = w.files m

structure Disarmed (mac : Mac) (w w' : FleetWorld ι) : Prop extends Touched mac w w' where
  ipxe : w'.files mac .ipxe = none
  env : w'.files mac .profileEnv = none

theorem Touched.refl (mac : Mac) (w : FleetWorld ι) : Touched mac w w :=
  ⟨rfl, rfl, rfl, fun _ _ => rfl⟩

theorem Touched.trans (h : Touched mac w w') (h' : Touched mac w' w'') : Touched mac w w'' :=
  ⟨h'.sessions.trans h.sessions, h'.runs.trans h.runs, h'.dirs.trans h.dirs,
    fun m hm => (h'.others m hm).trans (h.others m hm)⟩

theorem terminal_iff_ended : ((w.statusOf run).map (·.terminal)).getD false = true ↔
    Ended run w := by
  unfold FleetWorld.statusOf Ended
  cases w.runs run with
  | none | some row => simp

def Unmarked (w : FleetWorld ι) : Prop :=
  ∀ mac run how, w.files mac .profileEnv = some run → w.files mac (How.marker how run) = none

structure Swept (w w' : FleetWorld ι) : Prop where
  sessions : w'.sessions = w.sessions
  runs : w'.runs = w.runs
  dirs : w'.dirs = w.dirs
  files : ∀ mac, w'.files mac = w.files mac ∨
    w'.files mac .ipxe = none ∧ w'.files mac .profileEnv = none

theorem Swept.refl (w : FleetWorld ι) : Swept w w := ⟨rfl, rfl, rfl, fun _ => .inl rfl⟩

section
variable (h : Swept w w')
include h

theorem Swept.trans (h' : Swept w' w'') : Swept w w'' := by
  refine ⟨h'.sessions.trans h.sessions, h'.runs.trans h.runs, h'.dirs.trans h.dirs, fun m => ?_⟩
  rcases h'.files m with hsame | hgone
  · rw [hsame]
    exact h.files m
  · exact .inr hgone

theorem Swept.unmarked (hU : Unmarked w) : Unmarked w' := by
  intro m r how hr
  rcases h.files m with hsame | hgone
  · rw [hsame] at hr ⊢
    exact hU m r how hr
  · rw [hgone.2] at hr
    cases hr

theorem Swept.ended : Ended run w' ↔ Ended run w := by
  unfold Ended
  rw [h.runs]

theorem Swept.gone (hipxe : w.files m .ipxe = none)
    (henv : w.files m .profileEnv = none) :
    w'.files m .ipxe = none ∧ w'.files m .profileEnv = none := by
  rcases h.files m with hsame | hgone
  · rw [hsame]
    exact ⟨hipxe, henv⟩
  · exact hgone

end

theorem Disarmed.swept (h : Disarmed mac w w') : Swept w w' := by
  refine ⟨h.sessions, h.runs, h.dirs, fun m => ?_⟩
  by_cases hm : m = mac
  · subst hm
    exact .inr ⟨h.ipxe, h.env⟩
  · exact .inl (h.others m hm)

def armedIn (w : FleetWorld ι) (macs : List Mac) : List (Mac × RunId) :=
  macs.filterMap fun mac =>
    if (w.files mac .ipxe).isSome then (w.files mac .profileEnv).map (mac, ·) else none

theorem mem_armedIn {macs : List Mac} : (mac, run) ∈ armedIn w macs ↔
    mac ∈ macs ∧ w.files mac .ipxe ≠ none ∧ w.files mac .profileEnv = some run := by
  unfold armedIn
  simp only [mem_filterMap, Option.ite_none_right_eq_some, Option.map_eq_some_iff,
    Prod.mk.injEq, Option.isSome_iff_ne_none]
  constructor
  · rintro ⟨m, hm, hipxe, r, henv, rfl, rfl⟩
    exact ⟨hm, hipxe, henv⟩
  · rintro ⟨hm, hipxe, henv⟩
    exact ⟨mac, hm, hipxe, run, henv, rfl, rfl⟩

def armedNow (w : FleetWorld ι) : List (Mac × RunId) :=
  armedIn w (w.dirs.filter fun mac => (w.files mac .profileEnv).isSome)

end

theorem touched_remove {fs : List File} : Touched mac w (w.remove i s mac fs) :=
  ⟨rfl, rfl, rfl, fun _ hm => update_of_ne hm _ _⟩

theorem touched_move : Touched mac w (w.move i s mac source target) :=
  ⟨rfl, rfl, rfl, fun _ hm => update_of_ne hm _ _⟩

@[simp] theorem undisturbed_test (f : File) :
    undisturbed i (probe e (act (.test mac f))) w = (.ok (w.files mac f).isSome, w) := rfl

@[simp] theorem undisturbed_grepRun : undisturbed i (probe e (act (.grepRun mac run))) w =
    (.ok (decide (w.files mac .profileEnv = some run)), w) := rfl

@[simp] theorem undisturbed_rm (s : Script) (fs : List File) :
    undisturbed i (command e (act (.rm s mac fs))) w = (.ok (), w.remove i s mac fs) := rfl

theorem undisturbed_mv (h : w.files mac source ≠ none) :
    undisturbed i (command e (act (.mv s mac source target))) w =
      (.ok (), w.move i s mac source target) := by
  have hcalm : calm i (.mv s mac source target) w = (true, w.move i s mac source target) := if_neg h
  unfold command
  rw [undisturbed_bind, undisturbed_act, hcalm]
  rfl

theorem undisturbed_keepIpxe (i : ι) (w : FleetWorld ι) (run : RunId) (mac : Mac) (how : How) :
    ∃ w', undisturbed i (keepIpxe run mac how) w = (.ok (), w') ∧ Touched mac w w' ∧
      w'.files mac .profileEnv = w.files mac .profileEnv := by
  unfold keepIpxe
  by_cases hhow : how = .disarm
  · rw [if_pos hhow, undisturbed_bind, undisturbed_test]
    simp only
    by_cases hipxe : (w.files mac .ipxe).isSome = true
    · rw [if_pos hipxe, undisturbed_mv (Option.isSome_iff_ne_none.1 hipxe)]
      refine ⟨_, rfl, touched_move, ?_⟩
      simp [FleetWorld.move]
    · rw [if_neg hipxe]
      exact ⟨w, rfl, .refl mac w, rfl⟩
  · rw [if_neg hhow]
    exact ⟨w, rfl, .refl mac w, rfl⟩

theorem undisturbed_removeProfile (how : How) (howner : w.files mac .profileEnv = some run) :
    ∃ w', undisturbed i (removeProfile run mac how) w = (.ok .done, w') ∧ Disarmed mac w w' := by
  obtain ⟨w₁, hkeep, htouched, henv⟩ := undisturbed_keepIpxe i w run mac how
  rw [howner] at henv
  -- both removals leave `profile.env`, and the first takes the boot profile
  have hsome : ((w₁.remove i (.clean run) mac [.ipxe, .xml, .preseed, .stackJson]).remove i
      (.clean run) mac [.userData, .metaData]).files mac .profileEnv ≠ none := by
    simp [FleetWorld.remove, henv]
  unfold removeProfile
  rw [undisturbed_bind, hkeep]
  simp only
  rw [undisturbed_bind, undisturbed_rm]
  simp only
  rw [undisturbed_bind, undisturbed_rm]
  simp only
  rw [undisturbed_bind, undisturbed_mv hsome]
  obtain ⟨hmark, hmark', -⟩ := marker_ne how run
  refine ⟨_, rfl, ⟨htouched.trans (touched_remove.trans (touched_remove.trans touched_move)), ?_,
    ?_⟩⟩
  · simp [FleetWorld.move, FleetWorld.remove, update_of_ne hmark'.symm]
  · simp [FleetWorld.move, update_of_ne hmark.symm]

theorem undisturbed_unstageProfile (how : How) (howner : w.files mac .profileEnv = some run)
    (hmarked : ∀ how', w.files mac (How.marker how' run) = none) :
    ∃ w', undisturbed i (unstageProfile run mac how) w = (.ok .done, w') ∧ Disarmed mac w w' := by
  have hfinished : (w.files mac (.finishedEnv run)).isSome = false := by
    rw [show File.finishedEnv run = How.marker .finish run from rfl, hmarked .finish]
    rfl
  have hdisarmed : (w.files mac (.disarmedEnv run)).isSome = false := by
    rw [show File.disarmedEnv run = How.marker .disarm run from rfl, hmarked .disarm]
    rfl
  unfold unstageProfile
  rw [undisturbed_bind, undisturbed_test, hfinished]
  simp only [Bool.false_eq_true, if_false]
  rw [undisturbed_bind, undisturbed_test, hdisarmed]
  simp only [Bool.false_eq_true, if_false]
  rw [undisturbed_bind, undisturbed_test, howner]
  simp only [Option.isSome_some, if_true]
  rw [undisturbed_bind, undisturbed_grepRun, howner]
  simp only
  exact undisturbed_removeProfile how howner

theorem undisturbed_unstageProfile_absent (how : How)
    (henv : w.files mac .profileEnv = none) :
    ∃ word, undisturbed i (unstageProfile run mac how) w = (.ok word, w) := by
  unfold unstageProfile
  rw [undisturbed_bind, undisturbed_test]
  simp only
  split
  · exact ⟨_, rfl⟩
  rw [undisturbed_bind, undisturbed_test]
  simp only
  split
  · exact ⟨_, rfl⟩
  · rw [undisturbed_bind, undisturbed_test, henv]
    exact ⟨_, rfl⟩

/-! ### Under the lock -/

theorem getLock_releaseLock (hfree : w.sessions.holder (.mac mac) = none) :
    (w.getLock i (.mac mac)).releaseLock i (.mac mac) = w := by
  have hsessions : (w.sessions.acquire i (.mac mac)).release i (.mac mac) = w.sessions :=
    Sessions.release_acquire hfree
  simp only [FleetWorld.getLock, FleetWorld.releaseLock, hsessions]

theorem undisturbed_macLock
    (hfree : w.sessions.holder (.mac mac) = none)
    (hbody : undisturbed i body (w.getLock i (.mac mac)) = (r, w')) :
    undisturbed i (macLock mac shown body) w = (r, w'.releaseLock i (.mac mac)) := by
  have hcalm : calm i (.getLock (.mac mac)) w = (.got, w.getLock i (.mac mac)) := if_pos hfree
  unfold macLock
  rw [undisturbed_bind, undisturbed_act, hcalm]
  simp only
  rw [undisturbed_after, hbody]
  rfl

theorem undisturbed_macLock_busy (hbusy : w.sessions.holder (.mac mac) ≠ none) :
    ∃ message, undisturbed i (macLock mac shown body) w = (.error (.macBusy message), w) := by
  have hcalm : calm i (.getLock (.mac mac)) w = (.refused, w) := if_neg hbusy
  unfold macLock
  rw [undisturbed_bind, undisturbed_act, hcalm]
  exact ⟨_, rfl⟩

theorem undisturbed_unstage_absent (how : How) (henv : w.files mac .profileEnv = none) :
    (undisturbed i (unstage run mac how) w).2 = w := by
  by_cases hfree : w.sessions.holder (.mac mac) = none
  · obtain ⟨word, hword⟩ : ∃ word, undisturbed i (unstageProfile run mac how)
        (w.getLock i (.mac mac)) = (.ok word, w.getLock i (.mac mac)) :=
      undisturbed_unstageProfile_absent how henv
    unfold unstage
    rw [undisturbed_macLock hfree hword]
    exact getLock_releaseLock hfree
  · unfold unstage
    obtain ⟨message, hbusy⟩ : ∃ message, undisturbed i
        (macLock mac mac (unstageProfile run mac how)) w = (.error (.macBusy message), w) :=
      undisturbed_macLock_busy hfree
    rw [hbusy]

theorem undisturbed_isStale : undisturbed i (isStale owner none) w =
      (.ok (((w.statusOf owner).map (·.terminal)).getD false), w) := by
  unfold isStale runStatus
  rw [if_neg (by simp), undisturbed_bind, undisturbed_bind, undisturbed_act]
  cases hstatus : w.statusOf owner with
  | none | some status =>
    simp only [calm, hstatus]
    rfl

theorem undisturbed_disarm (hU : Unmarked w) : (w.sessions.holder (.mac mac) ≠ none ∧ ∃ message,
      undisturbed i (disarmStaleProfile mac none) w = (.error (.macBusy message), w)) ∨
    (w.sessions.holder (.mac mac) = none ∧ ∃ owner w',
      undisturbed i (disarmStaleProfile mac none) w = (.ok owner, w') ∧ Swept w w' ∧
      ∀ run, w.files mac .profileEnv = some run → Ended run w →
        w'.files mac .ipxe = none ∧ w'.files mac .profileEnv = none) := by
  by_cases hfree : w.sessions.holder (.mac mac) = none
  · refine .inr ⟨hfree, ?_⟩
    have howner : undisturbed i (profileOwner mac) (w.getLock i (.mac mac)) =
        (.ok (w.files mac .profileEnv), w.getLock i (.mac mac)) := rfl
    have hsame : Swept w ((w.getLock i (.mac mac)).releaseLock i (.mac mac)) := by
      rw [getLock_releaseLock hfree]
      exact .refl w
    cases henv : w.files mac .profileEnv with
    | none =>
      refine ⟨none, _, undisturbed_macLock hfree ?_, hsame, fun _ hrun => by cases hrun⟩
      rw [undisturbed_bind, howner, henv]
      rfl
    | some owner =>
      by_cases hended : Ended owner w
      · obtain ⟨w₁, hun, hdis⟩ := undisturbed_unstageProfile
          (w := w.getLock i (.mac mac)) .disarm henv fun how => hU mac owner how henv
        have hsessions : (w₁.releaseLock i (.mac mac)).sessions = w.sessions := by
          simp only [FleetWorld.releaseLock, hdis.sessions]
          exact Sessions.release_acquire hfree
        have hstale : ((FleetWorld.statusOf (w.getLock i (.mac mac)) owner).map
            (·.terminal)).getD false = true := terminal_iff_ended.2 hended
        have hgone : Disarmed mac w (w₁.releaseLock i (.mac mac)) :=
          { hdis with sessions := hsessions }
        refine ⟨some owner, _, undisturbed_macLock hfree ?_, hgone.swept,
          fun _ _ _ => ⟨hdis.ipxe, hdis.env⟩⟩
        rw [undisturbed_bind, howner, henv]
        simp only
        rw [undisturbed_bind, undisturbed_isStale, hstale]
        simp only [if_true]
        rw [undisturbed_bind, hun]
        rfl
      · have hlive : ((FleetWorld.statusOf (w.getLock i (.mac mac)) owner).map
            (·.terminal)).getD false = false :=
          eq_false_of_ne_true fun h => hended (terminal_iff_ended.1 h)
        refine ⟨none, _, undisturbed_macLock hfree ?_, hsame, ?_⟩
        · rw [undisturbed_bind, howner, henv]
          simp only
          rw [undisturbed_bind, undisturbed_isStale, hlive]
          rfl
        · intro run hrun hrunEnded
          cases hrun
          exact absurd hrunEnded hended
  · exact .inl ⟨hfree, undisturbed_macLock_busy hfree⟩

/-! ### The sweep -/

theorem undisturbed_armedFor : undisturbed i (armedFor mac) w =
    (.ok (if (w.files mac .ipxe).isSome then w.files mac .profileEnv else none), w) := by
  unfold armedFor
  rw [undisturbed_bind, undisturbed_test]
  cases henv : w.files mac .profileEnv with
  | none =>
    rw [ite_self]
    rfl
  | some owner =>
    simp only [Option.isSome_some, if_true]
    rw [undisturbed_bind, undisturbed_test]
    cases hipxe : w.files mac .ipxe with
    | none => rfl
    | some r =>
      simp only [Option.isSome_some, if_true]
      rw [undisturbed_bind, undisturbed_act]
      simp only [calm, henv]
      rfl

theorem undisturbed_armedAmong (macs : List Mac) :
    undisturbed i (armedAmong macs) w = (.ok (armedIn w macs), w) := by
  induction macs with
  | nil => rfl
  | cons m macs ih =>
    have hcons : armedIn w (m :: macs) =
        ((if (w.files m .ipxe).isSome then w.files m .profileEnv else none).map
          (m, ·)).toList ++ armedIn w macs := by
      unfold armedIn
      rw [filterMap_cons]
      cases w.files m .ipxe with
      | none => rfl
      | some r =>
        cases w.files m .profileEnv with
        | none | some owner => rfl
    unfold armedAmong
    rw [undisturbed_bind, undisturbed_armedFor, hcons]
    simp only
    rw [undisturbed_bind, ih]
    cases (if (w.files m .ipxe).isSome then w.files m .profileEnv else none) with
    | none | some r => rfl

theorem undisturbed_sweepEach (hdone : ∀ run ∈ done, Ended run w) (hU : Unmarked w)
    (armed : List (Mac × RunId)) :
    ∃ n w', undisturbed i (sweepEach done armed) w = (.ok n, w') ∧ Swept w w' ∧
      ∀ mac run, (mac, run) ∈ armed → run ∈ done → w.files mac .profileEnv = some run →
        w.sessions.holder (.mac mac) = none →
        w'.files mac .ipxe = none ∧ w'.files mac .profileEnv = none := by
  -- Along the list: what the first MACs have left is a state of the same kind.
  induction armed generalizing w with
  | nil => exact ⟨0, w, rfl, .refl w, fun _ _ h => absurd h not_mem_nil⟩
  | cons x rest ih =>
    obtain ⟨m, r⟩ := x
    unfold sweepEach
    by_cases hr : r ∈ done
    · rw [if_pos hr]
      obtain ⟨owner, w₁, hcatch, hswept, hgone⟩ : ∃ owner w₁,
          (∀ h : FleetErr → FleetM (Option RunId), (∀ t, h (.macBusy t) = pure none) →
            undisturbed i (tryCatch (disarmStaleProfile m none) h) w = (.ok owner, w₁)) ∧
          Swept w w₁ ∧
          (w.files m .profileEnv = some r → w.sessions.holder (.mac m) = none →
            w₁.files m .ipxe = none ∧ w₁.files m .profileEnv = none) := by
        rcases undisturbed_disarm hU with
          ⟨hbusy, message, herr⟩ | ⟨-, owner, w₁, hok, hswept, hgone⟩
        · refine ⟨none, w, fun h hh => ?_, .refl w, fun _ hfree => absurd hfree hbusy⟩
          rw [undisturbed_tryCatch, herr]
          simp only [hh, undisturbed_pure]
        · refine ⟨owner, w₁, fun h _ => ?_, hswept, fun henv _ => hgone r henv (hdone r hr)⟩
          rw [undisturbed_tryCatch, hok]
      obtain ⟨n, w₂, hrest, hswept₂, hgone₂⟩ :=
        ih (fun run hrun => hswept.ended.2 (hdone run hrun)) (hswept.unmarked hU)
      refine ⟨if owner.isSome then n + 1 else n, w₂, ?_, hswept.trans hswept₂, ?_⟩
      · rw [undisturbed_bind, hcatch _ fun _ => rfl]
        simp only
        rw [undisturbed_bind, hrest]
        rfl
      · intro mac run hmem hrun henv hfree
        rcases mem_cons.1 hmem with heq | hrestMem
        · cases heq
          obtain ⟨hipxe, hnone⟩ := hgone henv hfree
          exact hswept₂.gone hipxe hnone
        rcases hswept.files mac with hsame | hnone
        · refine hgone₂ mac run hrestMem hrun ?_ ?_
          · rw [hsame]
            exact henv
          · rw [hswept.sessions]
            exact hfree
        · exact hswept₂.gone hnone.1 hnone.2
    · rw [if_neg hr]
      obtain ⟨n, w', hrest, hswept, hgone⟩ := ih hdone hU
      refine ⟨n, w', hrest, hswept, fun mac run hmem hrun => ?_⟩
      rcases mem_cons.1 hmem with heq | hrestMem
      · cases heq
        exact absurd hrun hr
      · exact hgone mac run hrestMem hrun

theorem undisturbed_sweepEach_idle {armed : List (Mac × RunId)}
    (hheld : ∀ mac run, (mac, run) ∈ armed → run ∈ done → w.sessions.holder (.mac mac) ≠ none) :
    ∃ n, undisturbed i (sweepEach done armed) w = (.ok n, w) := by
  induction armed with
  | nil => exact ⟨0, rfl⟩
  | cons x rest ih =>
    obtain ⟨m, r⟩ := x
    obtain ⟨n, hrest⟩ := ih fun mac run hmem => hheld mac run (mem_cons_of_mem _ hmem)
    unfold sweepEach
    by_cases hr : r ∈ done
    · rw [if_pos hr]
      obtain ⟨message, herr⟩ : ∃ message,
          undisturbed i (disarmStaleProfile m none) w = (.error (.macBusy message), w) :=
        undisturbed_macLock_busy (hheld m r mem_cons_self hr)
      refine ⟨n, ?_⟩
      rw [undisturbed_bind, undisturbed_tryCatch, herr]
      simp only [undisturbed_pure]
      rw [undisturbed_bind, hrest]
      rfl
    · rw [if_neg hr]
      exact ⟨n, hrest⟩

theorem undisturbed_sweepArmed : undisturbed i sweepArmed w = undisturbed i
    (sweepEach (((armedNow w).map (·.2)).filter fun run =>
      ((w.statusOf run).map (·.terminal)).getD false) (armedNow w)) w := by
  have harmed : undisturbed i armedProfiles w = (.ok (armedNow w), w) := by
    exact undisturbed_armedAmong _
  unfold sweepArmed
  rw [undisturbed_bind, harmed]
  simp only
  by_cases hnone : armedNow w = []
  · rw [hnone]
    rfl
  · rw [if_neg hnone]
    rfl

theorem sweepArmed_spec (hU : Unmarked w)
    (hdirs : ∀ mac run, w.files mac .profileEnv = some run → mac ∈ w.dirs) :
    ∃ n w', undisturbed i sweepArmed w = (.ok n, w') ∧ Swept w w' ∧
      (∀ mac run, w.files mac .profileEnv = some run → w.files mac .ipxe ≠ none →
        Ended run w → w.sessions.holder (.mac mac) = none →
        w'.files mac .ipxe = none ∧ w'.files mac .profileEnv = none) ∧
      ∃ n', undisturbed i sweepArmed w' = (.ok n', w') := by
  obtain ⟨n, w', hrun, hswept, hgone⟩ := undisturbed_sweepEach
    (fun run hrun => terminal_iff_ended.1 (mem_filter.1 hrun).2) hU (armedNow w)
  have hdisarmed : ∀ mac run, w.files mac .profileEnv = some run → w.files mac .ipxe ≠ none →
      Ended run w → w.sessions.holder (.mac mac) = none →
      w'.files mac .ipxe = none ∧ w'.files mac .profileEnv = none := by
    intro mac run henv hipxe hended hfree
    have hmem : (mac, run) ∈ armedNow w :=
      mem_armedIn.2 ⟨mem_filter.2 ⟨hdirs mac run henv, by rw [henv]; rfl⟩, hipxe, henv⟩
    refine hgone mac run hmem ?_ henv hfree
    have hlisted : run ∈ (armedNow w).map (·.2) := mem_map.2 ⟨(mac, run), hmem, rfl⟩
    exact mem_filter.2 ⟨hlisted, terminal_iff_ended.2 hended⟩
  refine ⟨n, w', undisturbed_sweepArmed.trans hrun, hswept, hdisarmed, ?_⟩
  rw [undisturbed_sweepArmed]
  apply undisturbed_sweepEach_idle
  -- What is still armed for a run that has ended was so before, so its lock was held.
  intro mac run hmem hdone hfree
  obtain ⟨-, hipxe, henv⟩ := mem_armedIn.1 hmem
  have hended : Ended run w := hswept.ended.1 (terminal_iff_ended.1 (mem_filter.1 hdone).2)
  rw [hswept.sessions] at hfree
  rcases hswept.files mac with hsame | hnone
  · have henv' := henv
    have hipxe' := hipxe
    rw [hsame] at henv' hipxe'
    exact hipxe (hdisarmed mac run henv' hipxe' hended hfree).1
  · exact hipxe hnone.1

end

/-! ## Scripted runs -/

/-- Processes marked so cannot write a `profile.env`, and every run is old enough to time out. -/
def rough (unlucky : ι → Bool) (i : ι) : (o : FleetOp) → FleetWorld ι → FleetRes o × FleetWorld ι
  | .pendingRuns only, w => (some (w.pendingRows only fun _ => 100000), w)
  | .put mac .profileEnv run, w =>
    if unlucky i then (false, w) else calm i (.put mac .profileEnv run) w
  | o, w => calm i o w

theorem rough_sem (unlucky : ι → Bool) (i : ι) (o : FleetOp) (w : FleetWorld ι)
    (hok : calmOk i o w = true) :
    (fleetSystem ι).sem i o w (rough unlucky i o w).1 (rough unlucky i o w).2 := by
  have hcalm := calm_sem i o w hok
  have hi : i ∉ w.sessions.ended := hcalm.1
  cases o with
  | pendingRuns only => exact ⟨hi, .inr ⟨_, rfl⟩, rfl⟩
  | put mac f run =>
    cases f with
    | profileEnv =>
      cases hbad : unlucky i with
      | false =>
        simp only [rough, hbad]
        exact hcalm
      | true =>
        simp only [rough, hbad]
        exact ⟨hi, .inl ⟨rfl, rfl⟩⟩
    | _ => exact hcalm
  | _ => exact hcalm

inductive Worker where
  | one
  | two
  | three
  deriving DecidableEq

inductive FleetLine where
  | stage (i : Worker) (args : StageArgs)
  | tick (i : Worker)
  | acts (i : Worker) (n : Nat)
  | ends (i : Worker)

def FleetLine.cue : FleetLine → Cue Worker FleetOp FleetRes Unit
  | .stage i args => .begins i fun _ => some ((provStage args).run >>= fun _ => .ret ())
  | .tick i => .begins i fun _ => some ((provFinish ⟨21600, "6", 5⟩ none).run >>= fun _ => .ret ())
  | .acts i n => .acts i n
  | .ends i => .ends i

theorem FleetLine.legal (l : FleetLine) :
    System.Cue.Legal ((fleetSystem Worker).checked calmOk) l.cue := by
  cases l with
  | stage i args =>
    intro m p h
    cases h
    exact .stage args
  | tick i =>
    intro m p h
    cases h
    exact .finish _ none
  | acts | ends => trivial

def fleetBefore : Conf Worker FleetOp FleetRes (FleetWorld Worker) Unit where
  shared :=
    { sessions := .fresh, runs := fun _ => none, details := fun _ => "", nextRun := 1,
      files := fun _ _ => none, dirs := [], records := fun _ => none, opened := fun _ => none,
      acting := fun _ => none, wrote := fun _ => [], started := fun _ => [],
      published := fun _ => [], removals := [], cancels := [], staged := [], waiting := [],
      overlap := false, unguarded := false }
  procs _ := .idle ()

theorem fleetBefore_initial : (fleetSystem Worker).Initial FleetInitial fleetBefore := by
  refine ⟨?_, fun _ => ⟨(), trivial, rfl⟩⟩
  exact
    { runs := fun _ _ h => by cases h
      files := fun _ _ => rfl
      opened := fun _ => rfl
      wrote := fun _ => rfl
      started := fun _ => rfl
      published := fun _ => rfl
      removals := rfl
      cancels := rfl
      staged := rfl
      waiting := rfl
      unguarded := rfl }

def fleetPlay (unlucky : Worker → Bool) (script : List FleetLine) :
    Option (Conf Worker FleetOp FleetRes (FleetWorld Worker × Bool) Unit) :=
  System.play (System.flagged (rough unlucky) calmOk) (script.map FleetLine.cue)
    ⟨(fleetBefore.shared, true), fleetBefore.procs⟩

theorem fleetPlay_reached {unlucky : Worker → Bool} {script : List FleetLine}
    (hsome : (fleetPlay unlucky script).isSome = true)
    (hflag : ((fleetPlay unlucky script).get hsome).shared.2 = true) :
    (fleetSystem Worker).Steps fleetBefore
      (System.plain ((fleetPlay unlucky script).get hsome)) := by
  have hlegal : ∀ q ∈ script.map FleetLine.cue,
      System.Cue.Legal ((fleetSystem Worker).checked calmOk) q := by
    intro q hq
    obtain ⟨l, -, rfl⟩ := mem_map.1 hq
    exact l.legal
  exact System.steps_checked (System.steps_play (System.flagged_sem (rough_sem unlucky)) hlegal
    (Option.some_get hsome).symm) hflag

/-! ## The main result -/

/-- **No armed profile is lost or left behind.** From every reachable state an undisturbed sweep
disarms each profile that is armed for a run that has ended and whose lock is free; after that,
un-staging and sweeping change nothing. -/
theorem armed_profiles_kept {c c' : Conf ι FleetOp FleetRes (FleetWorld ι) Unit}
    (hc : (fleetSystem ι).Initial FleetInitial c) (hs : (fleetSystem ι).Steps c c') :
    (∀ e ∈ c'.shared.removals, e.Proper) ∧
    ∀ i mac run, c'.shared.files mac .profileEnv = some run → c'.shared.files mac .ipxe ≠ none →
      Ended run c'.shared → c'.shared.sessions.holder (.mac mac) = none →
      ∃ n w', undisturbed i sweepArmed c'.shared = (.ok n, w') ∧
        w'.files mac .ipxe = none ∧ w'.files mac .profileEnv = none ∧
        (∀ run' how, (undisturbed i (unstage run' mac how) w').2 = w') ∧
        (undisturbed i sweepArmed w').2 = w' := by
  have hinv := fleetSystem_invariant hc hs
  refine ⟨hinv.profiles.removals, fun i mac run henv hipxe hended hfree => ?_⟩
  have hU : Unmarked c'.shared := by
    intro m r how hr
    by_contra hmarked
    exact (hinv.profiles.marked m r how hmarked).2 hr
  obtain ⟨n, w', hrun, -, hgone, n', hagain⟩ := sweepArmed_spec hU hinv.profiles.dirs
  obtain ⟨hnoIpxe, hnoEnv⟩ := hgone mac run henv hipxe hended hfree
  refine ⟨n, w', hrun, hnoIpxe, hnoEnv, ?_, ?_⟩
  · exact fun run' how => undisturbed_unstage_absent how hnoEnv
  · rw [hagain]

def labMac : Mac := "52-54-00-12-34-56"

def staleScript : List FleetLine :=
  [.stage .one ⟨1, labMac⟩, .ends .one, .stage .two ⟨1, labMac⟩, .acts .two 4]

set_option maxRecDepth 20000

theorem staleScript_isSome : (fleetPlay (fun _ => false) staleScript).isSome = true := by
  decide +kernel

def staleAfter : Conf Worker FleetOp FleetRes (FleetWorld Worker) Unit :=
  System.plain ((fleetPlay (fun _ => false) staleScript).get staleScript_isSome)

theorem staleAfter_armed : (fleetSystem Worker).Steps fleetBefore staleAfter ∧
    staleAfter.shared.files labMac .ipxe = some 1 :=
  ⟨fleetPlay_reached staleScript_isSome (by decide +kernel), by decide +kernel⟩

/-- The first run is cancelled and its profile armed: a sweep disarms it. -/
theorem armed_profiles_kept_stale : staleAfter.shared.statusOf 1 = some .cancelled ∧
    staleAfter.shared.files labMac .ipxe = some 1 ∧
    ∃ n w', undisturbed .three sweepArmed staleAfter.shared = (.ok n, w') ∧
      w'.files labMac .ipxe = none ∧ (undisturbed .three sweepArmed w').2 = w' := by
  obtain ⟨hreached, hipxe⟩ := staleAfter_armed
  have hended : Ended 1 staleAfter.shared := by
    rw [← terminal_iff_ended]
    rfl
  obtain ⟨-, hsweep⟩ := armed_profiles_kept fleetBefore_initial hreached
  obtain ⟨n, w', hrun, hgone, -, -, hagain⟩ := hsweep .three labMac 1 (by decide +kernel)
    (by rw [hipxe]; exact Option.some_ne_none 1) hended (by decide +kernel)
  exact ⟨by decide +kernel, hipxe, n, w', hrun, hgone, hagain⟩

/-- **Profiles stay whole.**  Every change was made under the lock of the MAC, and a boot profile is
for the run that `profile.env` names, which was the last to be written there. -/
theorem profiles_whole (hc : (fleetSystem ι).Initial FleetInitial c)
    (hs : (fleetSystem ι).Steps c c') : c'.shared.unguarded = false ∧ ∀ mac run,
      (c'.shared.files mac .ipxe = some run → c'.shared.files mac .profileEnv = some run) ∧
      (c'.shared.files mac .profileEnv = some run → (c'.shared.wrote mac).head? = some run) := by
  have hinv := fleetSystem_invariant hc hs
  exact ⟨hinv.guarded, fun mac run => ⟨hinv.profiles.armed mac run, hinv.profiles.owner mac run⟩⟩

/-- The armed profile of the cancelled run is whole. -/
theorem profiles_whole_stale : staleAfter.shared.files labMac .ipxe = some 1 ∧
    staleAfter.shared.files labMac .profileEnv = some 1 ∧
    (staleAfter.shared.wrote labMac).head? = some 1 := by
  obtain ⟨hreached, hipxe⟩ := staleAfter_armed
  obtain ⟨henv, hwrote⟩ := (profiles_whole fleetBefore_initial hreached).2 labMac 1
  exact ⟨hipxe, henv hipxe, hwrote (henv hipxe)⟩

/-- Two machines have an interface with the same MAC.  The first is staged; the staging of the
second fails at its `profile.env`; the run of the first times out. -/
def sharedMacScript : List FleetLine :=
  [.stage .one ⟨1, labMac⟩, .ends .one, .stage .two ⟨2, labMac⟩, .ends .two, .tick .three,
    .ends .three]

theorem sharedMacScript_isSome :
    (fleetPlay (fun i => i == .two) sharedMacScript).isSome = true := by decide +kernel

def sharedMacAfter : Conf Worker FleetOp FleetRes (FleetWorld Worker) Unit :=
  System.plain ((fleetPlay (fun i => i == .two) sharedMacScript).get sharedMacScript_isSome)

/-- Run 2 removes the boot profile of run 1, which is running, and the clean-up for run 1 removes
what the later staging has published for run 2. -/
theorem replaced_while_live : (fleetSystem Worker).Initial FleetInitial fleetBefore ∧
    (fleetSystem Worker).Steps fleetBefore sharedMacAfter ∧
    (∃ e ∈ sharedMacAfter.shared.removals, e.owner = some 1 ∧ e.live = true ∧ e.onBehalf = some 2) ∧
    ∃ e ∈ sharedMacAfter.shared.removals, e.script = .clean 1 ∧ e.publishedFor = 2 := by
  refine ⟨fleetBefore_initial, fleetPlay_reached sharedMacScript_isSome (by decide +kernel), ?_, ?_⟩
  · decide +kernel
  · decide +kernel

end SolariNet.Fleet
