/-
# The provisioning programs keep the invariant

What a process knows is said as long as it lives (`Sessions.Alive`).  It is in one of three roles:

    stager r       `prov-stage.py` with its run `r` open
    finisher r     `prov-finish.py` with the lock of run `r`
    sweeper        anything else

and acts for the run of its role.  The clean-up of a run needs that role, or that the run has ended
(`runs_unstageProfile`); a staging that waits knows that its run is running and, once it has
superseded the others, that the runs before it have ended (`runs_stage`).
-/
import SolariNet.Deploy.FleetSystem

namespace SolariNet.Fleet

open Function List Lib Lib.Prog

variable {ι : Type} [DecidableEq ι]

/-! ## What a process knows -/

def fleetSetting (i : ι) : Setting FleetOp FleetRes (FleetWorld ι) :=
  ⟨fleetSem i, FleetRely i, FleetInv⟩

abbrev Alive (i : ι) (F : FleetWorld ι → Prop) : FleetWorld ι → Prop :=
  Sessions.Alive FleetWorld.sessions i F

abbrev Runs (i : ι) {α : Type} (P : FleetWorld ι → Prop) (x : FleetM α)
    (Q : α → FleetWorld ι → Prop) (E : FleetWorld ι → Prop) : Prop :=
  (fleetSetting i).Triple (Alive i P) x (fun a => Alive i (Q a)) fun _ => Alive i E

omit [DecidableEq ι] in
def Lasting (i : ι) (F : FleetWorld ι → Prop) : Prop :=
  ∀ w w', i ∉ w'.sessions.ended → FleetRely i w w' → FleetInv w' → F w → F w'

section
variable {i : ι} {α β : Type} {F G P E : FleetWorld ι → Prop}

theorem Lasting.stable (h : Lasting i F) : (fleetSetting i).Stable (Alive i F) :=
  Sessions.stable_alive (fun _ _ hR => hR.sessions) h

section
omit [DecidableEq ι]

theorem Lasting.and (hF : Lasting i F) (hG : Lasting i G) : Lasting i fun w => F w ∧ G w :=
  fun w w' hi hR hI h => ⟨hF w w' hi hR hI h.1, hG w w' hi hR hI h.2⟩

theorem lasting_true : Lasting i fun _ => True := fun _ _ _ _ _ _ => trivial

end

variable {o : FleetOp} {Q : FleetRes o → FleetWorld ι → Prop} {x : FleetM α} {e : FleetErr}

section
variable (hP : Lasting i P)
include hP

theorem triple_op {E : FleetErr → FleetWorld ι → Prop}
    (h : ∀ w a w', P w → FleetInv w → fleetSem i o w a w' → FleetInv w' ∧ Q a w') :
    (fleetSetting i).Triple (Alive i P) (act o) (fun a => Alive i (Q a)) E :=
  Sessions.triple_alive hP.stable (fun _ _ _ ho => ho.1) h

theorem runs_op (h : ∀ w a w', P w → FleetInv w → fleetSem i o w a w' → FleetInv w' ∧ Q a w') :
    Runs i P (act o) Q E := triple_op hP h

theorem runs_mild (ho : o.mild = true) (hQ : ∀ w a d q ds, P w → FleetInv w →
      fleetSem i o w a { w with details := d, records := q, dirs := ds } →
      Q a { w with details := d, records := q, dirs := ds }) :
    Runs i P (act o) (fun a w => P w ∧ Q a w) E := by
  refine runs_op hP fun w a w' hw hI hs => ?_
  obtain ⟨d, q, ds, hds, rfl⟩ := fleetSem_mild ho hs
  have hI' := hI.mild d q hds
  exact ⟨hI', hP w _ hs.1 (.mild d q ds) hI' hw, hQ w a d q ds hw hI hs⟩

theorem runs_any (ho : o.mild = true) : Runs i P (act o) (fun _ => P) E :=
  (runs_mild (Q := fun _ _ => True) hP ho fun _ _ _ _ _ _ _ _ => trivial).post
    fun _ _ h hi => (h hi).1

end

variable {Q : α → FleetWorld ι → Prop}

theorem Runs.weaken {E' : FleetWorld ι → Prop} (h : Runs i P x Q E)
    (hE : ∀ w, E w → E' w) : Runs i P x Q E' :=
  h.raises fun _ w he hi => hE w (he hi)

theorem runs_pre (h : Runs i P x Q E) (hP : ∀ w, F w → P w) :
    Runs i F x Q E := h.pre fun w hw hi => hP w (hw hi)

theorem runs_post {Q' : α → FleetWorld ι → Prop} (h : Runs i P x Q E) (hQ : ∀ a w, Q a w → Q' a w) :
    Runs i P x Q' E := h.post fun a w hw hi => hQ a w (hw hi)

theorem runs_pure {a : α} (h : ∀ w, P w → Q a w) :
    Runs i P (pure a : FleetM α) Q E := .pure fun w hw hi => h w (hw hi)

theorem runs_throw (h : ∀ w, P w → E w) :
    Runs i P (throw e : FleetM α) Q E := .throw fun w hw hi => h w (hw hi)

variable {c : Prop}

theorem runs_require [Decidable c] (hE : ∀ w, P w → E w) :
    Runs i P (Call.require c e) (fun _ w => P w ∧ c) E :=
  .require (fun _ hw hc hi => ⟨hw hi, hc⟩) fun w hw _ hi => hE w (hw hi)

theorem runs_getOr {o : Option α} {Q : Option α → FleetWorld ι → Prop} (hE : ∀ w, Q none w → E w) :
    Runs i (Q o) (Call.getOr o e) (fun a => Q (some a)) E := by
  cases o with
  | none => exact runs_throw hE
  | some a => exact runs_pure fun _ hw => hw

theorem runs_given (h : c → Runs i P x Q E) : Runs i (fun w => P w ∧ c) x Q E :=
  Sessions.triple_given (fun _ _ hR => hR.sessions) (fun _ _ _ _ ho => ho.1) h

theorem runs_probe {x : FleetM (Option Bool)} {Q : Option Bool → FleetWorld ι → Prop}
    (hx : Runs i P x Q E) (hE : ∀ w, Q none w → E w) :
    Runs i P (probe e x) (fun b => Q (some b)) E :=
  hx.bind fun _ => runs_getOr hE

theorem runs_command {x : FleetM Bool} {Q : Bool → FleetWorld ι → Prop} (hx : Runs i P x Q E)
    (hE : ∀ w, Q false w → E w) : Runs i P (command e x) (fun _ => Q true) E := by
  refine hx.bind fun b => ?_
  cases b with
  | false => exact .require (fun _ _ hc => by cases hc) fun w hw _ hi => hE w (hw hi)
  | true => exact .require (fun _ hw _ => hw) fun _ _ hc => absurd rfl hc

theorem runs_keep {x : FleetM Bool} (hx : Runs i P x (fun _ => P) E) (hE : ∀ w, P w → E w) :
    Runs i P (command e x) (fun _ => P) E :=
  runs_command (Q := fun _ => P) hx hE

end

/-! ## Roles -/

inductive Role where
  | stager (run : RunId)
  | finisher (run : RunId)
  | sweeper

def Role.At (i : ι) : Role → FleetWorld ι → Prop
  | .stager run, w => w.opened run = some i ∧ w.acting i = some run
  | .finisher run, w => w.sessions.holder (.finish run) = some i ∧ w.acting i = some run
  | .sweeper, _ => True

def Role.run : Role → Option RunId
  | .stager run | .finisher run => some run
  | .sweeper => none

omit [DecidableEq ι] in
def Ended (run : RunId) (w : FleetWorld ι) : Prop :=
  ∃ row, w.runs run = some row ∧ row.status.terminal = true

section
variable {i : ι} {role : Role} {run : RunId} {mac : Mac} {w w' : FleetWorld ι}

section
omit [DecidableEq ι]

theorem lasting_role : Lasting i (role.At i) := by
  intro w w' hi hR _ h
  cases role with
  | stager run => exact ⟨hR.opened run h.1, hR.acting.trans h.2⟩
  | finisher run => exact ⟨hR.sessions.held _ hi h.1, hR.acting.trans h.2⟩
  | sweeper => trivial

theorem lasting_ended : Lasting i (Ended (ι := ι) run) := by
  rintro w w' - hR - ⟨row, hrow, ht⟩
  obtain ⟨row', hrow', -, hfinal⟩ := hR.rows run row hrow
  cases hfinal ht
  exact ⟨row, hrow', ht⟩

theorem Ended.live (h : Ended run w) : w.live run = false := by
  obtain ⟨row, hrow, ht⟩ := h
  simp [FleetWorld.live, FleetWorld.statusOf, hrow, ht]

theorem Role.At.acting (h : role.At i w) (hrun : role.run = some run) : w.acting i = some run := by
  cases role with
  | stager r | finisher r =>
    cases hrun
    exact h.2
  | sweeper => cases hrun

theorem Role.At.same (h : role.At i w) (hs : w'.sessions = w.sessions) (ho : w'.opened = w.opened)
    (ha : w'.acting = w.acting) : role.At i w' := by
  cases role with
  | stager r => exact ⟨ho ▸ h.1, ha ▸ h.2⟩
  | finisher r => exact ⟨hs ▸ h.1, ha ▸ h.2⟩
  | sweeper => trivial

end

theorem Role.At.getLock (h : role.At i w) : role.At i (w.getLock i (.mac mac)) := by
  cases role with
  | stager r => exact h
  | finisher r =>
    refine ⟨?_, h.2⟩
    simp only [FleetWorld.getLock, Sessions.acquire]
    exact (update_of_ne (by simp) _ _).trans h.1
  | sweeper => trivial

theorem Role.At.releaseLock (h : role.At i w) : role.At i (w.releaseLock i (.mac mac)) := by
  cases role with
  | stager r => exact h
  | finisher r =>
    refine ⟨?_, h.2⟩
    simp only [FleetWorld.releaseLock, Sessions.release]
    exact (update_of_ne (by simp) _ _).trans h.1
  | sweeper => trivial

/-! ## Under the lock of a MAC -/

variable {α : Type} {body : FleetM α} {E P : FleetWorld ι → Prop} {own : Option RunId}
  {row : PendingRow} {shown : String} {Q : α → FleetWorld ι → Prop}

theorem runs_macLock {E₀ : FleetWorld ι → Prop} {Q₀ : α → FleetWorld ι → Prop} (hP : Lasting i P)
    (hlock : ∀ w, P w → P (w.getLock i (.mac mac))) (hPE : ∀ w, P w → E w)
    (hbody : Runs i (fun w => w.sessions.holder (.mac mac) = some i ∧ P w) body Q₀ E₀)
    (hQ₀ : ∀ a, Lasting i (Q₀ a)) (hE₀ : Lasting i E₀)
    (hQ : ∀ a w, Q₀ a w → Q a (w.releaseLock i (.mac mac)))
    (hE : ∀ w, E₀ w → E (w.releaseLock i (.mac mac))) : Runs i P (macLock mac shown body) Q E := by
  have hget : Runs i P (act (.getLock (.mac mac)))
      (fun a w => P w ∧ (a = .got → w.sessions.holder (.mac mac) = some i)) E := by
    refine runs_op hP fun w a w' hw hI hs => ?_
    obtain ⟨hlive, ⟨hne, rfl⟩ | ⟨-, hfree, rfl⟩⟩ := hs
    · exact ⟨hI, hw, fun hgot => absurd hgot hne⟩
    · exact ⟨hI.locks _ _, hlock w hw, fun _ => (Sessions.acquire_holds hlive).2⟩
  refine hget.bind fun a => ?_
  cases a with
  | got =>
    refine (Setting.Triple.after hbody (fun a => (hQ₀ a).stable) (fun _ => hE₀.stable)
      fun w a w' hI hs => ?_).pre fun w h hi => ⟨(h hi).2 rfl, (h hi).1⟩
    obtain ⟨hlive, rfl⟩ := hs
    exact ⟨hI.locks _ _, fun a h _ => hQ a w (h hlive), fun _ h _ => hE w (h hlive)⟩
  | refused | error => exact runs_throw fun w h => hPE w h.1

def Locked (i : ι) (role : Role) (mac : Mac) (w : FleetWorld ι) : Prop :=
  w.sessions.holder (.mac mac) = some i ∧ role.At i w

section
omit [DecidableEq ι]

theorem lasting_held : Lasting i fun w : FleetWorld ι => w.sessions.holder (.mac mac) = some i :=
  fun _ _ hi hR _ h => hR.sessions.held _ hi h

theorem lasting_locked_role : Lasting i (Locked i role mac) := lasting_held.and lasting_role

end

def Due (role : Role) (run : RunId) (w : FleetWorld ι) : Prop :=
  role.run = some run ∨ Ended run w

omit [DecidableEq ι] in
theorem lasting_due : Lasting i (Due (ι := ι) role run) := by
  intro w w' hi hR hI h
  rcases h with h | h
  · exact .inl h
  · exact .inr (lasting_ended w w' hi hR hI h)

structure Cleaning (i : ι) (role : Role) (mac : Mac) (run : RunId) (w : FleetWorld ι) : Prop where
  locked : Locked i role mac w
  due : Due role run w
  owner : w.files mac .profileEnv = some run

section
omit [DecidableEq ι]

theorem lasting_cleaning : Lasting i (Cleaning i role mac run) := by
  intro w w' hi hR hI h
  obtain ⟨hf, -⟩ := hR.files mac hi h.locked.1
  exact ⟨lasting_locked_role w w' hi hR hI h.locked, lasting_due w w' hi hR hI h.due,
    (congrFun hf _).trans h.owner⟩

theorem Cleaning.proper (h : Cleaning i role mac run w) (hI : FleetInv w) {fs : List File} :
    ∀ e ∈ w.removed i (.clean run) mac fs, e.Proper := by
  refine removed_clean hI h.owner ?_
  rcases h.due with hrun | hended
  · exact .inl (h.locked.2.acting hrun)
  · exact .inr hended.live

end

theorem runs_clean {fs : List File} (hfs : File.profileEnv ∉ fs) :
    Runs i (Cleaning i role mac run) (act (.rm (.clean run) mac fs))
      (fun done w => Cleaning i role mac run w ∧
        (done = true → ∀ f ∈ fs, w.files mac f = none)) E := by
  refine runs_op lasting_cleaning fun w a w' hw hI hs => ?_
  obtain ⟨-, ⟨rfl, rfl⟩ | ⟨rfl, rfl⟩⟩ := hs
  · exact ⟨hI, hw, fun h => by cases h⟩
  refine ⟨hI.remove hw.locked.1 hfs (hw.proper hI),
    ⟨⟨hw.locked.1, hw.locked.2.same rfl rfl rfl⟩, hw.due, ?_⟩, fun _ f hf => ?_⟩
  · simp only [FleetWorld.remove, update_self, if_neg hfs]
    exact hw.owner
  · simp only [FleetWorld.remove, update_self, if_pos hf]

theorem runs_keepIpxe (how : How) : Runs i (Cleaning i role mac run) (keepIpxe run mac how)
      (fun _ => Cleaning i role mac run) (Cleaning i role mac run) := by
  unfold keepIpxe
  split
  · refine .bind (runs_probe (runs_any lasting_cleaning rfl) fun _ h => h) fun b => ?_
    split
    · refine runs_keep (runs_op lasting_cleaning fun w a w' hw hI hs => ?_) fun _ h => h
      obtain ⟨-, ⟨-, rfl⟩ | ⟨-, -, rfl⟩⟩ := hs
      · exact ⟨hI, hw⟩
      refine ⟨hI.moveIpxe hw.locked.1 (hw.proper hI),
        ⟨⟨hw.locked.1, hw.locked.2.same rfl rfl rfl⟩, hw.due, ?_⟩⟩
      simp only [FleetWorld.move, update_self]
      exact hw.owner
    · exact runs_pure fun _ h => h
  · exact runs_pure fun _ h => h

theorem runs_removeProfile (how : How) :
    Runs i (Cleaning i role mac run) (removeProfile run mac how)
      (fun _ => Locked i role mac) (Locked i role mac) := by
  have hraise (w : FleetWorld ι) (h : Cleaning i role mac run w) : Locked i role mac w := h.locked
  refine .bind ((runs_keepIpxe how).weaken hraise) fun _ => ?_
  refine .bind (runs_command (runs_clean (by simp)) fun w h => h.1.locked) fun _ => ?_
  -- the boot profile is gone, and stays so under the lock
  have hgone : Lasting i fun w : FleetWorld ι =>
      Cleaning i role mac run w ∧ w.files mac .ipxe = none := by
    intro w w' hi hR hI h
    obtain ⟨hf, -⟩ := hR.files mac hi h.1.locked.1
    exact ⟨lasting_cleaning w w' hi hR hI h.1, (congrFun hf _).trans h.2⟩
  refine .bind (Q := fun _ => Alive i fun w =>
    Cleaning i role mac run w ∧ w.files mac .ipxe = none) ?_ fun _ => ?_
  · refine runs_pre (P := fun w => Cleaning i role mac run w ∧ w.files mac .ipxe = none) ?_
      fun w h => ⟨h.1, h.2 rfl .ipxe (by simp)⟩
    refine runs_keep (runs_op hgone fun w a w' hw hI hs => ?_) fun w h => h.1.locked
    obtain ⟨-, ⟨-, rfl⟩ | ⟨-, rfl⟩⟩ := hs
    · exact ⟨hI, hw⟩
    obtain ⟨hw, hipxe⟩ := hw
    refine ⟨hI.remove hw.locked.1 (by simp) (hw.proper hI),
      ⟨⟨hw.locked.1, hw.locked.2.same rfl rfl rfl⟩, hw.due, ?_⟩, ?_⟩
    · simpa [FleetWorld.remove] using hw.owner
    · simpa [FleetWorld.remove] using hipxe
  · refine .bind (Q := fun _ => Alive i (Locked i role mac))
      (runs_command (Q := fun _ => Locked i role mac) (runs_op hgone fun w a w' hw hI hs => ?_)
        fun _ h => h) fun _ => runs_pure fun _ h => h
    obtain ⟨-, ⟨-, rfl⟩ | ⟨-, -, rfl⟩⟩ := hs
    · exact ⟨hI, hw.1.locked⟩
    obtain ⟨hw, hipxe⟩ := hw
    exact ⟨hI.moveEnv hw.locked.1 hw.owner hipxe (hw.proper hI), hw.locked.1,
      hw.locked.2.same rfl rfl rfl⟩

/-- **Clean-up.**  A process un-stages its own run, or one that has ended. -/
theorem runs_unstageProfile (how : How) :
    Runs i (fun w => Locked i role mac w ∧ Due role run w) (unstageProfile run mac how)
      (fun _ => Locked i role mac) (Locked i role mac) := by
  have hlasting : Lasting i fun w => Locked i role mac w ∧ Due role run w :=
    lasting_locked_role.and lasting_due
  have htest {f : File} : Runs i (fun w => Locked i role mac w ∧ Due role run w)
      (probe (unstagingFailed mac) (act (.test mac f)))
      (fun _ w => Locked i role mac w ∧ Due role run w) (Locked i role mac) :=
    runs_probe (Q := fun _ w => Locked i role mac w ∧ Due role run w) (runs_any hlasting rfl)
      fun _ h => h.1
  refine .bind htest fun b => ?_
  split
  · exact runs_pure fun _ h => h.1
  refine .bind htest fun b => ?_
  split
  · exact runs_pure fun _ h => h.1
  refine .bind htest fun b => ?_
  split
  · refine .bind (runs_probe (runs_mild
      (Q := fun a w => a = some true → w.files mac .profileEnv = some run) hlasting rfl
      fun w a d q ds hw hI hs ha => ?_) fun _ h => h.1.1) fun b => ?_
    · obtain ⟨-, rfl | rfl, -⟩ := hs
      · cases ha
      · exact of_decide_eq_true (Option.some.inj ha)
    · split
      · next hb =>
        refine runs_pre (runs_removeProfile how) fun w h => ⟨h.1.1, h.1.2, h.2 ?_⟩
        rw [hb]
      · exact runs_pure fun _ h => h.1.1
  · exact runs_pure fun _ h => h.1

/-! ## In a role -/

abbrev Stays (i : ι) (role : Role) (x : FleetM α) : Prop :=
  Runs i (role.At i) x (fun _ => role.At i) (role.At i)

theorem stays_any (ho : o.mild = true) : Stays i role (act o) :=
  runs_any lasting_role ho

theorem stays_bind {β : Type} {f : α → FleetM β} (hx : Stays i role x)
    (hf : ∀ a, Stays i role (f a)) : Stays i role (x >>= f) := .bind hx hf

theorem stays_pure {a : α} : Stays i role (pure a : FleetM α) := runs_pure fun _ h => h

theorem stays_throw : Stays i role (throw e : FleetM α) := runs_throw fun _ h => h

theorem stays_require {c : Prop} [Decidable c] : Stays i role (Call.require c e : FleetM Unit) :=
  runs_post (runs_require fun _ h => h) fun _ _ h => h.1

theorem stays_getOr {o : Option α} : Stays i role (Call.getOr o e : FleetM α) :=
  runs_getOr (Q := fun _ => role.At i) fun _ h => h

theorem stays_tryCatch {f : FleetErr → FleetM α} (hx : Stays i role x)
    (hf : ∀ e, Stays i role (f e)) : Stays i role (tryCatch x f) := hx.tryCatch hf

theorem stays_command (hx : Stays i role x) : Stays i role (command e x) :=
  runs_keep hx fun _ h => h

theorem stays_probe {x : FleetM (Option Bool)} (hx : Stays i role x) : Stays i role (probe e x) :=
  runs_probe (Q := fun _ => role.At i) hx fun _ h => h

theorem stays_macLock
    (hbody : Runs i (Locked i role mac) body (fun _ => Locked i role mac) (Locked i role mac)) :
    Stays i role (macLock mac shown body) :=
  runs_macLock lasting_role (fun _ h => h.getLock) (fun _ h => h) hbody
    (fun _ => lasting_locked_role) lasting_locked_role (fun _ _ h => h.2.releaseLock)
    fun _ h => h.2.releaseLock

theorem stays_advanceRun (hrun : role.run = some run) (status : RunStatus) (detail : String) :
    Stays i role (advanceRun run status detail) := by
  refine stays_bind (runs_op lasting_role fun w a w' hw hI hs => ?_) fun a => ?_
  · obtain ⟨-, ⟨-, rfl⟩ | ⟨-, -, rfl⟩ |
      ⟨row, hrow, ⟨-, -, rfl⟩ | ⟨hf, ⟨-, rfl⟩ | ⟨-, -, rfl⟩⟩⟩⟩ := hs
    · exact ⟨hI, hw⟩
    · exact ⟨hI, hw⟩
    · exact ⟨hI, hw⟩
    · refine ⟨hI.advance hrow hf ?_ fun _ own _ hact hne => ?_, hw.same rfl rfl rfl⟩
      · cases role with
        | stager r | finisher r =>
          cases hrun
          simp [FleetWorld.mayMove, hw.1]
        | sweeper => cases hrun
      · exact absurd (Option.some.inj (hact.symm.trans (hw.acting hrun))) hne
    · exact ⟨hI, hw⟩
  · cases a with
    | done => exact stays_pure
    | missing | notForward | refused | error => exact stays_throw

theorem stays_unstage (hrun : role.run = some run) (how : How) :
    Stays i role (unstage run mac how) :=
  stays_macLock (runs_pre (runs_unstageProfile how) fun _ h => ⟨h, .inl hrun⟩)

theorem runs_isStale (hown : ∀ r, own = some r → role.run = some r) :
    Runs i (Locked i role mac) (isStale owner own)
      (fun stale w => Locked i role mac w ∧ (stale = true → Due role owner w))
      (Locked i role mac) := by
  unfold isStale
  split
  · next heq => exact runs_pure fun _ h => ⟨h, fun _ => .inl (hown owner heq)⟩
  refine .bind (Q := fun a => Alive i fun w => Locked i role mac w ∧
    ∀ status, a = some status → status.terminal = true → Ended owner w) ?_ fun a => ?_
  · refine .bind (runs_mild (Q := fun a w => ∀ status, a = some (some status) →
      status.terminal = true → Ended owner w) lasting_locked_role rfl ?_) fun a => ?_
    · intro w a d q ds hw hI hs status ha ht
      obtain ⟨-, rfl | rfl, -⟩ := hs
      · cases ha
      · obtain ⟨row, hrow, rfl⟩ := Option.map_eq_some_iff.1 (Option.some.inj ha)
        exact ⟨row, hrow, ht⟩
    · cases a with
      | none => exact runs_throw fun _ h => h.1
      | some a =>
        exact runs_pure fun _ h => ⟨h.1, fun status ha => h.2 status (congrArg some ha)⟩
  · cases a with
    | none => exact runs_pure fun _ h => ⟨h.1, fun hf => by cases hf⟩
    | some status => exact runs_pure fun _ h => ⟨h.1, fun ht => .inr (h.2 status rfl ht)⟩

theorem stays_disarmStaleProfile (hown : ∀ r, own = some r → role.run = some r) :
    Stays i role (disarmStaleProfile mac own) := by
  refine stays_macLock ?_
  refine .bind (Q := fun _ => Alive i (Locked i role mac)) ?_ fun owner => ?_
  · exact .bind (runs_any lasting_locked_role rfl) fun a =>
      runs_getOr (Q := fun _ => Locked i role mac) fun _ h => h
  cases owner with
  | none => exact runs_pure fun _ h => h
  | some owner =>
    refine .bind (runs_isStale hown) fun stale => ?_
    cases stale with
    | false => exact runs_pure fun _ h => h.1
    | true =>
      refine .bind (runs_pre (runs_unstageProfile .disarm) fun w h =>
        ⟨h.1, h.2 rfl⟩) fun _ => ?_
      exact runs_pure fun _ h => h

/-! ## `prov-finish.py` -/

theorem stays_finish (hrun : role.run = some run) (status : RunStatus) (detail : String) :
    Stays i role (finish run status detail) := by
  refine stays_tryCatch (stays_advanceRun hrun status detail) fun e => ?_
  cases e with
  | prov | macBusy => exact stays_pure
  | retry | superseded | other => exact stays_throw

theorem stays_setDetail (detail : String) : Stays i role (setDetail run detail) :=
  stays_command (stays_any rfl)

theorem stays_passed {g : Gate α} : Stays i role (passed g) := by
  cases g with
  | ran a => exact stays_pure
  | stopped status =>
    cases status with
    | none | some => exact stays_throw
  | error => exact stays_throw

theorem stays_applyStacks (rec : Record) (suffix : String) :
    Stays i role (applyStacks rec run suffix) := by
  refine stays_bind (stays_any rfl) fun _ => stays_bind stays_passed fun _ => ?_
  refine stays_bind stays_require fun _ => ?_
  refine stays_bind (stays_any rfl) fun _ => stays_bind stays_passed fun _ => ?_
  refine stays_bind stays_getOr fun _ => stays_bind stays_require fun _ => ?_
  refine stays_bind (stays_any rfl) fun _ => stays_bind stays_passed fun _ => ?_
  refine stays_bind stays_require fun _ => ?_
  exact stays_bind (stays_any rfl) fun _ => stays_bind stays_passed fun _ => stays_require

section
variable (hrun : role.run = some run)
include hrun

theorem stays_complete (rec : Record) (suffix : String) :
    Stays i role (complete rec run suffix) := by
  refine stays_bind (stays_any rfl) fun _ => stays_bind stays_passed fun _ => ?_
  refine stays_bind (stays_tryCatch (stays_unstage hrun .finish) fun e => ?_) fun _ =>
    stays_bind stays_require fun _ => stays_applyStacks rec suffix
  cases e with
  | prov | macBusy | retry | superseded | other => exact stays_throw

theorem stays_retry (cfg : FinishConfig) (n : Nat) (why : String) :
    Stays i role (retry cfg run n why) := by
  unfold retry
  split
  · exact stays_bind (stays_finish hrun _ _) fun _ => stays_pure
  · exact stays_bind (stays_setDetail _) fun _ => stays_pure

theorem stays_completeRun (cfg : FinishConfig) (rec : Record)
    (started : Nat) : Stays i role (completeRun cfg rec run started) := by
  refine stays_bind (stays_tryCatch (stays_bind (stays_complete hrun rec _) fun _ => stays_pure)
    fun e => ?_) fun ended => ?_
  · refine stays_bind ?_ fun _ => stays_pure
    cases e with
    | macBusy => exact stays_bind (stays_setDetail _) fun _ => stays_pure
    | superseded => exact stays_bind (stays_finish hrun _ _) fun _ => stays_pure
    | retry why => exact stays_retry hrun cfg _ why
    | prov | other => exact stays_throw
  · cases ended with
    | some => exact stays_pure
    | none =>
      exact stays_bind (stays_finish hrun _ _) fun _ => stays_bind (stays_any rfl) fun _ =>
        stays_pure

theorem stays_probeRun (cfg : FinishConfig) (rec : Record)
    (installed : Bool) (started : Nat) : Stays i role (probeRun cfg rec run installed started) := by
  unfold probeRun
  split
  · exact stays_bind (stays_finish hrun _ _) fun _ => stays_pure
  refine stays_bind ?_ fun _ => ?_
  · unfold countAttempt
    split
    · exact stays_setDetail _
    · exact stays_pure
  · refine stays_bind (stays_any rfl) fun _ => stays_bind stays_getOr fun marker => ?_
    split
    · exact stays_completeRun hrun cfg rec started
    split
    · exact stays_retry hrun cfg _ _
    · exact stays_pure

end

theorem stays_process (hrun : role.run = some row.id) (cfg : FinishConfig) :
    Stays i role (process cfg row) := by
  unfold process
  simp only
  split
  · exact stays_pure
  refine stays_bind (stays_any rfl) fun a => ?_
  cases a with
  | unreadable => exact stays_throw
  | malformed | absent => exact stays_bind (stays_finish hrun _ _) fun _ => stays_pure
  | found rec =>
    simp only
    split
    · exact stays_bind (stays_finish hrun _ _) fun _ => stays_pure
    split
    · exact stays_bind (stays_unstage hrun .disarm) fun _ =>
        stays_bind (stays_finish hrun _ _) fun _ => stays_pure
    · exact stays_probeRun hrun cfg rec _ _

omit [DecidableEq ι] in
theorem pendingRows_id {age : RunId → Nat} (h : row ∈ w.pendingRows (some only) age) :
    row.id = only := by
  obtain ⟨r, -, hr⟩ := mem_filterMap.1 h
  split at hr
  · cases hr
  split at hr
  · next hc =>
    cases hr
    simpa [eq_comm] using hc.2.2
  · cases hr

theorem runs_fresh : Runs i (role.At i) (pendingRuns (some run))
      (fun rows w => role.At i w ∧ ∀ row ∈ rows, row.id = run) (role.At i) := by
  refine .bind (runs_mild (Q := fun a _ => ∀ rows, a = some rows →
    ∀ row ∈ rows, row.id = run) lasting_role rfl
    fun w a d q ds hw hI hs rows ha row hmem => ?_) fun a => ?_
  · obtain ⟨-, rfl | ⟨age, rfl⟩, -⟩ := hs
    · cases ha
    · cases ha
      exact pendingRows_id hmem
  · cases a with
    | none => exact runs_throw fun _ h => h.1
    | some rows => exact runs_pure fun _ h => ⟨h.1, h.2 rows rfl⟩

theorem stays_processLocked (cfg : FinishConfig) :
    Stays i (.finisher run) (processLocked cfg run) := by
  refine stays_tryCatch ?_ fun e => ?_
  · refine .bind runs_fresh fun rows => runs_given fun hrows => ?_
    cases rows with
    | nil => exact stays_pure
    | cons fresh rest =>
      obtain rfl : fresh.id = run := hrows fresh mem_cons_self
      exact stays_bind (stays_process rfl cfg) fun _ => stays_pure
  · cases e with
    | macBusy | prov | retry | superseded | other => exact stays_pure

theorem stays_withRun (cfg : FinishConfig) : Runs i (Role.At i (.finisher run))
      (Call.after (processLocked cfg run) (.releaseLock (.finish run)))
      (fun _ => Role.At i .sweeper) (Role.At i .sweeper) := by
  refine .after (stays_processLocked cfg) (fun _ => lasting_role.stable)
    (fun _ => lasting_role.stable) fun w a w' hI hs => ?_
  obtain ⟨-, rfl⟩ := hs
  exact ⟨hI.locks _ _, fun _ _ _ => trivial, fun _ _ _ => trivial⟩

theorem stays_processEach (cfg : FinishConfig) (rows : List PendingRow) :
    Stays i .sweeper (processEach cfg rows) := by
  induction rows with
  | nil => exact stays_pure
  | cons row rows ih =>
    refine .bind (Q := fun a => Alive i fun w =>
      a = .got → Role.At i (.finisher row.id) w) (runs_op lasting_role ?_) fun a => ?_
    · intro w a w' hw hI hs
      obtain ⟨hlive, ⟨hne, rfl⟩ | ⟨-, hfree, rfl⟩⟩ := hs
      · exact ⟨hI, fun h => absurd h hne⟩
      · refine ⟨hI.locks _ _, fun _ => ⟨(Sessions.acquire_holds hlive).2, ?_⟩⟩
        simp only [FleetWorld.getLock, update_self]
    · cases a with
      | error => exact runs_throw fun _ _ => trivial
      | refused => exact runs_pre ih fun _ _ => trivial
      | got =>
        refine .bind (runs_pre (stays_withRun cfg) fun _ h => h rfl) fun _ => ?_
        exact stays_bind ih fun _ => stays_pure

theorem stays_armedAmong (macs : List Mac) : Stays i role (armedAmong macs) := by
  induction macs with
  | nil => exact stays_pure
  | cons mac macs ih =>
    refine stays_bind ?_ fun owner => stays_bind ih fun rest => ?_
    · refine stays_bind (stays_probe (stays_any rfl)) fun b => ?_
      split
      · refine stays_bind (stays_probe (stays_any rfl)) fun b => ?_
        split
        · exact stays_bind (stays_any rfl) fun _ => stays_getOr
        · exact stays_pure
      · exact stays_pure
    · cases owner with
      | none | some => exact stays_pure

theorem stays_sweepEach (done : List RunId) (armed : List (Mac × RunId)) :
    Stays i role (sweepEach done armed) := by
  induction armed with
  | nil => exact stays_pure
  | cons entry armed ih =>
    unfold sweepEach
    split
    · refine stays_bind (stays_tryCatch (stays_disarmStaleProfile fun r h => by cases h)
        fun e => ?_) fun _ => stays_bind ih fun _ => stays_pure
      cases e with
      | macBusy => exact stays_pure
      | prov | retry | superseded | other => exact stays_throw
    · exact ih

theorem stays_sweepArmed : Stays i role sweepArmed := by
  refine stays_bind (stays_bind (stays_any rfl) fun _ => stays_bind stays_getOr fun _ =>
    stays_armedAmong _) fun armed => ?_
  split
  · exact stays_pure
  · exact stays_bind (stays_any rfl) fun _ => stays_bind stays_getOr fun _ => stays_sweepEach _ _

theorem runs_close (hx : Runs i P x Q E) :
    Runs i P (Call.after x .close) (fun _ _ => True) fun _ => True := by
  refine .after (R := fun _ _ => True) (F := fun _ _ => True)
    ((hx.post fun _ _ _ => trivial).raises fun _ _ _ => trivial) (fun _ _ _ _ _ _ => trivial)
    (fun _ _ _ _ _ _ => trivial) fun w a w' hI hs => ?_
  obtain ⟨-, rfl⟩ := hs
  exact ⟨hI.stop, fun _ _ _ => trivial, fun _ _ _ => trivial⟩

theorem runs_provFinish (cfg : FinishConfig) (only : Option RunId) :
    Runs i (Role.At i .sweeper) (provFinish cfg only) (fun _ _ => True) fun _ => True := by
  refine runs_close (Q := fun _ => Role.At i .sweeper) (E := Role.At i .sweeper) ?_
  refine stays_bind (stays_bind (stays_any rfl) fun _ => stays_getOr) fun rows => ?_
  refine stays_bind (stays_processEach cfg rows) fun rc => ?_
  exact stays_tryCatch (stays_bind stays_sweepArmed fun _ => stays_pure) fun _ => stays_pure

end

/-! ## `prov-stage.py` -/

section
omit [DecidableEq ι]

abbrev AtStager (job : Job ι) : FleetWorld ι → Prop := Role.At job.proc (.stager job.run)

structure Known (job : Job ι) (w : FleetWorld ι) : Prop where
  next : job.run < w.nextRun
  row : ∃ row, w.runs job.run = some row ∧ row.entity = job.entity

/-- The staging waits: its run is running, and it has written nothing yet. -/
structure Ahead (job : Job ι) (w : FleetWorld ι) : Prop where
  role : AtStager job w
  waits : job ∈ w.waiting
  unwritten : ∀ mac, job.run ∉ w.wrote mac
  running : w.overlap = false → w.statusOf job.run = some .running

/-- Of the other runs of the machine, those in the list are to be cancelled; the ones before the run
of the staging that are not in the list have ended. -/
structure Superseding (job : Job ι) (olds : List RunId) (w : FleetWorld ι) : Prop where
  ahead : Ahead job w
  known : Known job w
  others : ∀ old ∈ olds, old ≠ job.run ∧ ∃ row, w.runs old = some row ∧ row.entity = job.entity
  rest : w.overlap = false → ∀ old row, old < job.run → w.runs old = some row →
    row.entity = job.entity → old ∈ olds ∨ row.status.terminal = true

structure Alone (job : Job ι) (w : FleetWorld ι) : Prop where
  known : Known job w
  clear : w.overlap = false → Cleared w.runs job.entity job.run

def Sole (job : Job ι) (w : FleetWorld ι) : Prop := Ahead job w ∧ Alone job w

structure Provisioning (job : Job ι) (w : FleetWorld ι) : Prop where
  locked : Locked job.proc (.stager job.run) job.mac w
  alone : Alone job w
  first : w.overlap = false → ∃ x, (w.started job.mac).head? = some x ∧ x.1 = job.run

variable {job : Job ι} {w w' : FleetWorld ι} {i : ι}

theorem lasting_known : Lasting i (Known job) := by
  rintro w w' - hR - ⟨hnext, row, hrow, he⟩
  obtain ⟨row', hrow', he', -⟩ := hR.rows _ row hrow
  exact ⟨hnext.trans_le hR.next, row', hrow', he'.trans he⟩

theorem lasting_ahead : Lasting job.proc (Ahead job) := by
  intro w w' hi hR hI h
  refine ⟨lasting_role w w' hi hR hI h.role, hR.waiting job h.waits rfl hi, fun mac hm => ?_,
    fun ho => hR.running ho job h.waits rfl hi (h.running (hR.overlap ho))⟩
  exact h.unwritten mac (hR.unwritten _ mac h.role.1 hm)

theorem row_before (hR : FleetRely i w w') (hk : Known job w) (ho : w'.overlap = false)
    (hlt : old < job.run) (hrow' : w'.runs old = some row') :
    ∃ row, w.runs old = some row ∧ row'.entity = row.entity ∧
      (row.status.terminal = true → row' = row) := by
  cases hrow : w.runs old with
  | none =>
    rw [hR.below ho old (hlt.trans hk.next) hrow] at hrow'
    cases hrow'
  | some row =>
    obtain ⟨row₁, hrow₁, he, hfinal⟩ := hR.rows old row hrow
    cases hrow'.symm.trans hrow₁
    exact ⟨row, rfl, he, hfinal⟩

variable {olds : List RunId}

theorem lasting_superseding : Lasting job.proc (Superseding job olds) := by
  intro w w' hi hR hI h
  refine ⟨lasting_ahead w w' hi hR hI h.ahead, lasting_known w w' hi hR hI h.known,
    fun old hold => ?_, fun ho old row' hlt hrow' he => ?_⟩
  · obtain ⟨hne, row, hrow, he⟩ := h.others old hold
    obtain ⟨row', hrow', he', -⟩ := hR.rows old row hrow
    exact ⟨hne, row', hrow', he'.trans he⟩
  · obtain ⟨row, hrow, he', hfinal⟩ := row_before hR h.known ho hlt hrow'
    rcases h.rest (hR.overlap ho) old row hlt hrow (he'.symm.trans he) with hmem | ht
    · exact .inl hmem
    · exact .inr (hfinal ht ▸ ht)

theorem lasting_alone : Lasting i (Alone job) := by
  intro w w' hi hR hI h
  refine ⟨lasting_known w w' hi hR hI h.known, fun ho old row' hlt hrow' he => ?_⟩
  obtain ⟨row, hrow, he', hfinal⟩ := row_before hR h.known ho hlt hrow'
  have ht := h.clear (hR.overlap ho) old row hlt hrow (he'.symm.trans he)
  exact hfinal ht ▸ ht

theorem lasting_provisioning : Lasting job.proc (Provisioning job) := by
  intro w w' hi hR hI h
  obtain ⟨-, -, hs, -⟩ := hR.files job.mac hi h.locked.1
  refine ⟨lasting_locked_role w w' hi hR hI h.locked, lasting_alone w w' hi hR hI h.alone,
    fun ho => ?_⟩
  rw [hs]
  exact h.first (hR.overlap ho)

end

section
variable {job : Job ι} {w w' : FleetWorld ι} {mac : Mac} {old run : RunId} {row : RunRow} {i : ι}

theorem Ahead.opened (hI : FleetInv w) (hrun : w.runs run = none) {entity : Nat} :
    Ahead ⟨i, entity, mac, run⟩ (w.openRun i entity mac run) ∧
      Known ⟨i, entity, mac, run⟩ (w.openRun i entity mac run) := by
  refine ⟨⟨⟨update_self _ _ _, update_self _ _ _⟩, mem_cons_self,
    fun m hm => ?_, fun _ => ?_⟩, ⟨lt_max_of_lt_right (Nat.lt_succ_self run), _,
    update_self _ _ _, rfl⟩⟩
  · obtain ⟨k, hk⟩ := hI.written m run hm
    obtain ⟨row, hrow⟩ := hI.openedRow run k hk
    rw [hrun] at hrow
    cases hrow
  · simp [FleetWorld.statusOf, FleetWorld.openRun]

theorem Superseding.cancel (h : Superseding job (old :: olds) w) (detail : String)
    (hrow : w.runs old = some row) :
    Superseding job olds (w.advance job.proc old row .cancelled detail) := by
  obtain ⟨hne, row', hrow', he'⟩ := h.others old mem_cons_self
  cases hrow.symm.trans hrow'
  refine ⟨⟨h.ahead.role.same rfl rfl rfl, h.ahead.waits, h.ahead.unwritten, fun ho => ?_⟩,
    ⟨h.known.next, ?_⟩, fun r hr => ?_, fun ho r row' hlt hr he => ?_⟩
  · exact (congrArg (Option.map RunRow.status) (update_of_ne hne.symm _ _)).trans
      (h.ahead.running (Bool.or_eq_false_iff.1 ho).1)
  · obtain ⟨row', hr, he⟩ := h.known.row
    obtain ⟨row'', hr', he', -⟩ := runs_advance hrow hr
    exact ⟨row'', hr', he'.trans he⟩
  · obtain ⟨hne', row', hr', he⟩ := h.others r (mem_cons_of_mem _ hr)
    obtain ⟨row'', hr'', he', -⟩ := runs_advance hrow hr'
    exact ⟨hne', row'', hr'', he'.trans he⟩
  · rcases update_eq_iff.1 hr with ⟨rfl, ⟨⟩⟩ | ⟨hro, hr⟩
    · exact .inr rfl
    rcases h.rest (Bool.or_eq_false_iff.1 ho).1 r row' hlt hr he with hmem | ht
    · exact .inl ((mem_cons.1 hmem).resolve_left hro)
    · exact .inr ht

omit [DecidableEq ι] in
theorem Superseding.skip (h : Superseding job (old :: olds) w) (hrow : w.runs old = some row)
    (ht : row.status.terminal = true) : Superseding job olds w := by
  refine ⟨h.ahead, h.known, fun r hr => h.others r (mem_cons_of_mem _ hr),
    fun ho r row' hlt hr he => ?_⟩
  rcases h.rest ho r row' hlt hr he with hmem | hter
  · rcases mem_cons.1 hmem with rfl | hmem
    · cases hrow.symm.trans hr
      exact .inr ht
    · exact .inl hmem
  · exact .inr hter

theorem runs_cancel (detail : String) :
    (fleetSetting job.proc).Triple (Alive job.proc (Superseding job (old :: olds)))
      (advanceRun old .cancelled detail) (fun _ => Alive job.proc (Superseding job olds))
      fun e => Alive job.proc fun w => AtStager job w ∧
        ((∃ m, e = .prov m ∨ e = .macBusy m) → Superseding job olds w) := by
  refine Setting.Triple.bind (Q := fun a => Alive job.proc fun w =>
    AtStager job w ∧ (a ≠ .error → Superseding job olds w))
    (triple_op lasting_superseding fun w a w' hw hI hs => ?_) fun a => ?_
  · obtain ⟨-, ⟨rfl, rfl⟩ | ⟨hnone, -, rfl⟩ |
      ⟨row, hrow, ⟨hf, -, rfl⟩ | ⟨hf, ⟨-, rfl⟩ | ⟨hstatus, -⟩⟩⟩⟩ := hs
    · exact ⟨hI, hw.ahead.role, fun h => absurd rfl h⟩
    · obtain ⟨-, row, hrow, -⟩ := hw.others old mem_cons_self
      rw [hnone] at hrow
      cases hrow
    · exact ⟨hI, hw.ahead.role, fun _ => hw.skip hrow (RunStatus.terminal_of_not_cancellable hf)⟩
    · obtain ⟨hne, row', hrow', he⟩ := hw.others old mem_cons_self
      cases hrow.symm.trans hrow'
      have hnew := hw.cancel detail hrow
      refine ⟨hI.advance hrow hf ?_ fun ho own _ hact hown => ?_, hnew.ahead.role, fun _ => hnew⟩
      · have hany : (w.waiting.any fun j => decide (j.proc = job.proc) &&
            decide (j.entity = row.entity)) = true :=
          any_eq_true.2 ⟨job, hw.ahead.waits, by simp [he]⟩
        simp [FleetWorld.mayMove, hany]
      · -- a staging that waits has the newest run of its machine
        cases hact.symm.trans hw.ahead.role.2
        exact lt_of_le_of_ne ((hI.staging ho).newest job hw.ahead.waits old row hrow he) hne
    · cases hstatus
  · cases a with
    | done => exact .pure fun w h hi => (h hi).2 (by simp)
    | missing | notForward | refused =>
      exact .throw fun w h hi => ⟨(h hi).1, fun _ => (h hi).2 (by simp)⟩
    | error =>
      refine .throw fun w h hi => ⟨(h hi).1, ?_⟩
      rintro ⟨m, hm | hm⟩
      · cases hm
      · cases hm

theorem runs_supersedeEach (olds : List RunId) :
    Runs job.proc (Superseding job olds) (supersedeEach job.run olds)
      (fun _ => Superseding job []) (AtStager job) := by
  induction olds with
  | nil => exact runs_pure fun _ h => h
  | cons old olds ih =>
    refine .bind (Setting.Triple.tryCatch (runs_cancel _) fun e => ?_) fun _ => ih
    cases e with
    | prov m => exact runs_pure fun w h => h.2 ⟨m, .inl rfl⟩
    | macBusy m => exact runs_pure fun w h => h.2 ⟨m, .inr rfl⟩
    | retry | superseded | other => exact runs_throw fun _ h => h.1

omit [DecidableEq ι] in
theorem Superseding.start (hI : FleetInv w) (ha : Ahead job w) (hk : Known job w) :
    Superseding job (w.openRuns job.entity job.run) w := by
  refine ⟨ha, hk, fun old hold => ?_, fun _ old row hlt hrow he => ?_⟩
  · obtain ⟨-, hold⟩ := mem_filter.1 hold
    obtain ⟨hne, hold⟩ := Bool.and_eq_true_iff.1 hold
    cases hrow : w.runs old with
    | none => simp [hrow] at hold
    | some row =>
      simp only [hrow, Bool.and_eq_true, decide_eq_true_eq] at hold
      exact ⟨of_decide_eq_true hne, row, rfl, hold.1⟩
  · cases ht : row.status.terminal with
    | true => exact .inr rfl
    | false =>
      refine .inl (mem_filter.2 ⟨mem_range.2 (hI.bound old row hrow), ?_⟩)
      simp [hrow, he, ht, hlt.ne]

theorem runs_supersede (job : Job ι) :
    Runs job.proc (fun w => Ahead job w ∧ Known job w) (supersede job.entity job.run)
      (fun _ => Sole job) (AtStager job) := by
  have hlasting : Lasting job.proc fun w => Ahead job w ∧ Known job w :=
    lasting_ahead.and lasting_known
  refine .bind (runs_mild (Q := fun a w => ∀ olds, a = some olds →
    Superseding job olds w) hlasting rfl fun w a d q ds hw hI hs olds ha => ?_) fun a => ?_
  · obtain ⟨-, rfl | rfl, -⟩ := hs
    · cases ha
    cases ha
    have h := Superseding.start hI hw.1 hw.2
    exact ⟨⟨h.ahead.role.same rfl rfl rfl, h.ahead.waits, h.ahead.unwritten, h.ahead.running⟩,
      { h.known with }, h.others, h.rest⟩
  · refine .bind (Q := fun olds => Alive job.proc (Superseding job olds)) ?_ fun olds => ?_
    · cases a with
      | none => exact runs_throw fun _ h => h.1.1.role
      | some olds => exact runs_pure fun w h => h.2 olds rfl
    · refine runs_post (runs_supersedeEach olds) fun _ w h => ⟨h.ahead, h.known, ?_⟩
      intro ho old row hlt hrow he
      rcases h.rest ho old row hlt hrow he with hmem | ht
      · cases hmem
      · exact ht

/-! ### `fleet-provision.sh` -/

omit [DecidableEq ι] in
theorem Provisioning.change (h : Provisioning job w) {files : Mac → File → Option RunId}
    {dirs : List Mac} {wrote : Mac → List RunId} {published : Mac → List RunId}
    {removals : List Removal} {u : Bool} :
    Provisioning job
      { w with
        files := files, dirs := dirs, wrote := wrote, published := published,
        removals := removals, unguarded := u } :=
  ⟨⟨h.locked.1, h.locked.2.same rfl rfl rfl⟩, ⟨{ h.alone.known with }, h.alone.clear⟩, h.first⟩

def Unwritten (job : Job ι) (w : FleetWorld ι) : Prop :=
  Provisioning job w ∧ ∀ mac, job.run ∉ w.wrote mac

def Bare (job : Job ι) (w : FleetWorld ι) : Prop :=
  Provisioning job w ∧ (∀ mac, job.run ∉ w.wrote mac) ∧ w.files job.mac .ipxe = none

def Owned (job : Job ι) (w : FleetWorld ι) : Prop :=
  Provisioning job w ∧ w.files job.mac .profileEnv = some job.run

section
omit [DecidableEq ι]

theorem lasting_unwritten : Lasting job.proc (Unwritten job) := by
  intro w w' hi hR hI h
  refine ⟨lasting_provisioning w w' hi hR hI h.1, fun mac hm => h.2 mac ?_⟩
  exact hR.unwritten _ mac h.1.locked.2.1 hm

theorem lasting_bare : Lasting job.proc (Bare job) := by
  intro w w' hi hR hI h
  obtain ⟨hf, -⟩ := hR.files job.mac hi h.1.locked.1
  obtain ⟨hp, hu⟩ := lasting_unwritten w w' hi hR hI ⟨h.1, h.2.1⟩
  exact ⟨hp, hu, (congrFun hf _).trans h.2.2⟩

theorem lasting_owned : Lasting job.proc (Owned job) := by
  intro w w' hi hR hI h
  obtain ⟨hf, -⟩ := hR.files job.mac hi h.1.locked.1
  exact ⟨lasting_provisioning w w' hi hR hI h.1, (congrFun hf _).trans h.2⟩

end

abbrev StagerLocked (job : Job ι) : FleetWorld ι → Prop :=
  Locked job.proc (.stager job.run) job.mac

theorem runs_disarmOld : Runs job.proc (Unwritten job)
      (command provisionFailed (act (.rm (.stage job.run) job.mac [.ipxe])))
      (fun _ => Bare job) (StagerLocked job) := by
  refine runs_post (runs_command (Q := fun done w => Unwritten job w ∧
    (done = true → w.files job.mac .ipxe = none))
    (runs_op lasting_unwritten fun w a w' hw hI hs => ?_) fun w h => h.1.1.locked)
    fun _ w h => ⟨h.1.1, h.1.2, h.2 rfl⟩
  obtain ⟨-, ⟨rfl, rfl⟩ | ⟨rfl, rfl⟩⟩ := hs
  · exact ⟨hI, hw, fun h => by cases h⟩
  refine ⟨hI.remove hw.1.locked.1 (by simp) (removed_stage hw.1.locked.2.2 ?_),
    ⟨hw.1.change, hw.2⟩, fun _ => ?_⟩
  · intro f hf
    exact .inl (mem_singleton.1 hf)
  · simp [FleetWorld.remove]

theorem runs_putFile {f : File} (hf : f = .xml ∨ f = .preseed ∨ f = .userData ∨ f = .metaData) :
    Runs job.proc (Bare job) (command provisionFailed (act (.put job.mac f job.run)))
      (fun _ => Bare job) (StagerLocked job) := by
  refine runs_keep (runs_op lasting_bare fun w a w' hw hI hs => ?_) fun w h => h.1.locked
  obtain ⟨-, ⟨-, rfl⟩ | ⟨-, rfl⟩⟩ := hs
  · exact ⟨hI, hw⟩
  have hne : f ≠ .profileEnv ∧ f ≠ .ipxe := by
    rcases hf with rfl | rfl | rfl | rfl
    all_goals exact ⟨by decide, by decide⟩
  refine ⟨hI.putConfig hw.1.locked.1 hw.1.locked.2.1 hf, hw.1.change, fun mac => ?_, ?_⟩
  · simpa [FleetWorld.put, hne.1] using hw.2.1 mac
  · simpa [FleetWorld.put, update_of_ne hne.2.symm] using hw.2.2

theorem runs_putConfig (distro : Distro) :
    Runs job.proc (Bare job) (putConfig job.run job.mac distro) (fun _ => Bare job)
      (StagerLocked job) := by
  cases distro with
  | debian => exact runs_putFile (.inr (.inl rfl))
  | opensuse => exact runs_putFile (.inl rfl)
  | ubuntu =>
    exact .bind (runs_putFile (.inr (.inr (.inl rfl)))) fun _ =>
      runs_putFile (.inr (.inr (.inr rfl)))

theorem runs_putEnv :
    Runs job.proc (Bare job) (command provisionFailed (act (.put job.mac .profileEnv job.run)))
      (fun _ => Owned job) (StagerLocked job) := by
  refine runs_post (runs_command (Q := fun done w => Provisioning job w ∧
    (done = true → w.files job.mac .profileEnv = some job.run))
    (runs_op lasting_bare fun w a w' hw hI hs => ?_) fun w h => h.1.locked)
    fun _ w h => ⟨h.1, h.2 rfl⟩
  obtain ⟨-, ⟨rfl, rfl⟩ | ⟨rfl, rfl⟩⟩ := hs
  · exact ⟨hI, hw.1, fun h => by cases h⟩
  · refine ⟨hI.putEnv hw.1.locked.1 hw.1.locked.2.1 (hw.2.1 _) hw.2.2, hw.1.change, fun _ => ?_⟩
    simp [FleetWorld.put]

theorem runs_dropStack : Runs job.proc (Owned job)
      (command provisionFailed (act (.rm (.stage job.run) job.mac [.stackJson])))
      (fun _ => Owned job) (StagerLocked job) := by
  refine runs_keep (runs_op lasting_owned fun w a w' hw hI hs => ?_) fun w h => h.1.locked
  obtain ⟨-, ⟨-, rfl⟩ | ⟨-, rfl⟩⟩ := hs
  · exact ⟨hI, hw⟩
  refine ⟨hI.remove hw.1.locked.1 (by simp) (removed_stage hw.1.locked.2.2 ?_), hw.1.change, ?_⟩
  · intro f hf
    exact .inr ⟨mem_singleton.1 hf, hw.2⟩
  · simpa [FleetWorld.remove] using hw.2

theorem runs_arm :
    Runs job.proc (Owned job) (command provisionFailed (act (.put job.mac .ipxe job.run)))
      (fun _ => Provisioning job) (StagerLocked job) := by
  refine runs_command (Q := fun _ => Provisioning job)
    (runs_op lasting_owned fun w a w' hw hI hs => ?_) fun w h => h.locked
  obtain ⟨-, ⟨-, rfl⟩ | ⟨-, rfl⟩⟩ := hs
  · exact ⟨hI, hw.1⟩
  · exact ⟨hI.putIpxe hw.1.locked.1 hw.1.locked.2.1 hw.2 hw.1.first, hw.1.change⟩

theorem runs_fleetProvision (distro : Distro) :
    Runs job.proc (Unwritten job) (fleetProvision job.run job.mac distro)
      (fun _ => Provisioning job) (StagerLocked job) := by
  refine .bind (runs_keep (runs_any lasting_unwritten rfl) fun w h => h.1.locked) fun _ => ?_
  refine .bind runs_disarmOld fun _ => ?_
  refine .bind (runs_putConfig distro) fun _ => ?_
  refine .bind (runs_keep (runs_any lasting_bare rfl) fun w h => h.1.locked) fun _ => ?_
  refine .bind (runs_keep (runs_any lasting_bare rfl) fun w h => h.1.locked) fun _ => ?_
  refine .bind runs_putEnv fun _ => ?_
  exact .bind runs_dropStack fun _ => runs_arm

/-- **Staging.**  The script is started under the lock of the MAC, for a run that is running. -/
theorem runs_stage (distro : Distro) :
    Runs job.proc (fun w => w.sessions.holder (.mac job.mac) = some job.proc ∧ Sole job w)
      (stage job.run job.mac distro) (fun _ => Provisioning job) (StagerLocked job) := by
  have hlasting : Lasting job.proc fun w =>
      w.sessions.holder (.mac job.mac) = some job.proc ∧ Sole job w :=
    lasting_held.and (lasting_ahead.and lasting_alone)
  refine .bind (runs_keep (runs_any hlasting rfl) fun w h => ⟨h.1, h.2.1.role⟩) fun _ => ?_
  refine .bind (runs_command (Q := fun done w => StagerLocked job w ∧
    (done = true → Unwritten job w))
    (runs_op hlasting fun w a w' hw hI hs => ?_) fun w h => h.1) fun _ =>
    runs_pre (runs_fleetProvision distro) fun w h => h.2 rfl
  obtain ⟨hl, hahead, halone⟩ := hw
  obtain ⟨-, ⟨rfl, rfl⟩ | ⟨rfl, rfl⟩⟩ := hs
  · exact ⟨hI, ⟨hl, hahead.role⟩, fun h => by cases h⟩
  have hlocked : StagerLocked job (w.spawn job.proc job.run job.mac) :=
    ⟨hl, hahead.role.same rfl rfl rfl⟩
  refine ⟨hI.spawn hahead.waits hl hahead.running, hlocked, fun _ =>
    ⟨⟨hlocked, ⟨{ halone.known with }, halone.clear⟩, fun _ => ?_⟩, hahead.unwritten⟩⟩
  simp [FleetWorld.spawn]

/-! ### The whole program -/

theorem stays_bestEffort {α : Type} {role : Role} {x : FleetM α} (hx : Stays i role x) :
    Stays i role (bestEffort x) :=
  stays_tryCatch (stays_bind hx fun _ => stays_pure) fun _ => stays_pure

theorem stays_giveUp (e : FleetErr) : Stays i (.stager run) (giveUp run mac e) := by
  have hdisarm : Stays i (.stager run) (bestEffort (disarmStaleProfile mac (some run))) :=
    stays_bestEffort (stays_disarmStaleProfile fun r h => h)
  refine stays_bind (stays_bestEffort (stays_advanceRun rfl _ _)) fun _ => ?_
  cases e with
  | macBusy => exact stays_pure
  | prov => exact stays_bind hdisarm fun _ => stays_pure
  | retry | superseded | other => exact stays_bind hdisarm fun _ => stays_throw

theorem runs_publishRun (rec : Record) :
    Runs job.proc (Sole job) (publishRun job.run rec) (fun _ => Sole job) (AtStager job) := by
  have hlasting : Lasting job.proc (Sole job) := lasting_ahead.and lasting_alone
  refine .bind (runs_keep (runs_any hlasting rfl) fun w h => h.1.role) fun _ => ?_
  exact runs_keep (runs_any hlasting rfl) fun w h => h.1.role

theorem runs_stageLocked {shown : String} (distro : Distro) : Runs job.proc (Sole job)
      (macLock job.mac shown (stage job.run job.mac distro))
      (fun _ w => AtStager job w ∧ Alone job w) (AtStager job) := by
  refine runs_macLock (lasting_ahead.and lasting_alone) (fun w h => ?_) (fun w h => h.1.role)
    (runs_stage distro) (fun _ => lasting_provisioning) lasting_locked_role (fun _ w h => ?_)
    fun w h => h.2.releaseLock
  · exact ⟨⟨h.1.role.getLock, h.1.waits, h.1.unwritten, h.1.running⟩,
      ⟨{ h.2.known with }, h.2.clear⟩⟩
  · exact ⟨h.locked.2.releaseLock, ⟨{ h.alone.known with }, h.alone.clear⟩⟩

theorem runs_setRunningDetail (detail : String) :
    Runs job.proc (fun w => AtStager job w ∧ Alone job w)
      (setRunningDetail job.run detail) (fun _ => AtStager job) (AtStager job) := by
  refine runs_command (Q := fun _ => AtStager job)
    (runs_op (lasting_role.and lasting_alone) fun w a w' hw hI hs => ?_) fun w h => h
  obtain ⟨-, ⟨-, rfl⟩ | ⟨-, rfl⟩⟩ := hs
  · exact ⟨hI, hw.1⟩
  refine ⟨hI.noteStaged fun ho => ?_, hw.1.same rfl rfl rfl⟩
  obtain ⟨row, hrow, he⟩ := hw.2.known.row
  refine ⟨row, hrow, ?_⟩
  rw [he]
  exact hw.2.clear ho

theorem runs_stageRun (i : ι) (args : StageArgs) (target : Target) (run : RunId) :
    Runs i (fun w => Ahead ⟨i, args.entity, args.mac, run⟩ w ∧
        Known ⟨i, args.entity, args.mac, run⟩ w) (stageRun args target run)
      (fun _ => Role.At i (.stager run)) (Role.At i (.stager run)) := by
  refine .tryCatch (F := fun _ => Alive i (Role.At i (.stager run))) ?_ stays_giveUp
  refine .bind (runs_supersede ⟨i, args.entity, args.mac, run⟩) fun _ => ?_
  refine .bind (runs_publishRun _) fun _ => ?_
  refine .bind (runs_stageLocked target.distro) fun _ => ?_
  exact .bind (runs_setRunningDetail _) fun _ => stays_pure

theorem runs_provStage (i : ι) (args : StageArgs) :
    Runs i (fun _ => True) (provStage args) (fun _ _ => True) fun _ => True := by
  refine runs_close (Q := fun _ _ => True) (E := fun _ => True) ?_
  refine .bind (runs_any lasting_true rfl) fun target => ?_
  cases target with
  | none => exact runs_pure fun _ _ => trivial
  | some target =>
    refine .bind (runs_op (Q := fun a w => ∀ run, a = some run →
      Ahead ⟨i, args.entity, args.mac, run⟩ w ∧ Known ⟨i, args.entity, args.mac, run⟩ w)
      lasting_true fun w a w' _ hI hs => ?_) fun a => ?_
    · obtain ⟨-, ⟨rfl, rfl⟩ | ⟨run, rfl, hrun, rfl⟩⟩ := hs
      · exact ⟨hI, fun run h => by cases h⟩
      refine ⟨hI.openRun hrun, fun run' h => ?_⟩
      cases h
      exact Ahead.opened hI hrun
    · refine .bind (Q := fun run => Alive i fun w =>
        Ahead ⟨i, args.entity, args.mac, run⟩ w ∧ Known ⟨i, args.entity, args.mac, run⟩ w) ?_
        fun run => ?_
      · cases a with
        | none => exact runs_throw fun _ _ => trivial
        | some run => exact runs_pure fun w h => h run rfl
      · exact (runs_post (runs_stageRun i args target run) fun _ _ _ => trivial).weaken
          fun _ _ => trivial

end

/-! ## Runs of the system -/

theorem fleetRelies : (fleetSystem ι).Relies FleetInv FleetRely where
  refl i w := .refl i w
  trans _ _ _ _ h h' := h.trans h'
  other _ _ _ _ _ _ hij hI hI' h := fleetSem_rely hij hI hI' h
  env i w w' _ _ h := by
    obtain ⟨j, rfl⟩ := h
    exact .stop

variable {w : FleetWorld ι}

omit [DecidableEq ι] in
theorem FleetInitial.inv (h : FleetInitial w) : FleetInv w := by
  refine ⟨h.unguarded, h.runs, by simp [h.opened], by simp [h.wrote], ?_, fun _ => ?_⟩
  · refine ⟨?_, ?_, ?_, ?_, by simp [h.removals]⟩
    all_goals simp [h.files]
  · refine ⟨?_, ?_, ?_, ?_, ?_, ?_, ?_, ?_, by simp [h.published], by simp [h.cancels],
      by simp [h.staged]⟩
    all_goals simp [h.waiting, h.started, h.published]

theorem Runs.safe {i : ι} {α : Type} {x : FleetM α}
    (h : Runs i (fun _ => True) x (fun _ _ => True) fun _ => True) :
    Safe (fleetSem i) (FleetRely i) FleetInv (fun (_ : Unit) _ => True)
      (x.run >>= fun _ => .ret ()) w :=
  (h w fun _ => trivial).seq fun _ _ _ => trivial

theorem fleetSystem_invariant {c c' : Conf ι FleetOp FleetRes (FleetWorld ι) Unit}
    (hc : (fleetSystem ι).Initial FleetInitial c) (hs : (fleetSystem ι).Steps c c') :
    FleetInv c'.shared := by
  refine (System.invariant (R := FleetRely) (A := fun _ _ _ => True) fleetRelies
    (fun _ _ _ _ _ _ _ => trivial) (fun i m p w hp _ _ => ?_) (fun w w' h he => ?_)
    (fun _ _ _ _ _ => trivial) (fun _ h => h.inv) hc hs).1
  · cases hp with
    | stage args => exact (runs_provStage i args).safe
    | finish cfg only => exact (runs_provFinish cfg only).safe
  · obtain ⟨j, rfl⟩ := he
    exact h.stop

end SolariNet.Fleet
