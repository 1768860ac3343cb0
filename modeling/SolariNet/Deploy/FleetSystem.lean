/-
# Stagings and ticks over one provisioning host

Any number of `prov-stage.py` and `prov-finish.py` processes over one database and one host.  A
process can die between any two operations, which frees its named locks.

Next to the rows and the files the state keeps a history:

    wrote, started, published   for each MAC: who wrote `profile.env`, for whom `fleet-provision.sh`
                                was started, whose boot profile was published
    waiting                     stagings between opening their run and starting `fleet-provision.sh`
    overlap                     a run was opened, or ended by a tick, while such a staging waited
    unguarded                   something was done without the lock or the run it needs
-/
import SolariNet.Deploy.Fleet
import SolariNet.Lib.Play
import SolariNet.Lib.Sessions

namespace SolariNet.Fleet

open Function Lib Lib.Prog
open List hiding rec

/-! ## The system -/

structure Job (ι : Type) where
  proc : ι
  entity : Nat
  mac : Mac
  run : RunId

/-- A file that was removed, for which run and by whom, and what `profile.env` said then. -/
structure Removal where
  mac : Mac
  file : File
  publishedFor : RunId
  script : Script
  onBehalf : Option RunId
  owner : Option RunId
  live : Bool
  written : List RunId

structure FleetWorld (ι : Type) where
  sessions : Sessions ι FleetLock
  runs : RunId → Option RunRow
  details : RunId → String
  nextRun : RunId
  files : Mac → File → Option RunId
  dirs : List Mac
  records : RunId → Option Record
  opened : RunId → Option ι
  acting : ι → Option RunId
  wrote : Mac → List RunId
  started : Mac → List (RunId × Option RunStatus)
  published : Mac → List RunId
  removals : List Removal
  cancels : List (RunId × RunId)
  staged : List RunId
  waiting : List (Job ι)
  overlap : Bool
  unguarded : Bool

variable {ι : Type} [DecidableEq ι]

namespace FleetWorld

section
omit [DecidableEq ι]

def statusOf (w : FleetWorld ι) (run : RunId) : Option RunStatus := (w.runs run).map (·.status)

def live (w : FleetWorld ι) (run : RunId) : Bool :=
  match w.statusOf run with
  | none => false
  | some status => !status.terminal

def openRuns (w : FleetWorld ι) (entity : Nat) (except : RunId) : List RunId :=
  (List.range w.nextRun).filter fun run => decide (run ≠ except) &&
    match w.runs run with
    | none => false
    | some row => decide (row.entity = entity) && !row.status.terminal

def pendingRows (w : FleetWorld ι) (only : Option RunId) (age : RunId → Nat) : List PendingRow :=
  (List.range w.nextRun).filterMap fun run =>
    match w.runs run with
    | none => none
    | some row =>
      if row.status = .running ∧ row.dryRun = false ∧ (only = none ∨ only = some run) then
        some ⟨run, row.entity, w.details run, age run⟩
      else none

def setDetail (w : FleetWorld ι) (run : RunId) (detail : String) : FleetWorld ι :=
  { w with
    details := if w.statusOf run = some .running then
      update w.details run (cut 255 detail) else w.details }

def noteStaged (w : FleetWorld ι) (run : RunId) (detail : String) : FleetWorld ι :=
  { w.setDetail run detail with staged := run :: w.staged }

def removed (w : FleetWorld ι) (i : ι) (s : Script) (mac : Mac) (fs : List File) : List Removal :=
  fs.filterMap fun f => (w.files mac f).map fun run =>
    ⟨mac, f, run, s, w.acting i, w.files mac .profileEnv,
      ((w.files mac .profileEnv).map w.live).getD false, w.wrote mac⟩

end

def guard (w : FleetWorld ι) (i : ι) (mac : Mac) : Bool :=
  w.unguarded || decide (w.sessions.holder (.mac mac) ≠ some i)

def openRun (w : FleetWorld ι) (i : ι) (entity : Nat) (mac : Mac) (run : RunId) : FleetWorld ι :=
  { w with
    runs := update w.runs run (some ⟨entity, false, .running⟩)
    details := update w.details run (clip detailStaging)
    nextRun := max w.nextRun (run + 1)
    opened := update w.opened run (some i)
    acting := update w.acting i (some run)
    waiting := ⟨i, entity, mac, run⟩ :: w.waiting
    overlap := w.overlap || decide (run < w.nextRun) ||
      w.waiting.any fun j => decide (j.entity = entity) || decide (j.mac = mac) }

def mayMove (w : FleetWorld ι) (i : ι) (run : RunId) (row : RunRow) : Bool :=
  decide (w.opened run = some i) || decide (w.sessions.holder (.finish run) = some i) ||
    w.waiting.any fun j => decide (j.proc = i) && decide (j.entity = row.entity)

def advance (w : FleetWorld ι) (i : ι) (run : RunId) (row : RunRow) (status : RunStatus)
    (detail : String) : FleetWorld ι :=
  { w with
    runs := update w.runs run (some { row with status := status })
    details := update w.details run (clip detail)
    cancels := match w.acting i with
      | none => w.cancels
      | some own =>
        if status = .cancelled ∧ own ≠ run then (run, own) :: w.cancels else w.cancels
    overlap := w.overlap || (decide (w.sessions.holder (.finish run) = some i) &&
      w.waiting.any fun j => decide (j.run = run))
    unguarded := w.unguarded || !w.mayMove i run row }

def getLock (w : FleetWorld ι) (i : ι) (l : FleetLock) : FleetWorld ι :=
  { w with
    sessions := w.sessions.acquire i l
    acting := match l with
      | .mac _ => w.acting
      | .finish run => update w.acting i (some run) }

def releaseLock (w : FleetWorld ι) (i : ι) (l : FleetLock) : FleetWorld ι :=
  { w with
    sessions := w.sessions.release i l
    acting := match l with
      | .mac _ => w.acting
      | .finish _ => update w.acting i none }

def stop (w : FleetWorld ι) (i : ι) : FleetWorld ι :=
  { w with
    sessions := w.sessions.stop i
    waiting := w.waiting.filter fun j => decide (j.proc ≠ i) }

def spawn (w : FleetWorld ι) (i : ι) (run : RunId) (mac : Mac) : FleetWorld ι :=
  { w with
    started := update w.started mac ((run, w.statusOf run) :: w.started mac)
    waiting := w.waiting.filter fun j => decide (j.proc ≠ i)
    unguarded := w.guard i mac || !w.waiting.any fun j =>
      decide (j.proc = i) && decide (j.mac = mac) && decide (j.run = run) }

def put (w : FleetWorld ι) (i : ι) (mac : Mac) (f : File) (run : RunId) : FleetWorld ι :=
  { w with
    files := update w.files mac (update (w.files mac) f (some run))
    dirs := if f = .profileEnv then w.dirs.insert mac else w.dirs
    wrote := if f = .profileEnv then update w.wrote mac (run :: w.wrote mac) else w.wrote
    published := if f = .ipxe then
      update w.published mac (run :: w.published mac) else w.published
    unguarded := w.guard i mac || decide (w.opened run ≠ some i) }

def remove (w : FleetWorld ι) (i : ι) (s : Script) (mac : Mac) (fs : List File) : FleetWorld ι :=
  { w with
    files := update w.files mac fun f => if f ∈ fs then none else w.files mac f
    removals := w.removed i s mac fs ++ w.removals
    unguarded := w.guard i mac }

def move (w : FleetWorld ι) (i : ι) (s : Script) (mac : Mac) (source target : File) :
    FleetWorld ι :=
  { w with
    files := update w.files mac
      (update (update (w.files mac) source none) target (w.files mac source))
    removals := w.removed i s mac [source] ++ w.removals
    unguarded := w.guard i mac }

end FleetWorld

section
omit [DecidableEq ι]

def gateSem {α : Type} (run : RunId) (detail : String) (w : FleetWorld ι) (g : Gate α)
    (w' : FleetWorld ι) : Prop :=
  match g with
  | .error => w' = w
  | .stopped status => status = w.statusOf run ∧ status ≠ some .running ∧ w' = w
  | .ran _ => w.statusOf run = some .running ∧ w' = w.setDetail run detail

end

/-- What a call of a live process may answer and change. -/
def fleetSem (i : ι) (o : FleetOp) (w : FleetWorld ι) (a : FleetRes o) (w' : FleetWorld ι) : Prop :=
  i ∉ w.sessions.ended ∧ match o, a with
  | .prepare, _ | .requireStore, _ | .writeVars _, _ | .readMarker _, _ | .forget _, _
  | .ready, _ | .sharedFiles, _ => w' = w
  | .openRun entity mac, a => a = none ∧ w' = w ∨
      ∃ run, a = some run ∧ w.runs run = none ∧ w' = w.openRun i entity mac run
  | .selectOpen entity except, a => (a = none ∨ a = some (w.openRuns entity except)) ∧ w' = w
  | .status run, a => (a = none ∨ a = some (w.statusOf run)) ∧ w' = w
  | .advance run status detail, a =>
    a = .error ∧ w' = w ∨ w.runs run = none ∧ a = .missing ∧ w' = w ∨
    ∃ row, w.runs run = some row ∧
      (row.status.forward status = false ∧ a = .notForward row.status ∧ w' = w ∨
        row.status.forward status = true ∧ (a = .done ∧ w' = w.advance i run row status detail ∨
            status = .succeeded ∧ (∃ message, a = .refused message) ∧ w' = w))
  | .setDetail run detail, a => a = false ∧ w' = w ∨ a = true ∧ w' = w.setDetail run detail
  | .setRunningDetail run detail, a =>
    a = false ∧ w' = w ∨ a = true ∧ w' = w.noteStaged run detail
  | .step run detail, a => gateSem run detail w a w'
  | .bootstrap run detail, a => gateSem run detail w a w'
  | .probeFacts run detail, a => gateSem run detail w a w'
  | .playbook run _ detail, a => gateSem run detail w a w'
  | .pendingRuns only, a => (a = none ∨ ∃ age, a = some (w.pendingRows only age)) ∧ w' = w
  | .selectTerminal runs, a => (a = none ∨
      a = some (runs.filter fun run => ((w.statusOf run).map (·.terminal)).getD false)) ∧ w' = w
  | .getLock l, a => a ≠ .got ∧ w' = w ∨ a = .got ∧ w.sessions.holder l = none ∧ w' = w.getLock i l
  | .releaseLock l, _ => w' = w.releaseLock i l
  | .close, _ => w' = w.stop i
  | .writeRecord run rec, _ =>
    w' = w ∨ w' = { w with records := update w.records run (some rec) }
  | .readRecord run, a => w' = w ∧ match a with
      | .unreadable => True
      | .absent => w.records run = none
      | .malformed => w.records run ≠ none
      | .found rec => w.records run = some rec
  | .spawn run mac, a => a = false ∧ w' = w ∨ a = true ∧ w' = w.spawn i run mac
  | .mkdir mac, _ => w' = w ∨ w' = { w with dirs := w.dirs.insert mac }
  | .put mac f run, a => a = false ∧ w' = w ∨ a = true ∧ w' = w.put i mac f run
  | .rm s mac fs, a => a = false ∧ w' = w ∨ a = true ∧ w' = w.remove i s mac fs
  | .mv s mac source target, a => a = false ∧ w' = w ∨
      a = true ∧ w.files mac source ≠ none ∧ w' = w.move i s mac source target
  | .test mac f, a => (a = none ∨ a = some (w.files mac f).isSome) ∧ w' = w
  | .grepRun mac run, a => (a = none ∨ a = some (decide (w.files mac .profileEnv = some run))) ∧
      w' = w
  | .owner mac, a => (a = none ∨ a = some (w.files mac .profileEnv)) ∧ w' = w
  | .glob, a => (a = none ∨
      a = some (w.dirs.filter fun mac => (w.files mac .profileEnv).isSome)) ∧ w' = w

inductive FleetStart : Prog FleetOp FleetRes Unit → Prop where
  | stage (args : StageArgs) : FleetStart ((provStage args).run >>= fun _ => .ret ())
  | finish (cfg : FinishConfig) (only : Option RunId) :
      FleetStart ((provFinish cfg only).run >>= fun _ => .ret ())

def fleetSystem (ι : Type) [DecidableEq ι] : System ι FleetOp FleetRes (FleetWorld ι) Unit where
  sem := fleetSem
  start _ _ p := FleetStart p
  env w w' := ∃ i, w' = w.stop i
  boot _ _ := True

omit [DecidableEq ι] in
structure FleetInitial (w : FleetWorld ι) : Prop where
  runs : ∀ run row, w.runs run = some row → run < w.nextRun
  files : ∀ mac f, w.files mac f = none
  opened : ∀ run, w.opened run = none
  wrote : ∀ mac, w.wrote mac = []
  started : ∀ mac, w.started mac = []
  published : ∀ mac, w.published mac = []
  removals : w.removals = []
  cancels : w.cancels = []
  staged : w.staged = []
  waiting : w.waiting = []
  unguarded : w.unguarded = false

/-! ## The invariant -/

/-- A clean-up removes files of the run that `profile.env` names, on its behalf if it is open. A
staging removes the boot profile it is to replace, and a file of its own. -/
def Removal.Proper (e : Removal) : Prop :=
  match e.script with
  | .clean run => e.owner = some run ∧ (e.live = true → e.onBehalf = some run) ∧
      e.written.head? = some run
  | .stage run => e.onBehalf = some run ∧
      (e.file = .ipxe ∨ e.file = .stackJson ∧ e.owner = some run)

structure Profiles (files : Mac → File → Option RunId) (dirs : List Mac)
    (wrote : Mac → List RunId) (removals : List Removal) : Prop where
  owner : ∀ mac run, files mac .profileEnv = some run → (wrote mac).head? = some run
  marked : ∀ mac run how, files mac (How.marker how run) ≠ none →
    run ∈ wrote mac ∧ files mac .profileEnv ≠ some run
  armed : ∀ mac run, files mac .ipxe = some run → files mac .profileEnv = some run
  dirs : ∀ mac run, files mac .profileEnv = some run → mac ∈ dirs
  removals : ∀ e ∈ removals, e.Proper

def Cleared (runs : RunId → Option RunRow) (entity : Nat) (run : RunId) : Prop :=
  ∀ old row, old < run → runs old = some row → row.entity = entity → row.status.terminal = true

section
omit [DecidableEq ι]

structure Staging (runs : RunId → Option RunRow) (nextRun : RunId) (opened : RunId → Option ι)
    (waiting : List (Job ι)) (started : Mac → List (RunId × Option RunStatus))
    (published : Mac → List RunId) (cancels : List (RunId × RunId)) (staged : List RunId) :
    Prop where
  apart : ∀ j ∈ waiting, ∀ k ∈ waiting, j.entity = k.entity ∨ j.mac = k.mac → j = k
  job : ∀ j ∈ waiting, opened j.run = some j.proc ∧
    ∃ row, runs j.run = some row ∧ row.entity = j.entity
  newest : ∀ j ∈ waiting, ∀ run row, runs run = some row → row.entity = j.entity → run ≤ j.run
  later : ∀ j ∈ waiting, ∀ x ∈ started j.mac, x.1 < j.run
  known : ∀ mac, ∀ x ∈ started mac, x.1 < nextRun
  running : ∀ mac, ∀ x ∈ started mac, x.2 = some .running
  order : ∀ mac, (started mac).Pairwise fun newer older => older.1 < newer.1
  replaced : ∀ mac, (published mac).Pairwise fun newer older => older ≤ newer
  published : ∀ mac, ∀ run ∈ published mac, ∃ x ∈ started mac, x.1 = run
  cancels : ∀ x ∈ cancels, x.1 < x.2
  staged : ∀ run ∈ staged, ∃ row, runs run = some row ∧ Cleared runs row.entity run

/-- Runs are numbered as they open, and what is written is of an opened run. -/
structure FleetInv (w : FleetWorld ι) : Prop where
  guarded : w.unguarded = false
  bound : ∀ run row, w.runs run = some row → run < w.nextRun
  openedRow : ∀ run i, w.opened run = some i → ∃ row, w.runs run = some row
  written : ∀ mac, ∀ run ∈ w.wrote mac, ∃ i, w.opened run = some i
  profiles : Profiles w.files w.dirs w.wrote w.removals
  staging : w.overlap = false → Staging w.runs w.nextRun w.opened w.waiting w.started w.published
    w.cancels w.staged

structure FleetRely (i : ι) (w w' : FleetWorld ι) : Prop where
  sessions : w.sessions.Keeps i w'.sessions
  acting : w'.acting i = w.acting i
  opened : ∀ run, w.opened run = some i → w'.opened run = some i
  rows : ∀ run row, w.runs run = some row → ∃ row', w'.runs run = some row' ∧
    row'.entity = row.entity ∧ (row.status.terminal = true → row' = row)
  files : ∀ mac, i ∉ w'.sessions.ended → w.sessions.holder (.mac mac) = some i →
    w'.files mac = w.files mac ∧ w'.wrote mac = w.wrote mac ∧ w'.started mac = w.started mac ∧
      w'.published mac = w.published mac
  unwritten : ∀ run mac, w.opened run = some i → run ∈ w'.wrote mac → run ∈ w.wrote mac
  next : w.nextRun ≤ w'.nextRun
  overlap : w'.overlap = false → w.overlap = false
  waiting : ∀ j ∈ w.waiting, j.proc = i → i ∉ w'.sessions.ended → j ∈ w'.waiting
  running : w'.overlap = false → ∀ j ∈ w.waiting, j.proc = i → i ∉ w'.sessions.ended →
    w.statusOf j.run = some .running → w'.statusOf j.run = some .running
  below : w'.overlap = false → ∀ run, run < w.nextRun → w.runs run = none → w'.runs run = none

theorem FleetRely.refl (i : ι) (w : FleetWorld ι) : FleetRely i w w where
  sessions := .refl i _
  acting := rfl
  opened _ h := h
  rows _ row h := ⟨row, h, rfl, fun _ => rfl⟩
  files _ _ _ := ⟨rfl, rfl, rfl, rfl⟩
  unwritten _ _ _ h := h
  next := le_rfl
  overlap h := h
  waiting _ h _ _ := h
  running _ _ _ _ _ h := h
  below _ _ _ h := h

theorem FleetRely.trans {i : ι} (h : FleetRely i w w')
    (h' : FleetRely i w' w'') : FleetRely i w w'' := by
  -- a process that lives in the end has lived
  have hlive (hi : i ∉ w''.sessions.ended) : i ∉ w'.sessions.ended :=
    fun he => hi (h'.sessions.ended he)
  refine ⟨h.sessions.trans h'.sessions, h'.acting.trans h.acting,
    fun run hr => h'.opened run (h.opened run hr), fun run row hr => ?_, fun mac hi hl => ?_,
    fun run mac hr hm => h.unwritten run mac hr (h'.unwritten run mac (h.opened run hr) hm),
    h.next.trans h'.next, fun ho => h.overlap (h'.overlap ho),
    fun j hj hp hi => h'.waiting j (h.waiting j hj hp (hlive hi)) hp hi,
    fun ho j hj hp hi hr => ?_, fun ho run hlt hr => ?_⟩
  · obtain ⟨row', hr', hentity, hfinal⟩ := h.rows run row hr
    obtain ⟨row'', hr'', hentity', hfinal'⟩ := h'.rows run row' hr'
    refine ⟨row'', hr'', hentity'.trans hentity, fun ht => ?_⟩
    cases hfinal ht
    exact hfinal' ht
  · obtain ⟨hf, hw, hs, hp⟩ := h.files mac (hlive hi) hl
    obtain ⟨hf', hw', hs', hp'⟩ := h'.files mac hi (h.sessions.held _ (hlive hi) hl)
    exact ⟨hf'.trans hf, hw'.trans hw, hs'.trans hs, hp'.trans hp⟩
  · exact h'.running ho j (h.waiting j hj hp (hlive hi)) hp hi
      (h.running (h'.overlap ho) j hj hp (hlive hi) hr)
  · exact h'.below ho run (hlt.trans_le h.next) (h.below (h'.overlap ho) run hlt hr)

end

/-! ## One operation -/

def FleetOp.mild : FleetOp → Bool
  | .openRun _ _ | .advance _ _ _ | .setRunningDetail _ _ | .getLock _ | .releaseLock _ | .close
  | .spawn _ _ | .put _ _ _ | .rm _ _ _ | .mv _ _ _ _ => false
  | _ => true

section
variable {i j : ι} {w w' : FleetWorld ι} {run run' r : RunId} {detail : String} {mac : Mac}
  {entity : Nat} {row : RunRow} {status : RunStatus} {runs : RunId → Option RunRow} {fs : List File}
  {f : File → Option RunId} {s : Script} {o : FleetOp} {a : FleetRes o} {α : Type} {x : α}

omit [DecidableEq ι] in
theorem gateSem_mild {g : Gate α} (h : gateSem run detail w g w') :
    ∃ d, w' = { w with details := d } := by
  cases g with
  | error =>
    cases h
    exact ⟨_, rfl⟩
  | stopped status =>
    obtain ⟨-, -, rfl⟩ := h
    exact ⟨_, rfl⟩
  | ran a =>
    obtain ⟨-, rfl⟩ := h
    exact ⟨_, rfl⟩

theorem fleetSem_mild (ho : o.mild = true) (h : fleetSem i o w a w') :
    ∃ d q ds, w.dirs ⊆ ds ∧ w' = { w with details := d, records := q, dirs := ds } := by
  have hsame : ∃ d q ds, w.dirs ⊆ ds ∧ w = { w with details := d, records := q, dirs := ds } :=
    ⟨w.details, w.records, w.dirs, List.Subset.refl _, rfl⟩
  obtain ⟨-, h⟩ := h
  cases o with
  | prepare | requireStore | writeVars | readMarker | forget | ready | sharedFiles =>
    cases h
    exact hsame
  | selectOpen | status | pendingRuns | selectTerminal | test | grepRun | owner | glob =>
    obtain ⟨-, rfl⟩ := h
    exact hsame
  | readRecord =>
    obtain ⟨rfl, -⟩ := h
    exact hsame
  | step | bootstrap | probeFacts | playbook =>
    obtain ⟨d, rfl⟩ := gateSem_mild h
    exact ⟨d, w.records, w.dirs, List.Subset.refl _, rfl⟩
  | writeRecord run rec =>
    rcases h with rfl | rfl
    · exact hsame
    · exact ⟨w.details, _, w.dirs, List.Subset.refl _, rfl⟩
  | mkdir mac =>
    rcases h with rfl | rfl
    · exact hsame
    · exact ⟨w.details, w.records, _, subset_insert mac w.dirs, rfl⟩
  | setDetail =>
    rcases h with ⟨-, rfl⟩ | ⟨-, rfl⟩
    · exact hsame
    · exact ⟨_, w.records, w.dirs, List.Subset.refl _, rfl⟩
  | openRun | advance | setRunningDetail | getLock | releaseLock | close | spawn | put | rm | mv =>
    cases ho

section
omit [DecidableEq ι]

theorem FleetRely.mild (d : RunId → String) (q : RunId → Option Record) (ds : List Mac) :
    FleetRely i w { w with details := d, records := q, dirs := ds } :=
  { FleetRely.refl i w with }

theorem FleetRely.locks {s : Sessions ι FleetLock} {a : ι → Option RunId}
    (h : w.sessions.Keeps i s) (ha : a i = w.acting i) :
    FleetRely i w { w with sessions := s, acting := a } :=
  { FleetRely.refl i w with
    sessions := h
    acting := ha
    files := fun _ _ _ => ⟨rfl, rfl, rfl, rfl⟩
    waiting := fun _ hj _ _ => hj
    running := fun _ _ _ _ _ hr => hr }

end

theorem FleetRely.stop : FleetRely i w (w.stop j) := by
  have hkept (k : Job ι) (hk : k ∈ w.waiting) (hp : k.proc = i)
      (hi : i ∉ (w.stop j).sessions.ended) : k ∈ (w.stop j).waiting := by
    refine mem_filter.2 ⟨hk, decide_eq_true fun hkj => hi ?_⟩
    rw [← hp, hkj]
    exact mem_cons_self
  exact
    { FleetRely.refl i w with
      sessions := Sessions.keeps_stop
      files := fun _ _ _ => ⟨rfl, rfl, rfl, rfl⟩
      waiting := hkept
      running := fun _ _ _ _ _ hr => hr }

theorem holder_of_guard (h : w.guard j mac = false) : w.sessions.holder (.mac mac) = some j := by
  simpa using (Bool.or_eq_false_iff.1 h).2

theorem ne_of_guard (hij : i ≠ j) (h : w.guard j mac = false)
    (hi : w.sessions.holder (.mac mac') = some i) : mac' ≠ mac := by
  rintro rfl
  rw [holder_of_guard h] at hi
  exact hij (Option.some.inj hi).symm

omit [DecidableEq ι] in
theorem run_ne (hrun : w.runs run = none) (hr : w.runs r = some row) : r ≠ run := by
  rintro rfl
  cases hrun.symm.trans hr

theorem runs_advance (hrow : w.runs run = some row) (hr : w.runs r = some old) :
    ∃ row', (w.advance i run row status detail).runs r = some row' ∧
      row'.entity = old.entity ∧ (r = run ∨ row' = old) := by
  by_cases hrr : r = run
  · subst hrr
    cases hrow.symm.trans hr
    exact ⟨_, update_self _ _ _, rfl, .inl rfl⟩
  · exact ⟨old, (update_of_ne hrr _ _).trans hr, rfl, .inr rfl⟩

theorem FleetRely.openRun (hij : i ≠ j) (hI : FleetInv w) (hrun : w.runs run = none) :
    FleetRely i w (w.openRun j entity mac run) := by
  refine
    { FleetRely.refl i w with
      acting := update_of_ne hij _ _
      opened := fun r hr => ?_
      rows := fun r row hr =>
        ⟨row, (update_of_ne (run_ne hrun hr) _ _).trans hr, rfl, fun _ => rfl⟩
      next := le_max_left _ _
      overlap := fun ho => (Bool.or_eq_false_iff.1 (Bool.or_eq_false_iff.1 ho).1).1
      waiting := fun _ hj _ _ => mem_cons_of_mem _ hj
      running := fun _ k _ _ _ hr => ?_
      below := fun ho r hlt hr => ?_ }
  · obtain ⟨row, hrow⟩ := hI.openedRow r i hr
    exact (update_of_ne (run_ne hrun hrow) _ _).trans hr
  · obtain ⟨row, hrow, -⟩ := Option.map_eq_some_iff.1 hr
    exact (congrArg (Option.map RunRow.status) (update_of_ne (run_ne hrun hrow) _ _)).trans hr
  have hle : ¬ run < w.nextRun := of_decide_eq_false
    (Bool.or_eq_false_iff.1 (Bool.or_eq_false_iff.1 ho).1).2
  have hr' : r ≠ run := fun h => hle (h ▸ hlt)
  exact (update_of_ne hr' _ _).trans hr

theorem mayMove_cases (h : w.mayMove j run row = true) :
    w.opened run = some j ∨ w.sessions.holder (.finish run) = some j ∨
      ∃ k ∈ w.waiting, k.proc = j ∧ k.entity = row.entity := by
  rcases Bool.or_eq_true_iff.1 h with h | h
  · rcases Bool.or_eq_true_iff.1 h with h | h
    · exact .inl (of_decide_eq_true h)
    · exact .inr (.inl (of_decide_eq_true h))
  · obtain ⟨k, hk, h⟩ := any_eq_true.1 h
    obtain ⟨hp, he⟩ := Bool.and_eq_true_iff.1 h
    exact .inr (.inr ⟨k, hk, of_decide_eq_true hp, of_decide_eq_true he⟩)

section
variable (hij : i ≠ j)
include hij

theorem waiting_ne
    (hS : Staging w.runs w.nextRun w.opened w.waiting w.started w.published w.cancels w.staged)
    (hk : k ∈ w.waiting) (hp : k.proc = i) (hrow : w.runs run = some row)
    (hmove : w.mayMove j run row = true)
    (hlock : (decide (w.sessions.holder (.finish run) = some j) &&
      w.waiting.any fun k => decide (k.run = run)) = false) : k.run ≠ run := by
  rintro rfl
  obtain ⟨hopened, row', hrow', hentity⟩ := hS.job k hk
  rcases mayMove_cases hmove with ho | hl | ⟨k', hk', hp', he'⟩
  · rw [hopened, hp] at ho
    exact hij (Option.some.inj ho)
  · have hany : (w.waiting.any fun k' => decide (k'.run = k.run)) = true :=
      any_eq_true.2 ⟨k, hk, decide_eq_true rfl⟩
    rw [hany, decide_eq_true hl] at hlock
    cases hlock
  · cases hrow.symm.trans hrow'
    cases hS.apart k hk k' hk' (.inl (hentity.symm.trans he'.symm))
    exact hij (hp.symm.trans hp')

theorem FleetRely.advance (hI : FleetInv w)
    (hrow : w.runs run = some row) (hforward : row.status.forward status = true)
    (hI' : (w.advance j run row status detail).unguarded = false) :
    FleetRely i w (w.advance j run row status detail) := by
  have hmove : w.mayMove j run row = true := by
    simpa using (Bool.or_eq_false_iff.1 hI').2
  refine
    { FleetRely.refl i w with
      rows := fun r row' hr => ?_
      overlap := fun ho => (Bool.or_eq_false_iff.1 ho).1
      running := fun ho k hk hp _ hr => ?_
      below := fun _ r _ hr => ?_ }
  · obtain ⟨row'', hr'', he, hsame⟩ := runs_advance hrow hr
    refine ⟨row'', hr'', he, fun ht => hsame.resolve_left ?_⟩
    rintro rfl
    cases hrow.symm.trans hr
    rw [RunStatus.terminal_of_forward hforward] at ht
    cases ht
  · obtain ⟨ho, hlock⟩ := Bool.or_eq_false_iff.1 ho
    have hne := waiting_ne hij (hI.staging ho) hk hp hrow hmove hlock
    exact (congrArg (Option.map RunRow.status) (update_of_ne hne _ _)).trans hr
  · exact (update_of_ne (run_ne hr hrow).symm _ _).trans hr

theorem FleetRely.spawn (hg : (w.spawn j run mac).unguarded = false) :
    FleetRely i w (w.spawn j run mac) := by
  have hg := (Bool.or_eq_false_iff.1 hg).1
  refine
    { FleetRely.refl i w with
      files := fun m _ hm => ?_
      waiting := fun k hk hp _ => ?_
      running := fun _ _ _ _ _ hr => hr }
  · exact ⟨rfl, rfl, update_of_ne (ne_of_guard hij hg hm) _ _, rfl⟩
  · refine mem_filter.2 ⟨hk, decide_eq_true ?_⟩
    rw [hp]
    exact hij

theorem FleetRely.change (hg : w.guard j mac = false) (f : File → Option RunId)
    (e : List Removal) (u : Bool) :
    FleetRely i w
      { w with files := update w.files mac f, removals := e, unguarded := u } :=
  { FleetRely.refl i w with
    files := fun _ _ hm =>
      ⟨update_of_ne (ne_of_guard hij hg hm) _ _, rfl, rfl, rfl⟩ }

theorem FleetRely.put {f : File} (hg : (w.put j mac f run).unguarded = false) :
    FleetRely i w (w.put j mac f run) := by
  obtain ⟨hg, hopened⟩ := Bool.or_eq_false_iff.1 hg
  have hopened : w.opened run = some j := by simpa using hopened
  refine
    { FleetRely.refl i w with
      files := fun m _ hm => ?_
      unwritten := fun r m hr hm => ?_ }
  · have hne := ne_of_guard hij hg hm
    refine ⟨update_of_ne hne _ _, ?_, rfl, ?_⟩
    · simp only [FleetWorld.put]
      split
      · exact update_of_ne hne _ _
      · rfl
    · simp only [FleetWorld.put]
      split
      · exact update_of_ne hne _ _
      · rfl
  · simp only [FleetWorld.put] at hm
    split at hm
    · by_cases hmm : m = mac
      · subst hmm
        rw [update_self] at hm
        rcases mem_cons.1 hm with rfl | hold
        · rw [hopened] at hr
          exact absurd (Option.some.inj hr).symm hij
        · exact hold
      · rwa [update_of_ne hmm] at hm
    · exact hm

/-- **What the others do.**  Files of a MAC are changed only by who has its lock, runs that have
ended stay as they are, and a run whose staging waits stays running. -/
theorem fleetSem_rely (hI : FleetInv w) (hI' : FleetInv w') (h : fleetSem j o w a w') :
    FleetRely i w w' := by
  by_cases ho : o.mild = true
  · obtain ⟨d, q, ds, -, rfl⟩ := fleetSem_mild ho h
    exact .mild d q ds
  obtain ⟨-, h⟩ := h
  cases o with
  | openRun entity mac =>
    rcases h with ⟨-, rfl⟩ | ⟨run, -, hrun, rfl⟩
    · exact .refl i _
    · exact .openRun hij hI hrun
  | advance run status detail =>
    rcases h with ⟨-, rfl⟩ | ⟨-, -, rfl⟩ | ⟨row, hrow, ⟨-, -, rfl⟩ | ⟨hf, ⟨-, rfl⟩ | ⟨-, -, rfl⟩⟩⟩
    · exact .refl i _
    · exact .refl i _
    · exact .refl i _
    · exact .advance hij hI hrow hf hI'.guarded
    · exact .refl i _
  | setRunningDetail run detail =>
    rcases h with ⟨-, rfl⟩ | ⟨-, rfl⟩
    · exact .refl i _
    · exact { FleetRely.refl i w with }
  | getLock l =>
    rcases h with ⟨-, rfl⟩ | ⟨-, hfree, rfl⟩
    · exact .refl i _
    refine .locks (Sessions.keeps_acquire hfree) ?_
    cases l with
    | mac m => rfl
    | finish run => exact update_of_ne hij _ _
  | releaseLock l =>
    cases h
    refine .locks (Sessions.keeps_release hij) ?_
    cases l with
    | mac m => rfl
    | finish run => exact update_of_ne hij _ _
  | close =>
    cases h
    exact .stop
  | spawn run mac =>
    rcases h with ⟨-, rfl⟩ | ⟨-, rfl⟩
    · exact .refl i _
    · exact .spawn hij hI'.guarded
  | put mac f run =>
    rcases h with ⟨-, rfl⟩ | ⟨-, rfl⟩
    · exact .refl i _
    · exact .put hij hI'.guarded
  | rm s mac fs =>
    rcases h with ⟨-, rfl⟩ | ⟨-, rfl⟩
    · exact .refl i _
    · exact .change hij hI'.guarded _ _ _
  | mv s mac source target =>
    rcases h with ⟨-, rfl⟩ | ⟨-, -, rfl⟩
    · exact .refl i _
    · exact .change hij hI'.guarded _ _ _
  | prepare | selectOpen | status | setDetail | step | bootstrap | probeFacts | playbook
  | pendingRuns | selectTerminal | requireStore | writeVars | writeRecord | readRecord
  | readMarker | forget | ready | sharedFiles | mkdir | test | grepRun | owner | glob =>
    exact absurd rfl ho

end

/-! ## Keeping the invariant -/

theorem forall_mem_push {f : Mac → List α} {P : Mac → α → Prop} (hx : P mac x)
    (h : ∀ m, ∀ y ∈ f m, P m y) : ∀ m, ∀ y ∈ update f mac (x :: f mac) m, P m y :=
  (forall_update_iff f fun m l => ∀ y ∈ l, P m y).2 ⟨forall_mem_cons.2 ⟨hx, h mac⟩, fun m _ => h m⟩

theorem mem_push {f : Mac → List α} {y : α} (h : y ∈ f m) :
    y ∈ update f mac (x :: f mac) m := by
  rcases eq_or_ne m mac with rfl | hm
  · rw [update_self]
    exact mem_cons_of_mem _ h
  · rwa [update_of_ne hm]

section
omit [DecidableEq ι]

theorem FleetInv.mild (h : FleetInv w) (d : RunId → String) (q : RunId → Option Record)
    {ds : List Mac} (hds : w.dirs ⊆ ds) :
    FleetInv { w with details := d, records := q, dirs := ds } :=
  { h with
    profiles := { h.profiles with dirs := fun mac run hr => hds (h.profiles.dirs mac run hr) } }

theorem FleetInv.locks (h : FleetInv w) (s : Sessions ι FleetLock) (a : ι → Option RunId) :
    FleetInv { w with sessions := s, acting := a } := { h with }

theorem Staging.fewer {opened : RunId → Option ι}
    {waiting waiting' : List (Job ι)} {started : Mac → List (RunId × Option RunStatus)}
    {published : Mac → List RunId} {cancels : List (RunId × RunId)} {staged : List RunId}
    (h : Staging runs nextRun opened waiting started published cancels staged)
    (hsub : waiting' ⊆ waiting) :
    Staging runs nextRun opened waiting' started published cancels staged :=
  { h with
    apart := fun j hj k hk => h.apart j (hsub hj) k (hsub hk)
    job := fun j hj => h.job j (hsub hj)
    newest := fun j hj => h.newest j (hsub hj)
    later := fun j hj => h.later j (hsub hj) }

end

theorem FleetInv.stop (h : FleetInv w) : FleetInv (w.stop j) :=
  { h with staging := fun ho => (h.staging ho).fewer (filter_subset_self _) }

omit [DecidableEq ι] in
theorem Cleared.openRun (h : Cleared runs entity run') (hle : run' ≤ run) :
    Cleared (update runs run (some row)) entity run' := by
  intro old row' hlt hold
  rw [update_of_ne (hlt.trans_le hle).ne] at hold
  exact h old row' hlt hold

theorem FleetInv.openRun (h : FleetInv w) (hrun : w.runs run = none) :
    FleetInv (w.openRun i entity mac run) := by
  have hkeep {r : RunId} {row : RunRow} (hr : w.runs r = some row) :
      (w.openRun i entity mac run).runs r = some row :=
    (update_of_ne (run_ne hrun hr) _ _).trans hr
  -- a row of the new table is the new one or an old one
  have hrows {r : RunId} {row : RunRow} (hr : (w.openRun i entity mac run).runs r = some row) :
      r = run ∧ row.entity = entity ∨ w.runs r = some row := by
    rcases update_eq_iff.1 hr with ⟨rfl, ⟨⟩⟩ | ⟨-, hr⟩
    · exact .inl ⟨rfl, rfl⟩
    · exact .inr hr
  refine ⟨h.guarded, fun r row hr => ?_, fun r k hk => ?_, fun m r hr => ?_, h.profiles,
    fun ho => ?_⟩
  · rcases hrows hr with ⟨rfl, -⟩ | hold
    · exact lt_max_of_lt_right (Nat.lt_succ_self r)
    · exact lt_max_of_lt_left (h.bound r row hold)
  · rcases update_eq_iff.1 hk with ⟨rfl, -⟩ | ⟨-, hk⟩
    · exact ⟨_, update_self _ _ _⟩
    · obtain ⟨row, hrow⟩ := h.openedRow r k hk
      exact ⟨row, hkeep hrow⟩
  · obtain ⟨k, hk⟩ := h.written m r hr
    obtain ⟨row, hrow⟩ := h.openedRow r k hk
    exact ⟨k, (update_of_ne (run_ne hrun hrow) _ _).trans hk⟩
  · obtain ⟨ho, hother⟩ := Bool.or_eq_false_iff.1 ho
    obtain ⟨ho, hnext⟩ := Bool.or_eq_false_iff.1 ho
    have hS := h.staging ho
    have hnext : w.nextRun ≤ run := not_lt.1 (of_decide_eq_false hnext)
    -- no staging of the machine waits
    have hother (k : Job ι) (hk : k ∈ w.waiting) : k.entity ≠ entity ∧ k.mac ≠ mac := by
      have hk := any_eq_false.1 hother k hk
      simpa using hk
    refine
      { hS with
        apart := fun j hj k hk hjk => ?_
        job := fun j hj => ?_
        newest := fun j hj r row hr he => ?_
        later := fun j hj x hx => ?_
        known := fun m x hx => lt_max_of_lt_left (hS.known m x hx)
        staged := fun r hr => ?_ }
    · rcases mem_cons.1 hj with rfl | hj
      · rcases mem_cons.1 hk with rfl | hk
        · rfl
        obtain ⟨he, hm⟩ := hother k hk
        rcases hjk with hjk | hjk
        · exact absurd hjk.symm he
        · exact absurd hjk.symm hm
      · rcases mem_cons.1 hk with rfl | hk
        · obtain ⟨he, hm⟩ := hother j hj
          rcases hjk with hjk | hjk
          · exact absurd hjk he
          · exact absurd hjk hm
        · exact hS.apart j hj k hk hjk
    · rcases mem_cons.1 hj with rfl | hj
      · exact ⟨update_self _ _ _, _, update_self _ _ _, rfl⟩
      · obtain ⟨hopened, row, hrow, he⟩ := hS.job j hj
        exact ⟨(update_of_ne (run_ne hrun hrow) _ _).trans hopened, row, hkeep hrow, he⟩
    · rcases mem_cons.1 hj with rfl | hjold
      · rcases hrows hr with ⟨rfl, -⟩ | hold
        · exact le_rfl
        · exact ((h.bound r row hold).trans_le hnext).le
      · rcases hrows hr with ⟨-, hentity⟩ | hold
        · exact absurd (he.symm.trans hentity) (hother j hjold).1
        · exact hS.newest j hjold r row hold he
    · rcases mem_cons.1 hj with rfl | hj
      · exact (hS.known _ x hx).trans_le hnext
      · exact hS.later j hj x hx
    · obtain ⟨row, hrow, hclear⟩ := hS.staged r hr
      exact ⟨row, hkeep hrow, hclear.openRun ((h.bound r row hrow).le.trans hnext)⟩

omit [DecidableEq ι] in
theorem Cleared.advance (h : Cleared runs entity run') (hrow : runs run = some row)
    (hforward : row.status.forward status = true) :
    Cleared (update runs run (some { row with status := status })) entity run' := by
  intro old row' hlt hold he
  rcases update_eq_iff.1 hold with ⟨rfl, ⟨⟩⟩ | ⟨-, hold⟩
  · have ht := h old row hlt hrow he
    rw [RunStatus.terminal_of_forward hforward] at ht
    cases ht
  · exact h old row' hlt hold he

theorem FleetInv.advance (h : FleetInv w) (hrow : w.runs run = some row)
    (hforward : row.status.forward status = true) (hmove : w.mayMove i run row = true)
    (hcancel : w.overlap = false → ∀ own, status = .cancelled → w.acting i = some own →
      own ≠ run → run < own) : FleetInv (w.advance i run row status detail) := by
  -- the rows are the old ones but for a status
  have hrows {r : RunId} {row' : RunRow}
      (hr : (w.advance i run row status detail).runs r = some row') :
      ∃ old, w.runs r = some old ∧ row'.entity = old.entity := by
    rcases update_eq_iff.1 hr with ⟨rfl, ⟨⟩⟩ | ⟨-, hr⟩
    · exact ⟨row, hrow, rfl⟩
    · exact ⟨row', hr, rfl⟩
  refine ⟨?_, fun r row' hr => ?_, fun r k hk => ?_, h.written, h.profiles, fun ho => ?_⟩
  · simp [FleetWorld.advance, h.guarded, hmove]
  · obtain ⟨old, hold, -⟩ := hrows hr
    exact h.bound r old hold
  · obtain ⟨old, hold⟩ := h.openedRow r k hk
    obtain ⟨row', hr', -⟩ := runs_advance hrow hold
    exact ⟨row', hr'⟩
  · have ho := (Bool.or_eq_false_iff.1 ho).1
    have hS := h.staging ho
    refine
      { hS with
        job := fun j hj => ?_
        newest := fun j hj r row' hr he => ?_
        cancels := fun x hx => ?_
        staged := fun r hr => ?_ }
    · obtain ⟨hopened, old, hold, he⟩ := hS.job j hj
      obtain ⟨row', hr', he', -⟩ := runs_advance hrow hold
      exact ⟨hopened, row', hr', he'.trans he⟩
    · obtain ⟨old, hold, he'⟩ := hrows hr
      exact hS.newest j hj r old hold (he'.symm.trans he)
    · cases hact : w.acting i with
      | none =>
        simp only [FleetWorld.advance, hact] at hx
        exact hS.cancels x hx
      | some own =>
        simp only [FleetWorld.advance, hact] at hx
        split at hx
        · next hc =>
          rcases mem_cons.1 hx with rfl | hx
          · exact hcancel ho own hc.1 hact hc.2
          · exact hS.cancels x hx
        · exact hS.cancels x hx
    · obtain ⟨old, hold, hclear⟩ := hS.staged r hr
      obtain ⟨row', hr', he', -⟩ := runs_advance hrow hold
      rw [← he'] at hclear
      exact ⟨row', hr', hclear.advance hrow hforward⟩

omit [DecidableEq ι] in
theorem FleetInv.noteStaged (h : FleetInv w)
    (hstaged : w.overlap = false → ∃ row, w.runs run = some row ∧ Cleared w.runs row.entity run) :
    FleetInv (w.noteStaged run detail) := by
  refine { h with staging := fun ho => ?_ }
  have hS := h.staging ho
  exact { hS with staged := forall_mem_cons.2 ⟨hstaged ho, hS.staged⟩ }

theorem FleetInv.spawn (h : FleetInv w) (hjob : job ∈ w.waiting)
    (hl : w.sessions.holder (.mac job.mac) = some job.proc)
    (hrunning : w.overlap = false → w.statusOf job.run = some .running) :
    FleetInv (w.spawn job.proc job.run job.mac) := by
  have hany : (w.waiting.any fun j => decide (j.proc = job.proc) && decide (j.mac = job.mac) &&
      decide (j.run = job.run)) = true := any_eq_true.2 ⟨job, hjob, by simp⟩
  refine { h with guarded := ?_, staging := fun ho => ?_ }
  · simp [FleetWorld.spawn, FleetWorld.guard, h.guarded, hl, hany]
  have hS := h.staging ho
  obtain ⟨-, row, hrow, -⟩ := hS.job job hjob
  refine
    { hS.fewer (filter_subset_self _) with
      later := fun j hj x hx => ?_
      known := forall_mem_push (h.bound _ row hrow) hS.known
      running := forall_mem_push (hrunning ho) hS.running
      order := ?_
      published := fun m r hr => ?_ }
  · obtain ⟨hj, hp⟩ := mem_filter.1 hj
    have hm : j.mac ≠ job.mac := by
      intro hm
      cases hS.apart j hj job hjob (.inr hm)
      exact of_decide_eq_true hp rfl
    simp only [FleetWorld.spawn, update_of_ne hm] at hx
    exact hS.later j hj x hx
  · exact (forall_update_iff _ fun _ => List.Pairwise _).2
      ⟨pairwise_cons.2 ⟨hS.later job hjob, hS.order _⟩, fun m _ => hS.order m⟩
  · obtain ⟨x, hx, hr⟩ := hS.published m r hr
    exact ⟨x, mem_push hx, hr⟩

/-! ### Files -/

theorem guard_of_held (h : FleetInv w) (hl : w.sessions.holder (.mac mac) = some i) :
    w.guard i mac = false := by
  simp [FleetWorld.guard, h.guarded, hl]

section
omit [DecidableEq ι]

theorem removed_iff :
    e ∈ w.removed i s mac fs ↔ ∃ f ∈ fs, ∃ run, w.files mac f = some run ∧
      e = ⟨mac, f, run, s, w.acting i, w.files mac .profileEnv,
        ((w.files mac .profileEnv).map w.live).getD false, w.wrote mac⟩ := by
  simp only [FleetWorld.removed, mem_filterMap, Option.map_eq_some_iff, @eq_comm _ e]

theorem removed_clean (h : FleetInv w) (howner : w.files mac .profileEnv = some run)
    (hright : w.acting i = some run ∨ w.live run = false) :
    ∀ e ∈ w.removed i (.clean run) mac fs, e.Proper := by
  intro e he
  obtain ⟨f, -, p, -, rfl⟩ := removed_iff.1 he
  refine ⟨howner, fun hlive => ?_, h.profiles.owner mac run howner⟩
  rcases hright with hact | hdead
  · exact hact
  · simp [howner, hdead] at hlive

theorem removed_stage (hact : w.acting i = some run)
    (hfs : ∀ f ∈ fs, f = .ipxe ∨ f = .stackJson ∧ w.files mac .profileEnv = some run) :
    ∀ e ∈ w.removed i (.stage run) mac fs, e.Proper := by
  intro e he
  obtain ⟨f, hf, p, -, rfl⟩ := removed_iff.1 he
  exact ⟨hact, hfs f hf⟩

end

theorem Profiles.update {files : Mac → File → Option RunId} {dirs dirs' : List Mac}
    {wrote : Mac → List RunId} {removals removals' : List Removal}
    (h : Profiles files dirs wrote removals) {l : List RunId}
    (howner : ∀ run, f .profileEnv = some run → l.head? = some run ∧ mac ∈ dirs')
    (hmarked : ∀ run how, f (How.marker how run) ≠ none → run ∈ l ∧ f .profileEnv ≠ some run)
    (harmed : ∀ run, f .ipxe = some run → f .profileEnv = some run) (hdirs : dirs ⊆ dirs')
    (hremovals : ∀ e ∈ removals', e.Proper) :
    Profiles (update files mac f) dirs' (update wrote mac l) removals' := by
  refine ⟨fun m run => ?_, fun m run how => ?_, fun m run => ?_, fun m run => ?_, hremovals⟩
  all_goals rcases eq_or_ne m mac with rfl | hm
  · simp only [update_self]
    exact fun hr => (howner run hr).1
  · simp only [update_of_ne hm]
    exact h.owner m run
  · simp only [update_self]
    exact hmarked run how
  · simp only [update_of_ne hm]
    exact h.marked m run how
  · simp only [update_self]
    exact harmed run
  · simp only [update_of_ne hm]
    exact h.armed m run
  · simp only [update_self]
    exact fun hr => (howner run hr).2
  · simp only [update_of_ne hm]
    exact fun hr => hdirs (h.dirs m run hr)

theorem FleetInv.change (h : FleetInv w) (hl : w.sessions.holder (.mac mac) = some i)
    {es : List Removal}
    (howner : ∀ run, f .profileEnv = some run → w.files mac .profileEnv = some run)
    (hmarked : ∀ run how, f (How.marker how run) ≠ none →
      run ∈ w.wrote mac ∧ f .profileEnv ≠ some run)
    (harmed : ∀ run, f .ipxe = some run → f .profileEnv = some run) (hes : ∀ e ∈ es, e.Proper) :
    FleetInv
      { w with
        files := update w.files mac f
        removals := es ++ w.removals
        unguarded := w.guard i mac } := by
  have hP := h.profiles
  refine { h with guarded := guard_of_held h hl, profiles := ?_ }
  rw [← update_eq_self mac w.wrote]
  exact hP.update (fun run hr => ⟨hP.owner mac run (howner run hr),
    hP.dirs mac run (howner run hr)⟩)
    hmarked harmed (List.Subset.refl _) (forall_mem_append.2 ⟨hes, hP.removals⟩)

theorem FleetInv.remove (h : FleetInv w) (hl : w.sessions.holder (.mac mac) = some i)
    (hfs : File.profileEnv ∉ fs) (hes : ∀ e ∈ w.removed i s mac fs, e.Proper) :
    FleetInv (w.remove i s mac fs) := by
  have hrest {f : File} {run : RunId} (hf : (if f ∈ fs then none else w.files mac f) = some run) :
      w.files mac f = some run := by
    split at hf
    · cases hf
    · exact hf
  refine h.change hl (fun run hr => hrest hr) (fun run how hr => ?_) (fun run hr => ?_) hes
  · have hmark : w.files mac (How.marker how run) ≠ none := by
      split at hr
      · exact absurd rfl hr
      · exact hr
    rw [if_neg hfs]
    exact h.profiles.marked mac run how hmark
  · rw [if_neg hfs]
    exact h.profiles.armed mac run (hrest hr)

theorem marker_ne (how : How) (run : RunId) : How.marker how run ≠ .profileEnv ∧
    How.marker how run ≠ .ipxe ∧ ∀ r, How.marker how run ≠ .disarmedIpxe r := by
  cases how with
  | finish | disarm => exact ⟨by simp [How.marker], by simp [How.marker], by simp [How.marker]⟩

section
variable (h : FleetInv w)
include h

theorem FleetInv.moveIpxe (hl : w.sessions.holder (.mac mac) = some i)
    (hes : ∀ e ∈ w.removed i s mac [.ipxe], e.Proper) :
    FleetInv (w.move i s mac .ipxe (.disarmedIpxe run)) := by
  refine h.change hl (fun r hr => ?_) (fun r how hr => ?_) (fun r hr => ?_) hes
  · simpa using hr
  · obtain ⟨-, hipxe, hdis⟩ := marker_ne how r
    rw [update_of_ne (hdis run), update_of_ne hipxe] at hr
    simpa using h.profiles.marked mac r how hr
  · simp at hr

theorem FleetInv.moveEnv (hl : w.sessions.holder (.mac mac) = some i)
    (howner : w.files mac .profileEnv = some run) (hipxe : w.files mac .ipxe = none)
    (hes : ∀ e ∈ w.removed i s mac [.profileEnv], e.Proper) :
    FleetInv (w.move i s mac .profileEnv (How.marker how run)) := by
  obtain ⟨henv, hboot, -⟩ := marker_ne how run
  have hgone : update (update (w.files mac) .profileEnv none)
      (How.marker how run) (w.files mac .profileEnv) .profileEnv = none := by
    rw [update_of_ne henv.symm, update_self]
  refine h.change hl (fun r hr => ?_) (fun r how' hr => ?_) (fun r hr => ?_) hes
  · rw [hgone] at hr
    cases hr
  · rw [hgone]
    refine ⟨?_, fun hr => by cases hr⟩
    by_cases hr' : How.marker how' r = How.marker how run
    · have hrun : r = run := by
        cases how <;> cases how' <;> simp [How.marker] at hr' <;> exact hr'
      subst hrun
      exact mem_of_head? (h.profiles.owner mac r howner)
    · rw [update_of_ne hr', update_of_ne (marker_ne how' r).1] at hr
      exact (h.profiles.marked mac r how' hr).1
  · rw [update_of_ne hboot.symm, update_of_ne (by decide), hipxe] at hr
    cases hr

theorem FleetInv.putConfig (hl : w.sessions.holder (.mac mac) = some i)
    (hopened : w.opened run = some i) {f : File}
    (hf : f = .xml ∨ f = .preseed ∨ f = .userData ∨ f = .metaData) :
    FleetInv (w.put i mac f run) := by
  have hne : f ≠ .profileEnv ∧ f ≠ .ipxe ∧ ∀ how r, How.marker how r ≠ f := by
    rcases hf with rfl | rfl | rfl | rfl
    all_goals exact ⟨by decide, by decide, fun how r => by cases how <;> simp [How.marker]⟩
  obtain ⟨henv, hipxe, hmark⟩ := hne
  have hsame : w.put i mac f run =
      { w with
        files := update w.files mac (update (w.files mac) f (some run))
        removals := [] ++ w.removals
        unguarded := w.guard i mac } := by
    simp [FleetWorld.put, henv, hipxe, hopened]
  rw [hsame]
  refine h.change hl (fun r hr => ?_) (fun r how hr => ?_) (fun r hr => ?_) fun e he => by cases he
  · rwa [update_of_ne henv.symm] at hr
  · rw [update_of_ne (hmark how r)] at hr
    rw [update_of_ne henv.symm]
    exact h.profiles.marked mac r how hr
  · rw [update_of_ne hipxe.symm] at hr
    rw [update_of_ne henv.symm]
    exact h.profiles.armed mac r hr

theorem FleetInv.putEnv (hl : w.sessions.holder (.mac mac) = some i)
    (hopened : w.opened run = some i) (hnew : run ∉ w.wrote mac)
    (hipxe : w.files mac .ipxe = none) : FleetInv (w.put i mac .profileEnv run) := by
  have hP := h.profiles
  refine { h with
    guarded := ?_, written := forall_mem_push ⟨i, hopened⟩ h.written, profiles := ?_ }
  · simp [FleetWorld.put, guard_of_held h hl, hopened]
  refine hP.update (fun r hr => ⟨?_, mem_insert_self⟩) (fun r how hr => ?_) (fun r hr => ?_)
    (subset_insert mac w.dirs) hP.removals
  · rwa [update_self] at hr
  · rw [update_of_ne (marker_ne how r).1] at hr
    obtain ⟨hmem, -⟩ := hP.marked mac r how hr
    refine ⟨mem_cons_of_mem _ hmem, ?_⟩
    rintro hr'
    cases hr'
    exact hnew hmem
  · rw [update_of_ne (by decide), hipxe] at hr
    cases hr

theorem FleetInv.putIpxe (hl : w.sessions.holder (.mac mac) = some i)
    (hopened : w.opened run = some i) (howner : w.files mac .profileEnv = some run)
    (hstarted : w.overlap = false → ∃ x, (w.started mac).head? = some x ∧ x.1 = run) :
    FleetInv (w.put i mac .ipxe run) := by
  have hP := h.profiles
  refine { h with guarded := ?_, profiles := ?_, staging := fun ho => ?_ }
  · simp [FleetWorld.put, guard_of_held h hl, hopened]
  · have henv : update (w.files mac) .ipxe (some run) .profileEnv = some run :=
      (update_of_ne (by decide) _ _).trans howner
    have hset : Profiles (w.put i mac .ipxe run).files w.dirs
        (update w.wrote mac (w.wrote mac)) w.removals := by
      refine hP.update (fun r hr => ?_) (fun r how hr => ?_) (fun r hr => ?_) (List.Subset.refl _)
        hP.removals
      · rw [← howner] at hr
        exact ⟨hP.owner mac r hr, hP.dirs mac r hr⟩
      · rw [update_of_ne (marker_ne how r).2.1] at hr
        exact hP.marked mac r how hr
      · rw [update_self] at hr
        rw [henv, hr]
    rwa [update_eq_self] at hset
  · have hS := h.staging ho
    obtain ⟨x, hx, rfl⟩ := hstarted ho
    refine
      { hS with
        replaced := (forall_update_iff _ fun _ => List.Pairwise _).2
          ⟨pairwise_cons.2 ⟨fun r hr => ?_, hS.replaced mac⟩, fun m _ => hS.replaced m⟩
        published := forall_mem_push ⟨x, mem_of_head? hx, rfl⟩ hS.published }
    -- what was published before was started before
    obtain ⟨y, hy, rfl⟩ := hS.published mac r hr
    obtain ⟨rest, hrest⟩ := List.head?_eq_some_iff.1 hx
    have horder := hS.order mac
    rw [hrest] at hy horder
    rcases mem_cons.1 hy with rfl | hy
    · exact le_rfl
    · exact ((pairwise_cons.1 horder).1 y hy).le

end

end

end SolariNet.Fleet
