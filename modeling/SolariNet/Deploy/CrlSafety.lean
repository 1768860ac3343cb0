/-
# Revocation never goes back

Any number of processes run the programs of `Crl` over one database, one output file, one served
file and one bundle; rows are added to the ledger at any time, and a process can die between any two
of its operations, which frees its locks.

Next to the files the state keeps what was in them, newest first, the ledger each process saw when
it started, and whether a file was ever changed without its lock.
-/
import SolariNet.Deploy.CrlCalls
import SolariNet.Lib.Play
import SolariNet.Lib.Sessions

namespace SolariNet.Crl

open Function List Lib Lib.Prog

/-! ## The system -/

structure CrlWorld (ι : Type) where
  sessions : Sessions ι CrlLock
  ledger : List LedgerRow
  nextNumber : Option Nat
  output : Option Bytes
  served : Option Bytes
  active : Option Bundle
  receipt : Option Receipt
  outputs : List Bytes
  publics : List Bytes
  activated : List Bytes
  noted : ι → List String
  runs : List (List String × Bytes)
  unguarded : Bool

variable {ι : Type} [DecidableEq ι]

namespace CrlWorld

omit [DecidableEq ι] in
def serials (w : CrlWorld ι) : List String := serialsOf w.ledger

def guard (w : CrlWorld ι) (i : ι) (l : CrlLock) : Bool :=
  w.unguarded || decide (w.sessions.holder l ≠ some i)

def replaceOutput (w : CrlWorld ι) (i : ι) (crl : Bytes) : CrlWorld ι :=
  { w with
    output := some crl
    outputs := crl :: w.outputs
    runs := (w.noted i, crl) :: w.runs
    unguarded := w.guard i .output }

def replacePublic (w : CrlWorld ι) (i : ι) (crl : Bytes) : CrlWorld ι :=
  { w with
    served := some crl
    publics := crl :: w.publics
    unguarded := w.guard i .served }

def setActive (w : CrlWorld ι) (i : ι) (b : Option Bundle) : CrlWorld ι :=
  { w with
    active := b
    unguarded := w.guard i .active }

def noteActivated (w : CrlWorld ι) (i : ι) : CrlWorld ι :=
  { w with
    activated := (w.active.map (·.crls)).getD [] ++ w.activated
    unguarded := w.guard i .active }

end CrlWorld

def crlSem (i : ι) (o : CrlOp) (w : CrlWorld ι) (r : CrlRes o) (w' : CrlWorld ι) : Prop :=
  i ∉ w.sessions.ended ∧ match o, r with
  | .start, _ => w' = { w with noted := Function.update w.noted i w.serials }
  | .check _, _ | .now, _ | .gencrl _ _ _, _ | .readBase, _ => w' = w
  | .selectRevocations, r => (r = none ∨ r = some (w.ledger.mergeSort bySerial)) ∧ w' = w
  | .insertState, r =>
    r = false ∧ w' = w ∨ w' = { w with nextNumber := some (w.nextNumber.getD 1) }
  | .updateNumber, r => r = none ∧ w' = w ∨
      ∃ n, w.nextNumber = some n ∧ n + 1 < 2 ^ 64 ∧ (r = none ∨ r = some n) ∧
        w' = { w with nextNumber := some (n + 1) }
  | .lock l, r => r = false ∧ w' = w ∨
      r = true ∧ w.sessions.holder l = none ∧ w' = { w with sessions := w.sessions.acquire i l }
  | .unlock l, _ => w' = { w with sessions := w.sessions.release i l }
  | .readOutput, r => r = w.output ∧ w' = w
  | .replaceOutput crl, r => r = false ∧ w' = w ∨ r = true ∧ w' = w.replaceOutput i crl
  | .readPublic, r => r = w.served ∧ w' = w
  | .replacePublic crl, r => r = false ∧ w' = w ∨ r = true ∧ w' = w.replacePublic i crl
  | .fetch, r => (r = none ∨ r = w.served) ∧ w' = w
  | .readActive, r => r = w.active ∧ w' = w
  | .replaceActive b, r => r = false ∧ w' = w ∨ r = true ∧ w' = w.setActive i (some b)
  | .unlinkActive, r => r = false ∧ w' = w ∨ r = true ∧ w' = w.setActive i none
  | .readReceipt, r => r = w.receipt ∧ w' = w
  | .writeReceipt q, _ => w' = w ∨ w' = { w with receipt := some q }
  | .activated, _ => w' = w.noteActivated i

inductive CrlStart (ssl : X509) : Prog CrlOp CrlRes Unit → Prop where
  | generate (hours : Int) (permitOtherIssuers : Bool) :
      CrlStart ssl ((generate ssl hours permitOtherIssuers).run >>= fun _ => .ret ())
  | publish : CrlStart ssl ((publish ssl).run >>= fun _ => .ret ())
  | activate (args : ActivateArgs) : CrlStart ssl ((activate ssl args).run >>= fun _ => .ret ())

inductive CrlEnv (w : CrlWorld ι) : CrlWorld ι → Prop where
  | revoke (ledger : List LedgerRow) (h : w.ledger ⊆ ledger) : CrlEnv w { w with ledger := ledger }
  | die (i : ι) : CrlEnv w { w with sessions := w.sessions.stop i }

def crlSystem (ι : Type) [DecidableEq ι] (ssl : X509) :
    System ι CrlOp CrlRes (CrlWorld ι) Unit where
  sem := crlSem
  start _ _ p := CrlStart ssl p
  env := CrlEnv
  boot _ _ := True

omit [DecidableEq ι] in
def CrlInitial (w : CrlWorld ι) : Prop :=
  w.output = none ∧ w.served = none ∧ (∀ b, w.active = some b → b.crls = []) ∧ w.outputs = [] ∧
    w.publics = [] ∧ w.activated = [] ∧ w.runs = [] ∧ w.unguarded = false

/-! ## Newer CRLs -/

/-- CRL `b` is as new as `a`: its number is not smaller, CRLs of the same number are the same, and
what `a` revokes `b` revokes. -/
def Newer (ssl : X509) (a b : Bytes) : Prop :=
  ∃ m n, ssl.number a = some m ∧ ssl.number b = some n ∧ m ≤ n ∧ (m = n → a = b) ∧
    ssl.serials a ⊆ ssl.serials b

section
variable {ssl : X509} {a b c : Bytes} {n : Nat} {crls : List Bytes}

theorem Newer.refl (h : ssl.number a = some n) : Newer ssl a a :=
  ⟨n, n, h, h, le_rfl, fun _ => rfl, List.Subset.refl _⟩

theorem Newer.trans (h : Newer ssl a b) (h' : Newer ssl b c) : Newer ssl a c := by
  obtain ⟨m, n, hm, hn, hle, heq, hsub⟩ := h
  obtain ⟨n', k, hn', hk, hle', heq', hsub'⟩ := h'
  cases hn.symm.trans hn'
  refine ⟨m, k, hm, hk, hle.trans hle', fun hmk => ?_, List.Subset.trans hsub hsub'⟩
  subst hmk
  have hmn : m = n := Nat.le_antisymm hle hle'
  exact (heq hmn).trans (heq' hmn.symm)

theorem Newer.serials (h : Newer ssl a b) : ssl.serials a ⊆ ssl.serials b := by
  obtain ⟨_, _, _, _, _, _, hsub⟩ := h
  exact hsub

def History (ssl : X509) (crls : List Bytes) : Prop :=
  crls.Pairwise fun newer older => Newer ssl older newer

section
variable (h : History ssl crls)
include h

theorem History.cons (hb : ∀ a ∈ crls, Newer ssl a b) :
    History ssl (b :: crls) := pairwise_cons.2 ⟨hb, h⟩

theorem History.newer (hb : ∀ x, crls.head? = some x → Newer ssl x b)
    (ha : a ∈ crls) : Newer ssl a b := by
  cases crls with
  | nil => cases ha
  | cons x crls =>
    have hx := hb x rfl
    rcases mem_cons.1 ha with rfl | hmem
    · exact hx
    · exact ((pairwise_cons.1 h).1 a hmem).trans hx

theorem History.total (ha : a ∈ crls) (hb : b ∈ crls) (hab : a ≠ b) :
    Newer ssl a b ∨ Newer ssl b a :=
  have : Std.Symm fun a b => Newer ssl a b ∨ Newer ssl b a := ⟨fun _ _ => Or.symm⟩
  (h.imp Or.inr).forall ha hb hab

theorem History.newer_of_le (ha : a ∈ crls) (hb : b ∈ crls) {m : Nat}
    (hm : ssl.number a = some m) (hn : ssl.number b = some n) (hle : m ≤ n) : Newer ssl a b := by
  by_cases hab : a = b
  · subst hab
    exact .refl hm
  rcases h.total ha hb hab with hnew | hold
  · exact hnew
  obtain ⟨n', m', hn', hm', hle', heq, -⟩ := hold
  cases hn.symm.trans hn'
  cases hm.symm.trans hm'
  exact absurd (heq (Nat.le_antisymm hle' hle)).symm hab

end

end

/-! ## The invariant -/

section
omit [DecidableEq ι]

/-- What may stand in the place of the active bundle: it has at most one CRL, one that was served,
and that is as new as any that was activated. -/
structure ActiveOk (ssl : X509) (w : CrlWorld ι) (a : Option Bundle) : Prop where
  one : ∀ b, a = some b → b.crls = [] ∨ ∃ crl ∈ w.publics, b.crls = [crl]
  activated : ∀ x ∈ w.activated, ∃ b crl, a = some b ∧ b.crls = [crl] ∧ Newer ssl x crl

/-- Each file holds the newest of its history, and only what was generated is published. -/
structure CrlInv (ssl : X509) (w : CrlWorld ι) : Prop where
  guarded : w.unguarded = false
  output : w.output = w.outputs.head?
  served : w.served = w.publics.head?
  outputs : History ssl w.outputs
  publics : History ssl w.publics
  activated : History ssl w.activated
  ledger : ∀ crl ∈ w.outputs, ssl.serials crl ⊆ w.serials
  generated : ∀ crl ∈ w.publics, crl ∈ w.outputs
  active : ActiveOk ssl w w.active
  runs : ∀ run ∈ w.runs, run.1 ⊆ ssl.serials run.2

end

/-- What process `i` can count on: nothing is lost, and a file stays as it is while `i` has its
lock. -/
structure CrlRely (i : ι) (w w' : CrlWorld ι) : Prop where
  sessions : w.sessions.Keeps i w'.sessions
  ledger : w.serials ⊆ w'.serials
  outputs : w.outputs ⊆ w'.outputs
  publics : w.publics ⊆ w'.publics
  noted : w'.noted i = w.noted i
  output : i ∉ w'.sessions.ended → w.sessions.holder .output = some i → w'.output = w.output
  served : i ∉ w'.sessions.ended → w.sessions.holder .served = some i → w'.served = w.served
  active : i ∉ w'.sessions.ended → w.sessions.holder .active = some i →
    w'.active = w.active ∧ w'.activated = w.activated

omit [DecidableEq ι] in
theorem CrlRely.refl (i : ι) (w : CrlWorld ι) : CrlRely i w w :=
  ⟨.refl i _, List.Subset.refl _, List.Subset.refl _, List.Subset.refl _, rfl, fun _ _ => rfl,
    fun _ _ => rfl, fun _ _ => ⟨rfl, rfl⟩⟩

omit [DecidableEq ι] in
theorem CrlRely.trans {i : ι} {w w' w'' : CrlWorld ι} (h : CrlRely i w w') (h' : CrlRely i w' w'') :
    CrlRely i w w'' := by
  -- a process that lives in the end has lived, and has kept its locks
  have hlive (hi : i ∉ w''.sessions.ended) : i ∉ w'.sessions.ended :=
    fun he => hi (h'.sessions.ended he)
  have hheld {l : CrlLock} (hi : i ∉ w''.sessions.ended) (hl : w.sessions.holder l = some i) :
      w'.sessions.holder l = some i := h.sessions.held l (hlive hi) hl
  refine ⟨h.sessions.trans h'.sessions, List.Subset.trans h.ledger h'.ledger,
    List.Subset.trans h.outputs h'.outputs, List.Subset.trans h.publics h'.publics,
    h'.noted.trans h.noted, fun hi hl => ?_, fun hi hl => ?_, fun hi hl => ?_⟩
  · exact (h'.output hi (hheld hi hl)).trans (h.output (hlive hi) hl)
  · exact (h'.served hi (hheld hi hl)).trans (h.served (hlive hi) hl)
  · obtain ⟨ha, hd⟩ := h.active (hlive hi) hl
    obtain ⟨ha', hd'⟩ := h'.active hi (hheld hi hl)
    exact ⟨ha'.trans ha, hd'.trans hd⟩

/-! ## One operation -/

def CrlOp.mild : CrlOp → Bool
  | .start | .lock _ | .unlock _ | .replaceOutput _ | .replacePublic _ | .replaceActive _
  | .unlinkActive | .activated => false
  | _ => true

section
variable {ssl : X509} {i j : ι} {w w' : CrlWorld ι} {o : CrlOp} {l : CrlLock} {crl : Bytes}

theorem crlSem_mild (ho : o.mild = true) (h : crlSem i o w r w') :
    ∃ n q, w' = { w with nextNumber := n, receipt := q } := by
  obtain ⟨-, h⟩ := h
  cases o with
  | check | now | gencrl | readBase =>
    cases h
    exact ⟨_, _, rfl⟩
  | selectRevocations | readOutput | readPublic | fetch | readActive | readReceipt =>
    obtain ⟨-, rfl⟩ := h
    exact ⟨_, _, rfl⟩
  | insertState =>
    rcases h with ⟨-, rfl⟩ | rfl
    · exact ⟨_, _, rfl⟩
    · exact ⟨_, _, rfl⟩
  | updateNumber =>
    rcases h with ⟨-, rfl⟩ | ⟨n, -, -, -, rfl⟩
    · exact ⟨_, _, rfl⟩
    · exact ⟨_, _, rfl⟩
  | writeReceipt q =>
    rcases h with rfl | rfl
    · exact ⟨_, _, rfl⟩
    · exact ⟨_, _, rfl⟩
  | start | lock | unlock | replaceOutput | replacePublic | replaceActive | unlinkActive
  | activated => cases ho

section
omit [DecidableEq ι]

theorem CrlRely.mild (n : Option Nat) (q : Option Receipt) :
    CrlRely i w { w with nextNumber := n, receipt := q } := { CrlRely.refl i w with }

theorem CrlInv.mild (h : CrlInv ssl w) (n : Option Nat) (q : Option Receipt) :
    CrlInv ssl { w with nextNumber := n, receipt := q } :=
  { h with active := { h.active with } }

theorem CrlInv.sessions (h : CrlInv ssl w) (s : Sessions ι CrlLock) :
    CrlInv ssl { w with sessions := s } :=
  { h with active := { h.active with } }

theorem CrlRely.locks (h : w.sessions.Keeps i s) :
    CrlRely i w { w with sessions := s } :=
  { CrlRely.refl i w with
    sessions := h
    output := fun _ _ => rfl
    served := fun _ _ => rfl
    active := fun _ _ => ⟨rfl, rfl⟩ }

end

theorem holder_of_guard (h : w.guard j l = false) : w.sessions.holder l = some j := by
  simpa using (Bool.or_eq_false_iff.1 h).2

theorem not_held (hij : i ≠ j) (h : w.guard j l = false) (hi : w.sessions.holder l = some i) :
    False := by
  rw [holder_of_guard h] at hi
  exact hij (Option.some.inj hi).symm

/-- **What the others do.**  A file is changed only by who has its lock. -/
theorem crlSem_rely (hij : i ≠ j) (hI : CrlInv ssl w') (h : crlSem j o w r w') :
    CrlRely i w w' := by
  by_cases ho : o.mild = true
  · obtain ⟨n, q, rfl⟩ := crlSem_mild ho h
    exact .mild n q
  obtain ⟨-, h⟩ := h
  cases o with
  | start =>
    cases h
    exact { CrlRely.refl i w with noted := update_of_ne hij _ _ }
  | lock l =>
    rcases h with ⟨-, rfl⟩ | ⟨-, hfree, rfl⟩
    · exact .refl i _
    · exact .locks (Sessions.keeps_acquire hfree)
  | unlock l =>
    cases h
    exact .locks (Sessions.keeps_release hij)
  | replaceOutput crl =>
    rcases h with ⟨-, rfl⟩ | ⟨-, rfl⟩
    · exact .refl i _
    exact { CrlRely.refl i w with
      outputs := subset_cons_self _ _
      output := fun _ hl => (not_held hij hI.guarded hl).elim }
  | replacePublic crl =>
    rcases h with ⟨-, rfl⟩ | ⟨-, rfl⟩
    · exact .refl i _
    exact { CrlRely.refl i w with
      publics := subset_cons_self _ _
      served := fun _ hl => (not_held hij hI.guarded hl).elim }
  | replaceActive b | unlinkActive =>
    rcases h with ⟨-, rfl⟩ | ⟨-, rfl⟩
    · exact .refl i _
    · exact { CrlRely.refl i w with
        active := fun _ hl => (not_held hij hI.guarded hl).elim }
  | activated =>
    cases h
    exact { CrlRely.refl i w with active := fun _ hl => (not_held hij hI.guarded hl).elim }
  | check | now | gencrl | readBase | selectRevocations | readOutput | readPublic | fetch
  | readActive | readReceipt | insertState | updateNumber | writeReceipt => exact absurd rfl ho

omit [DecidableEq ι] in
theorem serials_subset {ledger : List LedgerRow} (h : w.ledger ⊆ ledger) :
    w.serials ⊆ serialsOf ledger := map_subset _ h

theorem crlEnv_rely (h : CrlEnv w w') : CrlRely i w w' := by
  cases h with
  | revoke ledger hsub =>
    exact { CrlRely.refl i w with ledger := serials_subset hsub }
  | die j => exact .locks Sessions.keeps_stop

section
variable (h : CrlInv ssl w)
include h

theorem CrlInv.env (he : CrlEnv w w') : CrlInv ssl w' := by
  cases he with
  | revoke ledger hsub =>
    exact { h with
      ledger := fun crl hc => List.Subset.trans (h.ledger crl hc) (serials_subset hsub)
      active := { h.active with } }
  | die j => exact h.sessions _

theorem CrlInv.replaceOutput (hl : w.sessions.holder .output = some i)
    (hnew : ∀ old, w.output = some old → Newer ssl old crl) (hledger : ssl.serials crl ⊆ w.serials)
    (hnoted : w.noted i ⊆ ssl.serials crl) : CrlInv ssl (w.replaceOutput i crl) where
  __ := h
  guarded := by simp [CrlWorld.replaceOutput, CrlWorld.guard, h.guarded, hl]
  output := rfl
  outputs := h.outputs.cons fun a ha => h.outputs.newer (fun x hx => hnew x (h.output.trans hx)) ha
  ledger := forall_mem_cons.2 ⟨hledger, h.ledger⟩
  generated x hx := mem_cons_of_mem _ (h.generated x hx)
  active := { h.active with }
  runs := forall_mem_cons.2 ⟨hnoted, h.runs⟩

theorem CrlInv.replacePublic (hl : w.sessions.holder .served = some i)
    (hnew : ∀ old, w.served = some old → Newer ssl old crl) (hcrl : crl ∈ w.outputs) :
    CrlInv ssl (w.replacePublic i crl) where
  __ := h
  guarded := by simp [CrlWorld.replacePublic, CrlWorld.guard, h.guarded, hl]
  served := rfl
  publics := h.publics.cons fun a ha => h.publics.newer (fun x hx => hnew x (h.served.trans hx)) ha
  generated := forall_mem_cons.2 ⟨hcrl, h.generated⟩
  active := by
    refine ⟨fun b hb => ?_, h.active.activated⟩
    rcases h.active.one b hb with hnone | ⟨x, hx, hone⟩
    · exact .inl hnone
    · exact .inr ⟨x, mem_cons_of_mem _ hx, hone⟩

theorem CrlInv.setActive (hl : w.sessions.holder .active = some i)
    {b : Option Bundle} (hb : ActiveOk ssl w b) : CrlInv ssl (w.setActive i b) :=
  { h with
    guarded := by simp [CrlWorld.setActive, CrlWorld.guard, h.guarded, hl]
    active := { hb with } }

theorem CrlInv.noteActivated (hl : w.sessions.holder .active = some i)
    (hb : w.active = some b) (hcrl : b.crls = [crl]) (hn : ssl.number crl = some n) :
    CrlInv ssl (w.noteActivated i) := by
  have hact : (w.noteActivated i).activated = crl :: w.activated := by
    simp [CrlWorld.noteActivated, hb, hcrl]
  -- the bundle is as new as any before it
  have hnew (x : Bytes) (hx : x ∈ w.activated) : Newer ssl x crl := by
    obtain ⟨b', crl', hb', hcrl', hnewer⟩ := h.active.activated x hx
    cases hb.symm.trans hb'
    rw [hcrl] at hcrl'
    cases hcrl'
    exact hnewer
  refine { h with guarded := ?_, activated := ?_, active := ⟨h.active.one, ?_⟩ }
  · simp [CrlWorld.noteActivated, CrlWorld.guard, h.guarded, hl]
  · rw [hact]
    exact h.activated.cons hnew
  · rw [hact]
    exact forall_mem_cons.2 ⟨⟨b, _, hb, hcrl, .refl hn⟩, fun x hx => ⟨b, crl, hb, hcrl, hnew x hx⟩⟩

end

end

/-! ## The programs -/

def crlSetting (ssl : X509) (i : ι) : Setting CrlOp CrlRes (CrlWorld ι) :=
  ⟨crlSem i, CrlRely i, CrlInv ssl⟩

abbrev Runs (ssl : X509) (i : ι) {α : Type} (P : CrlWorld ι → Prop) (x : CrlM α)
    (Q : α → CrlWorld ι → Prop) : Prop := Ends (crlSetting ssl i) P x Q

abbrev Kept (ssl : X509) (i : ι) (P : CrlWorld ι → Prop) : Prop := (crlSetting ssl i).Stable P

section
variable {ssl : X509} {i : ι} {α β : Type} {w w' : CrlWorld ι} {P F : CrlWorld ι → Prop}
  {old cur : Option Bundle} {base : Bytes}

theorem runs_mild {F : CrlRes o → CrlWorld ι → Prop} (hP : Kept ssl i P) (ho : o.mild = true)
    (hF : ∀ w r n q, P w → CrlInv ssl w → crlSem i o w r { w with nextNumber := n, receipt := q } →
      F r { w with nextNumber := n, receipt := q }) :
    Runs ssl i P (act o) fun r w => P w ∧ F r w := by
  refine .op hP fun w r w' hw hI hs => ?_
  obtain ⟨n, q, rfl⟩ := crlSem_mild ho hs
  have hI' := CrlInv.mild hI n q
  exact ⟨hI', hP w _ hw (.mild n q) hI', hF w r n q hw hI hs⟩

theorem runs_any (hP : Kept ssl i P) (ho : o.mild = true) : Runs ssl i P (act o) fun _ => P :=
  (runs_mild (F := fun _ _ => True) hP ho fun _ _ _ _ _ _ _ => trivial).post fun _ _ h => h.1

theorem runs_check {e : String} (hP : Kept ssl i P) {f : Unit → CrlM α}
    {Q : α → CrlWorld ι → Prop} (h : Runs ssl i P (f ()) Q) : Runs ssl i P (check c e >>= f) Q :=
  .bind (.bind (runs_any hP rfl) fun _ => ends_require fun _ h _ => h) fun _ => h

theorem crlQuiet : Quiet (crlSetting ssl i) fun _ => True where
  any {o} _ hP ho := by
    refine runs_any hP ?_
    cases o with
    | start | lock | unlock | replaceOutput | replacePublic | replaceActive | unlinkActive
    | activated => cases ho
    | _ => rfl
  verified hP := (runs_any hP rfl).post fun _ _ h => ⟨h, fun _ => trivial⟩

/-! ### Under a lock -/

/-- As long as process `i` lives it has the lock, and `F` holds. -/
def While (i : ι) (l : CrlLock) (F : CrlWorld ι → Prop) (w : CrlWorld ι) : Prop :=
  i ∉ w.sessions.ended → w.sessions.holder l = some i ∧ F w

def Guarded (i : ι) (l : CrlLock) (F : CrlWorld ι → Prop) : Prop :=
  ∀ w w', w.sessions.holder l = some i → i ∉ w'.sessions.ended → CrlRely i w w' → F w → F w'

theorem kept_while (hF : Guarded i l F) : Kept ssl i (While i l F) := by
  intro w w' h hR _ hi
  obtain ⟨hl, hw⟩ := h fun he => hi (hR.sessions.ended he)
  exact ⟨hR.sessions.held l hi hl, hF w w' hl hi hR hw⟩

theorem runs_while {G : CrlRes o → CrlWorld ι → Prop} (hF : Guarded i l F) (ho : o.mild = true)
    (hG : ∀ w r n q, F w → CrlInv ssl w → crlSem i o w r { w with nextNumber := n, receipt := q } →
      G r { w with nextNumber := n, receipt := q }) :
    Runs ssl i (While i l F) (act o) fun r => While i l fun w => F w ∧ G r w := by
  refine (runs_mild (F := fun r w => i ∉ w.sessions.ended → G r w) (kept_while hF) ho
    fun w r n q hw hI hs hi => hG w r n q (hw hi).2 hI hs).post ?_
  intro r w h hi
  obtain ⟨hl, hw⟩ := h.1 hi
  exact ⟨hl, hw, h.2 hi⟩

omit [DecidableEq ι] in
theorem Guarded.and {G : CrlWorld ι → Prop} (hF : Guarded i l F) (hG : Guarded i l G) :
    Guarded i l fun w => F w ∧ G w :=
  fun w w' hl hi hR h => ⟨hF w w' hl hi hR h.1, hG w w' hl hi hR h.2⟩

theorem runs_withLock {body : CrlM α} (hF : Kept ssl i F)
    (hlock : ∀ w s, F w → F { w with sessions := s })
    (hbody : Runs ssl i (While i l F) body fun _ _ => True) :
    Runs ssl i F (withLock l body) fun _ _ => True := by
  refine .bind (Q := fun r w => r = true → While i l F w) ?_ fun r => ?_
  · refine .op hF fun w r w' hw hI hs => ?_
    obtain ⟨hlive, ⟨rfl, rfl⟩ | ⟨-, -, rfl⟩⟩ := hs
    · exact ⟨hI, fun h => by cases h⟩
    · exact ⟨CrlInv.sessions hI _, fun _ _ =>
        ⟨(Sessions.acquire_holds hlive).2, hlock w _ hw⟩⟩
  · refine .bind (Q := fun _ => While i l F) (ends_require fun w hw hr => hw hr) fun _ => ?_
    refine .after hbody (fun _ _ _ _ _ _ => trivial) (fun _ _ _ _ _ _ => trivial) ?_
    rintro w r w' hI ⟨-, rfl⟩
    exact ⟨CrlInv.sessions hI _, fun _ _ => trivial, fun _ _ => trivial⟩

theorem kept_true : Kept ssl i fun _ : CrlWorld ι => True := fun _ _ _ _ _ => trivial

theorem runs_replace {new : CrlWorld ι → CrlWorld ι} (hF : Guarded i l F)
    (ho : ∀ w r w', crlSem i o w r w' → i ∉ w.sessions.ended ∧ (w' = w ∨ w' = new w))
    (hnew : ∀ w, CrlInv ssl w → w.sessions.holder l = some i → F w → CrlInv ssl (new w)) :
    Runs ssl i (While i l F) (act o) fun _ _ => True := by
  refine .op (kept_while hF) fun w r w' h hI hs => ⟨?_, trivial⟩
  obtain ⟨hlive, rfl | rfl⟩ := ho w r w' hs
  · exact hI
  · exact hnew w hI (h hlive).1 (h hlive).2

/-! ### Generating -/

def StartSeen (i : ι) (w : CrlWorld ι) : Prop := w.noted i ⊆ w.serials

section
omit [DecidableEq ι]

theorem StartSeen.rely (h : StartSeen i w) (hR : CrlRely i w w') :
    StartSeen i w' := by
  unfold StartSeen
  rw [hR.noted]
  exact List.Subset.trans h hR.ledger

theorem guarded_startSeen : Guarded i l (StartSeen i) :=
  fun _ _ _ _ hR h => h.rely hR

end

theorem runs_readLedger {F : List LedgerRow → CrlWorld ι → Prop} (hP : Kept ssl i P)
    (hF : ∀ w read n q, P w → CrlInv ssl w → (∀ s, s ∈ serialsOf read ↔ s ∈ w.serials) →
      F read { w with nextNumber := n, receipt := q }) :
    Runs ssl i P readLedger fun read w => P w ∧ F read w := by
  refine crlQuiet.readLedger hP (runs_mild hP rfl fun w r n q hw hI hs rows read hr hread => ?_)
  obtain ⟨-, hrows, -⟩ := hs
  rcases hrows with hnone | hrows
  · rw [hr] at hnone
    cases hnone
  cases hr.symm.trans hrows
  refine hF w read n q hw hI fun s => (readRows_serials hread s).trans ?_
  simp only [serialsOf, CrlWorld.serials, mem_map, mem_mergeSort]

def Older (ssl : X509) (number : Nat) (w : CrlWorld ι) : Prop :=
  ∀ old, w.output = some old → ∃ m, ssl.number old = some m ∧ m < number

def Covers (ssl : X509) (i : ι) (read : List LedgerRow) (w : CrlWorld ι) : Prop :=
  serialsOf read ⊆ w.serials ∧ (∀ old, w.output = some old → ssl.serials old ⊆ serialsOf read) ∧
    w.noted i ⊆ serialsOf read

section
omit [DecidableEq ι]

theorem guarded_older {number : Nat} : Guarded i .output (Older ssl number) := by
  intro w w' hl hi hR h old ho
  exact h old ((hR.output hi hl).symm.trans ho)

theorem guarded_covers {read : List LedgerRow} : Guarded i .output (Covers ssl i read) := by
  intro w w' hl hi hR h
  refine ⟨List.Subset.trans h.1 hR.ledger, fun old ho => ?_, hR.noted ▸ h.2.2⟩
  exact h.2.1 old ((hR.output hi hl).symm.trans ho)

end

theorem runs_checkOutput (number : Nat) :
    Runs ssl i (While i .output (StartSeen i)) (checkOutput ssl number) fun _ =>
      While i .output fun w => StartSeen i w ∧ Older ssl number w := by
  have hguard (out : Option Bytes) : Guarded i .output fun w => StartSeen i w ∧ w.output = out :=
    guarded_startSeen.and fun w w' hl hi hR h => (hR.output hi hl).trans h
  refine crlQuiet.checkOutput (fun r => kept_while (hguard r)) (runs_while guarded_startSeen rfl ?_)
    (fun w h hi => ?_) fun w old m h hm hlt hi => ?_
  · rintro w r n q - - ⟨-, hr, -⟩
    exact hr.symm
  · obtain ⟨hl, hseen, hout⟩ := h hi
    refine ⟨hl, hseen, fun old ho => ?_⟩
    cases hout.symm.trans ho
  · obtain ⟨hl, hseen, hout⟩ := h hi
    refine ⟨hl, hseen, fun old' ho => ?_⟩
    cases hout.symm.trans ho
    exact ⟨m, hm, hlt⟩

theorem runs_generateLocked (hours : Int) (revocations : List LedgerRow) :
    Runs ssl i (While i .output (StartSeen i)) (generateLocked ssl hours revocations)
      fun _ _ => True := by
  refine .bind (crlQuiet.allocateNumber (kept_while guarded_startSeen)) fun number => ?_
  refine .bind (runs_checkOutput number) fun _ => ?_
  have hkept : Kept ssl i (While i .output fun w => StartSeen i w ∧ Older ssl number w) :=
    kept_while (guarded_startSeen.and guarded_older)
  refine .bind (runs_any hkept rfl) fun now => ?_
  cases crlIndex now revocations with
  | error e => exact .throw fun _ _ => trivial
  | ok index =>
    refine .bind (runs_any hkept rfl) fun _ => ?_
    refine .bind
      (Q := fun _ => While i .output fun w => StartSeen i w ∧ Older ssl number w)
      (ends_getOr fun _ _ hw _ => hw) fun crl => ?_
    refine .bind (crlQuiet.verifyCandidate hkept) fun _ => ?_
    -- the second read is made under the lock, and must find the rows of the first
    refine .bind (runs_readLedger (F := fun read w => i ∉ w.sessions.ended →
      Covers ssl i read w) (stable_and hkept) fun w read n q h hI hread hi => ?_) fun again => ?_
    · obtain ⟨-, hseen, -⟩ := h.1 hi
      refine ⟨fun s hs => (hread s).1 hs, fun old ho s hs => (hread s).2 ?_,
        fun s hs => (hread s).2 (hseen hs)⟩
      have hmem : old ∈ w.outputs := List.mem_of_mem_head? (hI.output.symm.trans ho)
      exact hI.ledger old hmem hs
    refine .bind (Q := fun _ w => Verified ssl crl number revocations ∧
      While i .output (fun w => Older ssl number w ∧ Covers ssl i revocations w) w)
      (ends_require fun w h heq => ?_) fun _ => ?_
    · subst heq
      refine ⟨h.1.2.2, fun hi => ?_⟩
      obtain ⟨hl, -, hold⟩ := h.1.1 hi
      exact ⟨hl, hold, h.2 hi⟩
    refine .given (fun _ h => h.1) fun ⟨hnum, hsub, hsup⟩ => .pre ?_ fun _ h => h.2
    refine .bind (runs_replace (guarded_older.and guarded_covers)
      (fun _ _ _ hs => ⟨hs.1, hs.2.imp And.right And.right⟩) ?_) fun _ => ?_
    · rintro w hI hl ⟨hold, hread, hout, hnoted⟩
      refine CrlInv.replaceOutput hI hl (fun old ho => ?_)
        (List.Subset.trans hsub hread) (List.Subset.trans hnoted hsup)
      obtain ⟨m, hm, hlt⟩ := hold old ho
      exact ⟨m, number, hm, hnum, hlt.le, fun heq => absurd heq hlt.ne,
        List.Subset.trans (hout old ho) hsup⟩
    refine ends_keep ?_
    refine runs_check kept_true ?_
    exact .bind (runs_any kept_true rfl) fun _ => ends_require fun _ _ _ => trivial

theorem runs_generate (hours : Int) (permitOtherIssuers : Bool) :
    Runs ssl i (fun _ => True) (generate ssl hours permitOtherIssuers) fun _ _ => True := by
  have hkept : Kept ssl i (StartSeen i) := fun w w' h hR _ => h.rely hR
  refine .bind (Q := fun _ => StartSeen i) (.op kept_true fun w r w' _ hI hs => ?_) fun _ => ?_
  · obtain ⟨-, rfl⟩ := hs
    refine ⟨{ hI with active := { hI.active with } }, ?_⟩
    simp only [StartSeen, update_self]
    exact List.Subset.refl _
  refine ends_keep ?_
  refine runs_check hkept ?_
  refine .bind (Q := fun _ => StartSeen i)
    ((runs_readLedger (F := fun _ _ => True) hkept fun _ _ _ _ _ _ _ => trivial).post
      fun _ _ h => h.1) fun revocations => ?_
  refine .bind (runs_any hkept rfl) fun _ => ?_
  refine ends_keep ?_
  exact runs_withLock hkept (fun w s h => h) (runs_generateLocked hours revocations)

/-! ### Publishing -/

def Generated (ssl : X509) (crl : Bytes) (n : Nat) (w : CrlWorld ι) : Prop :=
  crl ∈ w.outputs ∧ ssl.number crl = some n

def ServedOlder (ssl : X509) (crl : Bytes) (w : CrlWorld ι) : Prop :=
  ∀ old, w.served = some old → Newer ssl old crl

section
omit [DecidableEq ι]

theorem guarded_generated : Guarded i l (Generated ssl crl n) :=
  fun _ _ _ _ hR h => ⟨hR.outputs h.1, h.2⟩

theorem guarded_servedOlder : Guarded i .served (ServedOlder ssl crl) :=
  fun _ _ hl hi hR h old ho => h old ((hR.served hi hl).symm.trans ho)

end

theorem runs_checkPublic (crl : Bytes) (n : Nat) :
    Runs ssl i (While i .served (Generated ssl crl n)) (checkPublic ssl crl n) fun _ =>
      While i .served fun w => Generated ssl crl n w ∧ ServedOlder ssl crl w := by
  -- what the numbers of the two CRLs will tell is known from the histories at the read
  have hguard (r : Option Bytes) : Guarded i .served fun w => Generated ssl crl n w ∧ w.served = r ∧
      ∀ old, r = some old → ∀ m, ssl.number old = some m → m ≤ n → Newer ssl old crl :=
    guarded_generated.and fun w w' hl hi hR h => ⟨(hR.served hi hl).trans h.1, h.2⟩
  refine crlQuiet.checkPublic (fun r => kept_while (hguard r)) (runs_while guarded_generated rfl ?_)
    (fun w h hi => ?_) fun w old m h hm hle hi => ?_
  · rintro w r k q h hI ⟨-, hr, -⟩
    refine ⟨hr.symm, fun old hold m hm hle => ?_⟩
    have hmem : old ∈ w.publics := List.mem_of_mem_head? (hI.served.symm.trans (hr.symm.trans hold))
    exact hI.outputs.newer_of_le (hI.generated old hmem) h.1 hm h.2 hle
  · obtain ⟨hl, hgen, hserved, -⟩ := h hi
    refine ⟨hl, hgen, fun old ho => ?_⟩
    cases hserved.symm.trans ho
  · obtain ⟨hl, hgen, hserved, hnewer⟩ := h hi
    refine ⟨hl, hgen, fun o ho => ?_⟩
    cases hserved.symm.trans ho
    exact hnewer old rfl m hm hle

theorem runs_publish : Runs ssl i (fun _ => True) (publish ssl) fun _ _ => True := by
  refine runs_check kept_true ?_
  refine .bind (runs_mild (F := fun r w => ∀ crl, r = some crl → crl ∈ w.outputs)
    kept_true rfl ?_) fun r => ?_
  · rintro w r n q - hI ⟨-, hr, -⟩ crl hcrl
    exact List.mem_of_mem_head? (hI.output.symm.trans (hr.symm.trans hcrl))
  refine .bind (Q := fun crl w => crl ∈ w.outputs)
    (ends_getOr fun w crl h hcrl => h.2 crl hcrl) fun crl => ?_
  refine .bind (Q := fun n => Generated ssl crl n)
    ((crlQuiet.crlInfo (fun w w' h hR _ => hR.outputs h) true).post fun _ _ h => ⟨h.1, h.2.2⟩)
    fun n => ?_
  refine runs_withLock (F := Generated ssl crl n)
    (fun w w' h hR _ => ⟨hR.outputs h.1, h.2⟩) (fun _ _ h => h) ?_
  refine .bind (runs_checkPublic crl n) fun replace => ?_
  split
  · refine .bind (runs_replace (guarded_generated.and guarded_servedOlder)
      (fun _ _ _ hs => ⟨hs.1, hs.2.imp And.right And.right⟩)
      fun w hI hl h => CrlInv.replacePublic hI hl h.2 h.1.1) fun _ => ?_
    refine ends_keep ?_
    refine runs_check kept_true ?_
    exact .pure fun _ _ => trivial
  · exact .pure fun _ _ => trivial

/-! ### Activating -/

structure Ready (ssl : X509) (crl : Bytes) (old cur : Option Bundle) (w : CrlWorld ι) : Prop where
  current : w.active = cur
  fetched : crl ∈ w.publics
  back : ActiveOk ssl w old
  newer : ∀ x ∈ w.activated, Newer ssl x crl

section
omit [DecidableEq ι]

theorem ActiveOk.guarded {b : Option Bundle}
    (hl : w.sessions.holder .active = some i) (hi : i ∉ w'.sessions.ended) (hR : CrlRely i w w')
    (h : ActiveOk ssl w b) : ActiveOk ssl w' b := by
  refine ⟨fun b' hb' => ?_, ?_⟩
  · rcases h.one b' hb' with hnone | ⟨crl, hcrl, hone⟩
    · exact .inl hnone
    · exact .inr ⟨crl, hR.publics hcrl, hone⟩
  · rw [(hR.active hi hl).2]
    exact h.activated

theorem guarded_ready : Guarded i .active (Ready ssl crl old cur) := by
  intro w w' hl hi hR h
  obtain ⟨hactive, hactivated⟩ := hR.active hi hl
  refine ⟨hactive.trans h.current, hR.publics h.fetched, h.back.guarded hl hi hR, ?_⟩
  rw [hactivated]
  exact h.newer

theorem Ready.activeOk (h : Ready ssl crl old cur w) : ActiveOk ssl w (some ⟨base, [crl]⟩) where
  one b hb := by
    cases hb
    exact .inr ⟨crl, h.fetched, rfl⟩
  activated x hx := ⟨_, crl, rfl, rfl, h.newer x hx⟩

end

structure Fetched (ssl : X509) (crl : Bytes) (n : Nat) (old : Option Bundle) (w : CrlWorld ι) :
    Prop where
  current : w.active = old
  fetched : crl ∈ w.publics
  back : ActiveOk ssl w old
  newer : ∀ b prev, old = some b → b.crls = [prev] → ∀ m, ssl.number prev = some m → m ≤ n →
    Newer ssl prev crl

section
omit [DecidableEq ι]

theorem guarded_fetched : Guarded i .active (Fetched ssl crl n old) := by
  intro w w' hl hi hR h
  exact ⟨(hR.active hi hl).1.trans h.current, hR.publics h.fetched, h.back.guarded hl hi hR,
    h.newer⟩

theorem Fetched.ready (h : Fetched ssl crl n old w) (hle : ∀ prev,
    (old.map (·.crls)).getD [] = [prev] → ∃ m, ssl.number prev = some m ∧ m ≤ n) :
    Ready ssl crl old old w := by
  refine ⟨h.current, h.fetched, h.back, fun x hx => ?_⟩
  obtain ⟨b, prev, rfl, hb, hnewer⟩ := h.back.activated x hx
  obtain ⟨m, hm, hle⟩ := hle prev hb
  exact hnewer.trans (h.newer b prev rfl hb m hm hle)

end

theorem runs_checkActive :
    Runs ssl i (While i .active (Fetched ssl crl n old)) (checkActive ssl old crl n) fun _ =>
      While i .active (Ready ssl crl old old) := by
  refine crlQuiet.checkActive (kept_while guarded_fetched) (fun hnone w h hi => ?_)
    fun prev m hprev hm hle w h hi => ?_
  · refine ⟨(h hi).1, (h hi).2.ready fun prev hprev => ?_⟩
    cases hnone.symm.trans hprev
  · refine ⟨(h hi).1, (h hi).2.ready fun prev' hprev' => ?_⟩
    cases hprev.symm.trans hprev'
    exact ⟨m, hm, hle⟩

theorem runs_activated (hn : ssl.number crl = some n) (r : Bool) :
    Runs ssl i (While i .active (Ready ssl crl old (some ⟨base, [crl]⟩)))
      (act .activated >>= fun _ => pure r) fun _ _ => True := by
  refine .bind (Q := fun _ _ => True) (.op (kept_while guarded_ready) fun w _ w' h hI hs =>
    ⟨?_, trivial⟩) fun _ => .pure fun _ _ => trivial
  obtain ⟨hlive, rfl⟩ := hs
  obtain ⟨hl, hready⟩ := h hlive
  exact CrlInv.noteActivated hI hl hready.current rfl hn

theorem runs_reconcile (service : String) (hn : ssl.number crl = some n) :
    Runs ssl i (While i .active (Ready ssl crl old (some ⟨base, [crl]⟩)))
      (reconcile service ⟨n, crl⟩) fun _ _ => True := by
  have hkept : Kept ssl i (While i .active (Ready ssl crl old (some ⟨base, [crl]⟩))) :=
    kept_while guarded_ready
  refine .bind (runs_any hkept rfl) fun written => ?_
  split
  · refine .bind (runs_any hkept rfl) fun mode => ?_
    split
    · exact runs_activated hn _
    refine .bind (runs_any hkept rfl) fun _ => ?_
    refine ends_keep ?_
    exact runs_activated hn _
  · refine runs_check hkept ?_
    refine .bind (runs_any hkept rfl) fun _ => ?_
    refine ends_keep ?_
    exact runs_activated hn _

theorem runs_rollBack (service : String) {cur : Option Bundle} :
    Runs ssl i (While i .active (Ready ssl crl old cur)) (rollBack service old)
      fun _ _ => True := by
  have hend : Runs ssl i (fun _ => True) (do
      check (.restarted service) "rollback restart also failed"
      throw "activation failed; previous bundle restored") fun (_ : Bool) _ => True :=
    runs_check kept_true (.throw fun _ _ => trivial)
  have hback {o : CrlOp} (ho : ∀ w r w', crlSem i o w r w' →
      i ∉ w.sessions.ended ∧ (w' = w ∨ w' = w.setActive i old)) :
      Runs ssl i (While i .active (Ready ssl crl old cur)) (act o) fun _ _ => True :=
    runs_replace guarded_ready ho fun w hI hl h => CrlInv.setActive hI hl h.back
  cases old with
  | none =>
    exact .bind (hback fun _ _ _ hs => ⟨hs.1, hs.2.imp And.right And.right⟩) fun _ =>
      ends_keep hend
  | some b =>
    exact .bind (hback fun _ _ _ hs => ⟨hs.1, hs.2.imp And.right And.right⟩) fun _ =>
      ends_keep (runs_check kept_true hend)

theorem runs_install (service : String) (hn : ssl.number crl = some n) :
    Runs ssl i (While i .active (Ready ssl crl old old))
      (install service old ⟨base, [crl]⟩ ⟨n, crl⟩) fun _ _ => True := by
  refine runs_check (kept_while guarded_ready) ?_
  refine .bind (Q := fun r w => r = true →
    While i .active (Ready ssl crl old (some ⟨base, [crl]⟩)) w)
    (.op (kept_while guarded_ready) fun w r w' h hI hs => ?_) fun replaced => ?_
  · obtain ⟨hlive, ⟨rfl, rfl⟩ | ⟨-, rfl⟩⟩ := hs
    · exact ⟨hI, fun hr => by cases hr⟩
    obtain ⟨hl, hready⟩ := h hlive
    exact ⟨CrlInv.setActive hI hl hready.activeOk, fun _ _ =>
      ⟨hl, rfl, hready.fetched, { hready.back with }, hready.newer⟩⟩
  refine .bind (Q := fun _ =>
    While i .active (Ready ssl crl old (some ⟨base, [crl]⟩)))
    (ends_require fun w h hr => h hr) fun _ => ?_
  have hkept : Kept ssl i (While i .active (Ready ssl crl old (some ⟨base, [crl]⟩))) :=
    kept_while guarded_ready
  refine .bind (runs_any hkept rfl) fun synced => ?_
  split
  · exact runs_rollBack service
  refine .bind (runs_any hkept rfl) fun restarted => ?_
  split
  · exact runs_rollBack service
  refine .bind (runs_any hkept rfl) fun _ => ?_
  refine ends_keep ?_
  exact runs_activated hn _

theorem runs_activateLocked (args : ActivateArgs) :
    Runs ssl i (While i .active fun _ => True) (activateLocked ssl args) fun _ _ => True := by
  refine ends_keep ?_
  refine ends_keep ?_
  refine .bind (runs_while (G := fun r w => ∀ crl, r = some crl → crl ∈ w.publics)
    (fun _ _ _ _ _ _ => trivial) rfl ?_) fun r => ?_
  · rintro w r n q - hI ⟨-, hr, -⟩ crl hcrl
    rcases hr with hnone | hr
    · cases hnone.symm.trans hcrl
    · exact List.mem_of_mem_head? (hI.served.symm.trans (hr.symm.trans hcrl))
  refine .bind (Q := fun crl => While i .active fun w => crl ∈ w.publics)
    (ends_getOr fun w crl h hcrl hi => ⟨(h hi).1, (h hi).2.2 crl hcrl⟩) fun crl => ?_
  have hguard : Guarded i .active fun w : CrlWorld ι => crl ∈ w.publics :=
    fun _ _ _ _ hR h => hR.publics h
  refine .bind (runs_any (kept_while hguard) rfl) fun _ => ?_
  refine .bind (Q := fun _ => While i .active fun w => crl ∈ w.publics)
    (ends_getOr fun _ _ h _ => h) fun base => ?_
  refine .bind (crlQuiet.validateCrl (kept_while hguard) args base) fun n => ?_
  have hkept : Kept ssl i fun w => While i .active (fun w => crl ∈ w.publics) w ∧
      ssl.number crl = some n := stable_and (kept_while hguard)
  refine runs_check hkept ?_
  -- the histories at the read decide what a comparison of numbers will mean
  refine .bind (Q := fun old w => While i .active (Fetched ssl crl n old) w ∧
    ssl.number crl = some n) ((runs_mild (F := fun old w => i ∉ w.sessions.ended →
      Fetched ssl crl n old w) hkept rfl ?_).post ?_) fun old => ?_
  · rintro w r k q ⟨hwhile, hn⟩ hI ⟨-, rfl, -⟩ hi
    obtain ⟨-, hfetched⟩ := hwhile hi
    refine ⟨rfl, hfetched, { hI.active with }, fun b prev hb hprev m hm hle => ?_⟩
    rcases hI.active.one b hb with hnone | ⟨crl', hcrl', hone⟩
    · rw [hnone] at hprev
      cases hprev
    rw [hone] at hprev
    cases hprev
    exact hI.publics.newer_of_le hcrl' hfetched hm hn hle
  · rintro old w ⟨⟨hwhile, hn⟩, hfetched⟩
    exact ⟨fun hi => ⟨(hwhile hi).1, hfetched hi⟩, hn⟩
  refine .given (fun _ h => h.2) fun hn => .pre ?_ fun _ h => h.1
  refine .bind runs_checkActive fun same => ?_
  split
  · next hsame =>
    rw [hsame.2]
    exact runs_reconcile args.service hn
  · exact runs_install args.service hn

theorem runs_activate (args : ActivateArgs) :
    Runs ssl i (fun _ => True) (activate ssl args) fun _ _ => True :=
  runs_withLock kept_true (fun _ _ _ => trivial) (runs_activateLocked args)

end

/-! ## Runs -/

theorem crlRelies (ssl : X509) : (crlSystem ι ssl).Relies (CrlInv ssl) CrlRely where
  refl i w := .refl i w
  trans _ _ _ _ h h' := h.trans h'
  other _ _ _ _ _ _ hij _ hI h := crlSem_rely hij hI h
  env _ _ _ _ _ h := crlEnv_rely h

omit [DecidableEq ι] in
theorem CrlInitial.inv {ssl : X509} (h : CrlInitial w) : CrlInv ssl w := by
  obtain ⟨hout, hserved, hactive, houts, hpubs, hacts, hruns, hguard⟩ := h
  refine ⟨hguard, ?_, ?_, ?_, ?_, ?_, ?_, ?_, ⟨fun b hb => .inl (hactive b hb), ?_⟩, ?_⟩
  all_goals simp [History, hout, hserved, houts, hpubs, hacts, hruns]

theorem Runs.safe {ssl : X509} {i : ι} {α : Type} {x : CrlM α}
    (h : Runs ssl i (fun _ => True) x fun _ _ => True) :
    Safe (crlSem i) (CrlRely i) (CrlInv ssl) (fun (_ : Unit) _ => True)
      (x.run >>= fun _ => .ret ()) w :=
  (h w trivial).seq fun _ _ _ => trivial

theorem crlSystem_invariant {ssl : X509} {c c' : Conf ι CrlOp CrlRes (CrlWorld ι) Unit}
    (hc : (crlSystem ι ssl).Initial CrlInitial c) (hs : (crlSystem ι ssl).Steps c c') :
    CrlInv ssl c'.shared := by
  refine (System.invariant (R := CrlRely) (A := fun _ _ _ => True) (crlRelies ssl)
    (fun _ _ _ _ _ _ _ => trivial) ?_ (fun _ _ h he => h.env he) (fun _ _ _ _ _ => trivial)
    (fun _ h => h.inv) hc hs).1
  intro i m p w hstart _ _
  cases hstart with
  | generate hours permit => exact (runs_generate hours permit).safe
  | publish => exact runs_publish.safe
  | activate args => exact (runs_activate args).safe

/-- **Revocation never goes back.** Along the output file, the served file and the activated bundles
CRLs only get newer; what the active bundle revokes is in the ledger, and what was in the ledger
when a generation started is in the bundle its output became. -/
theorem revocation_never_goes_back {ssl : X509} {c c' : Conf ι CrlOp CrlRes (CrlWorld ι) Unit}
    (hc : (crlSystem ι ssl).Initial CrlInitial c) (hs : (crlSystem ι ssl).Steps c c') :
    (c'.shared.output = c'.shared.outputs.head? ∧ History ssl c'.shared.outputs) ∧
    (c'.shared.served = c'.shared.publics.head? ∧ History ssl c'.shared.publics) ∧
    History ssl c'.shared.activated ∧
    (∀ b, c'.shared.active = some b → ∀ crl ∈ b.crls, ssl.serials crl ⊆ c'.shared.serials) ∧
    (∀ run ∈ c'.shared.runs, run.2 ∈ c'.shared.activated → ∀ s ∈ run.1,
      ∃ b, c'.shared.active = some b ∧ ∃ crl ∈ b.crls, s ∈ ssl.serials crl) := by
  have hI := crlSystem_invariant hc hs
  refine ⟨⟨hI.output, hI.outputs⟩, ⟨hI.served, hI.publics⟩, hI.activated, ?_, ?_⟩
  · intro b hb crl hcrl
    rcases hI.active.one b hb with hnone | ⟨crl', hmem, hone⟩
    · rw [hnone] at hcrl
      cases hcrl
    rw [hone, mem_singleton] at hcrl
    subst hcrl
    exact hI.ledger crl (hI.generated crl hmem)
  · intro run hrun hact s hs
    obtain ⟨b, crl, hb, hone, hnewer⟩ := hI.active.activated run.2 hact
    refine ⟨b, hb, crl, ?_, hnewer.serials (hI.runs run hrun hs)⟩
    rw [hone]
    exact mem_singleton_self crl

/-! ### A revocation on its way -/

def byteCrl : X509 where
  number b := b.head?.map UInt8.toNat
  serials _ := ["A1"]
  lastUpdate _ := 1000000
  nextUpdate _ := 1000000 + 2 * hour

def crlAnswers : (o : CrlOp) → CrlWorld Unit → CrlRes o × CrlWorld Unit
  | .start, w => ((), { w with noted := Function.update w.noted () w.serials })
  | .check c, w => (c != .otherIssuers, w)
  | .now, w => (1000000, w)
  | .selectRevocations, w => (some (w.ledger.mergeSort bySerial), w)
  | .insertState, w => (true, { w with nextNumber := some (w.nextNumber.getD 1) })
  | .updateNumber, w =>
    match w.nextNumber with
    | none => (none, w)
    | some n =>
      if n + 1 < 2 ^ 64 then (some n, { w with nextNumber := some (n + 1) }) else (none, w)
  | .gencrl _ number _, w => (some [UInt8.ofNat number], w)
  | .lock l, w =>
    if w.sessions.holder l = none then (true, { w with sessions := w.sessions.acquire () l })
    else (false, w)
  | .unlock l, w => ((), { w with sessions := w.sessions.release () l })
  | .readOutput, w => (w.output, w)
  | .replaceOutput crl, w => (true, w.replaceOutput () crl)
  | .readPublic, w => (w.served, w)
  | .replacePublic crl, w => (true, w.replacePublic () crl)
  | .fetch, w => (w.served, w)
  | .readBase, w => (some [0], w)
  | .readActive, w => (w.active, w)
  | .replaceActive b, w => (true, w.setActive () (some b))
  | .unlinkActive, w => (true, w.setActive () none)
  | .readReceipt, w => (w.receipt, w)
  | .writeReceipt q, w => (true, { w with receipt := some q })
  | .activated, w => ((), w.noteActivated ())

def crlLives (i : Unit) (_ : CrlOp) (w : CrlWorld Unit) : Bool := decide (i ∉ w.sessions.ended)

theorem crlAnswers_sem (i : Unit) (o : CrlOp) (w : CrlWorld Unit)
    (hlive : crlLives i o w = true) : crlSem i o w (crlAnswers o w).1 (crlAnswers o w).2 := by
  have hi : i ∉ w.sessions.ended := of_decide_eq_true hlive
  cases o with
  | start | check | now | gencrl | readBase | unlock | activated => exact ⟨hi, rfl⟩
  | readOutput | readPublic | readActive | readReceipt => exact ⟨hi, rfl, rfl⟩
  | selectRevocations | fetch => exact ⟨hi, .inr rfl, rfl⟩
  | insertState | writeReceipt => exact ⟨hi, .inr rfl⟩
  | replaceOutput | replacePublic | replaceActive | unlinkActive => exact ⟨hi, .inr ⟨rfl, rfl⟩⟩
  | updateNumber =>
    cases hn : w.nextNumber with
    | none =>
      simp only [crlAnswers, hn]
      exact ⟨hi, .inl ⟨rfl, rfl⟩⟩
    | some n =>
      simp only [crlAnswers, hn]
      by_cases hlt : n + 1 < 2 ^ 64
      · rw [if_pos hlt]
        exact ⟨hi, .inr ⟨n, hn, hlt, .inr rfl, rfl⟩⟩
      · rw [if_neg hlt]
        exact ⟨hi, .inl ⟨rfl, rfl⟩⟩
  | lock l =>
    by_cases hfree : w.sessions.holder l = none
    · simp only [crlAnswers, if_pos hfree]
      exact ⟨hi, .inr ⟨rfl, hfree, rfl⟩⟩
    · simp only [crlAnswers, if_neg hfree]
      exact ⟨hi, .inl ⟨rfl, rfl⟩⟩

def crlRound : List (Cue Unit CrlOp CrlRes Unit) :=
  [.begins () fun _ => some ((generate byteCrl 2 false).run >>= fun _ => .ret ()), .ends (),
    .begins () fun _ => some ((publish byteCrl).run >>= fun _ => .ret ()), .ends (),
    .begins () fun _ => some
      ((activate byteCrl ⟨"solari-client.service", 20, 5 * minute, 7 * day⟩).run >>=
        fun _ => .ret ()),
    .ends ()]

theorem crlRounds_legal : ∀ q ∈ crlRound ++ crlRound,
    System.Cue.Legal ((crlSystem Unit byteCrl).checked crlLives) q := by
  simp only [crlRound, forall_mem_append, forall_mem_cons, and_self]
  exact ⟨System.Cue.legal_begins fun _ => .generate 2 false, trivial,
    System.Cue.legal_begins fun _ => .publish, trivial,
    System.Cue.legal_begins fun _ => .activate _, trivial, by simp⟩

def crlBefore : Conf Unit CrlOp CrlRes (CrlWorld Unit) Unit where
  shared :=
    { sessions := .fresh, ledger := [⟨"00a1", "superseded", 5⟩], nextNumber := none,
      output := none, served := none, active := none, receipt := none, outputs := [],
      publics := [], activated := [], noted := fun _ => [], runs := [], unguarded := false }
  procs _ := .idle ()

theorem crlBefore_initial : (crlSystem Unit byteCrl).Initial CrlInitial crlBefore := by
  refine ⟨⟨rfl, rfl, ?_, rfl, rfl, rfl, rfl, rfl⟩, fun _ => ⟨(), trivial, rfl⟩⟩
  intro b hb
  cases hb

def crlPlay : Option (Conf Unit CrlOp CrlRes (CrlWorld Unit × Bool) Unit) :=
  System.play (System.flagged (fun _ => crlAnswers) crlLives) (crlRound ++ crlRound)
    ⟨(crlBefore.shared, true), crlBefore.procs⟩

set_option maxRecDepth 20000

theorem crlPlay_isSome : crlPlay.isSome = true := by decide +kernel

def crlAfter : Conf Unit CrlOp CrlRes (CrlWorld Unit) Unit :=
  System.plain (crlPlay.get crlPlay_isSome)

theorem crlAfter_reached : (crlSystem Unit byteCrl).Steps crlBefore crlAfter :=
  System.steps_checked (System.steps_play (System.flagged_sem crlAnswers_sem) crlRounds_legal
    (Option.some_get crlPlay_isSome).symm) (by decide +kernel)

/-- The first bundle is replaced, and what it revoked is still revoked. -/
theorem revocation_never_goes_back_renewed :
    crlAfter.shared.runs = [(["A1"], [2]), (["A1"], [1])] ∧
    crlAfter.shared.activated = [[2], [1]] ∧
    ∃ b, crlAfter.shared.active = some b ∧ ∃ crl ∈ b.crls, "A1" ∈ byteCrl.serials crl := by
  have hruns : crlAfter.shared.runs = [(["A1"], [2]), (["A1"], [1])] := by decide +kernel
  have hact : crlAfter.shared.activated = [[2], [1]] := by decide +kernel
  refine ⟨hruns, hact, ?_⟩
  obtain ⟨-, -, -, -, hkept⟩ := revocation_never_goes_back crlBefore_initial crlAfter_reached
  refine hkept (["A1"], [1]) ?_ ?_ "A1" mem_cons_self
  · simp [hruns]
  · simp [hact]

end SolariNet.Crl
