/-
# Any number of servers in their main loops

Every server id is a process that starts, ticks its lease and runs turns of its loop
(`Server.RunLoop`) against one lease row and one database, an operation at a time.  Between any two
operations the database clock may advance by any amount, others may act, and a server may be
restarted.  A statement that fails may have failed before or after it took effect.

Beside the row and the tables the state keeps every server's role and sockets, its last claim, when
its ticks began, and with which lease row each report was committed.
-/
import SolariNet.Server.LeaseSafety
import SolariNet.Server.RunLoop

namespace SolariNet

open Function List Lib Lib.Prog

/-! ## The system -/

/-- The time up to which the last claim of `a` runs: of its last upsert that left it the row, if it
has not been released since. -/
def claimedUntil (a : UInt64) : List LeaseEvent → Option Int
  | [] => none
  | .upserted b ttl now _ after :: log =>
    if b = a ∧ after.bind (·.leaseHolder) = some a then some (now + 1000 * ttl)
    else claimedUntil a log
  | .released b _ _ _ :: log => if b = a then none else claimedUntil a log
  | _ :: log => claimedUntil a log

/-- A tick that began; `due` is when the claim of a server that was active ran out. -/
structure TickStart where
  server : UInt64
  time : Int
  due : Option Int

structure ReportCommit where
  server : UInt64
  time : Int
  row : Option LeaseRow
  due : Option Int
  deriving DecidableEq

structure FleetWorld where
  lease : LeaseState
  db : Db
  role : UInt64 → ServerRoleState
  bound : UInt64 → Listener → Bool
  claim : UInt64 → Option (Except Status (Bool × Nat))
  ticks : List TickStart
  commits : List ReportCommit

namespace FleetWorld

def runsUntil (w : FleetWorld) (i : UInt64) : Option Int := claimedUntil i w.lease.log

def setBound (w : FleetWorld) (i : UInt64) (l : Listener) (b : Bool) : FleetWorld :=
  { w with bound := update w.bound i (update (w.bound i) l b) }

def setRole (w : FleetWorld) (i : UInt64) (r : ServerRoleState) : FleetWorld :=
  { w with role := update w.role i r }

def setClaim (w : FleetWorld) (i : UInt64) (r : Except Status (Bool × Nat)) : FleetWorld :=
  { w with claim := update w.claim i (some r) }

def beginTick (w : FleetWorld) (i : UInt64) : FleetWorld :=
  { w with
    ticks := ⟨i, w.lease.now, if w.role i = .active then w.runsUntil i else none⟩ :: w.ticks }

def boot (w : FleetWorld) (i : UInt64) : FleetWorld :=
  { w with
    role := update w.role i .standby
    bound := update w.bound i fun _ => false
    claim := update w.claim i none }

def commit (w : FleetWorld) (i : UInt64) (db : Db) : FleetWorld :=
  { w with db := db, commits := ⟨i, w.lease.now, w.lease.row, w.runsUntil i⟩ :: w.commits }

end FleetWorld

inductive ReportTxn (i : UInt64) (w : FleetWorld) (body : Except Status Db) :
    Status → FleetWorld → Prop where
  | aborted : ReportTxn i w body .errDb w
  | refused {st : Status} (h : body = .error st) : ReportTxn i w body st w
  | committed {db : Db} (h : body = .ok db) : ReportTxn i w body .ok (w.commit i db)
  | unconfirmed {db : Db} (h : body = .ok db) : ReportTxn i w body .errDb (w.commit i db)

def LeaseOp.IsOf (i : UInt64) : LeaseOp → Prop
  | .upsert self _ | .release self _ => self = i
  | _ => True

def fleetSrvSem (i : UInt64) : (o : SrvOp) → FleetWorld → o.Res → FleetWorld → Prop
  | .lease o, w, r, w' =>
    o.IsOf i ∧ (∃ s, leaseSem i o w.lease r s ∧ w' = { w with lease := s }) ∨ ¬ o.IsOf i ∧ w' = w
  | .bind l, w, rc, w' => rc ≠ Status.ok ∧ w' = w ∨ rc = Status.ok ∧ w' = w.setBound i l true
  | .writeClientReport n rep receipt, w, rc, w' =>
    ReportTxn i w (clientReportTxn w.db n rep receipt) rc w'
  | .writeMonitorReport n rep receipt, w, rc, w' =>
    ReportTxn i w (monitorReportTxn w.db n rep receipt) rc w'
  | o, w, r, w' => ∃ db, dbSem o w.db r db ∧ w' = { w with db := db }

def fleetSem (i : UInt64) : Sem LoopOp LoopOp.Res FleetWorld
  | .srv o, w, r, w' => fleetSrvSem i o w r w'
  | .close l, w, _, w' => w' = w.setBound i l false
  | .setRole r, w, _, w' => w' = w.setRole i r
  | .tickBegins, w, _, w' => w' = w.beginTick i
  | .claimReturned r, w, _, w' => w' = w.setClaim i r
  | .boot, w, _, w' => w' = w.boot i

/-- What a server may begin; a process that has just been started has no memory. -/
inductive FleetStart (cfg : UInt64 → LoopCfg) (i : UInt64) :
    Option ServerMem → LoopM (Option ServerMem) → Prop where
  | boot : FleetStart cfg i none (loop .boot >>= fun _ => .ret (some .init))
  | tick (m : ServerMem) : FleetStart cfg i (some m)
      (serverLeaseTick (cfg i).lease i m.lease >>= fun r => .ret (some { m with lease := r.2 }))
  | turn (m : ServerMem) : FleetStart cfg i (some m)
      (serverLoopTurn (cfg i) i m >>= fun m => .ret (some m))

inductive FleetEnv (w : FleetWorld) : FleetWorld → Prop where
  | clock (t : Int) (h : w.lease.now ≤ t) : FleetEnv w { w with lease := { w.lease with now := t } }
  | tables (db : Db) : FleetEnv w { w with db := db }

def fleetSystem (cfg : UInt64 → LoopCfg) (ids : UInt64 → Prop) :
    System UInt64 LoopOp LoopOp.Res FleetWorld (Option ServerMem) where
  sem := fleetSem
  start i m p := ids i ∧ FleetStart cfg i m p
  env w w' := FleetEnv w w'
  boot _ m := m = none

def FleetInitial (w : FleetWorld) : Prop :=
  w.lease.log = [] ∧ (∀ i, w.role i = .standby) ∧ w.commits = []

/-! ## What a claim is worth -/

def LeaseHeld (s : LeaseState) : Prop :=
  ∀ i e, claimedUntil i s.log = some e → s.now ≤ e → ∃ epoch, s.row = some ⟨some i, epoch, e⟩

theorem claimedUntil_other {a : UInt64} (e : LeaseEvent) (log : List LeaseEvent)
    (he : e.self ≠ a) : claimedUntil a (e :: log) = claimedUntil a log := by
  cases e with
  | upserted => exact if_neg fun hb => he hb.1
  | released => exact if_neg he
  | readBack | returned => rfl

variable {i : UInt64} {s s' : LeaseState} {w w' : FleetWorld} {ttl : Int} {o : LeaseOp}
  {q : LeaseRow} {j : UInt64} {r : o.Res}

theorem leaseSem_claimedUntil (hij : j ≠ i) (h : leaseSem i o s r s') :
    claimedUntil j s'.log = claimedUntil j s.log := by
  obtain ⟨-, new, hlog, hself⟩ := leaseSem_moves h
  rw [hlog]
  exact skip_append claimedUntil_other fun e he => (hself e he).symm ▸ hij.symm

theorem leaseUpsert_expires {now : Int} {self : UInt64} {row : Option LeaseRow}
    (h : leaseUpsert now ttl self row = some q) (hq : q.leaseHolder = some self) :
    q.expiresAt = now + 1000 * ttl := by
  rcases lease_cases row now self with hf | hh | ⟨r, rfl, hx, hne⟩
  · rw [leaseUpsert_free h hf]
  · rw [leaseUpsert_own h hh]
  · rw [leaseUpsert_other h hx hne] at hq
    exact absurd hq hne

section
variable (h : LeaseHeld s)
include h

theorem LeaseHeld.upsert (hq : leaseUpsert s.now ttl i s.row = some q) :
    LeaseHeld ({ s with row := some q }.note (.upserted i ttl s.now s.row (some q))) := by
  intro j e hj he
  have hj' : (if i = j ∧ q.leaseHolder = some j then some (s.now + 1000 * ttl)
      else claimedUntil j s.log) = some e := hj
  by_cases hown : i = j ∧ q.leaseHolder = some j
  · rw [if_pos hown] at hj'
    obtain ⟨rfl, hholder⟩ := hown
    refine ⟨q.leaseEpoch, ?_⟩
    rw [← Option.some.inj hj', ← leaseUpsert_expires hq hholder, ← hholder]
    rfl
  rw [if_neg hown] at hj'
  -- the claim of `j` runs, so the upsert met the row of `j`
  obtain ⟨epoch, hrow⟩ := h j e hj' he
  have hx : ¬ (⟨some j, epoch, e⟩ : LeaseRow).Expired s.now := not_lt.2 he
  by_cases hij : i = j
  · subst hij
    have hheld : HeldBy s.row s.now i := ⟨_, hrow, rfl, hx⟩
    exact absurd ⟨rfl, congrArg LeaseRow.leaseHolder (leaseUpsert_own hq hheld)⟩ hown
  · rw [hrow] at hq
    refine ⟨epoch, congrArg some (leaseUpsert_other hq hx ?_)⟩
    rintro ⟨⟩
    exact hij rfl

theorem LeaseHeld.release {epoch : Nat} :
    LeaseHeld ({ s with row := leaseRelease s.now i epoch s.row }.note
      (.released i s.now s.row (leaseRelease s.now i epoch s.row))) := by
  intro j e hj he
  have hj' : (if i = j then none else claimedUntil j s.log) = some e := hj
  by_cases hij : i = j
  · rw [if_pos hij] at hj'
    cases hj'
  rw [if_neg hij] at hj'
  obtain ⟨ep, hrow⟩ := h j e hj' he
  refine ⟨ep, ?_⟩
  rw [hrow]
  exact if_neg fun hc => hij (Option.some.inj hc.1).symm

theorem LeaseHeld.step (ho : o.IsOf i) (hs : leaseSem i o s r s') : LeaseHeld s' := by
  cases o with
  | upsert self ttl =>
    cases ho
    rcases hs with ⟨-, rfl⟩ | ⟨q, hq, rfl⟩
    · exact h
    · exact h.upsert hq
  | read =>
    rcases hs with ⟨st, -, -, rfl⟩ | ⟨-, rfl⟩
    · exact h
    · exact h
  | release self epoch =>
    cases ho
    rcases hs with ⟨-, rfl⟩ | rfl
    · exact h
    · exact h.release
  | claimed won epoch =>
    cases hs
    exact h

theorem LeaseHeld.clock {t : Int} (ht : s.now ≤ t) : LeaseHeld { s with now := t } :=
  fun i e hi he => h i e hi (le_trans ht he)

end

theorem claimedUntil_ne_none (hs : leaseSem i o s r s') (ho : ∀ self epoch, o ≠ .release self epoch)
    (h : claimedUntil i s.log ≠ none) :
    claimedUntil i s'.log ≠ none := by
  cases o with
  | upsert self ttl =>
    rcases hs with ⟨-, rfl⟩ | ⟨q, hq, rfl⟩
    · exact h
    show (if _ then _ else _) ≠ none
    split
    · exact Option.some_ne_none _
    · exact h
  | read =>
    rcases hs with ⟨st, -, -, rfl⟩ | ⟨-, rfl⟩
    · exact h
    · exact h
  | release self epoch => exact absurd rfl (ho self epoch)
  | claimed won epoch =>
    cases hs
    exact h

theorem leaseSem_holder (hij : i ≠ j) (ho : o.IsOf j) (hs : leaseSem j o s r s')
    (h : s'.row.bind (·.leaseHolder) = some i) :
    s.row.bind (·.leaseHolder) = some i := by
  cases o with
  | upsert self ttl =>
    cases ho
    rcases hs with ⟨-, rfl⟩ | ⟨q, hq, rfl⟩
    · exact h
    rcases leaseUpsert_changed hq with hrow | ⟨hj, -⟩
    · rw [hrow]
      exact h
    · exact absurd (Option.some.inj (h.symm.trans hj)) hij
  | read =>
    rcases hs with ⟨st, -, -, rfl⟩ | ⟨-, rfl⟩
    · exact h
    · exact h
  | release self epoch =>
    rcases hs with ⟨-, rfl⟩ | rfl
    · exact h
    cases hrow : s.row with
    | none =>
      rw [hrow] at h
      exact h
    | some q =>
      have h' : (leaseRelease s.now self epoch (some q)).bind (·.leaseHolder) = some i := hrow ▸ h
      simp only [leaseRelease] at h'
      split at h'
      · exact h'
      · exact h'
  | claimed won epoch =>
    cases hs
    exact h

/-! ## The invariant -/

/-- What is committed before the server's date is committed by the holder of the lease. -/
structure FleetInv (w : FleetWorld) : Prop where
  held : LeaseHeld w.lease
  active : ∀ i, w.role i = .active → w.runsUntil i ≠ none
  commits : ∀ c ∈ w.commits, ∃ e, c.due = some e ∧ (c.time ≤ e → HeldBy c.row c.time c.server)

def FleetAllowed (i : UInt64) (w : FleetWorld) : LoopOp → Prop
  | .srv (.lease (.release _ _)) => w.role i ≠ .active
  | .srv (.writeClientReport _ _ _) => w.runsUntil i ≠ none
  | .srv (.writeMonitorReport _ _ _) => w.runsUntil i ≠ none
  | .setRole .active => w.runsUntil i ≠ none
  | _ => True

inductive FleetChange (i : UInt64) (o : LoopOp) (w w' : FleetWorld) : Prop where
  | own (hl : w'.lease = w.lease) (hc : w'.commits = w.commits)
      (hr : w'.role i = .active → w.role i = .active ∨ o = .setRole .active)
      (hj : ∀ j, j ≠ i → w'.role j = w.role j ∧ w'.bound j = w.bound j ∧ w'.claim j = w.claim j)
  | lease (lo : LeaseOp) (ho : o = .srv (.lease lo)) (hi : lo.IsOf i) (r : lo.Res) (s : LeaseState)
      (hs : leaseSem i lo w.lease r s) (h : w' = { w with lease := s })
  | commit (db : Db) (ho : FleetAllowed i w o → w.runsUntil i ≠ none) (h : w' = w.commit i db)

theorem FleetChange.tables {o : LoopOp} (db : Db) : FleetChange i o w { w with db := db } :=
  .own rfl rfl .inl fun _ _ => ⟨rfl, rfl, rfl⟩

theorem ReportTxn.change {o : LoopOp} {body : Except Status Db} {rc : Status}
    (h : ReportTxn i w body rc w') (ho : FleetAllowed i w o → w.runsUntil i ≠ none) :
    FleetChange i o w w' := by
  cases h with
  | aborted | refused h => exact .tables w.db
  | committed h | unconfirmed h => exact .commit _ ho rfl

theorem fleetSem_change {o : LoopOp} {r : o.Res} (h : fleetSem i o w r w') :
    FleetChange i o w w' := by
  cases o with
  | close l =>
    cases h
    exact .own rfl rfl .inl fun j hj => ⟨rfl, update_of_ne hj .., rfl⟩
  | setRole role =>
    cases h
    refine .own rfl rfl (fun hr => ?_) fun j hj => ⟨update_of_ne hj .., rfl, rfl⟩
    rw [show (w.setRole i role).role i = role from update_self ..] at hr
    exact .inr (congrArg LoopOp.setRole hr)
  | tickBegins =>
    cases h
    exact .own rfl rfl .inl fun _ _ => ⟨rfl, rfl, rfl⟩
  | claimReturned r =>
    cases h
    exact .own rfl rfl .inl fun j hj => ⟨rfl, rfl, update_of_ne hj ..⟩
  | boot =>
    cases h
    refine .own rfl rfl (fun hr => ?_) fun j hj => ⟨update_of_ne hj ..,
      update_of_ne hj .., update_of_ne hj ..⟩
    rw [show (w.boot i).role i = .standby from update_self ..] at hr
    cases hr
  | srv o =>
    cases o with
    | lease lo =>
      rcases h with ⟨hi, s, hs, rfl⟩ | ⟨-, rfl⟩
      · exact .lease lo rfl hi r s hs rfl
      · exact .tables w'.db
    | bind l =>
      rcases h with ⟨-, rfl⟩ | ⟨-, rfl⟩
      · exact .tables w'.db
      · exact .own rfl rfl .inl fun j hj => ⟨rfl, update_of_ne hj .., rfl⟩
    | writeClientReport n rep receipt
    | writeMonitorReport n rep receipt => exact ReportTxn.change h id
    | _ =>
      obtain ⟨db, -, rfl⟩ := h
      exact .tables db

theorem FleetInv.step {o : LoopOp} {r : o.Res} (hI : FleetInv w) (h : fleetSem i o w r w')
    (ho : FleetAllowed i w o) : FleetInv w' := by
  cases fleetSem_change h with
  | own hl hc hr hj =>
    refine ⟨hl ▸ hI.held, fun j hactive => ?_, hc ▸ hI.commits⟩
    unfold FleetWorld.runsUntil
    rw [hl]
    by_cases hji : j = i
    · subst hji
      rcases hr hactive with hactive | rfl
      · exact hI.active j hactive
      · exact ho
    · exact hI.active j ((hj j hji).1 ▸ hactive)
  | lease lo hlo hi r s hs hw =>
    subst hlo hw
    refine ⟨hI.held.step hi hs, fun j hactive => ?_, hI.commits⟩
    have hold := hI.active j hactive
    by_cases hji : j = i
    · subst hji
      refine claimedUntil_ne_none hs ?_ hold
      rintro self epoch rfl
      exact ho hactive
    · show claimedUntil j s.log ≠ none
      rw [leaseSem_claimedUntil hji hs]
      exact hold
  | commit db hdue hw =>
    subst hw
    refine ⟨hI.held, hI.active, ?_⟩
    intro c hc
    rcases mem_cons.1 hc with rfl | hc
    · obtain ⟨e, he⟩ := Option.ne_none_iff_exists'.1 (hdue ho)
      refine ⟨e, he, fun hle => ?_⟩
      obtain ⟨epoch, hrow⟩ := hI.held i e he hle
      exact ⟨_, hrow, rfl, not_lt.2 hle⟩
    · exact hI.commits c hc

structure FleetRely (i : UInt64) (w w' : FleetWorld) : Prop where
  role : w'.role i = w.role i
  bound : w'.bound i = w.bound i
  claim : w'.claim i = w.claim i
  runsUntil : w'.runsUntil i = w.runsUntil i
  holder : w'.lease.row.bind (·.leaseHolder) = some i → w.lease.row.bind (·.leaseHolder) = some i

theorem FleetRely.refl (i : UInt64) (w : FleetWorld) : FleetRely i w w :=
  ⟨rfl, rfl, rfl, rfl, id⟩

theorem FleetRely.trans (h : FleetRely i w w') (h' : FleetRely i w' w'') :
    FleetRely i w w'' :=
  ⟨h'.role.trans h.role, h'.bound.trans h.bound, h'.claim.trans h.claim,
    h'.runsUntil.trans h.runsUntil, fun hh => h.holder (h'.holder hh)⟩

theorem fleetSystem_relies (cfg : UInt64 → LoopCfg) (ids : UInt64 → Prop) :
    (fleetSystem cfg ids).Relies FleetInv FleetRely where
  refl := FleetRely.refl
  trans _ _ _ _ := FleetRely.trans
  other i j o w r w' hij _ _ h := by
    cases fleetSem_change h with
    | own hl hc hr hj =>
      obtain ⟨hrole, hbound, hclaim⟩ := hj i hij
      refine ⟨hrole, hbound, hclaim, ?_, hl ▸ id⟩
      unfold FleetWorld.runsUntil
      rw [hl]
    | lease lo hlo hi r s hs h =>
      subst h
      exact ⟨rfl, rfl, rfl, leaseSem_claimedUntil hij hs, leaseSem_holder hij hi hs⟩
    | commit db _ h =>
      subst h
      exact ⟨rfl, rfl, rfl, rfl, id⟩
  env i w w' _ _ h := by
    cases h with
    | clock t ht | tables db => exact ⟨rfl, rfl, rfl, rfl, id⟩

/-! ## The lease tick -/

structure Mirrors (i : UInt64) (m : LeaseCtx) (c : Option (Except Status (Bool × Nat)))
    (u : Option Int) (w : FleetWorld) : Prop where
  role : w.role i = m.role
  bound : w.bound i = m.bound
  claim : w.claim i = c
  runsUntil : w.runsUntil i = u

abbrev FleetSafe (i : UInt64) {α : Type} : (α → FleetWorld → Prop) → LoopM α → FleetWorld → Prop :=
  Safe (fleetSem i) (FleetRely i) FleetInv

section
variable {i : UInt64} {m : LeaseCtx} {c : Option (Except Status (Bool × Nat))} {u : Option Int}
  {w w' : FleetWorld}

theorem Mirrors.stable (h : Mirrors i m c u w) (hR : FleetRely i w w') : Mirrors i m c u w' :=
  ⟨hR.role.trans h.role, hR.bound.trans h.bound, hR.claim.trans h.claim,
    hR.runsUntil.trans h.runsUntil⟩

theorem Mirrors.setBound (h : Mirrors i m c u w) (l : Listener) (b : Bool) :
    Mirrors i { m with bound := update m.bound l b } c u (w.setBound i l b) := by
  refine ⟨h.role, ?_, h.claim, h.runsUntil⟩
  rw [← h.bound]
  exact update_self ..

theorem Mirrors.setRole (h : Mirrors i m c u w) (r : ServerRoleState) :
    Mirrors i { m with role := r } c u (w.setRole i r) :=
  ⟨update_self .., h.bound, h.claim, h.runsUntil⟩

theorem serverLeaseUnbindOne_safe (l : Listener) (h : Mirrors i m c u w) : FleetSafe i
      (fun m' w => m' = { m with bound := update m.bound l false } ∧ Mirrors i m' c u w)
      (serverLeaseUnbindOne l m) w := by
  unfold serverLeaseUnbindOne
  split
  · next hl =>
    have hsame : update m.bound l false = m.bound := by
      simpa using hl.symm
    rw [hsame]
    exact ⟨rfl, h⟩
  · refine safe_perform_bind.2 fun w₁ hR hI r w₂ hs => ⟨hI.step hs trivial, rfl, ?_⟩
    cases hs
    exact (h.stable hR).setBound l false

theorem serverLeaseUnbindAll_safe (h : Mirrors i m c u w) : FleetSafe i
      (fun m' w => m' = { m with bound := fun _ => false } ∧ Mirrors i m' c u w)
      (serverLeaseUnbindAll m) w := by
  refine (serverLeaseUnbindOne_safe .ingest h).seq ?_
  rintro m₁ w₁ ⟨rfl, h₁⟩
  refine (serverLeaseUnbindOne_safe .control h₁).seq ?_
  rintro m₂ w₂ ⟨rfl, h₂⟩
  refine (serverLeaseUnbindOne_safe .pub h₂).mono ?_
  rintro m₃ w₃ ⟨rfl, h₃⟩
  refine ⟨?_, h₃⟩
  congr 1
  funext l
  cases l <;> rfl

def Bound (cfg : LeaseCfg) (m : LeaseCtx) (ls : List Listener) (b : Listener → Bool) : Prop :=
  (∀ l ∈ ls, cfg.url l ≠ [] → b l = true) ∧ ∀ l, m.bound l = true → b l = true

theorem serverLeaseBindOne_safe (cfg : LeaseCfg) (l : Listener) (h : Mirrors i m c u w) :
    FleetSafe i
      (fun r w => Mirrors i r.2 c u w ∧ ∃ b, r.2 = { m with bound := b } ∧
        (r.1 = .ok → Bound cfg m [l] b)) (serverLeaseBindOne cfg l m) w := by
  unfold serverLeaseBindOne
  split
  · next hl =>
    refine ⟨h, m.bound, rfl, fun _ => ⟨?_, fun _ => id⟩⟩
    rintro l' hl' -
    rw [mem_singleton.1 hl']
    exact hl
  split
  · next hurl =>
    refine ⟨h, m.bound, rfl, fun _ => ⟨?_, fun _ => id⟩⟩
    intro l' hl' hne
    rw [mem_singleton.1 hl'] at hne
    exact absurd hurl hne
  refine safe_perform_bind.2 fun w₁ hR hI rc w₂ hs => ⟨hI.step hs trivial, ?_⟩
  have h₁ := h.stable hR
  rcases hs with ⟨hrc, rfl⟩ | ⟨rfl, rfl⟩
  · rw [if_pos hrc]
    exact ⟨h₁, m.bound, rfl, fun hok => absurd hok hrc⟩
  rw [if_neg (not_not.2 rfl)]
  refine ⟨h₁.setBound l true, _, rfl, fun _ => ⟨?_, fun l' hl' => ?_⟩⟩
  · rintro l' hl' -
    rw [mem_singleton.1 hl']
    exact update_self ..
  · by_cases hll : l' = l
    · rw [hll]
      exact update_self ..
    · rw [update_of_ne hll]
      exact hl'

theorem bindOrUnbindAll_safe (cfg : LeaseCfg) (l : Listener)
    {next : LeaseCtx → LoopM (Status × LeaseCtx)} {Q : Status × LeaseCtx → FleetWorld → Prop}
    (h : Mirrors i m c u w)
    (hnext : ∀ b w, Bound cfg m [l] b → Mirrors i { m with bound := b } c u w →
      FleetSafe i Q (next { m with bound := b }) w)
    (hfail : ∀ rc w, rc ≠ .ok → Mirrors i { m with bound := fun _ => false } c u w →
      Q (rc, { m with bound := fun _ => false }) w) :
    FleetSafe i Q (bindOrUnbindAll cfg l m next) w := by
  refine (serverLeaseBindOne_safe cfg l h).seq ?_
  rintro ⟨rc, m'⟩ w₁ ⟨h₁, b, rfl, hb⟩
  by_cases hrc : rc = .ok
  · rw [if_neg (not_not.2 hrc)]
    exact hnext b w₁ (hb hrc) h₁
  rw [if_pos hrc]
  refine (serverLeaseUnbindAll_safe h₁).seq ?_
  rintro m' w₂ ⟨rfl, h₂⟩
  exact hfail rc w₂ hrc h₂

def Applied (cfg : LeaseCfg) (i : UInt64) (m : LeaseCtx) (c : Option (Except Status (Bool × Nat)))
    (u : Option Int) (r : Status × LeaseCtx) (w : FleetWorld) : Prop :=
  Mirrors i r.2 c u w ∧ (r.1 = .ok → ∃ b, r.2 = { m with role := .active, bound := b } ∧
      ∀ l, cfg.url l ≠ [] → b l = true) ∧
    (r.1 ≠ .ok → r.2 = { m with bound := fun _ => false })

theorem serverApplyRole_active_safe (cfg : LeaseCfg) (h : Mirrors i m c u w) (hu : u ≠ none) :
    FleetSafe i (Applied cfg i m c u) (serverApplyRole cfg m .active) w := by
  have hfail : ∀ (rc : Status) (w : FleetWorld), rc ≠ .ok →
      Mirrors i { m with bound := fun _ => false } c u w →
      Applied cfg i m c u (rc, { m with bound := fun _ => false }) w :=
    fun rc w hrc hw => ⟨hw, fun hok => absurd hok hrc, fun _ => rfl⟩
  rw [serverApplyRole]
  refine bindOrUnbindAll_safe cfg .ingest h (fun b₁ w₁ hb₁ h₁ => ?_) hfail
  refine bindOrUnbindAll_safe cfg .control h₁ (fun b₂ w₂ hb₂ h₂ => ?_) hfail
  refine bindOrUnbindAll_safe cfg .pub h₂ (fun b₃ w₃ hb₃ h₃ => ?_) hfail
  refine safe_perform_bind.2 fun w₄ hR hI r w₅ hs => ?_
  have h₄ := h₃.stable hR
  have hdue : w₄.runsUntil i ≠ none := h₄.runsUntil ▸ hu
  refine ⟨hI.step hs hdue, ?_⟩
  cases hs
  refine ⟨h₄.setRole .active, fun _ => ⟨b₃, rfl, fun l hl => ?_⟩, fun hne => absurd rfl hne⟩
  cases l with
  | ingest => exact hb₃.2 _ (hb₂.2 _ (hb₁.1 _ mem_cons_self hl))
  | control => exact hb₃.2 _ (hb₂.1 _ mem_cons_self hl)
  | pub => exact hb₃.1 _ mem_cons_self hl

theorem serverApplyRole_standby_safe (cfg : LeaseCfg) (h : Mirrors i m c u w) : FleetSafe i
      (fun r w => r = (.ok, { m with role := .standby, bound := fun _ => false }) ∧
        Mirrors i r.2 c u w) (serverApplyRole cfg m .standby) w := by
  refine (serverLeaseUnbindAll_safe h).seq ?_
  rintro m' w₁ ⟨rfl, h₁⟩
  refine safe_perform_bind.2 fun w₂ hR hI r w₃ hs => ⟨hI.step hs trivial, rfl, ?_⟩
  cases hs
  exact (h₁.stable hR).setRole .standby

theorem serverDbLeaseClaim_claims (hi : i ≠ 0) (ttlSec : UInt32) (h : Mirrors i m c u w) :
    FleetSafe i
      (fun r w => ∃ u', Mirrors i m c u' w ∧ ∀ epoch, r = .ok (true, epoch) → u' ≠ none)
      (onServer (onLease (serverDbLeaseClaim i ttlSec))) w := by
  unfold serverDbLeaseClaim
  rw [onServer_lease_bind]
  refine safe_perform_bind.2 fun w₁ hR₁ hI₁ rc w₂ hs₂ => ⟨hI₁.step hs₂ trivial, ?_⟩
  have h₁ := h.stable hR₁
  rcases hs₂ with ⟨-, s, hs, rfl⟩ | ⟨hother, -⟩
  swap
  · exact absurd rfl hother
  have h₂ : Mirrors i m c (claimedUntil i s.log) { w₁ with lease := s } :=
    ⟨h₁.role, h₁.bound, h₁.claim, rfl⟩
  by_cases hrc : rc = .ok
  · subst hrc
    rcases hs with ⟨hne, -⟩ | ⟨q, hq, rfl⟩
    · exact absurd rfl hne
    refine safe_perform_bind.2 fun w₃ hR₃ hI₃ r w₄ hs₄ => ⟨hI₃.step hs₄ trivial, ?_⟩
    have h₃ := h₂.stable hR₃
    rcases hs₄ with ⟨-, s₄, hs₄, rfl⟩ | ⟨hother, -⟩
    swap
    · exact absurd trivial hother
    rcases hs₄ with ⟨st, -, rfl, rfl⟩ | ⟨rfl, rfl⟩
    · exact ⟨_, h₃, by rintro epoch ⟨⟩⟩
    refine ⟨_, { h₃ with }, fun epoch hwon => ?_⟩
    -- the row that was read back is the server's, so the upsert had left it to the server
    have hself : (leaseRead w₃.lease.now w₃.lease.row).1 = i :=
      eq_of_beq (congrArg Prod.fst (Except.ok.inj hwon))
    obtain ⟨row, hrow, hholder, -⟩ := (leaseRead_eq_self hi).1 hself
    have hq' : q.leaseHolder = some i := hR₃.holder (by rw [hrow]; exact hholder)
    show (if i = i ∧ q.leaseHolder = some i then _ else _) ≠ none
    rw [if_pos ⟨rfl, hq'⟩]
    exact Option.some_ne_none _
  · rw [if_pos hrc]
    exact ⟨_, h₂, by rintro epoch ⟨⟩⟩

theorem leaseBackOff_safe (cfg : LeaseCfg) (claim : Except Status (Bool × Nat))
    (h : Mirrors i m c u w) (hrole : m.role ≠ .active) :
    FleetSafe i
      (fun m' w => ∃ ms u', m' = { m with leaseRetryAfterMs := ms } ∧ Mirrors i m' c u' w)
      (leaseBackOff cfg i claim m) w := by
  unfold leaseBackOff
  split
  · next epoch =>
    have hrest : ∀ u' w', Mirrors i m c u' w' → FleetSafe i
        (fun m' w => ∃ ms u', m' = { m with leaseRetryAfterMs := ms } ∧ Mirrors i m' c u' w)
        (loop (.srv .monotonicMs) >>= fun nowMs => .ret
          { m with leaseRetryAfterMs := nowMs + cfg.leaseTtlSec.toUInt64 * 1000 }) w' := by
      intro u' w' h'
      refine safe_perform_bind.2 fun w₁ hR hI r w₂ hs => ⟨hI.step hs trivial, _, u', rfl, ?_⟩
      obtain ⟨db, -, rfl⟩ := hs
      have h₁ := h'.stable hR
      exact { h₁ with }
    unfold serverDbLeaseRelease
    split
    · exact hrest u w h
    intro w₁ hR hI rc w₂ hs
    have h₁ := h.stable hR
    have hstand : w₁.role i ≠ .active := h₁.role ▸ hrole
    refine ⟨hI.step hs hstand, ?_⟩
    rcases hs with ⟨-, s, -, rfl⟩ | ⟨-, rfl⟩
    · exact hrest _ _ ⟨h₁.role, h₁.bound, h₁.claim, rfl⟩
    · exact hrest _ _ h₁
  · exact ⟨m.leaseRetryAfterMs, u, rfl, h⟩

/-- Between ticks: an active server has won its last claim and has all its listeners, any other has
none. -/
def SettledRole (cfg : LeaseCfg) (m : LeaseCtx) (c : Option (Except Status (Bool × Nat))) : Prop :=
  (m.role = .active → (∃ epoch, c = some (.ok (true, epoch))) ∧
    ∀ l, cfg.url l ≠ [] → m.bound l = true) ∧
    (m.role ≠ .active → ∀ l, m.bound l = false)

def Ticked (cfg : LeaseCfg) (i : UInt64) (m : LeaseCtx) (w : FleetWorld) : Prop :=
  ∃ c u, Mirrors i m c u w ∧ SettledRole cfg m c

theorem Ticked.stable (h : Ticked cfg i m w) (hR : FleetRely i w w') :
    Ticked cfg i m w' := by
  obtain ⟨c, u, hm, hs⟩ := h
  exact ⟨c, u, hm.stable hR, hs⟩

theorem leaseElect_safe (hi : i ≠ 0) (cfg : LeaseCfg) (h : Mirrors i m c u w) :
    FleetSafe i (fun r => Ticked cfg i r.2) (leaseElect cfg i m) w := by
  refine (serverDbLeaseClaim_claims hi cfg.leaseTtlSec h).seq ?_
  rintro claim w₁ ⟨u₁, h₁, hwon⟩
  refine safe_perform_bind.2 fun w₂ hR hI r w₃ hs => ⟨hI.step hs trivial, ?_⟩
  have h₂ := h₁.stable hR
  cases hs
  have h₃ : Mirrors i m (some claim) u₁ (w₂.setClaim i claim) :=
    ⟨h₂.role, h₂.bound, update_self .., h₂.runsUntil⟩
  -- the claim was won, or the server stands by
  rcases claim with st | ⟨won, epoch⟩
  · refine (serverApplyRole_standby_safe cfg h₃).seq ?_
    rintro r w₄ ⟨rfl, h₄⟩
    exact ⟨_, u₁, h₄, by rintro ⟨⟩, fun _ _ => rfl⟩
  cases won with
  | false =>
    refine (serverApplyRole_standby_safe cfg h₃).seq ?_
    rintro r w₄ ⟨rfl, h₄⟩
    exact ⟨_, u₁, h₄, by rintro ⟨⟩, fun _ _ => rfl⟩
  | true =>
    refine (serverApplyRole_active_safe cfg h₃ (hwon epoch rfl)).seq ?_
    rintro ⟨rc, m'⟩ w₄ ⟨h₄, hok, hfail⟩
    by_cases hrc : rc = .ok
    · obtain ⟨b, hm', hb⟩ := hok hrc
      subst hm'
      rw [if_neg (not_not.2 hrc)]
      exact ⟨_, u₁, { h₄ with }, fun _ => ⟨⟨epoch, rfl⟩, hb⟩, fun hne => absurd rfl hne⟩
    · rw [if_pos hrc]
      refine (serverApplyRole_standby_safe cfg h₄).seq ?_
      rintro r w₅ ⟨rfl, h₅⟩
      refine (leaseBackOff_safe cfg (.ok (true, epoch)) h₅ (by rintro ⟨⟩)).seq ?_
      rintro m'' w₆ ⟨ms, u₆, rfl, h₆⟩
      exact ⟨_, u₆, h₆, by rintro ⟨⟩, fun _ _ => rfl⟩

theorem serverLeaseTick_safe (hi : i ≠ 0) (cfg : LeaseCfg) (h : Ticked cfg i m w) :
    FleetSafe i (fun r => Ticked cfg i r.2) (serverLeaseTick cfg i m) w := by
  refine safe_perform_bind.2 fun w₁ hR hI r w₂ hs => ⟨hI.step hs trivial, ?_⟩
  obtain ⟨c, u, hm, hset⟩ := h.stable hR
  cases hs
  have h₂ : Mirrors i m c u (w₁.beginTick i) := { hm with }
  have hwaits : FleetSafe i (fun _ => Mirrors i m c u) (leaseWaits m) (w₁.beginTick i) := by
    unfold leaseWaits
    split
    · exact h₂
    refine safe_perform_bind.2 fun w₃ hR₃ hI₃ r w₄ hs₄ => ⟨hI₃.step hs₄ trivial, ?_⟩
    obtain ⟨db, -, rfl⟩ := hs₄
    have h₃ := h₂.stable hR₃
    exact { h₃ with }
  refine hwaits.seq fun waits w₃ h₃ => ?_
  cases waits with
  | true => exact ⟨c, u, h₃, hset⟩
  | false => exact leaseElect_safe hi cfg { h₃ with }

/-! ## Turns -/

variable {o : SrvOp}

theorem Mirrors.serve (ho : o.leavesLease = true) {r : o.Res} (h : Mirrors i m c u w)
    (hs : fleetSem i (.srv o) w r w') : Mirrors i m c u w' := by
  cases o with
  | bind l => cases ho
  | lease lo =>
    cases lo with
    | read =>
      rcases hs with ⟨-, s, hs, rfl⟩ | ⟨-, rfl⟩
      · rcases hs with ⟨st, -, -, rfl⟩ | ⟨-, rfl⟩
        · exact h
        · exact { h with }
      · exact h
    | upsert self ttl | release self epoch | claimed won epoch => cases ho
  | writeClientReport n rep receipt | writeMonitorReport n rep receipt =>
    cases hs with
    | aborted | refused => exact h
    | committed | unconfirmed => exact { h with }
  | _ =>
    obtain ⟨db, -, rfl⟩ := hs
    exact { h with }

theorem SrvOp.allowed_of_leavesLease (ho : o.leavesLease = true) (h : w.runsUntil i ≠ none) :
    FleetAllowed i w (.srv o) := by
  cases o with
  | bind l => cases ho
  | lease lo =>
    cases lo with
    | read => trivial
    | upsert self ttl | release self epoch | claimed won epoch => cases ho
  | writeClientReport n rep receipt | writeMonitorReport n rep receipt => exact h
  | _ => trivial

theorem fleetTurn_safe (cfg : LoopCfg) (k : LinkState) (h : Ticked cfg.lease i m w) :
    FleetSafe i (fun _ => Ticked cfg.lease i m) (onServer (fleetTurn cfg i m k)) w := by
  by_cases hrole : m.role = .active
  · refine Safe.of_uses (fun w w' h hR _ => h.stable hR) ?_
      (onServer_uses (fleetTurn_uses (fun o ho => ho) cfg i m k)) h
    rintro o w₁ r w₂ ⟨s, rfl, hs⟩ hI ⟨c, u, hm, hset⟩ hsem
    have hruns := hI.active i (hm.role.trans hrole)
    exact ⟨hI.step hsem (SrvOp.allowed_of_leavesLease hs hruns), c, u, hm.serve hs hsem, hset⟩
  · unfold fleetTurn
    rw [if_pos hrole]
    exact h

theorem serverLoopTurn_safe (hi : i ≠ 0) (cfg : LoopCfg) {m : ServerMem}
    (h : Ticked cfg.lease i m.lease w) :
    FleetSafe i (fun m' => Ticked cfg.lease i m'.lease) (serverLoopTurn cfg i m) w := by
  have hlease : FleetSafe i (fun m' => Ticked cfg.lease i m'.lease) (leaseTurn cfg i m) w := by
    refine safe_perform_bind.2 fun w₁ hR hI nowMs w₂ hs => ⟨hI.step hs trivial, ?_⟩
    obtain ⟨c, u, hm, hset⟩ := h.stable hR
    have h₂ : Ticked cfg.lease i m.lease w₂ := by
      refine ⟨c, u, ?_, hset⟩
      obtain ⟨db, -, rfl⟩ := hs
      exact { hm with }
    split
    · exact h₂
    · exact (serverLeaseTick_safe hi cfg.lease h₂).seq fun r w₃ h₃ => h₃
  refine hlease.seq fun m' w' h' => ?_
  exact (fleetTurn_safe cfg m'.link h').seq fun link w'' h'' => h''

def FleetKnows (cfg : UInt64 → LoopCfg) (i : UInt64) (m : Option ServerMem) (w : FleetWorld) :
    Prop :=
  ∀ m', m = some m' → Ticked (cfg i).lease i m'.lease w

theorem FleetStart.safe {cfg : UInt64 → LoopCfg} (hi : i ≠ 0) {m : Option ServerMem}
    {p : LoopM (Option ServerMem)} (hp : FleetStart cfg i m p) (h : FleetKnows cfg i m w) :
    FleetSafe i (FleetKnows cfg i) p w := by
  cases hp with
  | boot =>
    refine safe_perform_bind.2 fun w₁ hR hI r w₂ hs => ⟨hI.step hs trivial, ?_⟩
    rintro m' ⟨⟩
    cases hs
    refine ⟨none, _, ⟨?_, ?_, ?_, rfl⟩, by rintro ⟨⟩, fun _ _ => rfl⟩
    · exact update_self ..
    · exact update_self ..
    · exact update_self ..
  | tick m =>
    refine (serverLeaseTick_safe hi _ (h m rfl)).seq fun r w' h' => ?_
    rintro m' ⟨⟩
    exact h'
  | turn m =>
    refine (serverLoopTurn_safe hi _ (h m rfl)).seq fun m' w' h' => ?_
    rintro m'' ⟨⟩
    exact h'

end

/-! ## Runs -/

theorem fleetSystem_invariant {cfg : UInt64 → LoopCfg} {ids : UInt64 → Prop}
    (hids : ∀ i, ids i → i ≠ 0) {c c' : Conf UInt64 LoopOp LoopOp.Res FleetWorld (Option ServerMem)}
    (hc : (fleetSystem cfg ids).Initial FleetInitial c) (hs : (fleetSystem cfg ids).Steps c c') :
    FleetInv c'.shared ∧ ∀ i, (fleetSystem cfg ids).Holds FleetInv FleetRely
      (FleetKnows cfg) c' i := by
  refine System.invariant (fleetSystem_relies cfg ids) ?_ ?_ ?_ ?_ ?_ hc hs
  · intro i m w w' h hR _ m' hm
    exact (h m' hm).stable hR
  · intro i m p w hp _ h
    exact hp.2.safe (hids i hp.1) h
  · intro w w' hI h
    cases h with
    | clock t ht => exact ⟨hI.held.clock ht, hI.active, hI.commits⟩
    | tables db => exact { hI with }
  · rintro i m w rfl _ m' ⟨⟩
  · intro w hw
    obtain ⟨hlog, hrole, hcommits⟩ := hw
    refine ⟨fun i e he => ?_, fun i hi => ?_, ?_⟩
    · rw [hlog] at he
      cases he
    · rw [hrole] at hi
      cases hi
    · rw [hcommits]
      rintro c ⟨⟩

/-- **One active master.** Between ticks a server is active only if its last claim won and all its
listeners are bound; while the claim of every active server runs, at most one is active. -/
theorem one_active_master {cfg : UInt64 → LoopCfg} {ids : UInt64 → Prop}
    (hids : ∀ i, ids i → i ≠ 0) {c c' : Conf UInt64 LoopOp LoopOp.Res FleetWorld (Option ServerMem)}
    (hc : (fleetSystem cfg ids).Initial FleetInitial c) (hs : (fleetSystem cfg ids).Steps c c') :
    (∀ i m, c'.procs i = .idle (some m) →
      (c'.shared.role i = .active → (∃ epoch, c'.shared.claim i = some (.ok (true, epoch))) ∧
        ∀ l, (cfg i).lease.url l ≠ [] → c'.shared.bound i l = true) ∧
      (c'.shared.role i ≠ .active → ∀ l, c'.shared.bound i l = false)) ∧
    ((∀ i, c'.shared.role i = .active →
        ∃ e, c'.shared.runsUntil i = some e ∧ c'.shared.lease.now < e) →
      ∀ i j, c'.shared.role i = .active → c'.shared.role j = .active → i = j) := by
  obtain ⟨hI, hL⟩ := fleetSystem_invariant hids hc hs
  refine ⟨fun i m hm => ?_, fun hruns i j hi hj => ?_⟩
  · have hknows := hL i
    simp only [System.Holds, hm] at hknows
    obtain ⟨c, u, hmir, hset⟩ := hknows m rfl
    rw [hmir.role, hmir.claim, hmir.bound]
    exact hset
  · obtain ⟨e, he, hlt⟩ := hruns i hi
    obtain ⟨e', he', hlt'⟩ := hruns j hj
    obtain ⟨epoch, hrow⟩ := hI.held i e he (le_of_lt hlt)
    obtain ⟨epoch', hrow'⟩ := hI.held j e' he' (le_of_lt hlt')
    rw [hrow] at hrow'
    cases hrow'
    rfl

/-- **Fenced reports.** If every report is committed before the claim of its server has run out, it
is committed while its server holds the lease. -/
theorem fenced_reports {cfg : UInt64 → LoopCfg} {ids : UInt64 → Prop}
    (hids : ∀ i, ids i → i ≠ 0) {c c' : Conf UInt64 LoopOp LoopOp.Res FleetWorld (Option ServerMem)}
    (hc : (fleetSystem cfg ids).Initial FleetInitial c) (hs : (fleetSystem cfg ids).Steps c c')
    (htime : ∀ r ∈ c'.shared.commits, ∀ e ∈ r.due, r.time ≤ e) :
    ∀ r ∈ c'.shared.commits, HeldBy r.row r.time r.server := by
  obtain ⟨hI, -⟩ := fleetSystem_invariant hids hc hs
  intro r hr
  obtain ⟨e, he, hheld⟩ := hI.commits r hr
  exact hheld (htime r hr e he)

/-! ### Runs that show the limits -/

/-- A database that works, sockets that bind, a clock that stands still, and a link that delivers
one frame until it is stored. -/
def fleetSrvAnswers (rx : Received) (i : UInt64) : (o : SrvOp) → FleetWorld → o.Res × FleetWorld
  | .bind l, w => (Status.ok, w.setBound i l true)
  | .recv _, w => (if w.commits = [] then .ok rx else .error .errConnRetry, w)
  | .lease (.upsert self ttl), w =>
    if self = i then
      match leaseUpsert w.lease.now ttl self w.lease.row with
      | none => (Status.errDb, w)
      | some q =>
        (Status.ok,
          { w with
            lease := { w.lease with row := some q }.note
              (.upserted i ttl w.lease.now w.lease.row (some q)) })
    else (Status.errDb, w)
  | .lease .read, w =>
    (.ok (leaseRead w.lease.now w.lease.row),
      { w with lease := w.lease.note (.readBack i w.lease.now w.lease.row) })
  | .lease (.release _ _), w => (Status.errDb, w)
  | .lease (.claimed won epoch), w => ((), { w with lease := w.lease.note (.returned i won epoch) })
  | .writeClientReport n rep receipt, w =>
    match clientReportTxn w.db n rep receipt with
    | .error st => (st, w)
    | .ok db => (Status.ok, w.commit i db)
  | .writeMonitorReport _ _ _, w => (Status.errDb, w)
  | o, w => ((dbAnswers o w.db).1, { w with db := (dbAnswers o w.db).2 })

def fleetAnswers (rx : Received) (i : UInt64) : (o : LoopOp) → FleetWorld → o.Res × FleetWorld
  | .srv o, w => fleetSrvAnswers rx i o w
  | .close l, w => ((), w.setBound i l false)
  | .setRole r, w => ((), w.setRole i r)
  | .tickBegins, w => ((), w.beginTick i)
  | .claimReturned r, w => ((), w.setClaim i r)
  | .boot, w => ((), w.boot i)

theorem fleetSrvAnswers_sem (rx : Received) (i : UInt64) (o : SrvOp) (w : FleetWorld) :
    fleetSrvSem i o w (fleetSrvAnswers rx i o w).1 (fleetSrvAnswers rx i o w).2 := by
  cases o with
  | bind l => exact .inr ⟨rfl, rfl⟩
  | recv => exact ⟨w.db, rfl, rfl⟩
  | lease o =>
    cases o with
    | upsert self ttl =>
      by_cases hself : self = i
      · cases hq : leaseUpsert w.lease.now ttl self w.lease.row with
        | none =>
          simp only [fleetSrvAnswers, if_pos hself, hq]
          exact .inl ⟨hself, w.lease, .inl ⟨by rintro ⟨⟩, rfl⟩, rfl⟩
        | some q =>
          simp only [fleetSrvAnswers, if_pos hself, hq]
          exact .inl ⟨hself, _, .inr ⟨q, hq, rfl⟩, rfl⟩
      · simp only [fleetSrvAnswers, if_neg hself]
        exact .inr ⟨hself, rfl⟩
    | read => exact .inl ⟨trivial, _, .inr ⟨rfl, rfl⟩, rfl⟩
    | release self epoch =>
      by_cases hself : self = i
      · exact .inl ⟨hself, w.lease, .inl ⟨by rintro ⟨⟩, rfl⟩, rfl⟩
      · exact .inr ⟨hself, rfl⟩
    | claimed won epoch => exact .inl ⟨trivial, _, rfl, rfl⟩
  | writeMonitorReport n rep receipt => exact .aborted
  | writeClientReport n rep receipt =>
    cases hb : clientReportTxn w.db n rep receipt with
    | error st =>
      simp only [fleetSrvAnswers, hb]
      exact .refused hb
    | ok db =>
      simp only [fleetSrvAnswers, hb]
      exact .committed hb
  | _ => exact ⟨_, dbAnswers_sem _ _, rfl⟩

theorem fleetAnswers_sem (rx : Received) (i : UInt64) (o : LoopOp) (w : FleetWorld) :
    fleetSem i o w (fleetAnswers rx i o w).1 (fleetAnswers rx i o w).2 := by
  cases o with
  | srv o => exact fleetSrvAnswers_sem rx i o w
  | _ => rfl

def stockCfg (_ : UInt64) : LoopCfg := ⟨⟨false, false, false⟩, ⟨15, 5, fun _ => ['u']⟩, []⟩

def firstReport : Received :=
  ⟨frameBytes { reportHeader with tlvCount := 1 } (encodeTlvs [sessionTlv zeroSession]),
    .ok "host".toList⟩

def fleetStart : FleetWorld :=
  ⟨⟨0, none, []⟩, enrolledDb "host".toList, fun _ => .standby, fun _ _ => false,
    fun _ => none, [], []⟩

def noServers : UInt64 → Proc LoopOp LoopOp.Res (Option ServerMem) := fun _ => .idle none

theorem noServers_initial : (fleetSystem stockCfg (· ≠ 0)).Initial FleetInitial
    ⟨fleetStart, noServers⟩ :=
  ⟨⟨rfl, fun _ => rfl, rfl⟩, fun _ => ⟨none, rfl, rfl⟩⟩

def bootTick (i : UInt64) (w : FleetWorld) : (TickResult × LeaseCtx) × FleetWorld :=
  (serverLeaseTick (stockCfg i).lease i .init).run (fleetAnswers firstReport i) (w.boot i)

def ticked (i : UInt64) (w : FleetWorld) : ServerMem := ⟨(bootTick i w).1.2, ⟨.empty, 0⟩, 0⟩

def FleetWorld.at (w : FleetWorld) (t : Int) : FleetWorld :=
  { w with lease := { w.lease with now := t } }

section
variable {i : UInt64} {w : FleetWorld} {P : UInt64 → Proc LoopOp LoopOp.Res (Option ServerMem)}

theorem bootTick_steps (hi : i ≠ 0) (hP : P i = .idle none) :
    (fleetSystem stockCfg (· ≠ 0)).Steps ⟨w, P⟩
      ⟨(bootTick i w).2, update P i (.idle (some (ticked i w)))⟩ := by
  have hboot := System.steps_run (S := fleetSystem stockCfg (· ≠ 0))
    (fleetAnswers_sem firstReport i)
    (s := w) hP ⟨hi, .boot⟩
  have htick := System.steps_run (S := fleetSystem stockCfg (· ≠ 0))
    (fleetAnswers_sem firstReport i)
    (s := w.boot i) (update_self i (.idle (some .init)) P) ⟨hi, .tick .init⟩
  rw [run_bind, update_idem] at htick
  exact hboot.trans htick

theorem clock_steps (t : Int) (ht : w.lease.now ≤ t) :
    (fleetSystem stockCfg (· ≠ 0)).Steps ⟨w, P⟩ ⟨w.at t, P⟩ := .single (.env (.clock t ht))

end

theorem one_active_master_of_two : ∃ c', (fleetSystem stockCfg (· ≠ 0)).Steps
      ⟨fleetStart, noServers⟩ c' ∧
    (c'.shared.role 1 = .active ∧ c'.shared.role 2 = .standby) ∧
    ∀ l, c'.shared.bound 1 l = true := by
  have hs := (bootTick_steps (i := 1) (w := fleetStart) (P := noServers) (by decide) rfl).trans
    (bootTick_steps (i := 2) (by decide) rfl)
  have hrole : (bootTick 2 (bootTick 1 fleetStart).2).2.role 1 = .active ∧
    (bootTick 2 (bootTick 1 fleetStart).2).2.role 2 = .standby := by decide +kernel
  have h := (one_active_master (fun _ h => h) noServers_initial hs).1 1 _ rfl
  exact ⟨_, hs, hrole, fun l => (h.1 hrole.1).2 l (by rintro ⟨⟩)⟩

/-- **A stalled tick.** Server 1 is waiting for its statement when its claim runs out and server 2
takes the lease over: both are active. -/
theorem stalled_tick_overlaps : ∃ c', (fleetSystem stockCfg (· ≠ 0)).Steps
      ⟨fleetStart, noServers⟩ c' ∧
    (∀ t ∈ c'.shared.ticks, ∀ d ∈ t.due, t.time < d) ∧
    (∀ i m, c'.procs i = .idle (some m) →
      ∃ e, c'.shared.runsUntil i = some e ∧ c'.shared.lease.now < e) ∧
    c'.shared.role 1 = .active ∧ c'.shared.role 2 = .active := by
  have hfirst := bootTick_steps (i := 1) (w := fleetStart) (P := noServers) (by decide) rfl
  have hsecond := System.steps_runN (S := fleetSystem stockCfg (· ≠ 0))
    (fleetAnswers_sem firstReport 1) (s := (bootTick 1 fleetStart).2.at 14999)
    (update_self 1 (.idle (some (ticked 1 fleetStart))) noServers) ⟨by decide, .tick _⟩ 1
  have hlate := ((hfirst.trans (clock_steps 14999 (by decide +kernel))).trans hsecond).trans
    (clock_steps 15001 (by decide +kernel))
  refine ⟨_, hlate.trans (bootTick_steps (i := 2) (by decide) rfl), ?_, ?_, ?_, ?_⟩
  · decide +kernel
  · intro i m hi
    by_cases h2 : i = 2
    · subst h2
      exact ⟨30001, by decide +kernel, by decide +kernel⟩
    simp only [update_of_ne h2] at hi
    by_cases h1 : i = 1
    · rw [h1] at hi
      cases hi
    · rw [update_of_ne h1, update_of_ne h1] at hi
      cases hi
  · decide +kernel
  · decide +kernel

theorem fenced_reports_first : ∃ c', (fleetSystem stockCfg (· ≠ 0)).Steps
      ⟨fleetStart, noServers⟩ c' ∧
    c'.shared.commits.map (·.server) = [1] ∧
    ∀ r ∈ c'.shared.commits, HeldBy r.row r.time r.server := by
  have htick := bootTick_steps (i := 1) (w := fleetStart) (P := noServers) (by decide) rfl
  have hs := htick.trans (System.steps_run (S := fleetSystem stockCfg (· ≠ 0))
    (fleetAnswers_sem firstReport 1) (update_self ..) ⟨by decide, .turn _⟩)
  exact ⟨_, hs, by decide +kernel,
    fenced_reports (fun _ h => h) noServers_initial hs (by decide +kernel)⟩

/-- **A report after the takeover.**  Server 1 wins the lease, stalls for 20 seconds before it
receives a report, and commits it while server 2 holds the lease. -/
theorem report_after_takeover : ∃ c', (fleetSystem stockCfg (· ≠ 0)).Steps
      ⟨fleetStart, noServers⟩ c' ∧
    ∃ r ∈ c'.shared.commits, r.server = 1 ∧ HeldBy r.row r.time 2 ∧ ¬ HeldBy r.row r.time 1 := by
  have hboot := System.steps_run (S := fleetSystem stockCfg (· ≠ 0))
    (fleetAnswers_sem firstReport 1) (s := fleetStart) (P := noServers) rfl ⟨by decide, .boot⟩
  -- the nine operations of the lease part of a turn, up to the role
  have hturn := System.steps_runN (S := fleetSystem stockCfg (· ≠ 0))
    (fleetAnswers_sem firstReport 1) (s := fleetStart.boot 1)
    (update_self 1 (.idle (some ServerMem.init)) noServers) ⟨by decide, .turn _⟩ 9
  have hlate := (hboot.trans hturn).trans (clock_steps 20000 (by decide +kernel))
  have hother := hlate.trans (bootTick_steps (i := 2) (by decide) rfl)
  have hrest := hother.trans (System.steps_rest (S := fleetSystem stockCfg (· ≠ 0)) (i := 1)
    (fleetAnswers_sem firstReport 1) rfl)
  refine ⟨_, hrest, ⟨1, 20000, some ⟨some 2, 2, 35000⟩, some 15000⟩, by decide +kernel, rfl, ?_, ?_⟩
  · exact ⟨_, rfl, rfl, by decide⟩
  · rintro ⟨r, hr, hholder, -⟩
    cases hr
    cases hholder

end SolariNet
