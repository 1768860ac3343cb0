/-
# Transactions that allocate

Any number of connections call `allocate`, do other work in the same transaction, commit or roll
back, one statement at a time (`allocSystem`).  Statements run under READ COMMITTED with row locks
held to the end of the transaction (`Lib.Txn`); a statement that has to wait for a lock or for
another's uncommitted address has not happened yet.  A writer of a subnet row or of a range takes
the lock of the subnet, and does not write to a subnet it has itself allocated from.  Any statement
can fail; a fatal failure ends the transaction.
-/
import SolariNet.Lib.System
import SolariNet.Lib.Txn
import SolariNet.Netdb.Allocator

namespace SolariNet

open List Lib Lib.Prog

/-! ## The tables -/

structure SubnetRow where
  id : Nat
  networkId : Nat
  cidr : Cidr
  gateway : Option Addr
  live : Bool

structure RangeRow where
  subnetId : Nat
  id : Nat
  range : DhcpRange
  live : Bool

structure SorDb where
  subnets : List SubnetRow
  ranges : List RangeRow
  live : List (Addr × Option Nat)

inductive SorWrite where
  | caller (w : CallerWrite)
  | allocation (row : NewAddress)

def SorDb.apply (d : SorDb) : SorWrite → SorDb
  | .caller (.subnet id networkId cidr gateway live) =>
    { d with
      subnets := ⟨id, networkId, cidr, gateway, live⟩ :: d.subnets.filter fun r => r.id ≠ id }
  | .caller (.range subnetId id range live) =>
    { d with
      ranges := ⟨subnetId, id, range, live⟩ ::
        d.ranges.filter fun r => ¬ (r.subnetId = subnetId ∧ r.id = id) }
  | .caller (.address a subnetId) => { d with live := d.live ++ [(a, subnetId)] }
  | .caller (.retireAddress a) => { d with live := d.live.filter fun p => p.1 ≠ a }
  | .caller (.other _) => d
  | .allocation row => { d with live := d.live ++ [(.v4 row.address, some row.subnetId)] }

def SorDb.used (d : SorDb) (subnetId : Nat) (bounds : Option (Nat × Nat)) : List Addr :=
  (d.live.filter fun p => p.2 = some subnetId ∨
    ∃ b ∈ bounds, (Addr.v4 b.1).value ≤ p.1.value ∧ p.1.value ≤ (Addr.v4 b.2).value).map (·.1)

def SorDb.IsLive (d : SorDb) (a : Addr) : Prop := a ∈ d.live.map (·.1)

def SorWrite.adds : SorWrite → Option Addr
  | .caller (.address a _) => some a
  | .allocation row => some (.v4 row.address)
  | _ => none

def SorWrite.lockFor : SorWrite → List Nat
  | .caller (.subnet id _ _ _ _) => [id]
  | .caller (.range subnetId _ _ _) => [subnetId]
  | _ => []

/-! ## A subnet and its ranges -/

structure SubnetPart where
  row : Option SubnetRow
  ranges : List RangeRow

def SubnetPart.liveRanges (v : SubnetPart) : List DhcpRange :=
  (v.ranges.filter (·.live)).map (·.range)

def SorDb.subnetPart (k : Nat) (d : SorDb) : SubnetPart :=
  ⟨d.subnets.find? fun r => r.id = k, d.ranges.filter fun r => r.subnetId = k⟩

def SubnetPart.write (k : Nat) (v : SubnetPart) : SorWrite → SubnetPart
  | .caller (.subnet id networkId cidr gateway live) =>
    if id = k then { v with row := some ⟨id, networkId, cidr, gateway, live⟩ } else v
  | .caller (.range subnetId id range live) =>
    if subnetId = k then
      { v with ranges := ⟨subnetId, id, range, live⟩ :: v.ranges.filter fun r => r.id ≠ id }
    else v
  | _ => v

theorem find?_put (k : Nat) (row : SubnetRow) (l : List SubnetRow) :
    (row :: l.filter fun r => r.id ≠ row.id).find? (fun r => r.id = k) =
      if row.id = k then some row else l.find? fun r => r.id = k := by
  by_cases hk : row.id = k
  · rw [if_pos hk, List.find?_cons_of_pos (by simpa using hk)]
  rw [if_neg hk, List.find?_cons_of_neg (by simpa using hk), List.find?_filter]
  congr 1
  funext r
  grind

theorem filter_put (k : Nat) (row : RangeRow) (l : List RangeRow) :
    (row :: l.filter fun r => ¬ (r.subnetId = row.subnetId ∧ r.id = row.id)).filter
        (fun r => r.subnetId = k) =
      if row.subnetId = k then
        row :: (l.filter fun r => r.subnetId = k).filter fun r => r.id ≠ row.id
      else l.filter fun r => r.subnetId = k := by
  by_cases hk : row.subnetId = k
  · rw [if_pos hk, filter_cons_of_pos (by simpa using hk), filter_filter, filter_filter]
    congr 2
    funext r
    grind
  · rw [if_neg hk, filter_cons_of_neg (by simpa using hk), filter_filter]
    congr 1
    funext r
    grind

def subnetParts : Parts SorDb.apply Nat SubnetPart where
  part := SorDb.subnetPart
  on := SubnetPart.write
  touches w k := k ∈ w.lockFor
  part_apply k d w := by
    cases w with
    | allocation row => rfl
    | caller w =>
      cases w with
      | subnet id networkId cidr gateway live =>
        simp only [SorDb.apply, SorDb.subnetPart, SubnetPart.write]
        rw [find?_put k ⟨id, networkId, cidr, gateway, live⟩]
        split <;> rfl
      | range subnetId id range live =>
        simp only [SorDb.apply, SorDb.subnetPart, SubnetPart.write]
        rw [filter_put k ⟨subnetId, id, range, live⟩]
        split <;> rfl
      | address a subnetId => rfl
      | retireAddress a => rfl
      | other n => rfl
  on_of_not_touches k v w h := by
    cases w with
    | allocation row => rfl
    | caller w =>
      cases w with
      | subnet id networkId cidr gateway live =>
        exact if_neg fun hid : id = k => h (mem_singleton.2 hid.symm)
      | range subnetId id range live =>
        exact if_neg fun hid : subnetId = k => h (mem_singleton.2 hid.symm)
      | address a subnetId => rfl
      | retireAddress a => rfl
      | other n => rfl

/-- `a` is an address the subnet may hand out: live, in the prefix, not the gateway, outside the
dynamic and the excluded ranges and in a static block if there is one. -/
def SubnetPart.Fits (v : SubnetPart) (a : Nat) : Prop :=
  ∃ row net, v.row = some row ∧ row.live = true ∧ row.cidr = .v4 net ∧
    Selectable net row.gateway v.liveRanges a

/-! ## The system -/

abbrev SorStore (ι : Type) : Type := TxnStore ι SorDb SorWrite Nat

structure AllocWorld (ι : Type) where
  store : SorStore ι
  before : ι → Option (List SorWrite)
  collided : ι → List (Nat × SorDb)
  committed : List (NewAddress × SorDb)

namespace AllocWorld

variable {ι : Type}

def txn (w : AllocWorld ι) (i : ι) : Txn SorWrite Nat := w.store.txn i

def view (w : AllocWorld ι) (i : ι) : SorDb := w.store.view SorDb.apply i

def NotPending (w : AllocWorld ι) (i : ι) (a : Addr) : Prop :=
  ∀ j, j ≠ i → ∀ wr ∈ (w.txn j).writes, wr.adds ≠ some a

def allocations (w : AllocWorld ι) (i : ι) : List NewAddress :=
  (w.txn i).writes.filterMap fun
    | .allocation row => some row
    | .caller _ => none

variable [DecidableEq ι]

def setTxn (w : AllocWorld ι) (i : ι) (t : Txn SorWrite Nat) : AllocWorld ι :=
  { w with store := w.store.setTxn i t }

def call (w : AllocWorld ι) (i : ι) : AllocWorld ι :=
  { w with
    before := Function.update w.before i (some (w.txn i).writes)
    collided := Function.update w.collided i [] }

def abort (w : AllocWorld ι) (i : ι) : AllocWorld ι :=
  { w with store := w.store.abort i, before := Function.update w.before i none }

def collide (w : AllocWorld ι) (i : ι) (a : Nat) : AllocWorld ι :=
  { w with collided := Function.update w.collided i (w.collided i ++ [(a, w.view i)]) }

def commit (w : AllocWorld ι) (i : ι) : AllocWorld ι :=
  { w with
    store := w.store.commit SorDb.apply i
    before := Function.update w.before i none
    committed := w.committed ++ (w.allocations i).map fun row => (row, w.view i) }

end AllocWorld

variable {ι : Type} [DecidableEq ι]

/-- A statement that fails: it had no effect, or it ended the transaction.  The index over live
addresses is not named. -/
def StatementFails (i : ι) (w : AllocWorld ι) (e : SqlError) (w' : AllocWorld ι) : Prop :=
  match e with
  | .integrity code message => isRace code message = false ∧ w' = w
  | .other false => w' = w
  | .other true => w' = w.abort i

def allocAnswers (i : ι) : (o : AllocOp) → AllocWorld ι → o.Ans → AllocWorld ι → Prop
  | .calling, w, _, w' => w' = w.call i
  | .lockSubnet id, w, r, w' =>
    r = none ∧ w' = w ∨ ∃ s row, r = some s ∧ w.store.Free i id ∧
      ((w.view i).subnetPart id).row = some row ∧ row.live = true ∧ s.cidr = row.cidr ∧
      s.gateway = row.gateway ∧ s.networkId = row.networkId ∧ w' = w.setTxn i ((w.txn i).lock id)
  | .selectUsed subnetId bounds, w, r, w' => r = (w.view i).used subnetId bounds ∧ w' = w
  | .lockRanges subnetId, w, r, w' => r = ((w.view i).subnetPart subnetId).liveRanges ∧ w' = w
  | .savepoint sp, w, _, w' => w' = w.setTxn i ((w.txn i).savepoint sp)
  | .releaseSavepoint sp, w, _, w' => ∃ t, (w.txn i).release sp = some t ∧ w' = w.setTxn i t
  | .rollbackToSavepoint sp, w, _, w' => ∃ t, (w.txn i).rollbackTo sp = some t ∧ w' = w.setTxn i t
  | .insertAddress row, w, _, w' =>
    ¬ (w.view i).IsLive (.v4 row.address) ∧ w.NotPending i (.v4 row.address) ∧
      w' = w.setTxn i ((w.txn i).write (.allocation row))
  | .callerWrite cw, w, _, w' =>
    (∀ k ∈ (SorWrite.caller cw).lockFor, w.store.Free i k ∧
        ∀ row ∈ w.allocations i, row.subnetId ≠ k) ∧
      (∀ a ∈ (SorWrite.caller cw).adds, ¬ (w.view i).IsLive a ∧ w.NotPending i a) ∧
      w' = w.setTxn i { (w.txn i).write (.caller cw) with
        locks := (SorWrite.caller cw).lockFor ++ (w.txn i).locks }
  | .commit, w, _, w' => w' = w.commit i
  | .rollback, w, _, w' => w' = w.abort i
  | _, w, _, w' => w' = w

def allocSem (i : ι) (o : AllocOp) (w : AllocWorld ι) : o.Res → AllocWorld ι → Prop
  | .ok a, w' => allocAnswers i o w a w'
  | .error e, w' => o ≠ .calling ∧ StatementFails i w e w' ∨
      ∃ row code message, o = .insertAddress row ∧ e = .integrity code message ∧
        isRace code message = true ∧ (w.view i).IsLive (.v4 row.address) ∧
        w' = w.collide i row.address

abbrev CallResult : Type := Nat × Except AllocError Nat

inductive AllocStart : Prog AllocOp AllocOp.Res (Option CallResult) → Prop where
  | call (a : AllocArgs) : AllocStart (perform .calling >>= fun _ =>
    (allocate a).run >>= fun r => .ret (some (a.maxRetries, r)))
  | write (w : CallerWrite) : AllocStart (perform (.callerWrite w) >>= fun _ => .ret none)
  | commit : AllocStart (perform .commit >>= fun _ => .ret none)
  | rollback : AllocStart (perform .rollback >>= fun _ => .ret none)

def allocSystem (ι : Type) [DecidableEq ι] :
    System ι AllocOp AllocOp.Res (AllocWorld ι) (Option CallResult) where
  sem := allocSem
  start _ _ p := AllocStart p
  env _ _ := False
  boot _ m := m = none

def AllocInitial (w : AllocWorld ι) : Prop :=
  (∀ i, w.txn i = .empty) ∧ (∀ i, w.before i = none) ∧ (∀ i, w.collided i = []) ∧ w.committed = []

inductive AllocChange (i : ι) (o : AllocOp) (w w' : AllocWorld ι) : Prop where
  | same (h : w' = w)
  | call (h : w' = w.call i)
  | abort (h : w' = w.abort i)
  | lock (k : Nat) (hf : w.store.Free i k) (h : w' = w.setTxn i ((w.txn i).lock k))
  | mark (t : Txn SorWrite Nat) (hw : t.writes = (w.txn i).writes) (hl : t.locks = (w.txn i).locks)
      (h : w' = w.setTxn i t)
  | back (sp : Nat) (ho : o = .rollbackToSavepoint sp) (t : Txn SorWrite Nat)
      (ht : (w.txn i).rollbackTo sp = some t) (h : w' = w.setTxn i t)
  | allocate (row : NewAddress) (ho : o = .insertAddress row)
      (h : w' = w.setTxn i ((w.txn i).write (.allocation row)))
  | collide (a : Nat) (hl : (w.view i).IsLive (.v4 a)) (h : w' = w.collide i a)
  | write (cw : CallerWrite)
      (hf : ∀ k ∈ (SorWrite.caller cw).lockFor, w.store.Free i k ∧
        ∀ row ∈ w.allocations i, row.subnetId ≠ k)
      (h : w' = w.setTxn i { (w.txn i).write (.caller cw) with
        locks := (SorWrite.caller cw).lockFor ++ (w.txn i).locks })
  | commit (h : w' = w.commit i)

variable {w w' : AllocWorld ι}

theorem allocSem_change {i : ι}
    (h : allocSem i o w r w') : AllocChange i o w w' := by
  cases r with
  | error e =>
    rcases h with ⟨-, h⟩ | ⟨row, code, message, -, -, -, hl, h⟩
    · match e, h with
      | .integrity _ _, h => exact .same h.2
      | .other false, h => exact .same h
      | .other true, h => exact .abort h
    · exact .collide _ hl h
  | ok a =>
    cases o with
    | calling => exact .call h
    | lockSubnet id =>
      rcases h with ⟨-, h⟩ | ⟨s, row, -, hf, -, -, -, -, -, h⟩
      · exact .same h
      · exact .lock id hf h
    | selectUsed subnetId bounds | lockRanges subnetId => exact .same h.2
    | savepoint sp => exact .mark ((w.txn i).savepoint sp) rfl rfl h
    | releaseSavepoint sp =>
      obtain ⟨t, ht, h⟩ := h
      obtain ⟨hw, hl⟩ := Txn.release_eq_some ht
      exact .mark t hw hl h
    | rollbackToSavepoint sp =>
      obtain ⟨t, ht, h⟩ := h
      exact .back sp rfl t ht h
    | insertAddress row => exact .allocate row rfl h.2.2
    | callerWrite cw => exact .write cw h.1 h.2.2
    | commit => exact .commit h
    | rollback => exact .abort h
    | _ => exact .same h

/-! ## The invariant -/

/-- An allocation in an open transaction: its subnet is locked, fits it as it was seen then, and
has not been written to since. -/
structure Allocated (w : AllocWorld ι) (i : ι) (pre : List SorWrite) (row : NewAddress)
    (post : List SorWrite) : Prop where
  locked : row.subnetId ∈ (w.txn i).locks
  fits : ((pre.foldl SorDb.apply w.store.db).subnetPart row.subnetId).Fits row.address
  untouched : ∀ wr ∈ post, row.subnetId ∉ wr.lockFor

/-- Each allocation is checked under the lock of its subnet, and fits when it is committed. -/
structure AllocInv (w : AllocWorld ι) : Prop where
  exclusive : w.store.Exclusive
  guarded : w.store.Guarded subnetParts
  allocated : ∀ i pre row post, (w.txn i).writes = pre ++ .allocation row :: post →
    Allocated w i pre row post
  committed : ∀ e ∈ w.committed, (e.2.subnetPart e.1.subnetId).Fits e.1.address
  kept : ∀ i b, w.before i = some b → b <+: (w.txn i).writes
  collided : ∀ i, ∀ e ∈ w.collided i, e.2.IsLive (.v4 e.1)

def AllocAllowed (i : ι) (w : AllocWorld ι) : AllocOp → Prop
  | .insertAddress row => row.subnetId ∈ (w.txn i).locks ∧
      ((w.view i).subnetPart row.subnetId).Fits row.address
  | .rollbackToSavepoint sp => ∀ b t, w.before i = some b → (w.txn i).rollbackTo sp = some t →
      b <+: t.writes
  | _ => True

omit [DecidableEq ι] in
theorem AllocInv.initial (h : AllocInitial w) : AllocInv w := by
  obtain ⟨htxn, hbefore, hcollided, hcommitted⟩ := h
  have hlocks : ∀ i, (w.store.txn i).locks = [] := fun i => congrArg Txn.locks (htxn i)
  have hwrites : ∀ i, (w.store.txn i).writes = [] := fun i => congrArg Txn.writes (htxn i)
  exact ⟨by simp [TxnStore.Exclusive, hlocks], by simp [TxnStore.Guarded, hwrites],
    by simp [AllocWorld.txn, hwrites], by simp [hcommitted], by simp [hbefore], by simp [hcollided]⟩

section
variable {w : AllocWorld ι} {i : ι}

@[simp] theorem txn_setTxn (t : Txn SorWrite Nat) : (w.setTxn i t).txn i = t :=
  TxnStore.setTxn_self ..

theorem txn_setTxn_of_ne {j : ι} (h : j ≠ i) (t : Txn SorWrite Nat) :
    (w.setTxn i t).txn j = w.txn j := TxnStore.setTxn_of_ne _ h t

theorem AllocInv.setTxn (h : AllocInv w)
    (hlocks : ∀ k ∈ t.locks, k ∈ (w.txn i).locks ∨ w.store.Free i k)
    (hguard : ∀ wr ∈ t.writes, ∀ k ∈ wr.lockFor, k ∈ t.locks)
    (halloc : ∀ pre row post, t.writes = pre ++ .allocation row :: post →
      Allocated (w.setTxn i t) i pre row post)
    (hkept : ∀ b, w.before i = some b → b <+: t.writes) : AllocInv (w.setTxn i t) where
  exclusive := h.exclusive.setTxn hlocks
  guarded := h.guarded.setTxn hguard
  allocated j pre row post hw := by
    by_cases hj : j = i
    · subst hj
      rw [txn_setTxn] at hw
      exact halloc pre row post hw
    · rw [txn_setTxn_of_ne hj] at hw
      obtain ⟨hl, hf, hu⟩ := h.allocated j pre row post hw
      exact ⟨(txn_setTxn_of_ne hj t).symm ▸ hl, hf, hu⟩
  committed := h.committed
  kept j b hb := by
    by_cases hj : j = i
    · subst hj
      rw [txn_setTxn]
      exact hkept b hb
    · rw [txn_setTxn_of_ne hj]
      exact h.kept j b hb
  collided := h.collided

theorem AllocInv.shrink (h : AllocInv w) (hw : t.writes <+: (w.txn i).writes)
    (hlocks : ∀ k ∈ t.locks, k ∈ (w.txn i).locks ∨ w.store.Free i k)
    (hheld : ∀ k ∈ (w.txn i).locks, k ∈ t.locks)
    (hkept : ∀ b, w.before i = some b → b <+: t.writes) : AllocInv (w.setTxn i t) := by
  refine h.setTxn hlocks (fun wr hwr k hk => ?_) (fun pre row post hpre => ?_) hkept
  · exact hheld k (h.guarded i wr (hw.subset hwr) k hk)
  obtain ⟨rest, hrest⟩ := hw
  rw [hpre, append_assoc] at hrest
  obtain ⟨hl, hf, hu⟩ := h.allocated i pre row (post ++ rest) hrest.symm
  exact ⟨by rw [txn_setTxn]; exact hheld _ hl, hf, fun wr hwr => hu wr (mem_append_left _ hwr)⟩

theorem AllocInv.extend (h : AllocInv w) {locks : List Nat}
    (hlocks : ∀ k ∈ locks, k ∈ (w.txn i).locks ∨ w.store.Free i k)
    (hheld : ∀ k ∈ (w.txn i).locks, k ∈ locks) (hguard : ∀ k ∈ wr.lockFor, k ∈ locks)
    (hold : ∀ row ∈ w.allocations i, row.subnetId ∉ wr.lockFor)
    (hnew : ∀ row, wr = .allocation row → row.subnetId ∈ locks ∧
      ((w.view i).subnetPart row.subnetId).Fits row.address) :
    AllocInv (w.setTxn i { (w.txn i).write wr with locks := locks }) := by
  refine h.setTxn hlocks ?_ ?_ ?_
  · exact forall_mem_append.2 ⟨fun x hx k hk => hheld k (h.guarded i x hx k hk),
      forall_mem_singleton.2 hguard⟩
  · intro pre row post hpre
    have hpre' : (w.txn i).writes ++ [wr] = pre ++ .allocation row :: post := hpre
    -- the allocation is the write that was added, or one of the earlier ones
    rcases eq_nil_or_concat post with rfl | ⟨init, last, rfl⟩
    · obtain ⟨hw, hwr⟩ := append_inj' hpre' rfl
      obtain ⟨hl, hf⟩ := hnew row (singleton_inj.1 hwr)
      refine ⟨by rw [txn_setTxn]; exact hl, ?_, by rintro x ⟨⟩⟩
      rw [← hw]
      exact hf
    rw [concat_eq_append, ← cons_append, ← append_assoc] at hpre'
    obtain ⟨hw, hwr⟩ := append_inj' hpre' rfl
    obtain ⟨hl, hf, hu⟩ := h.allocated i pre row init hw
    have hmem : row ∈ w.allocations i := by
      refine mem_filterMap.2 ⟨.allocation row, ?_, rfl⟩
      rw [hw]
      exact mem_append_right _ mem_cons_self
    refine ⟨by rw [txn_setTxn]; exact hheld _ hl, hf, ?_⟩
    rw [concat_eq_append, ← singleton_inj.1 hwr]
    exact forall_mem_append.2 ⟨hu, forall_mem_singleton.2 (hold row hmem)⟩
  · intro b hb
    exact (h.kept i b hb).trans (prefix_append _ _)

section
omit [DecidableEq ι]

theorem AllocInv.fits_view (h : AllocInv w) (hrow : row ∈ w.allocations i) :
    ((w.view i).subnetPart row.subnetId).Fits row.address := by
  obtain ⟨wr, hwr, heq⟩ := mem_filterMap.1 hrow
  cases wr with
  | caller cw => cases heq
  | allocation row' =>
    cases heq
    obtain ⟨pre, post, hw⟩ := append_of_mem hwr
    obtain ⟨-, hf, hu⟩ := h.allocated i pre row post hw
    have hview : (w.view i).subnetPart row.subnetId =
        (pre.foldl SorDb.apply w.store.db).subnetPart row.subnetId := by
      unfold AllocWorld.view TxnStore.view
      rw [show (w.store.txn i).writes = pre ++ .allocation row :: post from hw, foldl_append]
      exact TxnStore.part_foldl_of_not_touches (P := subnetParts)
        (forall_mem_cons.2 ⟨by rintro ⟨⟩, hu⟩) _
    rw [hview]
    exact hf

theorem AllocInv.notes (h : AllocInv w) {before : ι → Option (List SorWrite)}
    {collided : ι → List (Nat × SorDb)}
    (hkept : ∀ j b, before j = some b → b <+: (w.txn j).writes)
    (hcollided : ∀ j, ∀ e ∈ collided j, e.2.IsLive (.v4 e.1)) :
    AllocInv { w with before := before, collided := collided } where
  exclusive := h.exclusive
  guarded := h.guarded
  allocated j pre row post hw := by
    obtain ⟨hl, hf, hu⟩ := h.allocated j pre row post hw
    exact ⟨hl, hf, hu⟩
  committed := h.committed
  kept := hkept
  collided := hcollided

end

section
variable (h : AllocInv w)
include h

theorem AllocInv.kept_update {o : Option (List SorWrite)}
    (ho : ∀ b, o = some b → b <+: (w.txn i).writes) :
    ∀ j b, Function.update w.before i o j = some b → b <+: (w.txn j).writes :=
  (Function.forall_update_iff w.before fun j o => ∀ b, o = some b → b <+: (w.txn j).writes).2
    ⟨ho, fun j _ => h.kept j⟩

theorem AllocInv.collided_update {l : List (Nat × SorDb)} (hl : ∀ e ∈ l, e.2.IsLive (.v4 e.1)) :
    ∀ j, ∀ e ∈ Function.update w.collided i l j, e.2.IsLive (.v4 e.1) :=
  (Function.forall_update_iff w.collided fun _ l => ∀ e ∈ l, e.2.IsLive (.v4 e.1)).2
    ⟨hl, fun j _ => h.collided j⟩

theorem AllocInv.call : AllocInv (w.call i) :=
  h.notes (h.kept_update fun _ hb => Option.some.inj hb ▸ prefix_refl _)
    (h.collided_update (by rintro e ⟨⟩))

theorem AllocInv.collide {a : Nat} (ha : (w.view i).IsLive (.v4 a)) : AllocInv (w.collide i a) :=
  h.notes h.kept (h.collided_update (forall_mem_append.2 ⟨h.collided i, forall_mem_singleton.2 ha⟩))

theorem AllocInv.abort : AllocInv (w.abort i) := by
  have hforget := h.notes (h.kept_update (i := i) (o := none) (by rintro b ⟨⟩)) h.collided
  refine hforget.setTxn (by rintro k ⟨⟩) (by rintro wr ⟨⟩) (fun pre row post hw => ?_)
    fun b hb => ?_
  · simp [Txn.empty] at hw
  · cases (Function.update_self i none w.before).symm.trans hb

theorem AllocInv.commit : AllocInv (w.commit i) where
  exclusive := h.abort.exclusive
  guarded := h.abort.guarded
  allocated j pre row post hw := by
    obtain ⟨hl, hf, hu⟩ := (h.abort (i := i)).allocated j pre row post hw
    refine ⟨hl, ?_, hu⟩
    have hj : j ≠ i := by
      rintro rfl
      rw [show ((w.abort j).txn j).locks = [] from congrArg Txn.locks (txn_setTxn _)] at hl
      cases hl
    rw [show (w.abort i).txn j = w.txn j from txn_setTxn_of_ne hj _] at hl
    -- what was committed is not about a subnet that `j` has locked
    have hpart : (w.view i).subnetPart row.subnetId = w.store.db.subnetPart row.subnetId :=
      TxnStore.part_view_other (P := subnetParts) h.exclusive h.guarded hj hl
    have hpre : ∀ d, (pre.foldl SorDb.apply d).subnetPart row.subnetId =
        pre.foldl (SubnetPart.write row.subnetId) (d.subnetPart row.subnetId) :=
      TxnStore.part_foldl subnetParts row.subnetId pre
    rw [hpre] at hf ⊢
    show (pre.foldl _ ((w.view i).subnetPart row.subnetId)).Fits row.address
    rw [hpart]
    exact hf
  committed := forall_mem_append.2 ⟨h.committed, forall_mem_map.2 fun _ hrow => h.fits_view hrow⟩
  kept := h.abort.kept
  collided := h.collided

theorem AllocInv.step
    (hs : allocSem i o w r w') (ho : AllocAllowed i w o) : AllocInv w' := by
  cases allocSem_change hs with
  | same hw => exact hw ▸ h
  | call hw => exact hw ▸ h.call
  | abort hw => exact hw ▸ h.abort
  | lock k hf hw =>
    exact hw ▸ h.shrink (prefix_refl _) (forall_mem_cons.2 ⟨.inr hf, fun _ => .inl⟩)
      (fun x hx => mem_cons_of_mem _ hx) (h.kept i)
  | mark t hwr hl hw =>
    exact hw ▸ h.shrink (hwr ▸ prefix_refl _) (fun x hx => .inl (hl ▸ hx))
      (fun x hx => hl.symm ▸ hx) (hwr.symm ▸ h.kept i)
  | back sp hop t ht hw =>
    subst hop
    obtain ⟨hpre, hl⟩ := Txn.rollbackTo_eq_some ht
    exact hw ▸ h.shrink hpre (fun x hx => .inl (hl ▸ hx)) (fun x hx => hl.symm ▸ hx)
      fun b hb => ho b t hb ht
  | allocate row hop hw =>
    subst hop
    refine hw ▸ h.extend (fun x hx => .inl hx) (fun x hx => hx) (by rintro k ⟨⟩)
      (fun _ _ => by rintro ⟨⟩) ?_
    rintro row' ⟨⟩
    exact ho
  | collide a hl hw => exact hw ▸ h.collide hl
  | write cw hf hw =>
    exact hw ▸ h.extend (forall_mem_append.2 ⟨fun x hx => .inr (hf x hx).1, fun _ => .inl⟩)
      (fun x hx => mem_append_right _ hx) (fun k hk => mem_append_left _ hk)
      (fun row hrow hk => (hf _ hk).2 row hrow rfl) (by rintro row ⟨⟩)
  | commit hw => exact hw ▸ h.commit

end

end

/-! ## What the others leave alone -/

structure AllocRely (i : ι) (w w' : AllocWorld ι) : Prop where
  txn : w'.txn i = w.txn i
  before : w'.before i = w.before i
  collided : w'.collided i = w.collided i
  parts : ∀ k ∈ (w.txn i).locks, w'.store.db.subnetPart k = w.store.db.subnetPart k

section
omit [DecidableEq ι]

theorem AllocRely.refl (i : ι) (w : AllocWorld ι) : AllocRely i w w :=
  ⟨rfl, rfl, rfl, fun _ _ => rfl⟩

theorem AllocRely.trans {i : ι} (h : AllocRely i w w')
    (h' : AllocRely i w' w'') : AllocRely i w w'' where
  txn := h'.txn.trans h.txn
  before := h'.before.trans h.before
  collided := h'.collided.trans h.collided
  parts k hk := (h'.parts k (h.txn.symm ▸ hk)).trans (h.parts k hk)

theorem AllocRely.view {i : ι} (h : AllocRely i w w') {k : Nat}
    (hk : k ∈ (w.txn i).locks) : (w'.view i).subnetPart k = (w.view i).subnetPart k :=
  TxnStore.part_view (P := subnetParts) h.txn (h.parts k hk)

end

theorem AllocChange.rely {i j : ι} (hij : i ≠ j)
    (hI : AllocInv w) (h : AllocChange j o w w') : AllocRely i w w' := by
  cases h with
  | same h => exact h ▸ .refl i w'
  | call h => exact h ▸ ⟨rfl, Function.update_of_ne hij .., Function.update_of_ne hij ..,
      fun _ _ => rfl⟩
  | abort h => exact h ▸ ⟨Function.update_of_ne hij .., Function.update_of_ne hij .., rfl,
      fun _ _ => rfl⟩
  | lock _ _ h | mark _ _ _ h | back _ _ _ _ h | allocate _ _ h | write _ _ h =>
    exact h ▸ ⟨txn_setTxn_of_ne hij _, rfl, rfl, fun _ _ => rfl⟩
  | collide a hl h => exact h ▸ ⟨rfl, rfl, Function.update_of_ne hij .., fun _ _ => rfl⟩
  | commit h =>
    subst h
    refine ⟨Function.update_of_ne hij .., Function.update_of_ne hij .., rfl, fun k hk => ?_⟩
    exact TxnStore.part_view_other (P := subnetParts) hI.exclusive hI.guarded hij hk

end SolariNet
