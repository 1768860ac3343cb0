/-
# Transactions with locks held to commit

Connections `ι` work on one database `D`.  What a connection writes (`W`) stays its own until it
commits; what it reads is the committed database with its own writes on top (`view`), as under READ
COMMITTED.  Locks (`K`) are exclusive and are given back when the transaction ends.  A savepoint
remembers how many writes came before it.

A database can have parts that are guarded by a lock (`Parts`): a write that touches the part `k`
is made under the lock `k`.
-/
import Mathlib.Logic.Function.Basic

namespace SolariNet.Lib

structure Txn (W K : Type) where
  writes : List W
  locks : List K
  savepoints : List (Nat × Nat)

namespace Txn

variable {W K : Type}

def empty : Txn W K := ⟨[], [], []⟩

def write (t : Txn W K) (w : W) : Txn W K := { t with writes := t.writes ++ [w] }

def lock (t : Txn W K) (k : K) : Txn W K := { t with locks := k :: t.locks }

/-- The newest savepoint comes first; one of the same name is replaced. -/
def savepoint (t : Txn W K) (name : Nat) : Txn W K :=
  { t with savepoints := (name, t.writes.length) :: t.savepoints.filter fun p => p.1 ≠ name }

def since (t : Txn W K) (name : Nat) : List (Nat × Nat) :=
  t.savepoints.dropWhile fun p => p.1 ≠ name

/-- `ROLLBACK TO SAVEPOINT`: later writes and savepoints are gone, locks stay. -/
def rollbackTo (t : Txn W K) (name : Nat) : Option (Txn W K) :=
  match t.since name with
  | [] => none
  | p :: ps => some { t with writes := t.writes.take p.2, savepoints := p :: ps }

def release (t : Txn W K) (name : Nat) : Option (Txn W K) :=
  match t.since name with
  | [] => none
  | _ :: ps => some { t with savepoints := ps }

theorem rollbackTo_savepoint (t : Txn W K) (name : Nat) :
    (t.savepoint name).rollbackTo name = some (t.savepoint name) := by
  simp [rollbackTo, since, savepoint]

theorem rollbackTo_savepoint_write (t : Txn W K) (name : Nat) (w : W) :
    ((t.savepoint name).write w).rollbackTo name = some (t.savepoint name) := by
  simp [rollbackTo, since, savepoint, write]

variable {name : Nat} {t t' : Txn W K}

/-- Going back takes a prefix of the writes and keeps the locks. -/
theorem rollbackTo_eq_some (h : t.rollbackTo name = some t') :
    t'.writes <+: t.writes ∧ t'.locks = t.locks := by
  unfold rollbackTo at h
  split at h
  · cases h
  · cases h
    exact ⟨List.take_prefix _ _, rfl⟩

theorem release_eq_some (h : t.release name = some t') :
    t'.writes = t.writes ∧ t'.locks = t.locks := by
  unfold release at h
  split at h
  · cases h
  · cases h
    exact ⟨rfl, rfl⟩

end Txn

/-- A database and the transactions of its connections. -/
structure TxnStore (ι D W K : Type) where
  db : D
  txn : ι → Txn W K

/-- Parts of a database with a lock each, and what a write does to them. -/
structure Parts {D W : Type} (apply : D → W → D) (K V : Type) where
  part : K → D → V
  on : K → V → W → V
  touches : W → K → Prop
  part_apply : ∀ k d w, part k (apply d w) = on k (part k d) w
  on_of_not_touches : ∀ k v w, ¬ touches w k → on k v w = v

namespace TxnStore

variable {ι D W K V : Type} {apply : D → W → D}

def view (apply : D → W → D) (s : TxnStore ι D W K) (i : ι) : D :=
  (s.txn i).writes.foldl apply s.db

def Free (s : TxnStore ι D W K) (i : ι) (k : K) : Prop := ∀ j, j ≠ i → k ∉ (s.txn j).locks

def Exclusive (s : TxnStore ι D W K) : Prop :=
  ∀ i j k, k ∈ (s.txn i).locks → k ∈ (s.txn j).locks → i = j

/-- What a connection has written, it has the lock for. -/
def Guarded (P : Parts apply K V) (s : TxnStore ι D W K) : Prop :=
  ∀ i, ∀ w ∈ (s.txn i).writes, ∀ k, P.touches w k → k ∈ (s.txn i).locks

section
variable {P : Parts apply K V}

theorem part_foldl (P : Parts apply K V) (k : K) (ws : List W) (d : D) :
    P.part k (ws.foldl apply d) = ws.foldl (P.on k) (P.part k d) := by
  induction ws generalizing d with
  | nil => rfl
  | cons w ws ih => rw [List.foldl_cons, List.foldl_cons, ih, P.part_apply]

variable {k : K} {s : TxnStore ι D W K} {i : ι}

theorem part_foldl_of_not_touches {ws : List W} (h : ∀ w ∈ ws, ¬ P.touches w k) (d : D) :
    P.part k (ws.foldl apply d) = P.part k d := by
  induction ws generalizing d with
  | nil => rfl
  | cons w ws ih =>
    rw [List.foldl_cons, ih fun x hx => h x (List.mem_cons_of_mem _ hx), P.part_apply,
      P.on_of_not_touches k _ w (h w List.mem_cons_self)]

/-- What others commit is not about a part whose lock one holds. -/
theorem part_view_other (he : s.Exclusive) (hg : s.Guarded P) {j : ι} (hij : i ≠ j)
    (hk : k ∈ (s.txn i).locks) : P.part k (s.view apply j) = P.part k s.db :=
  part_foldl_of_not_touches (fun w hw ht => hij (he i j k hk (hg j w hw k ht))) s.db

/-- A view of a part depends on the committed part only. -/
theorem part_view {s' : TxnStore ι D W K} (ht : s'.txn i = s.txn i)
    (hd : P.part k s'.db = P.part k s.db) :
    P.part k (s'.view apply i) = P.part k (s.view apply i) := by
  unfold view
  rw [part_foldl, part_foldl, ht, hd]

end

variable [DecidableEq ι]

def setTxn (s : TxnStore ι D W K) (i : ι) (t : Txn W K) : TxnStore ι D W K :=
  { s with txn := Function.update s.txn i t }

def commit (apply : D → W → D) (s : TxnStore ι D W K) (i : ι) : TxnStore ι D W K :=
  ⟨s.view apply i, Function.update s.txn i .empty⟩

def abort (s : TxnStore ι D W K) (i : ι) : TxnStore ι D W K := s.setTxn i .empty

@[simp] theorem setTxn_self (s : TxnStore ι D W K) (i : ι) (t : Txn W K) :
    (s.setTxn i t).txn i = t := Function.update_self ..

variable {t : Txn W K} {s : TxnStore ι D W K} {i : ι}

theorem setTxn_of_ne (s : TxnStore ι D W K) {j : ι} (h : j ≠ i) (t : Txn W K) :
    (s.setTxn i t).txn j = s.txn j := Function.update_of_ne h ..

/-- A lock is taken only when it is free. -/
theorem Exclusive.setTxn (h : s.Exclusive) (ht : ∀ k ∈ t.locks, k ∈ (s.txn i).locks ∨ s.Free i k) :
    (s.setTxn i t).Exclusive := by
  have hown : ∀ j k, j ≠ i → k ∈ t.locks → k ∉ (s.txn j).locks := by
    intro j k hj hk hkj
    rcases ht k hk with hki | hfree
    · exact hj (h j i k hkj hki)
    · exact hfree j hj hkj
  intro a b k ha hb
  by_cases hai : a = i <;> by_cases hbi : b = i
  · rw [hai, hbi]
  · rw [hai, setTxn_self] at ha
    rw [setTxn_of_ne s hbi] at hb
    exact absurd hb (hown b k hbi ha)
  · rw [hbi, setTxn_self] at hb
    rw [setTxn_of_ne s hai] at ha
    exact absurd ha (hown a k hai hb)
  · rw [setTxn_of_ne s hai] at ha
    rw [setTxn_of_ne s hbi] at hb
    exact h a b k ha hb

theorem Guarded.setTxn {P : Parts apply K V} (h : s.Guarded P)
    (ht : ∀ w ∈ t.writes, ∀ k, P.touches w k → k ∈ t.locks) :
    (s.setTxn i t).Guarded P := by
  intro j w hw k hk
  by_cases hj : j = i
  · rw [hj, setTxn_self] at hw ⊢
    exact ht w hw k hk
  · rw [setTxn_of_ne s hj] at hw ⊢
    exact h j w hw k hk

end TxnStore

end SolariNet.Lib
