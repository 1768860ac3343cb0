/-
# The replay guard of the ingest

`serverIngest.c` remembers, per source node, the last sequence numbers it has seen: 256
places for source nodes, each with a ring of 1024 numbers.  A source without a place gets
the first empty one, or else the place that was touched longest ago.

Of the ring only the valid entries are kept (`seq`), so that a write at `head` is an append
until the ring is full and replaces an entry afterwards.
-/
import Mathlib.Data.Fin.Tuple.Basic
import SolariNet.Wire.Basic

namespace SolariNet

open Function List

def serverDedupWindow : Nat := 1024

def serverDedupSources : Nat := 256

structure DedupSource where
  nodeId : UInt64
  lastTouchUnixMs : UInt64
  seq : List UInt32
  head : Nat
  head_lt : head < serverDedupWindow
  seq_le : seq.length ≤ serverDedupWindow
  head_eq : seq.length < serverDedupWindow → head = seq.length

def DedupSource.fresh (nodeId nowMs : UInt64) : DedupSource :=
  ⟨nodeId, nowMs, [], 0, by decide, Nat.zero_le _, fun _ => rfl⟩

def DedupSource.touch (s : DedupSource) (nowMs : UInt64) : DedupSource :=
  { s with lastTouchUnixMs := nowMs }

def DedupSource.record (s : DedupSource) (seqNo : UInt32) : DedupSource :=
  if h : s.seq.length < serverDedupWindow then
    { s with
      seq := s.seq ++ [seqNo]
      head := (s.head + 1) % serverDedupWindow
      head_lt := Nat.mod_lt _ (by decide)
      seq_le := by rw [length_append]; exact h
      head_eq := by
        intro hlt
        rw [length_append, length_singleton] at hlt ⊢
        rw [s.head_eq h, Nat.mod_eq_of_lt hlt] }
  else
    { s with
      seq := s.seq.set s.head seqNo
      head := (s.head + 1) % serverDedupWindow
      head_lt := Nat.mod_lt _ (by decide)
      seq_le := by rw [length_set]; exact s.seq_le
      head_eq := by
        intro hlt
        rw [length_set] at hlt
        exact absurd hlt h }

abbrev Dedup : Type := Fin serverDedupSources → DedupSource

def Dedup.empty : Dedup := fun _ => .fresh 0 0

def Dedup.placeOf (t : Dedup) (nodeId : UInt64) : Option (Fin serverDedupSources) :=
  Fin.find? fun i => (t i).nodeId == nodeId && nodeId != 0

/-- The place touched longest ago: the first of the least times, place zero if no time is
below `UINT64_MAX`. -/
def Dedup.oldest (t : Dedup) : Fin serverDedupSources :=
  ((finRange serverDedupSources).foldl (fun (best : UInt64 × Fin serverDedupSources) i =>
    if (t i).lastTouchUnixMs < best.1 then ((t i).lastTouchUnixMs, i) else best)
    (0xFFFFFFFFFFFFFFFF, ⟨0, by decide⟩)).2

def serverDedupSlot (t : Dedup) (nodeId nowMs : UInt64) : Fin serverDedupSources × Dedup :=
  match t.placeOf nodeId with
  | some i => (i, update t i ((t i).touch nowMs))
  | none =>
    let i := (Fin.find? fun i => (t i).nodeId == 0).getD t.oldest
    (i, update t i (.fresh nodeId nowMs))

def serverDedupHas (t : Dedup) (nodeId : UInt64) (seqNo : UInt32) (nowMs : UInt64) : Bool × Dedup :=
  if nodeId = 0 then (false, t)
  else
    let r := serverDedupSlot t nodeId nowMs
    ((r.2 r.1).seq.contains seqNo, r.2)

def serverDedupMark (t : Dedup) (nodeId : UInt64) (seqNo : UInt32) (nowMs : UInt64) : Dedup :=
  if nodeId = 0 then t
  else
    let r := serverDedupSlot t nodeId nowMs
    update r.2 r.1 ((r.2 r.1).record seqNo)

def serverDedupSeen (t : Dedup) (nodeId : UInt64) (seqNo : UInt32) (nowMs : UInt64) :
    Bool × Dedup :=
  let r := serverDedupHas t nodeId seqNo nowMs
  if r.1 then (true, r.2) else (false, serverDedupMark r.2 nodeId seqNo nowMs)

/-! ## What is remembered was recorded -/

def Dedup.Remembers (t : Dedup) (nodeId : UInt64) (seqNo : UInt32) : Prop :=
  ∃ i, (t i).nodeId = nodeId ∧ seqNo ∈ (t i).seq

theorem DedupSource.nodeId_record (s : DedupSource) (seqNo : UInt32) :
    (s.record seqNo).nodeId = s.nodeId := by
  unfold record
  split <;> rfl

variable {seqNo q : UInt32} {t : Dedup} {nodeId nowMs : UInt64}

theorem DedupSource.mem_record {s : DedupSource} (h : q ∈ (s.record seqNo).seq) :
    q ∈ s.seq ∨ q = seqNo := by
  unfold record at h
  split at h
  · exact (mem_append.1 h).imp_right mem_singleton.1
  · exact mem_or_eq_of_mem_set h

theorem placeOf_some (h : t.placeOf nodeId = some i) :
    (t i).nodeId = nodeId := by
  have hp := (Fin.find?_eq_some_iff.1 h).1
  rw [Bool.and_eq_true, beq_iff_eq] at hp
  exact hp.1

theorem nodeId_serverDedupSlot (t : Dedup) (nodeId nowMs : UInt64) :
    ((serverDedupSlot t nodeId nowMs).2 (serverDedupSlot t nodeId nowMs).1).nodeId = nodeId := by
  unfold serverDedupSlot
  cases hp : t.placeOf nodeId with
  | none => simp only [update_self, DedupSource.fresh]
  | some i =>
    simp only [update_self]
    exact placeOf_some hp

theorem remembers_slot {m : UInt64} (h : (serverDedupSlot t nodeId nowMs).2.Remembers m q) :
    t.Remembers m q := by
  obtain ⟨j, hm, hq⟩ := h
  unfold serverDedupSlot at hm hq
  cases hp : t.placeOf nodeId with
  | none =>
    simp only [hp] at hm hq
    generalize (Fin.find? fun i => (t i).nodeId == 0).getD t.oldest = i at hm hq
    by_cases hj : j = i
    · subst hj
      rw [update_self] at hq
      exact absurd hq not_mem_nil
    · rw [update_of_ne hj] at hm hq
      exact ⟨j, hm, hq⟩
  | some i =>
    simp only [hp] at hm hq
    by_cases hj : j = i
    · subst hj
      rw [update_self] at hm hq
      exact ⟨j, hm, hq⟩
    · rw [update_of_ne hj] at hm hq
      exact ⟨j, hm, hq⟩

theorem remembers_has {m : UInt64} (h : (serverDedupHas t nodeId seqNo nowMs).2.Remembers m q) :
    t.Remembers m q := by
  unfold serverDedupHas at h
  split at h
  · exact h
  · simp only at h
    exact remembers_slot h

theorem remembers_of_has (h : (serverDedupHas t nodeId seqNo nowMs).1 = true) :
    t.Remembers nodeId seqNo := by
  unfold serverDedupHas at h
  split at h
  · cases h
  simp only [contains_iff_mem] at h
  have hn := nodeId_serverDedupSlot t nodeId nowMs
  exact remembers_slot ⟨_, hn, h⟩

theorem not_remembers_empty (nodeId : UInt64) (seqNo : UInt32) :
    ¬ Dedup.empty.Remembers nodeId seqNo := by
  rintro ⟨i, -, hq⟩
  exact absurd hq not_mem_nil

theorem remembers_mark {m : UInt64} (h : (serverDedupMark t nodeId seqNo nowMs).Remembers m q) :
    t.Remembers m q ∨ m = nodeId ∧ q = seqNo := by
  unfold serverDedupMark at h
  split at h
  · exact .inl h
  obtain ⟨j, hm, hq⟩ := h
  have hn := nodeId_serverDedupSlot t nodeId nowMs
  have hs : (serverDedupSlot t nodeId nowMs).2.Remembers m q → t.Remembers m q := remembers_slot
  generalize serverDedupSlot t nodeId nowMs = r at hm hq hn hs
  by_cases hj : j = r.1
  · subst hj
    rw [update_self] at hm hq
    rw [DedupSource.nodeId_record] at hm
    rcases DedupSource.mem_record hq with hq | hq
    · exact .inl (hs ⟨_, hm, hq⟩)
    · exact .inr ⟨hm.symm.trans hn, hq⟩
  · rw [update_of_ne hj] at hm hq
    exact .inl (hs ⟨j, hm, hq⟩)

theorem remembers_seen {n : UInt64} (h : (serverDedupSeen t nodeId seqNo nowMs).2.Remembers n q) :
    t.Remembers n q ∨ (serverDedupSeen t nodeId seqNo nowMs).1 = false ∧ n = nodeId ∧
      q = seqNo := by
  unfold serverDedupSeen at h ⊢
  simp only at h ⊢
  split at h
  · exact .inl (remembers_has h)
  next hmiss =>
  rw [if_neg hmiss]
  exact (remembers_mark h).imp remembers_has fun h => ⟨rfl, h⟩

end SolariNet
