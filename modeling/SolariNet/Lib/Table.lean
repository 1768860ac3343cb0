/-
# Tables with a unique key, tables with a serial id

Two kinds of database table, each with its constraint as a field:

    Table key      no two rows have the same `key`
    Serial id      rows in the order of their `id`, drawn from a counter and never reused

The operations are the statements one meets: `INSERT` that a taken key refuses, `INSERT …
ON DUPLICATE KEY UPDATE`, `UPDATE` that keeps the key, `DELETE`.
-/
import Mathlib.Data.List.Nodup
import Mathlib.Data.List.Pairwise

namespace SolariNet.Lib

open List

variable {α κ : Type}

/-! ## Unique keys -/

/-- Rows with pairwise different keys. -/
structure Table (key : α → κ) where
  rows : List α
  nodup : (rows.map key).Nodup

namespace Table

variable {key : α → κ}

def empty : Table key := ⟨[], nodup_nil⟩

variable {t t' : Table key} {a r : α} {f : α → α} {k : κ} {hf : ∀ r, key (f r) = key r}

theorem eq_of_key (t : Table key) {q : α} (hr : r ∈ t.rows) (hq : q ∈ t.rows) (h : key r = key q) :
    r = q :=
  inj_on_of_nodup_map t.nodup hr hq h

def delete (t : Table key) (p : α → Bool) : Table key where
  rows := t.rows.filter fun r => !p r
  nodup := t.nodup.sublist (filter_sublist.map key)

/-- `UPDATE`, with an assignment `f` that keeps the key. -/
def update (t : Table key) (f : α → α) (hf : ∀ r, key (f r) = key r) : Table key where
  rows := t.rows.map f
  nodup := by
    have h : (t.rows.map f).map key = t.rows.map key := by
      rw [map_map]
      exact map_congr_left fun r _ => hf r
    rw [h]
    exact t.nodup

variable [DecidableEq κ]

def find? (t : Table key) (k : κ) : Option α := t.rows.find? fun r => key r = k

theorem find?_eq_some : t.find? k = some r ↔ r ∈ t.rows ∧ key r = k := by
  constructor
  · intro h
    exact ⟨List.mem_of_find?_eq_some h, by simpa using List.find?_some h⟩
  intro h
  obtain ⟨hr, hk⟩ := h
  cases hf : t.find? k with
  | none =>
    have hn := List.find?_eq_none.1 hf r hr
    simp [hk] at hn
  | some q =>
    have hq : key q = k := by simpa using List.find?_some hf
    rw [t.eq_of_key (List.mem_of_find?_eq_some hf) hr (hq.trans hk.symm)]

theorem find?_eq_none : t.find? k = none ↔ ∀ r ∈ t.rows, key r ≠ k := by
  simp [find?]

/-- `INSERT`: refused when the key is taken. -/
def insert (t : Table key) (a : α) : Option (Table key) :=
  if h : key a ∈ t.rows.map key then none
  else some ⟨t.rows ++ [a], by
    rw [map_append, map_cons, map_nil]
    exact nodup_append'.2 ⟨t.nodup, nodup_singleton _, by simpa using h⟩⟩

theorem insert_eq_none : t.insert a = none ↔ ∃ r ∈ t.rows, key r = key a := by
  unfold insert
  split
  · next h => simpa using mem_map.1 h
  · next h => simpa using h

theorem rows_insert (h : t.insert a = some t') :
    t'.rows = t.rows ++ [a] ∧ ∀ r ∈ t.rows, key r ≠ key a := by
  obtain ⟨hn, h⟩ := Option.dite_none_left_eq_some.1 h
  cases h
  refine ⟨rfl, fun r hr hk => hn ?_⟩
  exact mem_map.2 ⟨r, hr, hk⟩

/-- `INSERT … ON DUPLICATE KEY UPDATE`, with an assignment `f` to the row in place. -/
def upsert (t : Table key) (a : α) (f : α → α) (hf : ∀ r, key (f r) = key r) : Table key :=
  match t.insert a with
  | some t' => t'
  | none => t.update (fun r => if key r = key a then f r else r) (by intro r; split <;> simp [hf])

theorem find?_update (t : Table key) (f : α → α) (hf : ∀ r, key (f r) = key r) (k : κ) :
    (t.update f hf).find? k = (t.find? k).map f := by
  cases h : t.find? k with
  | none =>
    refine find?_eq_none.2 fun r hr => ?_
    obtain ⟨q, hq, rfl⟩ := mem_map.1 hr
    exact (hf q).trans_ne (find?_eq_none.1 h q hq)
  | some r =>
    obtain ⟨hr, hk⟩ := find?_eq_some.1 h
    exact find?_eq_some.2 ⟨mem_map_of_mem hr, (hf r).trans hk⟩

/-- `UPDATE … WHERE`; nothing if no row matches. -/
def updateWhere (t : Table key) (hit : α → Bool) (f : α → α) (hf : ∀ r, key (f r) = key r) :
    Option (Table key) :=
  if t.rows.any hit then
    some (t.update (fun r => if hit r then f r else r) (by intro r; split <;> simp [hf]))
  else none

/-- Where only rows under one key can match, the row under that key is the one that changes. -/
theorem find?_updateWhere {hit : α → Bool} (h : t.updateWhere hit f hf = some t')
    (hk : ∀ r, hit r = true → key r = k) :
    (∃ r, t.find? k = some r ∧ hit r = true ∧ t'.find? k = some (f r)) ∧
      ∀ k', k' ≠ k → t'.find? k' = t.find? k' := by
  unfold updateWhere at h
  split at h
  · next hany =>
    cases h
    obtain ⟨r, hr, hhit⟩ := any_eq_true.1 hany
    have hfind : t.find? k = some r := find?_eq_some.2 ⟨hr, hk r hhit⟩
    refine ⟨⟨r, hfind, hhit, ?_⟩, fun k' hne => ?_⟩
    · rw [find?_update, hfind, Option.map_some, if_pos hhit]
    rw [find?_update]
    cases hq : t.find? k' with
    | none => rfl
    | some q =>
      have hmiss : ¬ hit q = true := by
        intro hhitq
        exact hne ((find?_eq_some.1 hq).2.symm.trans (hk q hhitq))
      rw [Option.map_some, if_neg hmiss]
  · cases h

/-- After an upsert the key names the new row, or the row in place with the assignment. -/
theorem find?_upsert (t : Table key) (a : α) (f : α → α) (hf : ∀ r, key (f r) = key r) :
    (t.upsert a f hf).find? (key a) = some (((t.find? (key a)).map f).getD a) := by
  unfold upsert
  cases hi : t.insert a with
  | some t' =>
    obtain ⟨hrows, hnew⟩ := rows_insert hi
    rw [find?_eq_none.2 hnew]
    exact find?_eq_some.2 ⟨hrows ▸ mem_append_right _ mem_cons_self, rfl⟩
  | none =>
    obtain ⟨r, hr, hk⟩ := insert_eq_none.1 hi
    rw [find?_eq_some.2 ⟨hr, hk⟩]
    refine find?_eq_some.2 ⟨mem_map.2 ⟨r, hr, ?_⟩, (hf r).trans hk⟩
    simp [hk]

theorem find?_upsert_of_ne (t : Table key) (hf : ∀ r, key (f r) = key r) (hk : k ≠ key a) :
    (t.upsert a f hf).find? k = t.find? k := by
  unfold upsert
  cases hi : t.insert a with
  | some t' =>
    obtain ⟨hrows, -⟩ := rows_insert hi
    have hlast : [a].find? (fun r => key r = k) = none := by simp [hk.symm]
    show t'.rows.find? _ = _
    rw [hrows, List.find?_append, hlast, Option.or_none]
    rfl
  | none =>
    refine (find?_update _ _ _ _).trans ?_
    cases h : t.find? k with
    | none => rfl
    | some r =>
      have hr : key r ≠ key a := (find?_eq_some.1 h).2.trans_ne hk
      simp [hr]

end Table

/-! ## Serial ids -/

/-- Rows in the order of their ids; `next` is the id the next row will get. -/
structure Serial (id : α → Nat) where
  rows : List α
  next : Nat
  sorted : rows.Pairwise (fun a b => id a < id b)
  bounded : ∀ r ∈ rows, 0 < id r ∧ id r < next
  next_pos : 0 < next

namespace Serial

variable {id : α → Nat}

def empty : Serial id := ⟨[], 1, .nil, by simp, Nat.one_pos⟩

/-- `INSERT`: the row built from the next id comes last. -/
def push (s : Serial id) (mk : Nat → α) (hmk : ∀ n, id (mk n) = n) : Serial id where
  rows := s.rows ++ [mk s.next]
  next := s.next + 1
  sorted := by
    refine pairwise_append.2 ⟨s.sorted, pairwise_singleton _ _, ?_⟩
    intro a ha b hb
    rw [mem_singleton] at hb
    subst hb
    rw [hmk]
    exact (s.bounded a ha).2
  bounded := by
    intro r hr
    rcases mem_append.1 hr with h | h
    · exact ⟨(s.bounded r h).1, Nat.lt_succ_of_lt (s.bounded r h).2⟩
    rw [mem_singleton] at h
    subst h
    rw [hmk]
    exact ⟨s.next_pos, Nat.lt_succ_self _⟩
  next_pos := Nat.succ_pos _

/-- `UPDATE`, with an assignment `f` that keeps the id. -/
def update (s : Serial id) (f : α → α) (hf : ∀ r, id (f r) = id r) : Serial id where
  rows := s.rows.map f
  next := s.next
  sorted := by
    refine pairwise_map.2 (s.sorted.imp ?_)
    intro a b hab
    rw [hf, hf]
    exact hab
  bounded := by
    intro r hr
    obtain ⟨q, hq, rfl⟩ := mem_map.1 hr
    rw [hf]
    exact s.bounded q hq
  next_pos := s.next_pos

def delete (s : Serial id) (p : α → Bool) : Serial id where
  rows := s.rows.filter fun r => !p r
  next := s.next
  sorted := s.sorted.filter _
  bounded := fun r hr => s.bounded r (mem_filter.1 hr).1
  next_pos := s.next_pos

variable {s : Serial id} {r : α}

theorem mem_push {mk : Nat → α} {hmk : ∀ n, id (mk n) = n} :
    r ∈ (s.push mk hmk).rows ↔ r ∈ s.rows ∨ r = mk s.next := by
  simp [push]

theorem mem_delete {p : α → Bool} : r ∈ (s.delete p).rows ↔ r ∈ s.rows ∧ p r = false := by
  simp [delete]

theorem eq_of_id {q : α} (hq : q ∈ s.rows) (hr : r ∈ s.rows) (h : id q = id r) : q = r := by
  by_contra hne
  have hs : s.rows.Pairwise (fun a b => id a ≠ id b) := s.sorted.imp Nat.ne_of_lt
  have : Std.Symm (fun a b : α => id a ≠ id b) := ⟨fun _ _ => Ne.symm⟩
  exact hs.forall hq hr hne h

end Serial

end SolariNet.Lib
