/-
# Reading a table by its counter

A table whose ids come from a counter when a row is inserted, while the row becomes visible when
its transaction commits.  A reader remembers one number, its checkpoint, and asks for the visible
rows above it in the order of their ids.  A row may become visible below what the reader has seen;
the reader never comes back for it.

That every visible row up to `v` is settled but for those in `ids` (`Covers ids v`) survives every
move of the table in which no row commits at or below an id that was read.
-/
import Mathlib.Data.List.Nodup
import Mathlib.Data.List.Pairwise

namespace SolariNet.Lib

open List

/-! ## The table -/

/-- A row: uncommitted in a transaction, or visible. -/
structure FeedRow (τ ρ : Type) where
  id : Nat
  owner : Option τ
  data : ρ

/-- A table whose ids are taken from `next`. -/
structure Feed (τ ρ : Type) where
  next : Nat
  rows : List (FeedRow τ ρ)
  started : 0 < next
  bounds : ∀ r ∈ rows, 0 < r.id ∧ r.id < next
  ordered : rows.Pairwise fun a b => a.id < b.id

def FeedRow.commit {τ ρ : Type} [DecidableEq τ] (t : τ) (r : FeedRow τ ρ) : FeedRow τ ρ :=
  if r.owner = some t then ⟨r.id, none, r.data⟩ else r

@[simp] theorem FeedRow.id_commit {τ ρ : Type} [DecidableEq τ] (t : τ) (r : FeedRow τ ρ) :
    (r.commit t).id = r.id := by
  unfold FeedRow.commit
  split <;> rfl

namespace Feed

variable {τ ρ : Type}

def empty : Feed τ ρ := ⟨1, [], Nat.one_pos, fun _ h => (nomatch h), .nil⟩

def insert (f : Feed τ ρ) (t : τ) (d : ρ) : Feed τ ρ where
  next := f.next + 1
  rows := f.rows ++ [⟨f.next, some t, d⟩]
  started := Nat.succ_pos _
  bounds := by
    refine forall_mem_append.2 ⟨fun r hr => ?_, forall_mem_singleton.2 ?_⟩
    · exact ⟨(f.bounds r hr).1, Nat.lt_succ_of_lt (f.bounds r hr).2⟩
    · exact ⟨f.started, Nat.lt_succ_self _⟩
  ordered := by
    refine pairwise_append.2 ⟨f.ordered, pairwise_singleton .., fun a ha b hb => ?_⟩
    obtain rfl := mem_singleton.1 hb
    exact (f.bounds a ha).2

def commit [DecidableEq τ] (f : Feed τ ρ) (t : τ) : Feed τ ρ where
  next := f.next
  rows := f.rows.map (FeedRow.commit t)
  started := f.started
  bounds := by
    intro r hr
    obtain ⟨a, ha, rfl⟩ := mem_map.1 hr
    rw [FeedRow.id_commit]
    exact f.bounds a ha
  ordered := by
    refine pairwise_map.2 (f.ordered.imp fun h => ?_)
    rw [FeedRow.id_commit, FeedRow.id_commit]
    exact h

/-- A transaction rolls back: its rows are gone, their ids are not used again. -/
def rollback [DecidableEq τ] (f : Feed τ ρ) (t : τ) : Feed τ ρ where
  next := f.next
  rows := f.rows.filter (·.owner ≠ some t)
  started := f.started
  bounds := fun r hr => f.bounds r (mem_filter.1 hr).1
  ordered := f.ordered.filter _

def visible (f : Feed τ ρ) : List (FeedRow τ ρ) := f.rows.filter (·.owner.isNone)

/-- `WHERE id > cp ORDER BY id LIMIT n` over the committed rows. -/
def select (f : Feed τ ρ) (cp n : Nat) : List (FeedRow τ ρ) :=
  (f.visible.filter (cp < ·.id)).take n

variable {f : Feed τ ρ} {r : FeedRow τ ρ}

theorem mem_visible : r ∈ f.visible ↔ r ∈ f.rows ∧ r.owner = none := by
  unfold visible
  rw [mem_filter, Option.isNone_iff_eq_none]

theorem pos_of_mem_visible (h : r ∈ f.visible) : 0 < r.id :=
  (f.bounds r (mem_visible.1 h).1).1

theorem visible_insert : (f.insert t d).visible = f.visible := by
  simp [visible, insert]

theorem mem_visible_commit [DecidableEq τ] (h : r ∈ (f.commit t).visible) :
    r ∈ f.visible ∨ ∃ a ∈ f.rows, a.owner = some t ∧ r.id = a.id := by
  obtain ⟨hr, ho⟩ := mem_visible.1 h
  obtain ⟨a, ha, rfl⟩ := mem_map.1 hr
  by_cases ht : a.owner = some t
  · exact .inr ⟨a, ha, ht, FeedRow.id_commit t a⟩
  · rw [FeedRow.commit, if_neg ht] at ho ⊢
    exact .inl (mem_visible.2 ⟨ha, ho⟩)

theorem mem_visible_commit_of_mem [DecidableEq τ] (h : r ∈ f.visible) :
    r ∈ (f.commit t).visible := by
  obtain ⟨hr, ho⟩ := mem_visible.1 h
  refine mem_visible.2 ⟨mem_map.2 ⟨r, hr, if_neg ?_⟩, ho⟩
  rw [ho]
  exact fun h => (nomatch h)

theorem mem_visible_rollback [DecidableEq τ] :
    r ∈ (f.rollback t).visible ↔ r ∈ f.visible := by
  rw [mem_visible, mem_visible]
  constructor
  · rintro ⟨hr, ho⟩
    exact ⟨(mem_filter.1 hr).1, ho⟩
  · rintro ⟨hr, ho⟩
    exact ⟨mem_filter.2 ⟨hr, by simp [ho]⟩, ho⟩

theorem eq_of_id (ha : a ∈ f.visible) (hb : b ∈ f.visible) (h : a.id = b.id) :
    a = b := by
  have hnodup : (f.rows.map FeedRow.id).Nodup :=
    pairwise_map.2 (f.ordered.imp fun h => Nat.ne_of_lt h)
  exact inj_on_of_nodup_map hnodup (mem_visible.1 ha).1 (mem_visible.1 hb).1 h

theorem ordered_select (f : Feed τ ρ) (cp n : Nat) :
    (f.select cp n).Pairwise fun a b => a.id < b.id :=
  ((f.ordered.filter _).filter _).take

theorem le_last_select {cp n : Nat} (hl : (f.select cp n).getLast? = some last)
    (hr : r ∈ f.select cp n) : r.id ≤ last.id := by
  have hord := f.ordered_select cp n
  obtain ⟨front, hf⟩ := List.getLast?_eq_some_iff.1 hl
  rw [hf] at hord hr
  rcases mem_append.1 hr with hr | hr
  · exact Nat.le_of_lt ((pairwise_append.1 hord).2.2 r hr last (mem_singleton_self _))
  · exact Nat.le_of_eq (congrArg FeedRow.id (mem_singleton.1 hr))

theorem mem_select {cp n : Nat} (h : r ∈ f.select cp n) : r ∈ f.visible ∧ cp < r.id := by
  have hr := mem_filter.1 (mem_of_mem_take h)
  exact ⟨hr.1, by simpa using hr.2⟩

/-- A visible row above the checkpoint is selected, or a full batch of rows before it is. -/
theorem select_complete {cp : Nat} (n : Nat) (hr : r ∈ f.visible) (hcp : cp < r.id) :
    r ∈ f.select cp n ∨ ((f.select cp n).length = n ∧ ∀ a ∈ f.select cp n, a.id < r.id) := by
  have hmem : r ∈ f.visible.filter (cp < ·.id) := mem_filter.2 ⟨hr, by simpa using hcp⟩
  have hsplit := take_append_drop n (f.visible.filter (cp < ·.id))
  have hord : (f.visible.filter (cp < ·.id)).Pairwise fun a b => a.id < b.id :=
    (f.ordered.filter _).filter _
  rw [← hsplit] at hmem hord
  rcases mem_append.1 hmem with h | h
  · exact .inl h
  refine .inr ⟨?_, fun a ha => (pairwise_append.1 hord).2.2 a ha r h⟩
  have hlen := length_pos_of_mem h
  rw [length_drop] at hlen
  unfold select
  rw [length_take]
  omega

end Feed

/-! ## A table and what was read of it -/

/-- The table, the ids that were ever read, and those that are settled. -/
structure Tail (τ ρ : Type) where
  feed : Feed τ ρ
  selected : List Nat
  settled : List Nat

namespace Tail

variable {τ ρ : Type}

def read (s : Tail τ ρ) (rows : List (FeedRow τ ρ)) : Tail τ ρ :=
  { s with selected := rows.map FeedRow.id ++ s.selected }

def settle (s : Tail τ ρ) (id : Nat) : Tail τ ρ := { s with settled := id :: s.settled }

/-- Moves of the transactions that write the table; `ok` says which commits there are. -/
inductive Moves [DecidableEq τ] (ok : Tail τ ρ → τ → Prop) : Tail τ ρ → Tail τ ρ → Prop where
  | insert (s : Tail τ ρ) (t : τ) (d : ρ) : Moves ok s { s with feed := s.feed.insert t d }
  | commit (s : Tail τ ρ) (t : τ) (h : ok s t) : Moves ok s { s with feed := s.feed.commit t }
  | rollback (s : Tail τ ρ) (t : τ) : Moves ok s { s with feed := s.feed.rollback t }

/-- The rows of the transaction are above every id that was read. -/
def InOrder (s : Tail τ ρ) (t : τ) : Prop :=
  ∀ r ∈ s.feed.rows, r.owner = some t → ∀ v ∈ s.selected, v < r.id

/-- What was read, settled or visible stays so. -/
structure Grows (s s' : Tail τ ρ) : Prop where
  selected : s.selected ⊆ s'.selected
  settled : s.settled ⊆ s'.settled
  kept : s.feed.visible ⊆ s'.feed.visible

/-- And no row appears at or below an id that was read. -/
structure Advances (s s' : Tail τ ρ) : Prop extends Grows s s' where
  visible : ∀ r ∈ s'.feed.visible, r ∈ s.feed.visible ∨ ∀ v ∈ s.selected, v < r.id

theorem Grows.refl (s : Tail τ ρ) : Grows s s := ⟨fun _ h => h, fun _ h => h, fun _ h => h⟩

variable {s s' : Tail τ ρ} {ok : Tail τ ρ → τ → Prop}

theorem Grows.trans (h : Grows s s') (h' : Grows s' s'') : Grows s s'' :=
  ⟨fun _ hv => h'.selected (h.selected hv), fun _ hv => h'.settled (h.settled hv),
    fun _ hr => h'.kept (h.kept hr)⟩

theorem Advances.refl (s : Tail τ ρ) : Advances s s := ⟨.refl s, fun _ h => .inl h⟩

theorem Advances.trans (h : Advances s s') (h' : Advances s' s'') :
    Advances s s'' := by
  refine ⟨h.toGrows.trans h'.toGrows, fun r hr => ?_⟩
  rcases h'.visible r hr with hr | hr
  · exact h.visible r hr
  · exact .inr fun v hv => hr v (h.selected hv)

theorem advances_read (s : Tail τ ρ) (rows : List (FeedRow τ ρ)) : Advances s (s.read rows) :=
  ⟨⟨subset_append_right .., fun _ h => h, fun _ h => h⟩, fun _ h => .inl h⟩

theorem advances_settle (s : Tail τ ρ) (id : Nat) : Advances s (s.settle id) :=
  ⟨⟨fun _ h => h, subset_cons_self .., fun _ h => h⟩, fun _ h => .inl h⟩

theorem Moves.settled_eq [DecidableEq τ] (h : Moves ok s s') : s'.settled = s.settled := by
  cases h <;> rfl

theorem Moves.grows [DecidableEq τ] (h : Moves ok s s') : Grows s s' := by
  refine ⟨?_, ?_, ?_⟩
  · cases h <;> exact fun _ h => h
  · rw [h.settled_eq]
    exact fun _ h => h
  cases h with
  | insert t d =>
    rw [Feed.visible_insert]
    exact fun _ h => h
  | commit t _ => exact fun _ hr => Feed.mem_visible_commit_of_mem hr
  | rollback t => exact fun _ hr => Feed.mem_visible_rollback.2 hr

/-- The writers advance the table as long as they commit in order. -/
theorem Moves.advances [DecidableEq τ] (hok : ∀ s t, ok s t → InOrder s t) (h : Moves ok s s') :
    Advances s s' := by
  refine ⟨h.grows, fun r hr => ?_⟩
  cases h with
  | insert t d =>
    rw [Feed.visible_insert] at hr
    exact .inl hr
  | commit t hc =>
    rcases Feed.mem_visible_commit hr with hr | ⟨a, ha, ho, hid⟩
    · exact .inl hr
    · exact .inr fun v hv => hid ▸ hok s t hc a ha ho v hv
  | rollback t => exact .inl (Feed.mem_visible_rollback.1 hr)

/-! ## Coverage -/

/-- Every visible row up to `v` is settled, but for those in `ids`. -/
structure Covers (ids : List Nat) (v : Nat) (s : Tail τ ρ) : Prop where
  known : v = 0 ∨ v ∈ s.selected
  settled : ∀ r ∈ s.feed.visible, r.id ≤ v → r.id ∈ s.settled ∨ r.id ∈ ids

variable {ids : List Nat} {v : Nat} {s s' : Tail τ ρ}

theorem covers_zero (s : Tail τ ρ) : Covers [] 0 s :=
  ⟨.inl rfl, fun _ hr h0 => absurd (Feed.pos_of_mem_visible hr) (Nat.not_lt.2 h0)⟩

theorem Covers.advance (h : Covers ids v s) (ha : Advances s s') : Covers ids v s' := by
  refine ⟨h.known.imp_right fun hv => ha.selected hv, fun r hr hle => ?_⟩
  rcases ha.visible r hr with hold | hnew
  · exact (h.settled r hold hle).imp_left fun hs => ha.settled hs
  rcases h.known with rfl | hv
  · exact absurd (Feed.pos_of_mem_visible hr) (Nat.not_lt.2 hle)
  · exact absurd (hnew v hv) (Nat.not_lt.2 hle)

/-- A batch read at a covered checkpoint covers everything up to its last row. -/
theorem covers_read {cp n : Nat} (h : Covers [] cp s)
    (hl : last ∈ s.feed.select cp n) :
    Covers ((s.feed.select cp n).map FeedRow.id) last.id (s.read (s.feed.select cp n)) := by
  refine ⟨.inr (mem_append_left _ (mem_map_of_mem hl)), fun r hr hle => ?_⟩
  by_cases hcp : cp < r.id
  · rcases Feed.select_complete n hr hcp with hin | ⟨_, hbelow⟩
    · exact .inr (mem_map_of_mem hin)
    · exact absurd (hbelow last hl) (Nat.not_lt.2 hle)
  · exact .inl ((h.settled r hr (Nat.not_lt.1 hcp)).resolve_right (fun h => nomatch h))

theorem Covers.settle {id : Nat} (h : Covers (id :: ids) v s) : Covers ids v (s.settle id) := by
  refine ⟨h.known, fun r hr hle => ?_⟩
  rcases h.settled r hr hle with hs | hs
  · exact .inl (mem_cons_of_mem id hs)
  rcases mem_cons.1 hs with hs | hs
  · exact .inl (hs ▸ mem_cons_self)
  · exact .inr hs

theorem Covers.restrict {u : Nat} (h : Covers ids v s) (hu : u ∈ s.selected) (hle : u ≤ v)
    (hids : ∀ i ∈ ids, u < i) : Covers [] u s := by
  refine ⟨.inr hu, fun r hr hru => .inl ?_⟩
  rcases h.settled r hr (Nat.le_trans hru hle) with hs | hs
  · exact hs
  · exact absurd (hids r.id hs) (Nat.not_lt.2 hru)

end Tail

end SolariNet.Lib
