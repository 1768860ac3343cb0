/-
# The highest members of a finite set

Members are ranked by an injective function, and each counts those above itself.
-/
import Mathlib.Data.Finset.Max

namespace SolariNet.Lib

open Finset

variable {α : Type} [DecidableEq α] {f : α → ℕ} {k : ℕ} {s : Finset α} {m x : α}

/-- How many members are above `x`. -/
def above (f : α → ℕ) (s : Finset α) (x : α) : ℕ := #{y ∈ s | f x < f y}

/-- The members with fewer than `k` above them. -/
def top (f : α → ℕ) (k : ℕ) (s : Finset α) : Finset α := {x ∈ s | above f s x < k}

theorem card_top (hf : f.Injective) (k : ℕ) (s : Finset α) : #(top f k s) = min k #s := by
  induction s using induction_on_min_value f with
  | empty => simp [top]
  | insert a s ha hmin ih =>
    -- the lowest member has all the others above it, and is above none
    have hlow : above f (insert a s) a = #s := by
      refine congrArg card ?_
      rw [filter_insert, if_neg (lt_irrefl _), filter_true_of_mem fun y hy => ?_]
      exact lt_of_le_of_ne (hmin y hy) fun h => ha (hf h ▸ hy)
    have hrest {x : α} (hx : x ∈ s) : above f (insert a s) x = above f s x := by
      rw [above, filter_insert, if_neg (not_lt.2 (hmin x hx)), above]
    have htop : {x ∈ s | above f (insert a s) x < k} = top f k s :=
      filter_congr fun x hx => by rw [hrest hx]
    rw [top, filter_insert, htop, card_insert_of_notMem ha]
    have hnew : a ∉ top f k s := fun h => ha (mem_filter.1 h).1
    split
    · rw [card_insert_of_notMem hnew]
      omega
    · rw [ih]
      omega

theorem above_erase (hm : m ∈ s) :
    above f (s.erase m) x + (if f x < f m then 1 else 0) = above f s x := by
  rw [above, filter_erase]
  split
  · next h => exact card_erase_add_one (mem_filter.2 ⟨hm, h⟩)
  next h =>
  have hnot : m ∉ ({y ∈ s | f x < f y} : Finset α) := fun hm => h (mem_filter.1 hm).2
  rw [erase_eq_of_notMem hnot]
  rfl

omit [DecidableEq α] in
theorem above_lt (hm : m ∈ s) (h : f x < f m) : above f s m < above f s x := by
  refine card_lt_card ((ssubset_iff_of_subset fun y hy => ?_).2 ⟨m, ?_, ?_⟩)
  · obtain ⟨hy, hlt⟩ := mem_filter.1 hy
    exact mem_filter.2 ⟨hy, h.trans hlt⟩
  · exact mem_filter.2 ⟨hm, h⟩
  · exact fun hm => lt_irrefl _ (mem_filter.1 hm).2

theorem top_erase_of_notMem (hm : m ∈ s) (h : m ∉ top f k s) : top f k (s.erase m) = top f k s := by
  have hk : k ≤ above f s m := not_lt.1 fun hlt => h (mem_filter.2 ⟨hm, hlt⟩)
  ext x
  rw [top, top, mem_filter, mem_filter]
  by_cases hx : x = m
  · subst hx
    simp [hk]
  have hab := above_erase (f := f) (x := x) hm
  by_cases hlt : f x < f m
  · have := above_lt hm hlt
    rw [if_pos hlt] at hab
    omega
  · rw [if_neg hlt] at hab
    simp [hx, ← hab]

theorem erase_subset_top (hm : m ∈ s) : (top f k s).erase m ⊆ top f k (s.erase m) := by
  intro x hx
  obtain ⟨hne, hx⟩ := mem_erase.1 hx
  obtain ⟨hx, hlt⟩ := mem_filter.1 hx
  have hab := above_erase (f := f) (x := x) hm
  exact mem_filter.2 ⟨mem_erase.2 ⟨hne, hx⟩, by omega⟩

theorem card_top_new (hf : f.Injective) (hm : m ∈ s) : #(top f k (s.erase m) \ top f k s) ≤ 1 := by
  have hsub : top f k (s.erase m) \ top f k s ⊆ top f k (s.erase m) \ (top f k s).erase m :=
    sdiff_subset_sdiff le_rfl (erase_subset _ _)
  have hcard := card_le_card hsub
  rw [card_sdiff_of_subset (erase_subset_top hm), card_top hf, card_erase_of_mem hm] at hcard
  have hlow := pred_card_le_card_erase (s := top f k s) (a := m)
  rw [card_top hf] at hlow
  omega

end SolariNet.Lib
