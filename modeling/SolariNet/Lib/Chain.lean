/-
# Following a partial function

From a point one goes on as long as there is a next one: the chain ends, or it comes back to a point
it has passed.
-/
import Mathlib.Order.Preorder.Finite

namespace SolariNet.Lib.Chain

variable {α : Type} {up : α → Option α} {a b : α} {i j k n : Nat}

/-- The point `k` steps on, if the chain gets that far. -/
def climb (up : α → Option α) (k : Nat) (a : α) : Option α := (fun o => o.bind up)^[k] (some a)

def EndsAfter (up : α → Option α) (a : α) (k : Nat) : Prop :=
  ∃ root, climb up k a = some root ∧ up root = none

def Cyclic (up : α → Option α) (a : α) : Prop :=
  ∃ i j, i < j ∧ climb up i a = climb up j a ∧ climb up i a ≠ none

theorem climb_succ (up : α → Option α) (k : Nat) (a : α) :
    climb up (k + 1) a = (climb up k a).bind up :=
  Function.iterate_succ_apply' _ k _

theorem climb_add (h : climb up k a = some b) (n : Nat) : climb up (n + k) a = climb up n b := by
  rw [climb, Function.iterate_add_apply, ← climb, h, climb]

theorem climb_step (h : up a = some b) (n : Nat) : climb up (n + 1) a = climb up n b :=
  climb_add (k := 1) h n

theorem EndsAfter.climb_eq_none (h : EndsAfter up a k) (hn : k < n) : climb up n a = none := by
  obtain ⟨root, hroot, hup⟩ := h
  induction n, hn using Nat.le_induction with
  | base => rw [climb_succ, hroot, Option.bind_some, hup]
  | succ n _ ih => rw [climb_succ, ih, Option.bind_none]

theorem EndsAfter.unique (h : EndsAfter up a k) (h' : EndsAfter up a n) : k = n := by
  rcases Nat.lt_trichotomy k n with hlt | heq | hlt
  · obtain ⟨root, hroot, -⟩ := h'
    cases (h.climb_eq_none hlt).symm.trans hroot
  · exact heq
  · obtain ⟨root, hroot, -⟩ := h
    cases (h'.climb_eq_none hlt).symm.trans hroot

theorem EndsAfter.step (h : EndsAfter up a k) (hb : up a = some b) :
    ∃ n, k = n + 1 ∧ EndsAfter up b n := by
  obtain ⟨root, hroot, hup⟩ := h
  cases k with
  | zero =>
    cases hroot
    cases hb.symm.trans hup
  | succ n => exact ⟨n, rfl, root, (climb_step hb n).symm.trans hroot, hup⟩

/-- The rest of a cycle ends where the whole does, only earlier. -/
theorem Cyclic.not_ends (h : Cyclic up a) : ¬ EndsAfter up a k := by
  obtain ⟨i, j, hij, heq, hi⟩ := h
  intro hk
  have hj : j ≤ k := by
    by_contra hlt
    exact hi (heq.trans (hk.climb_eq_none (Nat.lt_of_not_le hlt)))
  obtain ⟨b, hb⟩ := Option.ne_none_iff_exists'.1 hi
  obtain ⟨root, hroot, hup⟩ := hk
  have hearly : EndsAfter up a (k - j + i) := by
    refine ⟨root, ?_, hup⟩
    rw [climb_add hb, ← climb_add (heq ▸ hb), Nat.sub_add_cancel hj]
    exact hroot
  have := hearly.unique ⟨root, hroot, hup⟩
  omega

theorem climb_ne_none (h : ∀ k, ¬ EndsAfter up a k) (n : Nat) : climb up n a ≠ none := by
  induction n with
  | zero => exact Option.some_ne_none a
  | succ n ih =>
    obtain ⟨b, hb⟩ := Option.ne_none_iff_exists'.1 ih
    rw [climb_succ, hb]
    exact fun hup => h n ⟨b, hb, hup⟩

theorem ends_or_cyclic {s : Set α} (hs : s.Finite) (ha : a ∈ s)
    (hup : ∀ x y, up x = some y → y ∈ s) :
    (∃ k, EndsAfter up a k) ∨ Cyclic up a := by
  by_cases hend : ∃ k, EndsAfter up a k
  · exact .inl hend
  refine .inr ?_
  have hne := climb_ne_none (not_exists.1 hend)
  -- all the points passed are in the set
  have hmem : ∀ n, ∃ x ∈ s, climb up n a = some x := by
    intro n
    obtain ⟨x, hx⟩ := Option.ne_none_iff_exists'.1 (hne n)
    cases n with
    | zero =>
      cases hx
      exact ⟨a, ha, rfl⟩
    | succ n =>
      obtain ⟨y, hy⟩ := Option.ne_none_iff_exists'.1 (hne n)
      refine ⟨x, hup y x ?_, hx⟩
      rwa [climb_succ, hy] at hx
  choose f hf hclimb using hmem
  obtain ⟨i, j, hij, heq⟩ := Set.Finite.exists_lt_map_eq_of_forall_mem hf hs
  refine ⟨i, j, hij, ?_, hne i⟩
  rw [hclimb, hclimb, heq]

end SolariNet.Lib.Chain
