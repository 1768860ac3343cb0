/-
# Address selection is exact

`selectAddress` scans the host addresses of a subnet from the lowest up and returns the first that
passes every test.  The addresses that pass, in order, are `eligibleList`; one call returns the
first of them, and a call that has the result added to its used addresses sees the rest of the list.
-/
import Mathlib.Order.Bounds.Basic
import SolariNet.Netdb.Select

namespace SolariNet

open List

def DhcpRange.WellOrdered (r : DhcpRange) : Prop :=
  (∀ kind, r.kind ≠ .unknown kind) ∧ ∃ lo hi, r.start = .v4 lo ∧ r.stop = .v4 hi ∧ lo ≤ hi

structure Eligible (net : Net4) (gateway : Option Nat) (used : List Nat)
    (ranges : List DhcpRange) (a : Nat) : Prop where
  selectable : Selectable net (gateway.map .v4) ranges a
  usable : net.prefixLen ≤ 30 → a ≠ net.networkAddress ∧ a ≠ net.broadcastAddress
  unused : a ∉ used

def allocations (net : Net4) (gateway : Option Nat) (ranges : List DhcpRange) :
    Nat → List Nat → List Nat
  | 0, _ => []
  | n + 1, used =>
    match selectAddress (.v4 net) (gateway.map .v4) (used.map .v4) ranges with
    | .ok (some a) => a :: allocations net gateway ranges n (a :: used)
    | _ => []

/-! ## The arguments are well formed -/

theorem mapM_v4Of_option (gateway : Option Nat) :
    (gateway.map Addr.v4).mapM v4Of = .ok gateway := by
  cases gateway with
  | none | some g => rfl

theorem mapM_v4Of_list (used : List Nat) : (used.map Addr.v4).mapM v4Of = .ok used := by
  induction used with
  | nil => rfl
  | cons a used ih =>
    rw [map_cons, mapM_cons, ih]
    rfl

theorem DhcpRange.WellOrdered.spanOf (h : r.WellOrdered) :
    ∃ s, spanOf r = .ok s := by
  obtain ⟨hkind, lo, hi, hstart, hstop, hle⟩ := h
  refine ⟨⟨r.kind = .staticBlock, lo, hi⟩, ?_⟩
  unfold SolariNet.spanOf
  rw [hstart, hstop]
  cases hk : r.kind with
  | unknown kind => exact absurd hk (hkind kind)
  | dynamicPool | staticBlock | excluded =>
    simp only [v4Of]
    rw [if_neg (Nat.not_lt.2 hle)]

theorem mapM_spanOf {ranges : List DhcpRange} (h : ∀ r ∈ ranges, r.WellOrdered) :
    ∃ spans, ranges.mapM spanOf = .ok spans := by
  induction ranges with
  | nil => exact ⟨[], rfl⟩
  | cons r ranges ih =>
    obtain ⟨s, hs⟩ := (h r mem_cons_self).spanOf
    obtain ⟨spans, hspans⟩ := ih fun r' hr' => h r' (mem_cons_of_mem r hr')
    refine ⟨s :: spans, ?_⟩
    rw [mapM_cons, hs, hspans]
    rfl

/-! ## The eligible addresses in order -/

def eligibleList (net : Net4) (gateway : Option Nat) (spans : List Span) (used : List Nat) :
    List Nat :=
  net.hosts.filter (isFree net gateway used spans)

section
variable {net : Net4} {gateway : Option Nat} {used : List Nat} {ranges : List DhcpRange}
  {spans : List Span}

theorem mem_eligibleList (hspans : ranges.mapM spanOf = .ok spans) {a : Nat} :
    a ∈ eligibleList net gateway spans used ↔ Eligible net gateway used ranges a := by
  unfold eligibleList
  rw [mem_filter, isFree_iff (mapM_v4Of_option gateway) hspans]
  constructor
  · rintro ⟨hsel, husable, hused⟩
    exact ⟨hsel, fun h => husable (Nat.lt_succ_of_le h), hused⟩
  · rintro ⟨hsel, husable, hused⟩
    exact ⟨hsel, fun h => husable (Nat.le_of_lt_succ h), hused⟩

theorem pairwise_eligibleList (net : Net4) (gateway : Option Nat) (spans : List Span)
    (used : List Nat) : (eligibleList net gateway spans used).Pairwise (· < ·) := by
  apply List.Pairwise.filter
  unfold Net4.hosts
  by_cases hwhole : 31 ≤ net.prefixLen
  · rw [if_pos hwhole]
    exact pairwise_lt_range'
  · rw [if_neg hwhole]
    exact pairwise_lt_range'

theorem selectAddress_eq_head (hspans : ranges.mapM spanOf = .ok spans) :
    selectAddress (.v4 net) (gateway.map .v4) (used.map .v4) ranges =
      .ok (eligibleList net gateway spans used).head? := by
  unfold eligibleList
  rw [List.head?_filter]
  simp only [selectAddress, mapM_v4Of_list, mapM_v4Of_option, hspans]
  rfl

theorem eligibleList_cons (a : Nat) : eligibleList net gateway spans (a :: used) =
    (eligibleList net gateway spans used).filter (· != a) := by
  unfold eligibleList
  rw [filter_filter]
  refine filter_congr fun x _ => ?_
  simp only [isFree]
  grind

theorem eligibleList_tail {a : Nat} {rest : List Nat}
    (h : eligibleList net gateway spans used = a :: rest) :
    eligibleList net gateway spans (a :: used) = rest := by
  have hsorted := pairwise_eligibleList net gateway spans used
  rw [h, pairwise_cons] at hsorted
  rw [eligibleList_cons, h, filter_cons_of_neg (by simp), filter_eq_self]
  intro x hx
  have hlt := hsorted.1 x hx
  simp only [bne_iff_ne]
  omega

theorem allocations_eq_take (hspans : ranges.mapM spanOf = .ok spans) (n : Nat) :
    allocations net gateway ranges n used = (eligibleList net gateway spans used).take n := by
  induction n generalizing used with
  | zero => rfl
  | succ n ih =>
    unfold allocations
    rw [selectAddress_eq_head hspans]
    cases hlist : eligibleList net gateway spans used with
    | nil => rfl
    | cons a rest =>
      simp only [List.head?_cons, take_succ_cons]
      rw [ih, eligibleList_tail hlist]

end

theorem isLeast_of_head {l : List Nat} (hl : l.Pairwise (· < ·)) {a : Nat} :
    l.head? = some a ↔ IsLeast {x | x ∈ l} a := by
  cases l with
  | nil => simp [IsLeast]
  | cons b rest =>
    rw [pairwise_cons] at hl
    have hleast : IsLeast {x | x ∈ b :: rest} b := by
      refine ⟨mem_cons_self, fun x hx => ?_⟩
      rcases mem_cons.1 hx with rfl | hrest
      · exact le_refl x
      · exact (hl.1 x hrest).le
    rw [List.head?_cons, Option.some.injEq]
    constructor
    · rintro rfl
      exact hleast
    · exact fun h => hleast.unique h

/-! ## The main result -/

/-- **Address selection is exact.** One call returns the least eligible address, and none exactly if
there is none; repeated calls return exactly the eligible ones, in order. -/
theorem selection_exact (net : Net4) (gateway : Option Nat) (used : List Nat)
    (ranges : List DhcpRange) (hranges : ∀ r ∈ ranges, r.WellOrdered) :
    (∃ chosen, selectAddress (.v4 net) (gateway.map .v4) (used.map .v4) ranges = .ok chosen ∧
      (∀ a, chosen = some a ↔ IsLeast {x | Eligible net gateway used ranges x} a) ∧
      (chosen = none ↔ ∀ a, ¬ Eligible net gateway used ranges a)) ∧
    (∀ n, (allocations net gateway ranges n used).Pairwise (· < ·)) ∧
    (∀ n, ∀ a ∈ allocations net gateway ranges n used, Eligible net gateway used ranges a) ∧
    ∃ enough, ∀ n, enough ≤ n → ∀ a, Eligible net gateway used ranges a →
      a ∈ allocations net gateway ranges n used := by
  obtain ⟨spans, hspans⟩ := mapM_spanOf hranges
  have hmem (a : Nat) : a ∈ eligibleList net gateway spans used ↔
      Eligible net gateway used ranges a := mem_eligibleList hspans
  have hsorted := pairwise_eligibleList net gateway spans used
  refine ⟨⟨(eligibleList net gateway spans used).head?, selectAddress_eq_head hspans, ?_, ?_⟩,
    fun n => ?_, fun n a ha => ?_, (eligibleList net gateway spans used).length, ?_⟩
  · intro a
    rw [isLeast_of_head hsorted]
    simp only [hmem]
  · rw [List.head?_eq_none_iff, eq_nil_iff_forall_not_mem]
    simp only [hmem]
  · rw [allocations_eq_take hspans]
    exact hsorted.take
  · rw [allocations_eq_take hspans] at ha
    exact (hmem a).1 (mem_of_mem_take ha)
  · intro n hn a ha
    rw [allocations_eq_take hspans, take_of_length_le hn]
    exact (hmem a).2 ha

/-- In 10.1.0.0/29 with gateway .1, address .2 used and .3 excluded, .4 is next. -/
theorem selection_exact_demo :
    selectAddress (.v4 ⟨0x0A010000, 29⟩) (some (.v4 0x0A010001)) [.v4 0x0A010002]
      [⟨.excluded, .v4 0x0A010003, .v4 0x0A010003⟩] = .ok (some 0x0A010004) ∧
    IsLeast {x | Eligible ⟨0x0A010000, 29⟩ (some 0x0A010001) [0x0A010002]
      [⟨.excluded, .v4 0x0A010003, .v4 0x0A010003⟩] x} 0x0A010004 := by
  have hselect : selectAddress (.v4 ⟨0x0A010000, 29⟩) (some (.v4 0x0A010001)) [.v4 0x0A010002]
      [⟨.excluded, .v4 0x0A010003, .v4 0x0A010003⟩] = .ok (some 0x0A010004) := by decide +kernel
  obtain ⟨⟨chosen, hchosen, hleast, -⟩, -⟩ := selection_exact ⟨0x0A010000, 29⟩ (some 0x0A010001)
    [0x0A010002] [⟨.excluded, .v4 0x0A010003, .v4 0x0A010003⟩] (by
      intro r hr
      obtain rfl := mem_singleton.1 hr
      exact ⟨nofun, _, _, rfl, rfl, Nat.le_refl _⟩)
  refine ⟨hselect, (hleast _).1 ?_⟩
  have hsame : Except.ok (some 0x0A010004) = Except.ok chosen := hselect.symm.trans hchosen
  exact (Except.ok.inj hsame).symm

end SolariNet
