/-
# Histories in which every entry was admissible

A journal lists what has happened, the newest entry first.  A rule says which entry may follow
which history.  What holds of a whole history is then read off the rule at each of its entries
(`Journal.admitted`), for the history that was there before it (`Journal.older`).
-/
import Mathlib.Tactic.Common

namespace SolariNet.Lib

/-- Every entry was admissible after the entries before it. -/
inductive Journal {E : Type} (admits : List E → E → Prop) : List E → Prop where
  | nil : Journal admits []
  | cons {es : List E} {e : E} (h : Journal admits es) (he : admits es e) : Journal admits (e :: es)

namespace Journal

variable {E : Type} {admits : List E → E → Prop} {newer es : List E}

theorem older (h : Journal admits (newer ++ es)) : Journal admits es := by
  induction newer with
  | nil => exact h
  | cons e newer ih =>
    cases h with
    | cons h _ => exact ih h

theorem before (h : Journal admits (newer ++ e :: es)) : Journal admits es := by
  cases h.older with
  | cons h _ => exact h

theorem admitted (h : Journal admits (newer ++ e :: es)) : admits es e := by
  cases h.older with
  | cons _ he => exact he

theorem admitted_of_mem {es : List E} (h : Journal admits es) (he : e ∈ es) :
    ∃ newer older, es = newer ++ e :: older ∧ admits older e := by
  obtain ⟨newer, older, rfl⟩ := List.append_of_mem he
  exact ⟨newer, older, rfl, h.admitted⟩

end Journal

end SolariNet.Lib
