/-
# Bounded regular expressions and the end of a line

Patterns built from character classes, sequence and counted repetition `r{lo,hi}`.  The
matcher returns every suffix that can be left behind a match at the start of the string,
and a pattern `^r$` accepts when one of them is the end of the string in the sense of `$`:
the empty suffix, or a single final newline.
-/
import Mathlib.Computability.Language

namespace SolariNet.Lib

open Function List

/-- Character classes, sequence, and `r{lo,hi}`. -/
inductive Regex where
  | cls (p : Char → Bool)
  | seq (a b : Regex)
  | rep (r : Regex) (lo hi : Nat)

namespace Regex

def lang : Regex → Language Char
  | .cls p => {u | ∃ c, p c = true ∧ u = [c]}
  | .seq a b => a.lang * b.lang
  | .rep r lo hi => {u | ∃ n, lo ≤ n ∧ n ≤ hi ∧ u ∈ r.lang ^ n}

/-- What can be left of the string behind a match at its start. -/
def rests : Regex → List Char → List (List Char)
  | .cls p, s =>
    match s with
    | [] => []
    | c :: s => if p c then [s] else []
  | .seq a b, s => (a.rests s).flatMap b.rests
  | .rep r lo hi, s =>
    (List.range (hi + 1 - lo)).flatMap fun k => (fun l => l.flatMap r.rests)^[lo + k] [s]

/-- `re.match` of `^r$`: the match ends at the end of the string or before its final
newline. -/
def matchesLine (r : Regex) (s : List Char) : Bool :=
  (r.rests s).any fun t => t == [] || t == ['\n']

theorem mem_rests_iterate {r : Regex}
    (hr : ∀ s t, t ∈ r.rests s ↔ ∃ u ∈ r.lang, s = u ++ t) (n : Nat) (l : List (List Char))
    (t : List Char) :
    t ∈ (fun l => l.flatMap r.rests)^[n] l ↔ ∃ s ∈ l, ∃ u ∈ r.lang ^ n, s = u ++ t := by
  induction n generalizing l with
  | zero =>
    constructor
    · intro h
      exact ⟨t, h, [], rfl, rfl⟩
    · rintro ⟨s, hs, _, rfl, rfl⟩
      exact hs
  | succ n ih =>
    rw [iterate_succ_apply, ih, pow_succ']
    constructor
    · rintro ⟨s, hs, u, hu, rfl⟩
      obtain ⟨s₀, hs₀, hs⟩ := mem_flatMap.1 hs
      obtain ⟨v, hv, rfl⟩ := (hr _ _).1 hs
      exact ⟨_, hs₀, v ++ u, Language.append_mem_mul hv hu, by rw [append_assoc]⟩
    · rintro ⟨s, hs, w, hw, rfl⟩
      obtain ⟨v, hv, u, hu, rfl⟩ := Language.mem_mul.1 hw
      refine ⟨u ++ t, mem_flatMap.2 ⟨_, hs, (hr _ _).2 ⟨v, hv, ?_⟩⟩, u, hu, rfl⟩
      rw [append_assoc]

theorem mem_rests (r : Regex) (s t : List Char) : t ∈ r.rests s ↔ ∃ u ∈ r.lang, s = u ++ t := by
  induction r generalizing s t with
  | cls p =>
    cases s with
    | nil =>
      refine ⟨fun h => absurd h not_mem_nil, ?_⟩
      rintro ⟨_, ⟨c, _, rfl⟩, h⟩
      cases h
    | cons c s =>
      constructor
      · intro h
        by_cases hc : p c = true
        · simp only [rests, hc, if_true, mem_singleton] at h
          exact ⟨[c], ⟨c, hc, rfl⟩, by rw [h]; rfl⟩
        · simp [rests, hc] at h
      · rintro ⟨_, ⟨d, hd, rfl⟩, h⟩
        cases h
        simp [rests, hd]
  | seq a b iha ihb =>
    simp only [rests, mem_flatMap]
    constructor
    · rintro ⟨m, hm, ht⟩
      obtain ⟨u, hu, rfl⟩ := (iha _ _).1 hm
      obtain ⟨v, hv, rfl⟩ := (ihb _ _).1 ht
      exact ⟨u ++ v, Language.append_mem_mul hu hv, by rw [append_assoc]⟩
    · rintro ⟨_, hw, rfl⟩
      obtain ⟨u, hu, v, hv, rfl⟩ := Language.mem_mul.1 hw
      exact ⟨v ++ t, (iha _ _).2 ⟨u, hu, by rw [append_assoc]⟩, (ihb _ _).2 ⟨v, hv, rfl⟩⟩
  | rep r lo hi ih =>
    simp only [rests, mem_flatMap, mem_range, mem_rests_iterate ih, mem_singleton, exists_eq_left]
    constructor
    · rintro ⟨k, hk, u, hu, rfl⟩
      exact ⟨u, ⟨lo + k, by omega, by omega, hu⟩, rfl⟩
    · rintro ⟨u, ⟨n, hlo, hhi, hu⟩, rfl⟩
      refine ⟨n - lo, by omega, u, ?_, rfl⟩
      rwa [Nat.add_sub_cancel' hlo]

/-- `^r$` accepts the words of `r`, and each of them with a newline behind it. -/
theorem matchesLine_iff {r : Regex} {s : List Char} :
    r.matchesLine s = true ↔ s ∈ r.lang ∨ ∃ u ∈ r.lang, s = u ++ ['\n'] := by
  simp only [matchesLine, any_eq_true, Bool.or_eq_true, beq_iff_eq, mem_rests]
  constructor
  · rintro ⟨_, ⟨u, hu, rfl⟩, rfl | rfl⟩
    · exact .inl (by rwa [append_nil])
    · exact .inr ⟨u, hu, rfl⟩
  · rintro (h | ⟨u, hu, rfl⟩)
    · exact ⟨[], ⟨s, h, (append_nil s).symm⟩, .inl rfl⟩
    · exact ⟨['\n'], ⟨u, hu, rfl⟩, .inr rfl⟩

/-! ## The languages of the usual pieces -/

variable {u : List Char}

theorem mem_lang_cls_pow {p : Char → Bool} {n : Nat} :
    u ∈ (cls p).lang ^ n ↔ u.length = n ∧ ∀ c ∈ u, p c = true := by
  induction n generalizing u with
  | zero => simp +contextual [Language.mem_one, length_eq_zero_iff]
  | succ n ih =>
    rw [pow_succ']
    constructor
    · rintro ⟨_, ⟨c, hc, rfl⟩, w, hw, rfl⟩
      obtain ⟨hl, hall⟩ := ih.1 hw
      refine ⟨by simp [hl], ?_⟩
      simpa [hc] using hall
    · rintro ⟨hl, hall⟩
      obtain ⟨c, w, rfl⟩ := exists_cons_of_length_eq_add_one hl
      refine ⟨[c], ⟨c, hall c mem_cons_self, rfl⟩, w, ih.2 ⟨by simpa using hl, ?_⟩, rfl⟩
      exact fun d hd => hall d (mem_cons_of_mem c hd)

/-- `[…]{lo,hi}`: as many characters, all of the class. -/
theorem mem_lang_cls_rep {p : Char → Bool} {lo hi : Nat} :
    u ∈ (rep (cls p) lo hi).lang ↔ lo ≤ u.length ∧ u.length ≤ hi ∧ ∀ c ∈ u, p c = true := by
  constructor
  · rintro ⟨n, hlo, hhi, hu⟩
    obtain ⟨rfl, hall⟩ := mem_lang_cls_pow.1 hu
    exact ⟨hlo, hhi, hall⟩
  · rintro ⟨hlo, hhi, hall⟩
    exact ⟨u.length, hlo, hhi, mem_lang_cls_pow.2 ⟨rfl, hall⟩⟩

variable {p q : Char → Bool}

/-- `[…][…]{0,n}`: a lead character and at most `n` more. -/
theorem mem_lang_lead {n : Nat} : u ∈ (seq (cls p) (rep (cls q) 0 n)).lang ↔
      ∃ c s, u = c :: s ∧ p c = true ∧ s.length ≤ n ∧ ∀ d ∈ s, q d = true := by
  constructor
  · rintro ⟨_, ⟨c, hc, rfl⟩, s, hs, rfl⟩
    obtain ⟨_, hn, hall⟩ := mem_lang_cls_rep.1 hs
    exact ⟨c, s, rfl, hc, hn, hall⟩
  · rintro ⟨c, s, rfl, hc, hn, hall⟩
    exact ⟨[c], ⟨c, hc, rfl⟩, s, mem_lang_cls_rep.2 ⟨Nat.zero_le _, hn, hall⟩, rfl⟩

theorem cons_mem_lead {n : Nat} {c : Char} {s : List Char} :
    c :: s ∈ (seq (cls p) (rep (cls q) 0 n)).lang ↔
      p c = true ∧ s.length ≤ n ∧ ∀ d ∈ s, q d = true := by
  simp [mem_lang_lead]

theorem not_mem_of_lead {n : Nat} {d : Char}
    (h : u ∈ (seq (cls p) (rep (cls q) 0 n)).lang) (hp : p d = false) (hq : q d = false) :
    d ∉ u := by
  obtain ⟨c, s, rfl, hc, -, hall⟩ := mem_lang_lead.1 h
  intro hd
  rcases List.mem_cons.1 hd with rfl | hd
  · exact absurd hc (Bool.eq_false_iff.1 hp)
  · exact absurd (hall d hd) (Bool.eq_false_iff.1 hq)

end Regex

end SolariNet.Lib
