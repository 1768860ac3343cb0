/-
# Words, trailing white space, percent code

Byte strings as line protocols use them:

    words p         the pieces between separators, empty ones left out
    trimEnd p       the string without its trailing `p` bytes
    pctEncode       bytes outside a bare set as `%XX`, and its inverse `pctDecode`
    decimal         a number in base ten, and its inverse `ofDecimal`
-/
import Mathlib.Data.List.TakeWhile
import Mathlib.Data.Nat.Digits.Lemmas

namespace SolariNet.Lib

open List

/-! ## Words -/

section words
variable {α : Type} {p : α → Bool}

def words (p : α → Bool) (l : List α) : List (List α) := (l.splitOnP p).filter fun w => !w.isEmpty

@[simp] theorem words_nil : words p [] = [] := rfl

theorem words_append_cons (a b : List α) {s : α} (hs : p s = true) :
    words p (a ++ s :: b) = words p a ++ words p b := by
  unfold words
  rw [splitOnP_append_cons _ _ hs, filter_append]

theorem words_of_forall {w : List α} (hw : ∀ x ∈ w, p x = false) (hne : w ≠ []) :
    words p w = [w] := by
  unfold words
  rw [splitOnP_eq_singleton hw]
  simp [hne]

/-- Words that are joined with a separator are read back. -/
theorem words_intercalate {s : α} (hs : p s = true) {ws : List (List α)}
    (h : ∀ w ∈ ws, w ≠ [] ∧ ∀ x ∈ w, p x = false) : words p ([s].intercalate ws) = ws := by
  induction ws with
  | nil => rfl
  | cons w ws ih =>
    obtain ⟨hne, hw⟩ := h w mem_cons_self
    have hrest := ih fun x hx => h x (mem_cons_of_mem w hx)
    cases ws with
    | nil => simpa using words_of_forall hw hne
    | cons v ws =>
      have hjoin : [s].intercalate (w :: v :: ws) = w ++ s :: [s].intercalate (v :: ws) := by
        simp
      rw [hjoin, words_append_cons _ _ hs, words_of_forall hw hne, hrest]
      rfl

/-- Separators in front do not count. -/
theorem words_dropWhile (l : List α) : words p (l.dropWhile p) = words p l := by
  induction l with
  | nil => rfl
  | cons x l ih =>
    by_cases hx : p x = true
    · rw [dropWhile_cons_of_pos hx, ih]
      exact (words_append_cons [] l hx).symm
    · rw [dropWhile_cons_of_neg hx]

/-- The first word, up to the next separator. -/
theorem words_run {q : α → Bool} (hq : ∀ x, q x = !p x) {x : α} {l : List α} (hx : p x = false) :
    words p (x :: l) = (x :: l).takeWhile q :: words p ((x :: l).dropWhile q) := by
  have hne : (x :: l).takeWhile q ≠ [] := by
    rw [takeWhile_cons_of_pos (by simp [hq, hx])]
    exact cons_ne_nil _ _
  have hrun : ∀ y ∈ (x :: l).takeWhile q, p y = false := by
    intro y hy
    simpa [hq] using mem_takeWhile_imp hy
  conv_lhs => rw [← takeWhile_append_dropWhile (p := q) (l := x :: l)]
  cases hrest : (x :: l).dropWhile q with
  | nil => rw [append_nil, words_of_forall hrun hne, words_nil]
  | cons s rest =>
    have hs : p s = true := by
      have := head_dropWhile_not q (by simp [hrest] : (x :: l).dropWhile q ≠ [])
      simpa [hrest, hq] using this
    rw [words_append_cons _ _ hs, words_of_forall hrun hne]
    exact congrArg _ (words_append_cons [] rest hs).symm

end words

/-! ## Trailing white space -/

section trim
variable {α : Type} {p : α → Bool}

def trimEnd (p : α → Bool) (l : List α) : List α := (l.reverse.dropWhile p).reverse

theorem trimEnd_append (a b : List α) :
    trimEnd p (a ++ b) = if trimEnd p b = [] then trimEnd p a else a ++ trimEnd p b := by
  unfold trimEnd
  rw [reverse_append, dropWhile_append]
  simp only [List.isEmpty_iff, reverse_eq_nil_iff]
  split
  · rfl
  · rw [reverse_append, reverse_reverse]

theorem trimEnd_concat_of_not {a : List α} {x : α} (hx : p x = false) :
    trimEnd p (a ++ [x]) = a ++ [x] := by
  simp [trimEnd, hx]

end trim

/-! ## Percent code -/

/-- What holds of the first 256 numbers holds of every byte. -/
theorem forall_byte {P : UInt8 → Prop} (h : ∀ k < 256, P (UInt8.ofNat k)) (c : UInt8) : P c := by
  have hc := h c.toNat c.toNat_lt
  rwa [UInt8.ofNat_toNat] at hc

/-- The value of a hexadecimal digit, of either case. -/
def hexVal (c : UInt8) : Option UInt8 :=
  if 0x30 ≤ c ∧ c ≤ 0x39 then some (c - 0x30)
  else if 0x61 ≤ c ∧ c ≤ 0x66 then some (c - 0x57)
  else if 0x41 ≤ c ∧ c ≤ 0x46 then some (c - 0x37)
  else none

/-- The upper-case hexadecimal digit of a value below sixteen. -/
def hexDigit (n : UInt8) : UInt8 := if n < 10 then 0x30 + n else 0x37 + n

/-- `%XX` becomes a byte; a malformed one stays as it is. -/
def pctDecode : List UInt8 → List UInt8
  | [] => []
  | [c] => [c]
  | [c, d] => [c, d]
  | c :: a :: b :: rest =>
    if c = 0x25 then
      match hexVal a, hexVal b with
      | some hi, some lo => (hi <<< 4 ||| lo) :: pctDecode rest
      | _, _ => c :: pctDecode (a :: b :: rest)
    else c :: pctDecode (a :: b :: rest)

theorem pctDecode_cons_of_ne {c : UInt8} (hc : c ≠ 0x25) (s : List UInt8) :
    pctDecode (c :: s) = c :: pctDecode s := by
  match s with
  | [] | [_] => rfl
  | a :: b :: rest => rw [pctDecode, if_neg hc]

def pctEncodeByte (bare : UInt8 → Bool) (c : UInt8) : List UInt8 :=
  if bare c then [c] else [0x25, hexDigit (c >>> 4), hexDigit (c &&& 0xF)]

def pctEncode (bare : UInt8 → Bool) (s : List UInt8) : List UInt8 := s.flatMap (pctEncodeByte bare)

theorem length_pctEncode_le (bare : UInt8 → Bool) (s : List UInt8) :
    (pctEncode bare s).length ≤ 3 * s.length := by
  induction s with
  | nil => exact le_rfl
  | cons c s ih =>
    have hc : (pctEncodeByte bare c).length ≤ 3 := by
      unfold pctEncodeByte
      split <;> simp
    rw [pctEncode, flatMap_cons, length_append, length_cons]
    rw [pctEncode] at ih
    omega

variable {bare : UInt8 → Bool}

theorem pctEncode_ne_nil {s : List UInt8} (hs : s ≠ []) : pctEncode bare s ≠ [] := by
  obtain ⟨c, s, rfl⟩ := exists_cons_of_ne_nil hs
  rw [pctEncode, flatMap_cons]
  unfold pctEncodeByte
  split <;> simp

theorem hexVal_hexDigit {n : UInt8} : n < 16 → hexVal (hexDigit n) = some n :=
  forall_byte (P := fun n => n < 16 → hexVal (hexDigit n) = some n) (by decide +kernel) n

theorem shiftRight_four_lt : ∀ c : UInt8, c >>> 4 < 16 := forall_byte (by decide +kernel)

theorem and_fifteen_lt : ∀ c : UInt8, c &&& 0xF < 16 := forall_byte (by decide +kernel)

theorem nibbles : ∀ c : UInt8, (c >>> 4) <<< 4 ||| (c &&& 0xF) = c :=
  forall_byte (by decide +kernel)

section
variable (hbare : bare 0x25 = false)
include hbare

theorem pctDecode_encodeByte (c : UInt8)
    (rest : List UInt8) : pctDecode (pctEncodeByte bare c ++ rest) = c :: pctDecode rest := by
  unfold pctEncodeByte
  split
  · next hc =>
    have hne : c ≠ 0x25 := by
      intro h
      rw [h, hbare] at hc
      cases hc
    rw [singleton_append, pctDecode_cons_of_ne hne]
  · rw [cons_append, cons_append, cons_append, nil_append, pctDecode, if_pos rfl]
    simp only [hexVal_hexDigit (shiftRight_four_lt c), hexVal_hexDigit (and_fifteen_lt c), nibbles]

theorem pctDecode_encode_append
    (s rest : List UInt8) : pctDecode (pctEncode bare s ++ rest) = s ++ pctDecode rest := by
  induction s with
  | nil => rfl
  | cons c s ih =>
    rw [pctEncode, flatMap_cons, append_assoc, pctDecode_encodeByte hbare]
    exact congrArg (c :: ·) ih

theorem pctDecode_encode (s : List UInt8) : pctDecode (pctEncode bare s) = s := by
  have h := pctDecode_encode_append hbare s []
  rwa [append_nil, pctDecode, append_nil] at h

end

theorem pctDecode_of_forall {s : List UInt8} (h : ∀ c ∈ s, c ≠ 0x25) : pctDecode s = s := by
  induction s with
  | nil => rfl
  | cons c s ih =>
    rw [pctDecode_cons_of_ne (h c mem_cons_self), ih fun x hx => h x (mem_cons_of_mem _ hx)]

/-- The bytes of an encoded string: bare ones, percent signs and hexadecimal digits. -/
theorem mem_pctEncode {s : List UInt8} {c : UInt8}
    (h : c ∈ pctEncode bare s) : bare c = true ∨ c = 0x25 ∨ ∃ n < 16, c = hexDigit n := by
  obtain ⟨x, -, hc⟩ := mem_flatMap.1 h
  unfold pctEncodeByte at hc
  split at hc
  · next hx =>
    rw [mem_singleton.1 hc]
    exact .inl hx
  · simp only [mem_cons, not_mem_nil, or_false] at hc
    rcases hc with rfl | rfl | rfl
    · exact .inr (.inl rfl)
    · exact .inr (.inr ⟨_, shiftRight_four_lt x, rfl⟩)
    · exact .inr (.inr ⟨_, and_fifteen_lt x, rfl⟩)

/-! ## Decimal numbers -/

def decimal (n : Nat) : List UInt8 :=
  if n = 0 then [0x30] else ((Nat.digits 10 n).map fun d => UInt8.ofNat (d + 48)).reverse

def isDecimal (c : UInt8) : Bool := 0x30 ≤ c && c ≤ 0x39

/-- The number that `s` writes behind the digits of `n`. -/
def pushDigits (n : Nat) (s : List UInt8) : Nat := s.foldl (fun v c => v * 10 + (c.toNat - 48)) n

/-- The number a string of digits stands for. -/
def ofDecimal (s : List UInt8) : Nat := pushDigits 0 s

theorem le_pushDigits (n : Nat) (s : List UInt8) : n ≤ pushDigits n s := by
  induction s generalizing n with
  | nil => exact Nat.le_refl n
  | cons c s ih =>
    refine Nat.le_trans ?_ (ih (n * 10 + (c.toNat - 48)))
    omega

theorem isDecimal_digit {d : Nat} (hd : d < 10) : isDecimal (UInt8.ofNat (d + 48)) = true ∧
    (UInt8.ofNat (d + 48)).toNat - 48 = d := by
  have h : ∀ d < 10, isDecimal (UInt8.ofNat (d + 48)) = true ∧
    (UInt8.ofNat (d + 48)).toNat - 48 = d := by decide
  exact h d hd

theorem isDecimal_of_mem {n : Nat} {c : UInt8} (h : c ∈ decimal n) : isDecimal c = true := by
  unfold decimal at h
  split at h
  · rw [mem_singleton.1 h]
    decide
  rw [mem_reverse, mem_map] at h
  obtain ⟨d, hd, rfl⟩ := h
  exact (isDecimal_digit (Nat.digits_lt_base (by decide) hd)).1

theorem decimal_ne_nil (n : Nat) : decimal n ≠ [] := by
  unfold decimal
  split
  · exact cons_ne_nil _ _
  · next hn => simpa [Nat.digits_eq_nil_iff_eq_zero]

theorem ofDecimal_decimal (n : Nat) : ofDecimal (decimal n) = n := by
  unfold decimal ofDecimal pushDigits
  split
  · next hn => rw [hn]; rfl
  rw [foldl_reverse, foldr_map]
  have h : ∀ ds : List Nat, (∀ d ∈ ds, d < 10) →
      ds.foldr (fun d v => v * 10 + ((UInt8.ofNat (d + 48)).toNat - 48)) 0 =
        Nat.ofDigits 10 ds := by
    intro ds hds
    induction ds with
    | nil => rfl
    | cons d ds ih =>
      rw [foldr_cons, ih fun x hx => hds x (mem_cons_of_mem _ hx),
        (isDecimal_digit (hds d mem_cons_self)).2, Nat.ofDigits_cons]
      ring
  rw [h _ fun d hd => Nat.digits_lt_base (by decide) hd, Nat.ofDigits_digits]

theorem toUpper_toUpper (c : Char) : c.toUpper.toUpper = c.toUpper := by
  by_cases h : 'a'.val ≤ c.val ∧ c.val ≤ 'z'.val
  · -- 32 below a lower-case letter there is none
    have hup : ¬ ('a'.val ≤ c.toUpper.val ∧ c.toUpper.val ≤ 'z'.val) := by
      have hdiff : ('A'.val - 'a'.val).toNat = 2 ^ 32 - 32 := by decide
      have ha : 'a'.val.toNat = 97 := by decide
      have hz : 'z'.val.toNat = 122 := by decide
      delta Char.toUpper
      simp only [dif_pos h]
      simp only [UInt32.le_iff_toNat_le, UInt32.toNat_add] at h ⊢
      omega
    delta Char.toUpper at hup ⊢
    exact dif_neg hup
  · have hsame : c.toUpper = c := by
      delta Char.toUpper
      exact dif_neg h
    rw [hsame, hsame]

end SolariNet.Lib
