/-
# UTF-8 on the panel

`validUtf8` (`firmware/panelProv.c`) reads a string by a 16-bit index.  The end of a sequence is
checked as `(uint16_t)(i + follow) >= n`.  In strings of 65534 and 65535 bytes the sum can pass
2¹⁶, and a sequence that the string ends within is then read on.  A read outside of the string is
`none` here; the index itself stays below its length.
-/
import SolariNet.Lib.Text
import SolariNet.Wire.Basic

namespace SolariNet

open List Lib

def isCont (c : UInt8) : Bool := c &&& 0xC0 == 0x80

def validCodePoint (c : UInt8) (cp : UInt32) : Bool :=
  !(cp > 0x10FFFF || (cp ≥ 0xD800 && cp ≤ 0xDFFF) || cp < 0x80 || (cp < 0x800 && c ≥ 0xE0) ||
    (cp < 0x10000 && c ≥ 0xF0))

def cpShift (cp : UInt32) (c : UInt8) : UInt32 := (cp <<< 6) ||| (c &&& 0x3F).toUInt32

/-- How many bytes follow a lead byte, and its own bits of the code point. -/
def utf8Lead (c : UInt8) : Option (Nat × UInt32) :=
  if c < 0xC2 then none
  else if c < 0xE0 then some (1, (c &&& 0x1F).toUInt32)
  else if c < 0xF0 then some (2, (c &&& 0x0F).toUInt32)
  else if c < 0xF5 then some (3, (c &&& 0x07).toUInt32)
  else none

/-- The loop over the bytes that follow; `some none` is a byte that does not continue. -/
def utf8Follow : Nat → UInt32 → Bytes → Option (Option UInt32)
  | 0, cp, _ => some (some cp)
  | _ + 1, _, [] => none
  | follow + 1, cp, cc :: s =>
    if isCont cc then utf8Follow follow (cpShift cp cc) s else some none

/-- The loop of `validUtf8` at index `i` of `n` bytes, with the bytes from there on. -/
def utf8Loop (n i : Nat) : Bytes → Option Bool
  | [] => some true
  | c :: s =>
    if c < 0x80 then utf8Loop n (i + 1) s
    else
      match utf8Lead c with
      | none => some false
      | some (follow, cp) =>
        if (i + follow) % 65536 ≥ n then some false
        else
          match utf8Follow follow cp s with
          | none => none
          | some none => some false
          | some (some cp) =>
            if validCodePoint c cp then utf8Loop n (i + follow + 1) (s.drop follow)
            else some false
termination_by s => s.length

def validUtf8 (s : Bytes) : Bool := utf8Loop s.length 0 s == some true

/-! ## One character -/

theorem isCont_iff : ∀ c : UInt8, isCont c = true ↔ 128 ≤ c.toNat ∧ c.toNat < 192 :=
  forall_byte (by decide +kernel)

theorem toNat_cpShift (h : cp.toNat < 2 ^ 26) (c : UInt8) :
    (cpShift cp c).toNat = cp.toNat * 64 + c.toNat % 64 := by
  have hc : (c &&& 0x3F).toNat = c.toNat % 64 := by
    revert c
    exact forall_byte (by decide +kernel)
  have hlt : c.toNat % 64 < 2 ^ 6 := Nat.mod_lt _ (by decide)
  simp only [cpShift, UInt32.toNat_or, UInt32.toNat_shiftLeft, UInt8.toNat_toUInt32, hc]
  rw [Nat.mod_eq_of_lt (by simp; omega)]
  exact (Nat.shiftLeft_add_eq_or_of_lt hlt _).symm.trans (by rw [Nat.shiftLeft_eq])

theorem utf8Lead_iff (c : UInt8) : utf8Lead c = some (f, cp) ↔
    (f = 1 ∧ 194 ≤ c.toNat ∧ c.toNat < 224 ∧ cp.toNat = c.toNat % 32) ∨
    (f = 2 ∧ 224 ≤ c.toNat ∧ c.toNat < 240 ∧ cp.toNat = c.toNat % 16) ∨
    (f = 3 ∧ 240 ≤ c.toNat ∧ c.toNat < 245 ∧ cp.toNat = c.toNat % 8) := by
  have mask : (c &&& 0x1F).toUInt32 = .ofNat (c.toNat % 32) ∧
      (c &&& 0x0F).toUInt32 = .ofNat (c.toNat % 16) ∧
      (c &&& 0x07).toUInt32 = .ofNat (c.toNat % 8) := by
    revert c
    exact forall_byte (by decide +kernel)
  simp only [utf8Lead, UInt8.lt_iff_toNat_lt, UInt8.toNat_ofNat, mask]
  split_ifs <;> simp [← UInt32.toNat_inj] <;> omega

theorem validCodePoint_iff {c : UInt8} {cp : UInt32} : validCodePoint c cp = true ↔
    cp.toNat.isValidChar ∧ 128 ≤ cp.toNat ∧ (224 ≤ c.toNat → 2048 ≤ cp.toNat) ∧
      (240 ≤ c.toNat → 65536 ≤ cp.toNat) := by
  simp [validCodePoint, Nat.isValidChar, UInt32.lt_iff_toNat_lt, UInt32.le_iff_toNat_le,
    UInt8.le_iff_toNat_le]
  omega

theorem ofNat_eq_iff {c : UInt8} : UInt8.ofNat n = c ↔ n % 256 = c.toNat := by
  rw [← UInt8.toNat_inj, UInt8.toNat_ofNat']

/-- The last `k` bytes of the encoding of `v`. -/
def utf8Tail : Nat → Nat → Bytes
  | 0, _ => []
  | k + 1, v => .ofNat (v / 64 ^ k % 64 + 128) :: utf8Tail k v

theorem length_utf8Tail (k v : Nat) : (utf8Tail k v).length = k := by
  induction k with
  | zero => rfl
  | succ k ih => rw [utf8Tail, length_cons, ih]

theorem utf8Follow_none : utf8Follow k cp s = none ↔ s.length < k ∧ s.all isCont = true := by
  induction k generalizing cp s with
  | zero => simp [utf8Follow]
  | succ k ih =>
    cases s with
    | nil => simp [utf8Follow]
    | cons cc s => by_cases hc : isCont cc = true <;> simp [utf8Follow, hc, ih]

theorem encode_ascii : ∀ c : UInt8, c < 0x80 → String.utf8EncodeChar (.ofNat c.toNat) = [c] :=
  forall_byte (by decide +kernel)

theorem utf8Follow_iff (h : (cp.toNat + 1) * 64 ^ k ≤ 2 ^ 32) :
    utf8Follow k cp s = some (some v) ↔
      v.toNat / 64 ^ k = cp.toNat ∧ ∃ t, s = utf8Tail k v.toNat ++ t := by
  induction k generalizing cp s with
  | zero => simp [utf8Follow, utf8Tail, ← UInt32.toNat_inj, eq_comm]
  | succ k ih =>
    cases s with
    | nil => simp [utf8Follow, utf8Tail]
    | cons cc s =>
      have hpow : 0 < 64 ^ k := Nat.pow_pos (by decide)
      have hcp : (cp.toNat + 1) * 64 ≤ 2 ^ 32 := by
        rw [pow_succ', ← mul_assoc] at h
        exact (Nat.le_mul_of_pos_right _ hpow).trans h
      have hq := toNat_cpShift (by omega : cp.toNat < 2 ^ 26) cc
      have hbound : ((cpShift cp cc).toNat + 1) * 64 ^ k ≤ 2 ^ 32 := by
        rw [pow_succ', ← mul_assoc] at h
        exact (Nat.mul_le_mul_right _ (by omega)).trans h
      have hbyte : isCont cc = true ∧ v.toNat / 64 ^ k = cp.toNat * 64 + cc.toNat % 64 ↔
          v.toNat / 64 ^ k / 64 = cp.toNat ∧ cc = .ofNat (v.toNat / 64 ^ k % 64 + 128) := by
        rw [isCont_iff, eq_comm (a := cc), ofNat_eq_iff]
        omega
      simp only [utf8Follow, utf8Tail, cons_append, cons.injEq, exists_and_left, pow_succ,
        ← Nat.div_div_eq_div_mul, ← and_assoc, ← hbyte]
      split
      · next hc => rw [ih hbound, hq]; simp [hc]
      · next hc => simp [hc]

theorem encodeChar_eq (ch : Char) : String.utf8EncodeChar ch =
    let v := ch.val.toNat
    if v ≤ 127 then [.ofNat v] else if v ≤ 2047 then .ofNat (v / 64 % 32 + 192) :: utf8Tail 1 v
    else if v ≤ 65535 then .ofNat (v / 4096 % 16 + 224) :: utf8Tail 2 v
    else .ofNat (v / 262144 % 8 + 240) :: utf8Tail 3 v := by
  simp [String.utf8EncodeChar, utf8Tail]

theorem lead_fits {c : UInt8} (h : utf8Lead c = some (f, cp)) :
    (cp.toNat + 1) * 64 ^ f ≤ 2 ^ 32 ∧ ¬ c < 0x80 := by
  have h80 : (0x80 : UInt8).toNat = 128 := rfl
  rw [UInt8.lt_iff_toNat_lt]
  rcases (utf8Lead_iff c).1 h with ⟨rfl, hc⟩ | ⟨rfl, hc⟩ | ⟨rfl, hc⟩ <;> omega

theorem encode_of_lead {c : UInt8} (hl : utf8Lead c = some (f, cp))
    (hw : w.toNat / 64 ^ f = cp.toNat) (hv : validCodePoint c w = true) :
    ∃ ch, String.utf8EncodeChar ch = c :: utf8Tail f w.toNat := by
  obtain ⟨hvalid, h80, h800, h10000⟩ := validCodePoint_iff.1 hv
  refine ⟨⟨w, hvalid⟩, ?_⟩
  simp only [encodeChar_eq]
  rcases (utf8Lead_iff c).1 hl with ⟨rfl, hc⟩ | ⟨rfl, hc⟩ | ⟨rfl, hc⟩
  · rw [if_neg (by omega), if_pos (by omega), ofNat_eq_iff.2]
    omega
  · rw [if_neg (by omega), if_neg (by omega), if_pos (by omega), ofNat_eq_iff.2]
    omega
  · rw [if_neg (by omega), if_neg (by omega), if_neg (by omega), ofNat_eq_iff.2]
    omega

theorem lead_of_encode (ch : Char) (h : 128 ≤ ch.val.toNat) : ∃ c f cp,
    String.utf8EncodeChar ch = c :: utf8Tail f ch.val.toNat ∧ utf8Lead c = some (f, cp) ∧
      ch.val.toNat / 64 ^ f = cp.toNat ∧ validCodePoint c ch.val = true := by
  have hv : ch.val.toNat.isValidChar := ch.valid
  simp only [encodeChar_eq, utf8Lead_iff, validCodePoint_iff, hv, true_and]
  generalize ch.val.toNat = v at *
  unfold Nat.isValidChar at hv
  rw [if_neg (by omega)]
  split_ifs
  · refine ⟨_, 1, .ofNat (v / 64), rfl, ?_⟩
    simp [UInt8.toNat_ofNat', UInt32.toNat_ofNat']
    omega
  · refine ⟨_, 2, .ofNat (v / 4096), rfl, ?_⟩
    simp [UInt8.toNat_ofNat', UInt32.toNat_ofNat']
    omega
  · refine ⟨_, 3, .ofNat (v / 262144), rfl, ?_⟩
    simp [UInt8.toNat_ofNat', UInt32.toNat_ofNat']
    omega

/-! ## The loop -/

/-- Unicode scalar values in their shortest forms, one behind the other. -/
def utf8Text (l : List Char) : Bytes := l.flatMap String.utf8EncodeChar

theorem utf8Text_cons (ch : Char) (l : List Char) :
    utf8Text (ch :: l) = String.utf8EncodeChar ch ++ utf8Text l := flatMap_cons

theorem utf8Loop_text (l : List Char) (hs : i + (utf8Text l).length ≤ n) :
    utf8Loop n i (utf8Text l ++ s) = utf8Loop n (i + (utf8Text l).length) s := by
  induction l generalizing i with
  | nil => rfl
  | cons ch l ih =>
    rw [utf8Text_cons, length_append, ← Nat.add_assoc] at hs ⊢
    rw [append_assoc, ← ih hs]
    by_cases h : 128 ≤ ch.val.toNat
    · obtain ⟨c, f, cp, he, hl, hw, hv⟩ := lead_of_encode ch h
      obtain ⟨hfits, hhigh⟩ := lead_fits hl
      have hf := (utf8Follow_iff hfits).2 ⟨hw, utf8Text l ++ s, rfl⟩
      rw [he, length_cons, length_utf8Tail] at hs ⊢
      rw [cons_append, utf8Loop, if_neg hhigh, hl]
      simp only
      rw [if_neg (by omega), hf]
      simp only [hv, if_true]
      rw [drop_left' (length_utf8Tail ..), Nat.add_assoc]
    · have he : String.utf8EncodeChar ch = [.ofNat ch.val.toNat] := if_pos (by omega)
      rw [he, singleton_append, utf8Loop, if_pos]
      · rfl
      · rw [UInt8.lt_iff_toNat_lt, UInt8.toNat_ofNat']
        simp only [UInt8.toNat_ofNat]
        omega

/-- Every string is well-formed text and a rest that no character begins. -/
theorem exists_text (s : Bytes) :
    ∃ l t, s = utf8Text l ++ t ∧ ∀ ch r, t ≠ String.utf8EncodeChar ch ++ r := by
  by_cases h : ∃ ch r, s = String.utf8EncodeChar ch ++ r
  · obtain ⟨ch, r, rfl⟩ := h
    have : r.length < (String.utf8EncodeChar ch ++ r).length := by
      have := String.length_utf8EncodeChar ch
      have := ch.utf8Size_pos
      simp
      omega
    obtain ⟨l, t, rfl, ht⟩ := exists_text r
    exact ⟨ch :: l, t, by rw [utf8Text_cons, append_assoc], ht⟩
  · exact ⟨[], s, rfl, fun ch r hs => h ⟨ch, r, hs⟩⟩
termination_by s.length

/-- Well-formed text, and then a sequence which the string ends within and whose own end has an
index that does not fit into 16 bits. -/
def CutLate (s : Bytes) : Prop :=
  ∃ l c t f cp, s = utf8Text l ++ c :: t ∧ utf8Lead c = some (f, cp) ∧ t.all isCont = true ∧
    65536 ≤ (utf8Text l).length + f

theorem utf8Loop_stuck {c : UInt8} (hn : n = i + s.length + 1)
    (h : ∀ ch r, c :: s ≠ String.utf8EncodeChar ch ++ r) : utf8Loop n i (c :: s) = some false ∨
      ∃ f cp, utf8Lead c = some (f, cp) ∧ s.all isCont = true ∧ 65536 ≤ i + f := by
  rw [utf8Loop, if_neg fun hc => h _ s (by rw [encode_ascii c hc]; rfl)]
  split
  · exact .inl rfl
  next f cp hl =>
  split
  · exact .inl rfl
  split
  · next hf =>
    obtain ⟨hshort, hcont⟩ := utf8Follow_none.1 hf
    exact .inr ⟨f, cp, hl, hcont, by omega⟩
  · exact .inl rfl
  next w hf =>
  rw [if_neg]
  · exact .inl rfl
  intro hv
  obtain ⟨hw, t, rfl⟩ := (utf8Follow_iff (lead_fits hl).1).1 hf
  obtain ⟨ch, he⟩ := encode_of_lead hl hw hv
  exact h ch t (by rw [he]; rfl)

theorem utf8Loop_cutLate (hs : s.length < 65536) (h : CutLate s) :
    utf8Loop s.length 0 s = none := by
  obtain ⟨l, c, t, f, cp, rfl, hl, ht, hlate⟩ := h
  rw [length_append, length_cons] at hs ⊢
  have hlead := (utf8Lead_iff c).1 hl
  have hf : utf8Follow f cp t = none := utf8Follow_none.2 ⟨by omega, ht⟩
  rw [utf8Loop_text l (by omega), utf8Loop, if_neg (lead_fits hl).2, hl]
  simp only [hf]
  exact if_neg (by omega)

/-- **UTF-8 is accepted exactly**, and nothing outside of the string is read, unless it is cut off
late. -/
theorem utf8_exact_iff (s : {s : Bytes // s.length < 65536}) :
    (∃ b, utf8Loop s.1.length 0 s = some b ∧ (b = true ↔ ∃ l, s = utf8Text l)) ↔ ¬ CutLate s := by
  obtain ⟨s, hs⟩ := s
  refine ⟨fun ⟨b, hb, _⟩ hcut => ?_, fun hcut => ?_⟩
  · rw [utf8Loop_cutLate hs hcut] at hb
    cases hb
  have htext (l : List Char) (t) (hl : s = utf8Text l ++ t) :
      utf8Loop s.length 0 s = utf8Loop s.length (utf8Text l).length t := by
    have := utf8Loop_text (i := 0) (n := s.length) (s := t) l (by simp [hl])
    rwa [← hl, Nat.zero_add] at this
  obtain ⟨l, t, hl, ht⟩ := exists_text s
  cases t with
  | nil =>
    refine ⟨true, ?_, iff_of_true rfl ⟨l, hl.trans (append_nil _)⟩⟩
    rw [htext l [] hl, utf8Loop]
  | cons c t =>
    have hn : s.length = (utf8Text l).length + t.length + 1 := by rw [hl, length_append]; rfl
    rcases utf8Loop_stuck hn ht with hfalse | ⟨f, cp, hlead, hall, hlate⟩
    · refine ⟨false, (htext l _ hl).trans hfalse, iff_of_false Bool.false_ne_true ?_⟩
      rintro ⟨l', hl'⟩
      have htrue := htext l' [] (hl'.trans (append_nil _).symm)
      rw [htext l _ hl, hfalse, utf8Loop] at htrue
      cases htrue
    · exact absurd ⟨l, c, t, f, cp, hl, hlead, hall, hlate⟩ hcut

/-- 65533 letters and a lead byte: the index of its last byte wraps to 0. -/
def cutText : Bytes := utf8Text (replicate 65533 'A') ++ [0xF0]

theorem cut_overread : cutText.length = 65534 ∧ utf8Loop cutText.length 0 cutText = none := by
  have hlen (k) : (utf8Text (replicate k 'A')).length = k := by
    induction k with
    | zero => rfl
    | succ k ih => rw [replicate_succ, utf8Text_cons, length_append, ih, Nat.add_comm]; rfl
  have hcut : cutText.length = 65534 := by rw [cutText, length_append, hlen]; rfl
  refine ⟨hcut, ?_⟩
  rw [hcut, cutText, utf8Loop_text _ (by rw [hlen]; decide), hlen, utf8Loop]
  rfl

end SolariNet
