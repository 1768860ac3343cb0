/-
# What the arguments of a line mean

A client writes `key=value key=value …`, each value by `ctlPctEncode`; the server reads a value by
its key.

    ctlArgStr          the value up to a zero byte that an escape has produced
    ctlArgStrStrict    the whole value, or an error if there is a zero byte in it
    ctlArgU64          what `strtoull` makes of it: white space and a sign are taken
    ctlArgU32Hex       … `strtoul`: also a second `0x`, none at all behind a `0x`, and 64 bits of
                       which the lower 32 are kept

What must fit the buffer is the value as it stands in the line, before its escapes are decoded.
-/
import SolariNet.Ctl.Line

namespace SolariNet

open List Lib

/-! ## Reading back a line -/

def TokenKey (key : Bytes) : Prop := ∀ c ∈ key, isBlank c = false ∧ c ≠ 0x3D ∧ c ≠ 0

def argLine (cap : Nat) (pairs : List (Bytes × Bytes)) : Bytes :=
  [0x20].intercalate (pairs.map fun p => p.1 ++ 0x3D :: ctlPctEncode p.2 cap)

variable {pairs : List (Bytes × Bytes)} {key s args : Bytes}

theorem words_argLine {cap : Nat} (hkeys : ∀ p ∈ pairs, TokenKey p.1) :
    words isBlank (argLine cap pairs) = pairs.map fun p => p.1 ++ 0x3D :: ctlPctEncode p.2 cap := by
  refine words_intercalate rfl ?_
  intro w hw
  obtain ⟨p, hp, rfl⟩ := mem_map.1 hw
  refine ⟨by simp, fun c hc => ?_⟩
  rcases mem_append.1 hc with hkey | hrest
  · exact (hkeys p hp c hkey).1
  rcases mem_cons.1 hrest with rfl | hvalue
  · rfl
  unfold ctlPctEncode at hvalue
  split at hvalue
  · exact isBlank_of_not_isTrimmed (not_isTrimmed_of_encoded hvalue)
  · cases hvalue

theorem find_word (value : Bytes → Bytes) (hkeys : ∀ p ∈ pairs, TokenKey p.1)
    (hnodup : (pairs.map (·.1)).Nodup) {p : Bytes × Bytes} (hp : p ∈ pairs) :
    (pairs.map fun q => q.1 ++ 0x3D :: value q.2).find? (hasKey p.1) =
      some (p.1 ++ 0x3D :: value p.2) := by
  induction pairs with
  | nil => cases hp
  | cons q pairs ih =>
    have hkey : 0x3D ∉ q.1 := fun h => (hkeys q mem_cons_self 0x3D h).2.1 rfl
    rw [map_cons, nodup_cons] at hnodup
    rw [map_cons]
    by_cases heq : q.1 = p.1
    · -- the keys are distinct, so this is the pair
      have hpq : p = q := by
        rcases mem_cons.1 hp with h | h
        · exact h
        · exact absurd (heq ▸ mem_map_of_mem h) hnodup.1
      subst hpq
      rw [List.find?_cons_of_pos (by rw [hasKey_append hkey]; simp)]
    · have hmem : p ∈ pairs := by
        rcases mem_cons.1 hp with h | h
        · exact absurd (congrArg Prod.fst h.symm) heq
        · exact h
      rw [List.find?_cons_of_neg (by rw [hasKey_append hkey]; simpa using heq)]
      exact ih (fun x hx => hkeys x (mem_cons_of_mem q hx)) hnodup.2 hmem

theorem find_word_none (value : Bytes → Bytes) (hkeys : ∀ p ∈ pairs, TokenKey p.1)
    (hkey : key ∉ pairs.map (·.1)) :
    (pairs.map fun q => q.1 ++ 0x3D :: value q.2).find? (hasKey key) = none := by
  rw [List.find?_eq_none]
  intro w hw
  obtain ⟨q, hq, rfl⟩ := mem_map.1 hw
  have heq : 0x3D ∉ q.1 := fun h => (hkeys q hq 0x3D h).2.1 rfl
  rw [hasKey_append heq, decide_eq_true_eq]
  rintro rfl
  exact hkey (mem_map_of_mem hq)

/-! ## The strict reading -/

theorem length_cstr_iff : (cstr s).length = s.length ↔ 0 ∉ s := by
  constructor
  · intro h hzero
    have hall : s.takeWhile (· ≠ 0) = s :=
      (takeWhile_sublist _).eq_of_length h
    rw [takeWhile_eq_self_iff] at hall
    simpa using hall 0 hzero
  · intro h
    rw [cstr_of_forall fun c hc hzero => h (hzero ▸ hc)]

theorem ctlArgStr_eq_raw {cap : Nat} : ctlArgStr args key cap = match ctlArgRawSpan args key with
    | none => .error .errTlvEnd
    | some raw =>
      if cap < raw.length + 1 then .error .errBufferFull else .ok (cstr (pctDecode raw)) := by
  unfold ctlArgStr ctlArgRawSpan
  cases (words isBlank args).find? (hasKey key) with
  | none | some word => rfl

theorem ctlArgStrStrict_eq_ok {cap : Nat} :
    ctlArgStrStrict args key cap = .ok value ↔ ∃ raw, ctlArgRawSpan args key = some raw ∧
      raw.length < cap ∧ pctDecode raw = value ∧ 0 ∉ value := by
  unfold ctlArgStrStrict
  rw [ctlArgStr_eq_raw]
  cases hraw : ctlArgRawSpan args key with
  | none => simp
  | some raw =>
    have hlen := length_pctDecode raw
    by_cases hcap : cap < raw.length + 1
    · simp only [if_pos hcap, Option.some.injEq]
      constructor
      · intro h
        cases h
      · rintro ⟨_, rfl, hfit, -⟩
        omega
    · simp only [if_neg hcap, Option.some.injEq]
      by_cases hzero : 0 ∈ pctDecode raw
      · have hlost : (cstr (pctDecode raw)).length ≠ raw.length - 2 * escapes raw := by
          intro h
          exact length_cstr_iff.1 (h.trans (by omega)) hzero
        rw [if_pos hlost]
        constructor
        · intro h
          cases h
        · rintro ⟨_, rfl, -, rfl, hnone⟩
          exact absurd hzero hnone
      · have hwhole : cstr (pctDecode raw) = pctDecode raw :=
          cstr_of_forall fun c hc h => hzero (h ▸ hc)
        rw [hwhole, if_neg (by omega), Except.ok.injEq]
        constructor
        · rintro rfl
          exact ⟨raw, rfl, by omega, rfl, hzero⟩
        · rintro ⟨_, rfl, -, rfl, -⟩
          rfl

/-- **Arguments survive the wire.** Values encoded under distinct keys are read back if they fit as
they stand in the line; the strict reading succeeds exactly if the first value of the key fits and
decodes to a value without a zero byte. -/
theorem arguments_survive :
    (∀ (pairs : List (Bytes × Bytes)) (encodeCap : Nat), (∀ p ∈ pairs, TokenKey p.1) →
      (pairs.map (·.1)).Nodup → (∀ p ∈ pairs, 0 ∉ p.2) →
      (∀ p ∈ pairs, (pctEncode isBare p.2).length < encodeCap) →
      (∀ p ∈ pairs, ∀ cap, (pctEncode isBare p.2).length < cap →
        ctlArgStr (argLine encodeCap pairs) p.1 cap = .ok p.2) ∧
      ∀ key, key ∉ pairs.map (·.1) → ∀ cap,
        ctlArgStr (argLine encodeCap pairs) key cap = .error .errTlvEnd) ∧
    ∀ args key cap value, ctlArgStrStrict args key cap = .ok value ↔
      ∃ raw, ctlArgRawSpan args key = some raw ∧ raw.length < cap ∧ pctDecode raw = value ∧
        0 ∉ value := by
  refine ⟨fun pairs encodeCap hkeys hnodup hzero hfit => ⟨?_, ?_⟩, ?_⟩
  · intro p hp cap hcap
    have hencoded : ctlPctEncode p.2 encodeCap = pctEncode isBare p.2 := if_pos (hfit p hp)
    have hdrop : (p.1 ++ 0x3D :: pctEncode isBare p.2).drop (p.1.length + 1) =
        pctEncode isBare p.2 := by
      rw [← drop_drop, drop_left]
      rfl
    unfold ctlArgStr
    rw [words_argLine hkeys, find_word (fun v => ctlPctEncode v encodeCap) hkeys hnodup hp]
    simp only [hencoded, hdrop]
    rw [if_neg (by omega), pctDecode_encode (by decide),
      cstr_of_forall fun c hc h => hzero p hp (h ▸ hc)]
  · intro key hkey cap
    unfold ctlArgStr
    rw [words_argLine hkeys, find_word_none (fun v => ctlPctEncode v encodeCap) hkeys hkey]
  · exact fun args key cap value => ctlArgStrStrict_eq_ok

theorem arguments_survive_blank :
    ctlArgStr (argLine 8 [(txt "k", txt "a b"), (txt "n", txt "7")]) (txt "k") 8 =
      .ok (txt "a b") :=
  (arguments_survive.1 [(txt "k", txt "a b"), (txt "n", txt "7")] 8
    (by simp [TokenKey, txt, isBlank]) (by decide) (by decide) (by decide)).1 _ mem_cons_self 8
    (by decide)

/-- A value of two bytes, escaped, does not fit a buffer of four. -/
theorem escaped_value_refused : ctlArgRawSpan (txt "k=%41%42") (txt "k") = some (txt "%41%42") ∧
    pctDecode (txt "%41%42") = txt "AB" ∧ (txt "AB").length < 4 ∧ 0 ∉ txt "AB" ∧
    ctlArgStrStrict (txt "k=%41%42") (txt "k") 4 = .error .errBufferFull := by
  decide +kernel

/-! ## Numbers -/

def DecimalText (s : Bytes) : Prop := s ≠ [] ∧ ∀ c ∈ s, isDecimal c = true

def U64Exact (args key : Bytes) : Prop :=
  ∀ v, ctlArgU64 args key = .ok v → ∃ s, ctlArgStr args key 32 = .ok s ∧
    DecimalText s ∧ ofDecimal s < 2 ^ 64 ∧ v = ofDecimal s

def U32HexExact (args key : Bytes) : Prop :=
  ∀ v, ctlArgU32Hex args key = .ok v → ∃ s, ctlArgStr args key 32 = .ok s ∧
    dropHexPrefix s ≠ [] ∧ ofHex (dropHexPrefix s) = some v ∧ v < 2 ^ 32

def LooseDecimal (s : Bytes) : Prop :=
  (splitSign s).2 ≠ s ∧ DecimalText (splitSign s).2 ∧ ofDecimal (splitSign s).2 < 2 ^ 64

/-- Behind the prefix stands nothing; or a number of 64 bits, in more than 32 or behind white space,
a sign or another prefix. -/
def LooseHex (s : Bytes) : Prop :=
  s ≠ [] ∧ dropHexPrefix s = [] ∨ ∃ w, dropHexPrefix (splitSign (dropHexPrefix s)).2 ≠ [] ∧
      ofHex (dropHexPrefix (splitSign (dropHexPrefix s)).2) = some w ∧ w < 2 ^ 64 ∧
      (dropHexPrefix (splitSign (dropHexPrefix s)).2 ≠ dropHexPrefix s ∨ 2 ^ 32 ≤ w)

theorem length_splitSign (s : Bytes) : (splitSign s).2.length ≤ s.length ∧
    ((splitSign s).1 = true → (splitSign s).2.length < s.length) := by
  have hdrop : (s.dropWhile isSpace).length ≤ s.length := (dropWhile_suffix _).length_le
  unfold splitSign
  split
  · simp
  next c rest heq =>
  rw [heq, length_cons] at hdrop
  split
  · exact ⟨by simp only; omega, fun _ => by simp only; omega⟩
  split
  · exact ⟨by simp only; omega, fun h => by cases h⟩
  · exact ⟨hdrop, fun h => by cases h⟩

theorem splitSign_of_eq (h : (splitSign s).2 = s) : (splitSign s).1 = false := by
  cases hsign : (splitSign s).1 with
  | false => rfl
  | true =>
    have := (length_splitSign s).2 hsign
    rw [h] at this
    omega

theorem splitSign_digit {c : UInt8} {rest : Bytes} (h : (hexVal c).isSome = true) :
    splitSign (c :: rest) = (false, c :: rest) := by
  have hall : ∀ c : UInt8, (hexVal c).isSome = true → isSpace c = false ∧ c ≠ 0x2D ∧ c ≠ 0x2B :=
    forall_byte (by decide +kernel)
  have hc := hall c h
  unfold splitSign
  rw [dropWhile_cons_of_neg (by simp [hc.1])]
  simp only [if_neg hc.2.1, if_neg hc.2.2]

theorem unsignedOf_eq_some {negative : Bool} {d v : Nat} : unsignedOf negative d = some v ↔
    d < 2 ^ 64 ∧ v = if negative then (2 ^ 64 - d) % 2 ^ 64 else d := by
  unfold unsignedOf
  split
  · next hbig =>
    refine iff_of_false (by simp) fun h => ?_
    exact absurd h.1 (Nat.not_lt.2 hbig)
  · next hlt =>
    rw [Option.some.injEq, eq_comm]
    exact ⟨fun h => ⟨Nat.not_le.1 hlt, h⟩, fun h => h.2⟩

theorem strtoull_eq_some {v : Nat} : strtoull s = some v ↔ DecimalText (splitSign s).2 ∧
      unsignedOf (splitSign s).1 (ofDecimal (splitSign s).2) = some v := by
  have hread : ((splitSign s).2.isEmpty || !(splitSign s).2.all isDecimal) = false ↔
      DecimalText (splitSign s).2 := by
    simp [DecimalText]
  rw [← hread]
  simp only [strtoull]
  split
  · next h => simp [h]
  · next h => simp [h]

theorem ctlArgU64_eq_ok {v : Nat} :
    ctlArgU64 args key = .ok v ↔ ∃ s, ctlArgStr args key 32 = .ok s ∧ strtoull s = some v := by
  unfold ctlArgU64
  cases ctlArgStr args key 32 with
  | error st => simp
  | ok s =>
    cases hs : strtoull s with
    | none | some n => simp [hs]

theorem u64Exact_iff :
    U64Exact args key ↔ ∀ s, ctlArgStr args key 32 = .ok s → ¬ LooseDecimal s := by
  constructor
  · rintro h s hs ⟨hne, hdec, hlt⟩
    obtain ⟨v, hv⟩ : ∃ v, strtoull s = some v :=
      ⟨_, strtoull_eq_some.2 ⟨hdec, unsignedOf_eq_some.2 ⟨hlt, rfl⟩⟩⟩
    obtain ⟨s', hs', ⟨hnil, hdigits⟩, -⟩ := h v (ctlArgU64_eq_ok.2 ⟨s, hs, hv⟩)
    cases hs.symm.trans hs'
    cases s with
    | nil => exact hnil rfl
    | cons c rest =>
      have hhex : ∀ c : UInt8, isDecimal c = true → (hexVal c).isSome = true :=
        forall_byte (by decide +kernel)
      rw [splitSign_digit (hhex c (hdigits c mem_cons_self))] at hne
      exact hne rfl
  · intro h v hv
    obtain ⟨s, hs, hv⟩ := ctlArgU64_eq_ok.1 hv
    obtain ⟨hdec, hv⟩ := strtoull_eq_some.1 hv
    obtain ⟨hlt, hv⟩ := unsignedOf_eq_some.1 hv
    have hall : (splitSign s).2 = s := not_not.1 fun hne => h s hs ⟨hne, hdec, hlt⟩
    rw [splitSign_of_eq hall, hall] at hv
    rw [hall] at hdec hlt
    exact ⟨s, hs, hdec, hlt, hv⟩

theorem strtoulHex_eq_some {v : Nat} : strtoulHex s = some v ↔
    s = [] ∧ v = 0 ∨ ∃ w, dropHexPrefix (splitSign s).2 ≠ [] ∧
      ofHex (dropHexPrefix (splitSign s).2) = some w ∧ unsignedOf (splitSign s).1 w = some v := by
  cases s with
  | nil => simp [strtoulHex, splitSign, dropHexPrefix, eq_comm]
  | cons c rest =>
    simp only [strtoulHex, if_false, reduceCtorEq, List.isEmpty_iff]
    split
    · next h => simp [h]
    · next h => simp [h, Option.bind_eq_some_iff]

theorem ctlArgU32Hex_eq_ok {v : Nat} : ctlArgU32Hex args key = .ok v ↔
    ∃ s n, ctlArgStr args key 32 = .ok s ∧ s ≠ [] ∧ strtoulHex (dropHexPrefix s) = some n ∧
      v = n % 2 ^ 32 := by
  unfold ctlArgU32Hex
  cases ctlArgStr args key 32 with
  | error st => simp
  | ok s =>
    cases s with
    | nil => simp
    | cons c rest =>
      cases hn : strtoulHex (dropHexPrefix (c :: rest)) with
      | none => simp [hn]
      | some n => simp [hn, eq_comm]

theorem isSome_of_mapM {ds : Bytes} (h : s.mapM hexVal = some ds) :
    ∀ c ∈ s, (hexVal c).isSome = true := by
  induction s generalizing ds with
  | nil =>
    intro c hc
    cases hc
  | cons a s ih =>
    simp only [mapM_cons, Option.bind_eq_bind, Option.bind_eq_some_iff] at h
    obtain ⟨d, hd, ds', hds, -⟩ := h
    intro c hc
    rcases mem_cons.1 hc with rfl | hc
    · rw [hd]
      rfl
    · exact ih hds c hc

theorem splitSign_ofHex {w : Nat} (hs : s ≠ []) (hw : ofHex s = some w) :
    splitSign s = (false, s) ∧ dropHexPrefix s = s := by
  obtain ⟨ds, hds, -⟩ := Option.map_eq_some_iff.1 hw
  have hdigits := isSome_of_mapM hds
  cases s with
  | nil => exact absurd rfl hs
  | cons c rest =>
    refine ⟨splitSign_digit (hdigits c mem_cons_self), ?_⟩
    unfold dropHexPrefix
    split
    · next heq =>
      cases heq
      cases hdigits 0x78 (by simp)
    · next heq =>
      cases heq
      cases hdigits 0x58 (by simp)
    · rfl

theorem u32HexExact_iff :
    U32HexExact args key ↔ ∀ s, ctlArgStr args key 32 = .ok s → ¬ LooseHex s := by
  constructor
  · rintro h s hs (⟨hne, hnil⟩ | ⟨w, hne, hw, hlt, hloose⟩)
    · obtain ⟨s', hs', hne', -⟩ := h 0 (ctlArgU32Hex_eq_ok.2
        ⟨s, 0, hs, hne, strtoulHex_eq_some.2 (.inl ⟨hnil, rfl⟩), rfl⟩)
      cases hs.symm.trans hs'
      exact hne' hnil
    · have hs0 : s ≠ [] := by
        rintro rfl
        exact hne rfl
      obtain ⟨s', hs', hne', hv', hlt'⟩ := h _ (ctlArgU32Hex_eq_ok.2 ⟨s, _, hs, hs0,
        strtoulHex_eq_some.2 (.inr ⟨w, hne, hw, unsignedOf_eq_some.2 ⟨hlt, rfl⟩⟩), rfl⟩)
      cases hs.symm.trans hs'
      -- a value that says what was returned begins with its digits
      obtain ⟨hsplit, hdrop⟩ := splitSign_ofHex hne' hv'
      rw [hsplit, hdrop] at hw hloose
      rw [hw, Option.some.injEq] at hv'
      rw [← hv'] at hlt'
      rcases hloose with hdiff | hbig
      · exact hdiff rfl
      · exact absurd hlt' (Nat.not_lt.2 hbig)
  · intro h v hv
    obtain ⟨s, n, hs, hne, hn, rfl⟩ := ctlArgU32Hex_eq_ok.1 hv
    rcases strtoulHex_eq_some.1 hn with ⟨hnil, -⟩ | ⟨w, hdigits, hw, hn⟩
    · exact absurd (.inl ⟨hne, hnil⟩) (h s hs)
    obtain ⟨hlt, rfl⟩ := unsignedOf_eq_some.1 hn
    have hstrict := fun hl => h s hs (.inr ⟨w, hdigits, hw, hlt, hl⟩)
    have hall := not_not.1 fun hd => hstrict (.inl hd)
    have hsmall : w < 2 ^ 32 := Nat.not_le.1 fun hb => hstrict (.inr hb)
    rw [hall] at hw hdigits
    rw [(splitSign_ofHex hdigits hw).1]
    refine ⟨s, hs, hdigits, ?_, Nat.mod_lt _ (by decide)⟩
    rw [if_neg (by simp), Nat.mod_eq_of_lt hsmall]
    exact hw

/-- **Numbers are exact, but for what `strtoull` and `strtoul` take besides digits.** -/
theorem numbers_exact_iff (args key : Bytes) :
    (U64Exact args key ↔ ∀ s, ctlArgStr args key 32 = .ok s → ¬ LooseDecimal s) ∧
    (U32HexExact args key ↔ ∀ s, ctlArgStr args key 32 = .ok s → ¬ LooseHex s) :=
  ⟨u64Exact_iff, u32HexExact_iff⟩

/-- A node id of minus one is the largest, and a scope in nine digits is nothing. -/
theorem loose_numbers_accepted :
    ctlArgU64 (txt "node=-1") (txt "node") = .ok (2 ^ 64 - 1) ∧
    ctlArgU32Hex (txt "scope=100000000") (txt "scope") = .ok 0 ∧
    ¬ U64Exact (txt "node=-1") (txt "node") ∧
    ¬ U32HexExact (txt "scope=100000000") (txt "scope") := by
  have hnode : ctlArgU64 (txt "node=-1") (txt "node") = .ok (2 ^ 64 - 1) := by decide +kernel
  have hscope : ctlArgU32Hex (txt "scope=100000000") (txt "scope") = .ok 0 := by decide +kernel
  refine ⟨hnode, hscope, fun h => ?_, fun h => ?_⟩
  · obtain ⟨s, hs, hdec, -⟩ := h _ hnode
    cases (show ctlArgStr (txt "node=-1") (txt "node") 32 = .ok (txt "-1") by
      decide +kernel).symm.trans hs
    exact absurd (hdec.2 0x2D (by decide)) (by decide)
  · obtain ⟨s, hs, -, hv, -⟩ := h _ hscope
    cases (show ctlArgStr (txt "scope=100000000") (txt "scope") 32 = .ok (txt "100000000") by
      decide +kernel).symm.trans hs
    exact absurd hv (by decide +kernel)

end SolariNet
