/-
# Integers in pushed configuration

`solariJsonGetU64` (`solariJson.c`) looks for `"key" :` outside of strings and reads the digits
behind it, after one quote if there is one.  Each digit takes the number from `v` to `10 v + d` in
64 bits, and the text is refused when that is less than `v`.  Ten times a number can pass 2⁶⁴ and
still come out above it, so not every overflow is seen.
-/
import SolariNet.Lib.Text
import SolariNet.Wire.Msg

namespace SolariNet

open List Lib

def jsonBlank (c : UInt8) : Bool := c == 0x20 || c == 0x09 || c == 0x0D || c == 0x0A

/-- Behind a quote: the text from the value on, if the quote begins the key. -/
def jsonAtKey (key s : Bytes) : Option Bytes :=
  if (key ++ [0x22]).isPrefixOf s then
    match (s.drop (key.length + 1)).dropWhile jsonBlank with
    | [] => none
    | c :: s => if c == 0x3A then some (s.dropWhile jsonBlank) else none
  else none

/-- The loop of `jsonFindValue`, on the text from its index on. -/
def jsonScan (key : Bytes) : Bool → Bytes → Option Bytes
  | _, [] => none
  | inStr, c :: s =>
    if s.length ≤ key.length then none
    else if inStr then
      if c == 0x5C then
        match s with
        | [] => none
        | _ :: s => jsonScan key true s
      else jsonScan key (c != 0x22) s
    else if c == 0x22 then
      match jsonAtKey key s with
      | some [] => none
      | some v => some v
      | none => jsonScan key true s
    else jsonScan key false s

def jsonFindValue (json key : Bytes) : Option Bytes :=
  if key = [] ∨ key.length + 2 > json.length then none else jsonScan key false json

def jsonDigits (v : UInt64) (any : Bool) : Bytes → Except Status UInt64
  | [] => if any then .ok v else .error .errUnknownMsg
  | c :: s =>
    if isDecimal c then
      let nv := v * 10 + (c - 0x30).toUInt64
      if nv < v then .error .errInvalidArg else jsonDigits nv true s
    else if any then .ok v else .error .errUnknownMsg

def jsonUnquote (s : Bytes) : Bytes := if s.head? = some 0x22 then s.tail else s

def solariJsonGetU64 (json key : Bytes) : Except Status UInt64 :=
  match jsonFindValue json key with
  | none => .error .errUnknownMsg
  | some s => jsonDigits 0 false (jsonUnquote s)

/-- Behind the digits of `n`, some digit of `s` makes the number less modulo 2⁶⁴. -/
def wrapsDown : Nat → Bytes → Bool
  | _, [] => false
  | n, c :: s => pushDigits n [c] % 2 ^ 64 < n % 2 ^ 64 || wrapsDown (pushDigits n [c]) s

theorem not_wrapsDown (h : pushDigits n s < 2 ^ 64) : wrapsDown n s = false := by
  induction s generalizing n with
  | nil => rfl
  | cons c s ih =>
    have h : pushDigits (pushDigits n [c]) s < 2 ^ 64 := h
    have hle := le_pushDigits (pushDigits n [c]) s
    have hn := le_pushDigits n [c]
    rw [wrapsDown, ih h, Nat.mod_eq_of_lt (by omega), Nat.mod_eq_of_lt (by omega)]
    simpa using hn

theorem ofNat_digit : ∀ c : UInt8, isDecimal c = true →
    (c - 0x30).toUInt64 = .ofNat (c.toNat - 48) := forall_byte (by decide +kernel)

theorem jsonDigits_eq (n : Nat) (any : Bool) (s : Bytes)
    (h : any = true ∨ s.takeWhile isDecimal ≠ []) :
    jsonDigits (.ofNat n) any s = if wrapsDown n (s.takeWhile isDecimal) then .error .errInvalidArg
      else .ok (.ofNat (pushDigits n (s.takeWhile isDecimal))) := by
  induction s generalizing n any with
  | nil => rw [h.resolve_right (· rfl)]; rfl
  | cons c s ih =>
    by_cases hc : isDecimal c = true
    · have hnv : UInt64.ofNat n * 10 + (c - 0x30).toUInt64 = .ofNat (pushDigits n [c]) := by
        rw [ofNat_digit c hc]
        exact (congrArg (· + _) (UInt64.ofNat_mul n 10).symm).trans (UInt64.ofNat_add _ _).symm
      have hlt : UInt64.ofNat (pushDigits n [c]) < UInt64.ofNat n ↔
          pushDigits n [c] % 2 ^ 64 < n % 2 ^ 64 := by
        rw [UInt64.lt_iff_toNat_lt, UInt64.toNat_ofNat', UInt64.toNat_ofNat']
      rw [jsonDigits, if_pos hc, takeWhile_cons_of_pos hc, wrapsDown, hnv]
      by_cases hw : pushDigits n [c] % 2 ^ 64 < n % 2 ^ 64
      · rw [if_pos (hlt.2 hw), decide_eq_true hw]
        rfl
      · rw [if_neg (mt hlt.1 hw), decide_eq_false hw, ih _ _ (.inl rfl)]
        rfl
    · rw [takeWhile_cons_of_neg hc] at h ⊢
      rw [h.resolve_right (· rfl), jsonDigits, if_neg hc]
      rfl

/-- The number written is what is read; a larger one than 64 bits hold is refused. -/
def ReadsExactly (n : Nat) (r : Except Status UInt64) : Prop :=
  if n < 2 ^ 64 then r = .ok (.ofNat n) else ∃ e, r = .error e

/-- **Integers are read exactly** as long as they are below 2⁶⁴ or one of their digits makes the
number less modulo 2⁶⁴. -/
theorem integers_exact_iff (hv : jsonFindValue json key = some v)
    (hd : (jsonUnquote v).takeWhile isDecimal ≠ []) :
    let ds := (jsonUnquote v).takeWhile isDecimal
    ReadsExactly (ofDecimal ds) (solariJsonGetU64 json key) ↔
      ofDecimal ds < 2 ^ 64 ∨ wrapsDown 0 ds = true := by
  intro ds
  have hread : solariJsonGetU64 json key = if wrapsDown 0 ds then .error .errInvalidArg
      else .ok (.ofNat (ofDecimal ds)) := by
    rw [solariJsonGetU64, hv]
    exact jsonDigits_eq 0 false _ (.inr hd)
  unfold ReadsExactly
  by_cases hlt : ofDecimal ds < 2 ^ 64
  · rw [if_pos hlt, hread, not_wrapsDown hlt]
    exact iff_of_true rfl (.inl hlt)
  rw [if_neg hlt, or_iff_right hlt, hread]
  cases wrapsDown 0 ds with
  | false => exact iff_of_false (fun ⟨e, h⟩ => nomatch h) Bool.false_ne_true
  | true => exact iff_of_true ⟨_, rfl⟩ rfl

/-- A configuration with one integer. -/
def intervalBlob (n : String) : Bytes :=
  textBytes "\x7b\"sampleIntervalSec\": ".toList ++ textBytes n.toList ++ [0x7D]

def intervalKey : Bytes := textBytes "sampleIntervalSec".toList

theorem interval_exact : ReadsExactly 15 (solariJsonGetU64 (intervalBlob "15") intervalKey) :=
  (integers_exact_iff (v := textBytes "15\x7d".toList) (by decide +kernel) (by decide)).2
    (.inl (by decide))

/-- A number above 2⁶⁴ is read as a tenth of it. -/
theorem overflow_unseen :
    jsonFindValue (intervalBlob "20496382304121724017") intervalKey =
      some (textBytes "20496382304121724017\x7d".toList) ∧
    ¬ ReadsExactly 20496382304121724017
      (solariJsonGetU64 (intervalBlob "20496382304121724017") intervalKey) := by
  have h : solariJsonGetU64 (intervalBlob "20496382304121724017") intervalKey =
      .ok 2049638230412172401 := by decide +kernel
  refine ⟨by decide +kernel, ?_⟩
  rw [h, ReadsExactly, if_neg (by omega)]
  exact fun ⟨e, he⟩ => nomatch he

end SolariNet
