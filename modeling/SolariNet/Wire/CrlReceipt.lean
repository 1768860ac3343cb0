/-
# The CRL activation receipt

A report may carry a receipt `issuerFp:number:crlFp` that says which revocation list the
node has activated.  `activate_crl.py` writes it into a file next to the CA bundle, the reporter
reads it from there (`reporterReadCrlReceipt`) and the server from the payload
(`serverIngestParseCrlActivation`).  The two readers were written apart: only one of them bounds the
number of digits, and they differ in where they look for a leading zero.
-/
import SolariNet.Lib.Text
import SolariNet.Wire.Tlv

namespace SolariNet

open List hiding Vector

def colon : UInt8 := 0x3A

/-- `strlen` of what stands in a buffer in front of the zero byte that ends it. -/
def strlen (buffer : Bytes) : Nat := (buffer.takeWhile (· ≠ 0)).length

def strchr (buffer : Bytes) (c : UInt8) : Option Nat := (buffer.takeWhile (· ≠ 0)).idxOf? c

def lowerHex (s : Bytes) : Bool :=
  s.all fun c => (0x30 ≤ c && c ≤ 0x39) || (0x61 ≤ c && c ≤ 0x66)

def readDigits (number : Nat) : Bytes → Option Nat
  | [] => some number
  | c :: cs =>
    if c < 0x30 ∨ 0x39 < c then none
    else if (2 ^ 64 - 1 - (c.toNat - 0x30)) / 10 < number then none
    else readDigits (number * 10 + (c.toNat - 0x30)) cs

def reporterCheckReceipt (buffer : Bytes) : Option Unit := do
  let first ← strchr buffer colon
  guard (first = 64)
  let gap ← strchr (buffer.drop (first + 1)) colon
  let second := first + 1 + gap
  let crl := buffer.drop (second + 1)
  guard (2 ≤ second - first ∧ strlen crl = 64 ∧ strchr crl colon = none)
  guard (lowerHex (buffer.take 64) ∧ lowerHex (crl.take 64))
  let digits := second - (first + 1)
  let number ← readDigits 0 ((buffer.drop (first + 1)).take digits)
  guard (digits ≠ 0 ∧ number ≠ 0 ∧ ¬ (1 < digits ∧ buffer[first + 1]? = some 0x30))

def reporterReadCrlReceipt (file : Option Bytes) : Bytes :=
  match file with
  | none => []
  | some c =>
    if c.length < 132 ∨ 151 < c.length ∨ c.getLast? ≠ some 0x0A then []
    else if (reporterCheckReceipt c.dropLast).isSome then c.dropLast
    else []

theorem length_reporterReadCrlReceipt (file : Option Bytes) :
    (reporterReadCrlReceipt file).length < 65536 := by
  unfold reporterReadCrlReceipt
  split
  · simp
  split
  · simp
  next c hc =>
  split
  · simp only [length_dropLast]
    omega
  · simp

structure CrlReceipt where
  issuerFp : Bytes
  crlNumber : Nat
  crlFp : Bytes

def serverIngestCheckReceipt (text : Bytes) : Option CrlReceipt := do
  let first ← strchr text colon
  guard (first = 64)
  let gap ← strchr (text.drop (first + 1)) colon
  let second := first + 1 + gap
  let crl := text.drop (second + 1)
  guard (2 ≤ second - first ∧ strlen crl = 64 ∧ strchr crl colon = none)
  let digits := second - first - 1
  guard (digits ≤ 20 ∧ lowerHex (text.take 64) ∧ lowerHex (crl.take 64) ∧
    ¬ (1 < digits ∧ text[first + 1]? = some 0x30))
  let number ← readDigits 0 ((text.drop (first + 1)).take digits)
  guard (number ≠ 0)
  return ⟨text.take 64, number, crl.take 64⟩

def scanCrl : Option CrlReceipt → List Tlv → Except Status (Option CrlReceipt)
  | found, [] => .ok found
  | found, t :: ts =>
    if t.type ≠ TlvType.crlActivation then scanCrl found ts
    else if found.isSome ∨ t.value.length < 131 ∨ 150 < t.value.length then .error .errInvalidArg
    else match serverIngestCheckReceipt t.value with
      | none => .error .errInvalidArg
      | some r => scanCrl (some r) ts

def serverIngestParseCrlActivation (payload : Bytes) : Except Status (Option CrlReceipt) :=
  match scanCrl none (readTlvs payload).1 with
  | .error st => .error st
  | .ok found =>
    if (readTlvs payload).2 = .errTlvEnd then .ok found else .error (readTlvs payload).2

def hexDigest (h : Vector UInt8 32) : Bytes :=
  h.toList.flatMap fun (b : UInt8) =>
    [b >>> 4, b &&& 0xF].map fun n => if n < 10 then 0x30 + n else 0x57 + n

/-- The receipt that `_activate_locked` writes, `issuer` and `der` being certificate and list in
DER. -/
def activationReceipt (sha256 : Bytes → Vector UInt8 32) (issuer : Bytes) (number : Nat)
    (der : Bytes) : Bytes :=
  hexDigest (sha256 issuer) ++ colon :: (Lib.decimal number ++ colon :: hexDigest (sha256 der)) ++
    [0x0A]

/-! ## Digits -/

variable {cs s text : Bytes} {gap n : Nat}

theorem le_readDigits {r : Nat} (h : readDigits n cs = some r) (hn : n < 2 ^ 64) :
    n * 10 ^ cs.length ≤ r ∧ r < 2 ^ 64 := by
  induction cs generalizing n with
  | nil =>
    cases h
    simpa using hn
  | cons c cs ih =>
    rw [readDigits] at h
    split at h
    · cases h
    split at h
    · cases h
    have hbyte := c.toNat_lt
    have := ih h (by omega)
    refine ⟨le_trans ?_ this.1, this.2⟩
    rw [length_cons, pow_succ', ← mul_assoc]
    exact Nat.mul_le_mul_right _ (Nat.le_add_right _ _)

theorem length_le_of_readDigits (h : readDigits 0 cs = some n) (hzero : cs.head? ≠ some 0x30) :
    cs.length ≤ 20 := by
  cases cs with
  | nil => exact Nat.zero_le 20
  | cons c cs =>
    rw [readDigits] at h
    split at h
    · cases h
    next hc =>
    have hpos : 1 ≤ c.toNat - 0x30 := by
      simp only [UInt8.lt_iff_toNat_lt, head?_cons, ne_eq, Option.some.injEq,
        ← UInt8.toNat_inj] at hc hzero
      have : (0x30 : UInt8).toNat = 48 := rfl
      omega
    have hbyte := c.toNat_lt
    simp only [Nat.zero_mul, Nat.zero_add] at h
    have hle := le_readDigits h (by omega)
    have : 10 ^ cs.length < 10 ^ 20 := by
      have := Nat.mul_le_mul_right (10 ^ cs.length) hpos
      omega
    exact (Nat.pow_lt_pow_iff_right (by decide)).1 this

theorem readDigits_eq (hcs : ∀ c ∈ cs, Lib.isDecimal c = true)
    (h : Lib.pushDigits n cs < 2 ^ 64) : readDigits n cs = some (Lib.pushDigits n cs) := by
  induction cs generalizing n with
  | nil => rfl
  | cons c cs ih =>
    have hc := hcs c mem_cons_self
    have hfit := (Lib.le_pushDigits (n * 10 + (c.toNat - 48)) cs).trans_lt h
    rw [readDigits, if_neg, if_neg, ih (fun d hd => hcs d (mem_cons_of_mem _ hd)) h]
    · rfl
    · omega
    · simp only [Lib.isDecimal] at hc
      simpa using hc

theorem head?_decimal (hn : n ≠ 0) : (Lib.decimal n).head? ≠ some 0x30 := by
  intro h
  rw [Lib.decimal, if_neg hn, head?_reverse, getLast?_map,
    getLast?_eq_getLast_of_ne_nil (Nat.digits_ne_nil_iff_ne_zero.2 hn), Option.map_some] at h
  have hd := Nat.digits_lt_base (b := 10) (by decide)
    (getLast_mem (Nat.digits_ne_nil_iff_ne_zero.2 hn))
  have hz := (Lib.isDecimal_digit hd).2
  rw [Option.some.inj h] at hz
  exact Nat.getLast_digit_ne_zero 10 hn hz.symm

/-! ## The readers -/

/-- What both readers ask of a text: `gap` bytes between its colons, which are no number with a
leading zero, and hexadecimal digits around them. -/
structure ReceiptMarks (text : Bytes) (gap : Nat) : Prop where
  first : strchr text colon = some 64
  second : strchr (text.drop (64 + 1)) colon = some gap
  filled : gap ≠ 0
  last : strlen (text.drop (64 + 1 + gap + 1)) = 64 ∧
    strchr (text.drop (64 + 1 + gap + 1)) colon = none
  hex : lowerHex (text.take 64) ∧ lowerHex ((text.drop (64 + 1 + gap + 1)).take 64)
  plain : ¬ (1 < gap ∧ text[64 + 1]? = some 0x30)

theorem guard_eq_some {p : Prop} [Decidable p] : guard p = some u ↔ p := by
  by_cases h : p <;> simp

theorem reporterCheckReceipt_eq_some (text : Bytes) :
    reporterCheckReceipt text = some () ↔ ∃ gap n, ReceiptMarks text gap ∧
      readDigits 0 ((text.drop (64 + 1)).take gap) = some n ∧ n ≠ 0 := by
  simp only [reporterCheckReceipt, Option.bind_eq_bind, Option.bind_eq_some_iff, guard_eq_some,
    Nat.add_sub_cancel_left]
  constructor
  · rintro ⟨_, hfirst, -, rfl, gap, hsecond, -, ⟨-, hlast⟩, -, hhex, n, hn, hz, h0, hplain⟩
    exact ⟨gap, n, ⟨hfirst, hsecond, hz, hlast, hhex, hplain⟩, hn, h0⟩
  · rintro ⟨gap, n, ⟨hfirst, hsecond, hz, hlast, hhex, hplain⟩, hn, h0⟩
    exact ⟨64, hfirst, (), rfl, gap, hsecond, (), ⟨by omega, hlast⟩, (), hhex, n, hn,
      hz, h0, hplain⟩

theorem serverIngestCheckReceipt_eq_some (text : Bytes) (r : CrlReceipt) :
    serverIngestCheckReceipt text = some r ↔ ∃ gap n, ReceiptMarks text gap ∧
      readDigits 0 ((text.drop (64 + 1)).take gap) = some n ∧ n ≠ 0 ∧ gap ≤ 20 ∧
      ⟨text.take 64, n, (text.drop (64 + 1 + gap + 1)).take 64⟩ = r := by
  simp only [serverIngestCheckReceipt, Option.bind_eq_bind, Option.bind_eq_some_iff, guard_eq_some,
    Nat.sub_sub, Nat.add_sub_cancel_left, Option.pure_def, Option.some.injEq]
  constructor
  · rintro ⟨_, hfirst, -, rfl, gap, hsecond, -, ⟨h2, hlast⟩, -,
      ⟨h20, hhex, hhex', hplain⟩, n, hn, -,
      h0, hr⟩
    exact ⟨gap, n, ⟨hfirst, hsecond, by omega, hlast, ⟨hhex, hhex'⟩, hplain⟩, hn, h0, h20, hr⟩
  · rintro ⟨gap, n, ⟨hfirst, hsecond, hz, hlast, ⟨hhex, hhex'⟩, hplain⟩, hn, h0, h20, hr⟩
    exact ⟨64, hfirst, (), rfl, gap, hsecond, (), ⟨by omega, hlast⟩, (), ⟨h20, hhex, hhex', hplain⟩,
      n, hn, (), h0, hr⟩

theorem ReceiptMarks.gap_lt (h : ReceiptMarks text gap) : gap < (text.drop (64 + 1)).length := by
  obtain ⟨hlt, -⟩ := findIdx?_eq_some_iff_getElem.1 h.second
  exact hlt.trans_le (takeWhile_sublist _).length_le

theorem ReceiptMarks.gap_le (h : ReceiptMarks text gap)
    (hn : readDigits 0 ((text.drop (64 + 1)).take gap) = some n) : gap ≤ 20 := by
  rcases Nat.lt_or_ge 1 gap with h1 | h1
  · have := length_le_of_readDigits hn ?_
    · rwa [length_take_of_le h.gap_lt.le] at this
    · rw [head?_take, if_neg h.filled, head?_drop]
      exact fun hz => h.plain ⟨h1, hz⟩
  · omega

theorem readers_agree (text : Bytes) :
    reporterCheckReceipt text = some () ↔ ∃ r, serverIngestCheckReceipt text = some r := by
  simp only [reporterCheckReceipt_eq_some, serverIngestCheckReceipt_eq_some]
  constructor
  · rintro ⟨gap, n, h, hn, h0⟩
    exact ⟨_, gap, n, h, hn, h0, h.gap_le hn, rfl⟩
  · rintro ⟨-, gap, n, h, hn, h0, -, -⟩
    exact ⟨gap, n, h, hn, h0⟩

/-! ## What is written -/

def Plain (s : Bytes) : Prop := ∀ c ∈ s, c ≠ 0 ∧ c ≠ colon

theorem strchr_append (hs : Plain s) (rest : Bytes) :
    strchr (s ++ colon :: rest) colon = some s.length := by
  rw [strchr, takeWhile_append_of_pos fun c hc => decide_eq_true (hs c hc).1,
    takeWhile_cons_of_pos (by decide), idxOf?, findIdx?_append,
    findIdx?_eq_none_iff.2 fun c hc => beq_eq_false_iff_ne.2 (hs c hc).2]
  simp [findIdx?_cons]

theorem strchr_plain (hs : Plain s) : strlen s = s.length ∧ strchr s colon = none := by
  have h := takeWhile_eq_self_iff.2 fun c hc => decide_eq_true (hs c hc).1
  rw [strlen, strchr, h]
  exact ⟨rfl, findIdx?_eq_none_iff.2 fun c hc => beq_eq_false_iff_ne.2 (hs c hc).2⟩

theorem plain_of_lowerHex (hs : lowerHex s = true) : Plain s := by
  intro c hc
  exact Lib.forall_byte (P := fun c => lowerHex [c] = true → c ≠ 0 ∧ c ≠ colon)
    (by decide +kernel) c
    (all_eq_true.2 fun d hd => mem_singleton.1 hd ▸ all_eq_true.1 hs c hc)

theorem plain_decimal (n : Nat) : Plain (Lib.decimal n) := fun c hc =>
  Lib.forall_byte (P := fun c => Lib.isDecimal c = true → c ≠ 0 ∧ c ≠ colon) (by decide +kernel) c
    (Lib.isDecimal_of_mem hc)

theorem lowerHex_hexDigest (h : Vector UInt8 32) : lowerHex (hexDigest h) = true := by
  rw [lowerHex, hexDigest, all_flatMap]
  exact all_eq_true.2 fun b _ => Lib.forall_byte
    (P := fun b => lowerHex ([b >>> 4, b &&& 0xF].map fun n =>
    if n < 10 then 0x30 + n else 0x57 + n) = true) (by decide +kernel) b

theorem length_hexDigest (h : Vector UInt8 32) : (hexDigest h).length = 64 := by
  simp [hexDigest]

theorem serverIngestCheckReceipt_written (ha : lowerHex a = true)
    (hb : lowerHex b = true) (hds : Plain ds) (ha' : a.length = 64) (hb' : b.length = 64)
    (hne : ds ≠ []) (hzero : ds.head? ≠ some 0x30) (hn : readDigits 0 ds = some n) (h0 : n ≠ 0) :
    serverIngestCheckReceipt (a ++ colon :: (ds ++ colon :: b)) = some ⟨a, n, b⟩ := by
  have htail : (a ++ colon :: (ds ++ colon :: b)).drop (64 + 1) = ds ++ colon :: b := by
    rw [append_cons, drop_left' (by simp [ha'])]
  have hlast : (a ++ colon :: (ds ++ colon :: b)).drop (64 + 1 + ds.length + 1) = b := by
    rw [Nat.add_assoc, ← drop_drop, htail, append_cons, drop_left' (by simp)]
  have htake : (a ++ colon :: (ds ++ colon :: b)).take 64 = a := by rw [← ha', take_left]
  rw [serverIngestCheckReceipt_eq_some]
  refine ⟨ds.length, n, ⟨?_, ?_, fun h => hne (length_eq_zero_iff.1 h), ?_, ⟨?_, ?_⟩,
    fun h => hzero ?_⟩, ?_, h0, length_le_of_readDigits hn hzero, ?_⟩
  · rw [strchr_append (plain_of_lowerHex ha), ha']
  · rw [htail, strchr_append hds]
  · rw [hlast, ← hb']
    exact strchr_plain (plain_of_lowerHex hb)
  · rwa [htake]
  · rwa [hlast, ← hb', take_length]
  · rw [← h.2, ← head?_drop, htail, head?_append_of_ne_nil _ hne]
  · rwa [htail, take_left]
  · rw [htake, hlast, ← hb', take_length]

def ServerReads (text : Bytes) (r : CrlReceipt) : Prop :=
  ∃ t : Tlv, t.type = TlvType.crlActivation ∧ t.value = text ∧
    serverIngestParseCrlActivation (encodeTlvs [t]) = .ok (some r)

theorem serverReads_iff (text : Bytes) (r : CrlReceipt) : ServerReads text r ↔
    131 ≤ text.length ∧ text.length ≤ 150 ∧ serverIngestCheckReceipt text = some r := by
  have key : ∀ t : Tlv, t.type = TlvType.crlActivation →
      (serverIngestParseCrlActivation (encodeTlvs [t]) = .ok (some r) ↔
        131 ≤ t.value.length ∧ t.value.length ≤ 150 ∧
          serverIngestCheckReceipt t.value = some r) := by
    intro t ht
    rw [serverIngestParseCrlActivation, readTlvs_encodeTlvs, scanCrl]
    by_cases hlen : t.value.length < 131 ∨ 150 < t.value.length
    · simp [ht, hlen]
      omega
    rw [not_or, Nat.not_lt, Nat.not_lt] at hlen
    cases hr : serverIngestCheckReceipt t.value <;>
      simp [ht, hlen, scanCrl, Nat.not_lt.2 hlen.1, Nat.not_lt.2 hlen.2]
  constructor
  · rintro ⟨t, ht, rfl, h⟩
    exact (key t ht).1 h
  · intro h
    exact ⟨⟨TlvType.crlActivation, text, by omega⟩, rfl, rfl, (key _ rfl).2 h⟩

/-- **Agents and server agree on CRL receipts.** The reporter sends a text exactly if its file is
that text and a newline and the server accepts it; and what `activate_crl.py` writes is sent and
read as written. -/
theorem crl_receipts_agree (sha256 : Bytes → Vector UInt8 32) :
    (∀ content text, text ≠ [] → (reporterReadCrlReceipt (some content) = text ↔
      content = text ++ [0x0A] ∧ ∃ r, ServerReads text r)) ∧
    ∀ issuer number der, 1 ≤ number → number ≤ 2 ^ 64 - 1 →
      ∃ text, activationReceipt sha256 issuer number der = text ++ [0x0A] ∧
        reporterReadCrlReceipt (some (activationReceipt sha256 issuer number der)) = text ∧
        ServerReads text ⟨hexDigest (sha256 issuer), number, hexDigest (sha256 der)⟩ := by
  have hread : ∀ content text, text ≠ [] → (reporterReadCrlReceipt (some content) = text ↔
      content = text ++ [0x0A] ∧ ∃ r, ServerReads text r) := by
    intro content text hne
    simp only [serverReads_iff, reporterReadCrlReceipt]
    constructor
    · intro h
      split at h
      · cases hne h.symm
      next hc =>
      split at h
      · next hok =>
        obtain ⟨r, hr⟩ := (readers_agree _).1 (Option.isSome_iff_exists.1 hok).choose_spec
        subst h
        simp only [not_or, not_not] at hc
        refine ⟨(dropLast_append_getLast? _ hc.2.2).symm, r, ?_, ?_, hr⟩ <;>
          rw [length_dropLast] <;> omega
      · cases hne h.symm
    · rintro ⟨rfl, r, hlo, hhi, hr⟩
      rw [if_neg, dropLast_concat, (readers_agree text).2 ⟨r, hr⟩]
      · rfl
      · simp only [length_append, length_singleton, getLast?_concat, ne_eq, not_true, or_false]
        omega
  refine ⟨hread, fun issuer number der hpos hmax => ?_⟩
  have hn := readDigits_eq (n := 0) fun c (hc : c ∈ Lib.decimal number) => Lib.isDecimal_of_mem hc
  rw [← Lib.ofDecimal, Lib.ofDecimal_decimal] at hn
  have hcheck := serverIngestCheckReceipt_written (lowerHex_hexDigest (sha256 issuer))
    (lowerHex_hexDigest (sha256 der)) (plain_decimal number) (length_hexDigest _)
    (length_hexDigest _) (Lib.decimal_ne_nil number) (head?_decimal (by omega)) (hn (by omega))
    (by omega)
  have hlen := length_le_of_readDigits (hn (by omega)) (head?_decimal (by omega))
  have hpos := length_pos_of_ne_nil (Lib.decimal_ne_nil number)
  have hreads := (serverReads_iff _ _).2 ⟨?_, ?_, hcheck⟩
  · exact ⟨_, rfl, (hread _ _ (by simp)).2 ⟨rfl, _, hreads⟩, hreads⟩
  all_goals
    simp only [length_append, length_cons, length_hexDigest]
    omega

/-- The SHA-256 digest of the empty text. -/
def emptyDigest : Vector UInt8 32 :=
  #v[0xE3, 0xB0, 0xC4, 0x42, 0x98, 0xFC, 0x1C, 0x14, 0x9A, 0xFB, 0xF4, 0xC8, 0x99, 0x6F, 0xB9, 0x24,
    0x27, 0xAE, 0x41, 0xE4, 0x64, 0x9B, 0x93, 0x4C, 0xA4, 0x95, 0x99, 0x1B, 0x78, 0x52, 0xB8, 0x55]

theorem crl_receipts_agree_seventh : ∃ text,
    activationReceipt (fun _ => emptyDigest) [] 7 [] = text ++ [0x0A] ∧
      reporterReadCrlReceipt (some (activationReceipt (fun _ => emptyDigest) [] 7 [])) = text ∧
      ServerReads text ⟨hexDigest emptyDigest, 7, hexDigest emptyDigest⟩ :=
  (crl_receipts_agree fun _ => emptyDigest).2 [] 7 [] (by decide) (by decide)

end SolariNet
