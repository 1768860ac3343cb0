/-
# The type-length-value codec

An SCP payload is a sequence of elements `type : u16 | length : u16 | value`
(`solariTlv.c`).  The reader's cursor is modelled by the bytes not yet read, the writer
by the bytes already written together with its capacity and element count.

Every loop of the source over a payload has the shape

    while ((rc = solariTlvNext(&reader, …)) == SOLARI_OK) …

`readTlvs` is that loop with an empty body: the elements it sees and the status it stops
with.  A loop with a body is then a recursion over the elements seen.
-/
import SolariNet.Wire.Basic

namespace SolariNet

open List

structure Tlv where
  type : UInt16
  value : Bytes
  len_lt : value.length < 65536
  deriving DecidableEq

namespace TlvType

def role : UInt16 := 0x0101
def agentVersion : UInt16 := 0x0102
def hostFqdn : UInt16 := 0x0103
def configEpoch : UInt16 := 0x0104
def reportSession : UInt16 := 0x0105
def crlActivation : UInt16 := 0x0106

end TlvType

/-! ## Reader -/

def solariTlvNext (b : Bytes) : Except Status (Tlv × Bytes) :=
  if b.length = 0 then .error .errTlvEnd
  else if b.length < 4 then .error .errTlvTruncated
  else
    let l := solariGetU16 b 2
    if b.length < 4 + l.toNat then .error .errTlvTruncated
    else .ok (⟨solariGetU16 b 0, slice b 4 l.toNat,
      lt_of_le_of_lt (length_take_le _ _) l.toNat_lt⟩, b.drop (4 + l.toNat))

def Tlv.encode (t : Tlv) : Bytes :=
  solariPutU16 t.type ++ solariPutU16 (UInt16.ofNat t.value.length) ++ t.value

theorem Tlv.length_encode (t : Tlv) : t.encode.length = 4 + t.value.length := by
  simp only [Tlv.encode, length_append, length_solariPutU16]

variable {b rest : Bytes} {ts : List Tlv} {t : Tlv} {w w' : TlvWriter}

theorem eq_encode_of_solariTlvNext (h : solariTlvNext b = .ok (t, rest)) :
    b = t.encode ++ rest := by
  simp only [solariTlvNext, guard_ok] at h
  obtain ⟨-, hhdr, hval, rfl, rfl⟩ := h
  have hlen : (slice b 4 (solariGetU16 b 2).toNat).length = (solariGetU16 b 2).toNat :=
    length_slice (by omega)
  have htype : solariPutU16 (solariGetU16 b 0) = slice b 0 2 := solariPutU16_get (by omega)
  have hl : solariPutU16 (solariGetU16 b 2) = slice b 2 2 := solariPutU16_get (by omega)
  simp only [Tlv.encode, hlen, UInt16.ofNat_toNat, htype, hl, append_assoc]
  rw [slice_append_drop, slice_append_drop b 2 2, slice_append_drop b 0 2, drop_zero]

theorem solariTlvNext_shrinks (h : solariTlvNext b = .ok (t, rest)) : rest.length < b.length := by
  rw [eq_encode_of_solariTlvNext h, length_append, t.length_encode]
  omega

def readTlvsFuel : Nat → Bytes → List Tlv × Status
  | 0, _ => ([], .errTlvEnd)
  | fuel + 1, b =>
    match solariTlvNext b with
    | .error st => ([], st)
    | .ok (t, rest) => (t :: (readTlvsFuel fuel rest).1, (readTlvsFuel fuel rest).2)

def readTlvs (b : Bytes) : List Tlv × Status := readTlvsFuel (b.length + 1) b

theorem readTlvsFuel_eq {m n : Nat} (hm : b.length < m) (hn : b.length < n) :
    readTlvsFuel m b = readTlvsFuel n b := by
  induction m generalizing n b with
  | zero => omega
  | succ m ih =>
    cases n with
    | zero => omega
    | succ n =>
      simp only [readTlvsFuel]
      cases hb : solariTlvNext b with
      | error st => rfl
      | ok r =>
        obtain ⟨t, rest⟩ := r
        have hr := solariTlvNext_shrinks hb
        simp only [ih (show rest.length < m by omega) (show rest.length < n by omega)]

theorem readTlvs_eq (b : Bytes) : readTlvs b = match solariTlvNext b with
      | .error st => ([], st)
      | .ok (t, rest) => (t :: (readTlvs rest).1, (readTlvs rest).2) := by
  rw [readTlvs, readTlvsFuel]
  cases hb : solariTlvNext b with
  | error st => rfl
  | ok r =>
    obtain ⟨t, rest⟩ := r
    have hr := solariTlvNext_shrinks hb
    simp only [readTlvs, readTlvsFuel_eq hr (Nat.lt_succ_self rest.length)]

@[simp] theorem readTlvs_nil : readTlvs [] = ([], .errTlvEnd) := rfl

theorem solariTlvNext_error (h : solariTlvNext b = .error st) :
    st = .errTlvEnd ∧ b = [] ∨ st = .errTlvTruncated := by
  unfold solariTlvNext at h
  split at h
  · next hzero =>
    cases h
    exact .inl ⟨rfl, length_eq_zero_iff.1 hzero⟩
  split at h
  · cases h; exact .inr rfl
  simp only at h
  split at h
  · cases h; exact .inr rfl
  · cases h

theorem readTlvs_status (b : Bytes) :
    (readTlvs b).2 = .errTlvEnd ∨ (readTlvs b).2 = .errTlvTruncated := by
  -- strong induction on the bytes left
  induction hn : b.length using Nat.strong_induction_on generalizing b with
  | _ n ih =>
    rw [readTlvs_eq]
    cases hb : solariTlvNext b with
    | error st => exact (solariTlvNext_error hb).imp_left And.left
    | ok r =>
      obtain ⟨t, rest⟩ := r
      have hr := solariTlvNext_shrinks hb
      exact ih rest.length (hn ▸ hr) rest rfl

/-! ## Writer -/

def Tlv.u8 (type : UInt16) (v : UInt8) : Tlv := ⟨type, [v], by rw [length_singleton]; decide⟩

def Tlv.u16 (type : UInt16) (v : UInt16) : Tlv :=
  ⟨type, solariPutU16 v, by rw [length_solariPutU16]; decide⟩

def Tlv.u32 (type : UInt16) (v : UInt32) : Tlv :=
  ⟨type, solariPutU32 v, by rw [length_solariPutU32]; decide⟩

def Tlv.u64 (type : UInt16) (v : UInt64) : Tlv :=
  ⟨type, solariPutU64 v, by rw [length_solariPutU64]; decide⟩

def encodeTlvs (ts : List Tlv) : Bytes := ts.flatMap Tlv.encode

@[simp] theorem encodeTlvs_nil : encodeTlvs [] = [] := rfl

@[simp] theorem encodeTlvs_cons (t : Tlv) (ts : List Tlv) :
    encodeTlvs (t :: ts) = t.encode ++ encodeTlvs ts := rfl

@[simp] theorem encodeTlvs_append (ts us : List Tlv) :
    encodeTlvs (ts ++ us) = encodeTlvs ts ++ encodeTlvs us := flatMap_append

structure TlvWriter where
  buf : Bytes
  cap : Nat
  count : UInt16

def solariTlvWriterInit (cap : Nat) : TlvWriter := ⟨[], cap, 0⟩

def solariTlvAppend (w : TlvWriter) (t : Tlv) : Except Status TlvWriter :=
  if w.cap < w.buf.length + 4 + t.value.length then .error .errBufferFull
  else .ok { w with buf := w.buf ++ t.encode, count := w.count + 1 }

theorem solariTlvAppend_ok (h : solariTlvAppend w t = .ok w') :
    w'.buf = w.buf ++ t.encode ∧ w'.count = w.count + 1 := by
  obtain ⟨-, h⟩ := guard_ok.1 h
  cases h
  exact ⟨rfl, rfl⟩

def solariTlvAppendAll (w : TlvWriter) (ts : List Tlv) : Except Status TlvWriter :=
  ts.foldlM solariTlvAppend w

theorem solariTlvAppendAll_ok (h : solariTlvAppendAll w ts = .ok w') :
    w'.buf = w.buf ++ encodeTlvs ts := by
  induction ts generalizing w with
  | nil =>
    cases h
    rw [encodeTlvs_nil, append_nil]
  | cons t ts ih =>
    obtain ⟨w₁, ht, h⟩ := bind_ok h
    rw [ih h, (solariTlvAppend_ok ht).1, encodeTlvs_cons, append_assoc]

/-! ## Reading what was written -/

theorem Tlv.toNat_length (t : Tlv) : (UInt16.ofNat t.value.length).toNat = t.value.length :=
  UInt16.toNat_ofNat_of_lt' t.len_lt

theorem solariTlvNext_encode (t : Tlv) (r : Bytes) :
    solariTlvNext (t.encode ++ r) = .ok (t, r) := by
  have h0 : solariGetU16 (t.encode ++ r) 0 = t.type := by
    have h := solariGetU16_append (r := solariPutU16 (UInt16.ofNat t.value.length)
      ++ t.value ++ r) t.type length_nil
    simpa [Tlv.encode] using h
  have h2 : solariGetU16 (t.encode ++ r) 2 = UInt16.ofNat t.value.length := by
    have h := solariGetU16_append (r := t.value ++ r) (UInt16.ofNat t.value.length)
      (length_solariPutU16 t.type)
    simpa [Tlv.encode] using h
  have hv : slice (t.encode ++ r) 4 t.value.length = t.value := by
    have ha : (solariPutU16 t.type ++ solariPutU16 (UInt16.ofNat t.value.length)).length = 4 := by
      simp
    have h := slice_append (r := r) ha (rfl : t.value.length = t.value.length)
    simpa [Tlv.encode] using h
  have hd : (t.encode ++ r).drop (4 + t.value.length) = r := drop_left' t.length_encode
  have hlen : (t.encode ++ r).length = 4 + t.value.length + r.length := by
    rw [length_append, t.length_encode]
  unfold solariTlvNext
  rw [if_neg (by omega), if_neg (by omega)]
  simp only [h0, h2, t.toNat_length]
  rw [if_neg (by omega)]
  simp only [hv, hd]

theorem readTlvs_encodeTlvs_append (ts : List Tlv) (r : Bytes) :
    readTlvs (encodeTlvs ts ++ r) = (ts ++ (readTlvs r).1, (readTlvs r).2) := by
  induction ts with
  | nil => rfl
  | cons t ts ih =>
    rw [encodeTlvs_cons, append_assoc, readTlvs_eq, solariTlvNext_encode]
    simp only [ih, cons_append]

@[simp] theorem readTlvs_encodeTlvs (ts : List Tlv) :
    readTlvs (encodeTlvs ts) = (ts, .errTlvEnd) := by
  have h := readTlvs_encodeTlvs_append ts []
  simpa using h

theorem encodeTlvs_readTlvs (h : (readTlvs b).2 = .errTlvEnd) : encodeTlvs (readTlvs b).1 = b := by
  induction hn : b.length using Nat.strong_induction_on generalizing b with
  | _ n ih =>
    rw [readTlvs_eq] at h ⊢
    cases hb : solariTlvNext b with
    | error st =>
      rw [hb] at h
      cases h
      rcases solariTlvNext_error hb with ⟨-, rfl⟩ | hst
      · rfl
      · cases hst
    | ok r =>
      obtain ⟨t, rest⟩ := r
      rw [hb] at h
      simp only [encodeTlvs_cons]
      rw [ih rest.length (hn ▸ solariTlvNext_shrinks hb) h rfl]
      exact (eq_encode_of_solariTlvNext hb).symm

theorem solariTlvAppendAll_of_fits (h : w.buf.length + (encodeTlvs ts).length ≤ w.cap) :
    ∃ w', solariTlvAppendAll w ts = .ok w' := by
  induction ts generalizing w with
  | nil => exact ⟨w, rfl⟩
  | cons t ts ih =>
    rw [encodeTlvs_cons, length_append, t.length_encode] at h
    have hroom : ¬ w.cap < w.buf.length + 4 + t.value.length := by omega
    have ht : solariTlvAppend w t = .ok { w with buf := w.buf ++ t.encode, count := w.count + 1 } :=
      if_neg hroom
    obtain ⟨w', hw'⟩ := ih (w := { w with buf := w.buf ++ t.encode, count := w.count + 1 }) (by
      simp only [length_append, t.length_encode]
      omega)
    refine ⟨w', ?_⟩
    rw [solariTlvAppendAll, foldlM_cons, ht]
    exact hw'

/-! ## The session of a report

A durable report carries the session of the reporter that framed it.  Reporter and server read it
with the same loop. -/

/-- A report session: the sixteen random bytes of one reporter incarnation. -/
abbrev Session : Type := { b : Bytes // b.length = 16 }

def zeroSession : Session := ⟨List.replicate 16 0, rfl⟩

def asSession (v : Bytes) : Option Session := if h : v.length = 16 then some ⟨v, h⟩ else none

/-- The loop that collects the one report session of a payload: a second one, or one of
another size, is refused. -/
def scanSession : Option Session → List Tlv → Except Status (Option Session)
  | found, [] => .ok found
  | found, t :: ts =>
    if t.type ≠ TlvType.reportSession then scanSession found ts
    else match found, asSession t.value with
      | none, some s => scanSession (some s) ts
      | _, _ => .error .errInvalidArg

def sessionValues (ts : List Tlv) : List Bytes :=
  (ts.filter fun t => t.type = TlvType.reportSession).map Tlv.value

def sessionTlv (s : Session) : Tlv := ⟨TlvType.reportSession, s.val, by rw [s.property]; decide⟩

variable {ts : List Tlv}

theorem sessionValues_cons_of_ne (h : t.type ≠ TlvType.reportSession) :
    sessionValues (t :: ts) = sessionValues ts := by
  simp [sessionValues, h]

theorem sessionValues_cons_of_eq (h : t.type = TlvType.reportSession) :
    sessionValues (t :: ts) = t.value :: sessionValues ts := by
  simp [sessionValues, h]

theorem asSession_eq_some : asSession v = some s ↔ v = s.val := by
  unfold asSession
  constructor
  · intro h
    split at h
    · cases h; rfl
    · cases h
  · intro h
    subst h
    rw [dif_pos s.property]

theorem scanSession_ok {found r : Option Session} : scanSession found ts = .ok r ↔
    found.toList.map Subtype.val ++ sessionValues ts = r.toList.map Subtype.val := by
  induction ts generalizing found with
  | nil => cases found <;> cases r <;> simp [scanSession, sessionValues, Subtype.ext_iff]
  | cons t ts ih =>
    by_cases ht : t.type = TlvType.reportSession
    · rw [sessionValues_cons_of_eq ht]
      simp only [scanSession, ht]
      cases found with
      | some s => cases r <;> simp
      | none =>
        cases ha : asSession t.value with
        | some s => simp [ih, asSession_eq_some.1 ha]
        | none =>
          cases r with
          | none => simp
          | some s =>
            suffices t.value ≠ s.val by simp [this]
            intro hv
            rw [asSession_eq_some.2 hv] at ha
            cases ha
    · simp only [scanSession, ne_eq, ht, not_false_eq_true, if_true, ih,
        sessionValues_cons_of_ne ht]

theorem scanSession_none :
    scanSession none ts = .ok (some s) ↔ sessionValues ts = [s.val] := scanSession_ok

end SolariNet
