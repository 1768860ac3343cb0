/-
# Status codes, byte strings and protocol constants

The vocabulary that every other module shares: the central status enumeration
(`solariError.h`), byte strings, the big-endian accessors of `solariEndian.h`, the message
types, flags and TLV types of the SCP wire protocol, and the node roles.

A C function that fills output parameters and returns a `solariStatus` becomes an
`Except Status` of its outputs; one that only returns a status becomes a `Status`.
-/
import SolariNet.Lib.BigEndian

namespace SolariNet

open List Lib

/-- `solariStatus`: `SOLARI_OK` or one of the codes of `solariError.h`. -/
inductive Status where
  | ok
  | errInvalidArg
  | errBufferFull
  | errFrameIncomplete
  | errFrameBadMagic
  | errFrameBadCrc
  | errProtoVersion
  | errFrameBadEnvelope
  | errTlvEnd
  | errTlvTruncated
  | errConnRetry
  | errConnFatal
  | errTls
  | errAuthRole
  | errDb
  | errLeaseLost
  | errUnknownMsg
  | errRejected
  | errPlatform
  deriving DecidableEq, Repr, Inhabited

/-- The code without its sign. -/
def Status.code : Status → Nat
  | .ok => 0
  | .errInvalidArg => 1
  | .errBufferFull => 2
  | .errFrameIncomplete => 10
  | .errFrameBadMagic => 11
  | .errFrameBadCrc => 12
  | .errProtoVersion => 13
  | .errFrameBadEnvelope => 14
  | .errTlvEnd => 20
  | .errTlvTruncated => 21
  | .errConnRetry => 30
  | .errConnFatal => 31
  | .errTls => 32
  | .errAuthRole => 40
  | .errDb => 50
  | .errLeaseLost => 51
  | .errUnknownMsg => 60
  | .errRejected => 61
  | .errPlatform => 70

abbrev Bytes : Type := List UInt8

/-- A C string, as its characters before the terminating zero. -/
abbrev CStr : Type := List Char

/-- Membership in a list of texts is decided with the equality of texts. -/
instance lawfulBEqCStr : LawfulBEq (List Char) := inferInstance

inductive Role where
  | client
  | monitor
  | server
  deriving DecidableEq, Repr, Inhabited

theorem bind_ok {ε α β : Type} {x : Except ε α} {f : α → Except ε β} {b : β}
    (h : (x >>= f) = .ok b) : ∃ a, x = .ok a ∧ f a = .ok b := by
  cases x with
  | error e => cases h
  | ok a => exact ⟨a, rfl, h⟩

theorem guard_ok {ε α : Type} {c : Prop} [Decidable c] {e : ε} {x : Except ε α} {a : α} :
    (if c then .error e else x) = .ok a ↔ ¬ c ∧ x = .ok a := by
  split <;> simp [*]

/-! ## Big-endian accessors (`solariEndian.h`) -/

def solariPutU16 (v : UInt16) : Bytes := toBytes 2 v.toNat
def solariPutU32 (v : UInt32) : Bytes := toBytes 4 v.toNat
def solariPutU64 (v : UInt64) : Bytes := toBytes 8 v.toNat

def slice (b : Bytes) (off w : Nat) : Bytes := (b.drop off).take w

def solariGetU16 (b : Bytes) (off : Nat) : UInt16 := UInt16.ofNat (ofBytes (slice b off 2))
def solariGetU32 (b : Bytes) (off : Nat) : UInt32 := UInt32.ofNat (ofBytes (slice b off 4))
def solariGetU64 (b : Bytes) (off : Nat) : UInt64 := UInt64.ofNat (ofBytes (slice b off 8))

@[simp] theorem length_solariPutU16 (v : UInt16) : (solariPutU16 v).length = 2 :=
  length_toBytes 2 _

@[simp] theorem length_solariPutU32 (v : UInt32) : (solariPutU32 v).length = 4 :=
  length_toBytes 4 _

@[simp] theorem length_solariPutU64 (v : UInt64) : (solariPutU64 v).length = 8 :=
  length_toBytes 8 _

variable {off : Nat} {b : Bytes}

theorem slice_append {w : Nat} (ha : a.length = off) (hf : f.length = w) :
    slice (a ++ f ++ r) off w = f := by
  rw [slice, append_assoc, drop_left' ha, take_left' hf]

variable {a r : Bytes}

theorem slice_skip {w : Nat} (h : a.length ≤ off) :
    slice (a ++ r) off w = slice r (off - a.length) w := by
  rw [slice, slice, drop_append, drop_eq_nil_of_le h, nil_append]

theorem getD_skip (h : a.length ≤ off) : (a ++ r).getD off 0 = r.getD (off - a.length) 0 := by
  rw [List.getD_eq_getElem?_getD, List.getElem?_append_right h, List.getD_eq_getElem?_getD]

theorem solariGetU16_append (v : UInt16) (ha : a.length = off) :
    solariGetU16 (a ++ solariPutU16 v ++ r) off = v := by
  rw [solariGetU16, slice_append ha (length_solariPutU16 v), solariPutU16,
    ofBytes_toBytes_of_lt v.toNat_lt, UInt16.ofNat_toNat]

theorem solariGetU32_append (v : UInt32) (ha : a.length = off) :
    solariGetU32 (a ++ solariPutU32 v ++ r) off = v := by
  rw [solariGetU32, slice_append ha (length_solariPutU32 v), solariPutU32,
    ofBytes_toBytes_of_lt v.toNat_lt, UInt32.ofNat_toNat]

theorem solariGetU64_append (v : UInt64) (ha : a.length = off) :
    solariGetU64 (a ++ solariPutU64 v ++ r) off = v := by
  rw [solariGetU64, slice_append ha (length_solariPutU64 v), solariPutU64,
    ofBytes_toBytes_of_lt v.toNat_lt, UInt64.ofNat_toNat]

section
variable {w : Nat} (h : off + w ≤ b.length)
include h

theorem length_slice : (slice b off w).length = w := by
  rw [slice, length_take, length_drop]
  omega

theorem toBytes_slice {n : Nat} (hn : n = ofBytes (slice b off w)) :
    toBytes w n = slice b off w := by
  have hback := toBytes_ofBytes (slice b off w)
  rw [length_slice h] at hback
  rw [hn, hback]

theorem ofBytes_slice_lt : ofBytes (slice b off w) < 256 ^ w := by
  have hlt := ofBytes_lt (slice b off w)
  rwa [length_slice h] at hlt

end

theorem solariPutU16_get (h : off + 2 ≤ b.length) :
    solariPutU16 (solariGetU16 b off) = slice b off 2 :=
  toBytes_slice h (UInt16.toNat_ofNat_of_lt' (ofBytes_slice_lt h))

theorem solariPutU32_get (h : off + 4 ≤ b.length) :
    solariPutU32 (solariGetU32 b off) = slice b off 4 :=
  toBytes_slice h (UInt32.toNat_ofNat_of_lt' (ofBytes_slice_lt h))

theorem solariPutU64_get (h : off + 8 ≤ b.length) :
    solariPutU64 (solariGetU64 b off) = slice b off 8 :=
  toBytes_slice h (UInt64.toNat_ofNat_of_lt' (ofBytes_slice_lt h))

theorem slice_append_drop (b : Bytes) (off w : Nat) :
    slice b off w ++ b.drop (off + w) = b.drop off := by
  rw [slice, ← drop_drop, take_append_drop]

/-! ## Protocol constants -/

namespace Msg

def hello : UInt8 := 0x01
def welcome : UInt8 := 0x02
def clientReport : UInt8 := 0x10
def monitorReport : UInt8 := 0x11
def watchdog : UInt8 := 0x12
def discoveryAdvert : UInt8 := 0x13
def topologyReport : UInt8 := 0x14
def survey : UInt8 := 0x20
def surveyResp : UInt8 := 0x21
def control : UInt8 := 0x30
def controlResult : UInt8 := 0x31
def whoIsPrimary : UInt8 := 0x40
def primaryIs : UInt8 := 0x41
def ack : UInt8 := 0x50
def error : UInt8 := 0x51

end Msg

namespace Flag

def none : UInt8 := 0x00
def ackReq : UInt8 := 0x01
def spoolReplay : UInt8 := 0x04
def urgent : UInt8 := 0x08

end Flag

/-- A received frame and the common name of the pipe it came in on, as `solariConnPeerCn`
reads it off the last message. -/
structure Received where
  bytes : Bytes
  peerCn : Except Status CStr

def solariMaxFrame : Nat := 2 ^ 20

def isDurableReport (msgType : UInt8) : Bool :=
  msgType == Msg.clientReport || msgType == Msg.monitorReport || msgType == Msg.surveyResp

end SolariNet
