/-
# The wire codec of the status panel

The part of `status-panel/protocol.c` that the frame parser and the provisioning exchange
share: little-endian accessors, the CRC-16/CCITT of a frame, the frame types and the frame
constants.
-/
import SolariNet.Wire.Basic

namespace SolariNet

open Lib

/-! ## Little-endian accessors

The bytes of a field, least significant first. -/

def readLe16 (b : Bytes) (off : Nat) : UInt16 := UInt16.ofNat (ofBytes (slice b off 2).reverse)
def readLe32 (b : Bytes) (off : Nat) : UInt32 := UInt32.ofNat (ofBytes (slice b off 4).reverse)

def writeLe16 (v : UInt16) : Bytes := (toBytes 2 v.toNat).reverse
def writeLe32 (v : UInt32) : Bytes := (toBytes 4 v.toNat).reverse

@[simp] theorem length_writeLe16 (v : UInt16) : (writeLe16 v).length = 2 := by
  rw [writeLe16, List.length_reverse, length_toBytes]

@[simp] theorem length_writeLe32 (v : UInt32) : (writeLe32 v).length = 4 := by
  rw [writeLe32, List.length_reverse, length_toBytes]

theorem readLe16_append {off : Nat} (v : UInt16) (ha : a.length = off) :
    readLe16 (a ++ writeLe16 v ++ r) off = v := by
  rw [readLe16, slice_append ha (length_writeLe16 v), writeLe16, List.reverse_reverse,
    ofBytes_toBytes_of_lt v.toNat_lt, UInt16.ofNat_toNat]

theorem readLe32_append {off : Nat} (v : UInt32) (ha : a.length = off) :
    readLe32 (a ++ writeLe32 v ++ r) off = v := by
  rw [readLe32, slice_append ha (length_writeLe32 v), writeLe32, List.reverse_reverse,
    ofBytes_toBytes_of_lt v.toNat_lt, UInt32.ofNat_toNat]

theorem readLe32_skip {off : Nat} (h : a.length ≤ off) :
    readLe32 (a ++ r) off = readLe32 r (off - a.length) := by
  rw [readLe32, slice_skip h, readLe32]

theorem readLe16_take {off n : Nat} (h : off + 1 < n) :
    readLe16 (b.take n) off = readLe16 b off := by
  rw [readLe16, readLe16, slice, slice, List.drop_take, List.take_take, Nat.min_eq_left (by omega)]

/-! ## Frames -/

def panelMagic0 : UInt8 := 0xA5
def panelMagic1 : UInt8 := 0x53
def panelProtoVersion : UInt8 := 0x01
def panelHdrSize : Nat := 6
def panelCrcSize : Nat := 2
def panelMaxPayload : Nat := 4096
def panelFrameTimeoutMs : UInt32 := 500

namespace PanelFt

def snapshot : UInt8 := 0x01
def ping : UInt8 := 0x02
def provision : UInt8 := 0x05
def hello : UInt8 := 0x81
def provack : UInt8 := 0x86

end PanelFt

inductive PanelProvStatus where
  | ok
  | formatInvalid
  | storageFull
  | rejectedWifi
  | commitInvalid
  | offsetMismatch
  | flashIo
  | cryptoInvalid
  | busy
  deriving DecidableEq, Repr

def panelCrc16Bit (crc : UInt16) : UInt16 :=
  if crc &&& 0x8000 != 0 then (crc <<< 1) ^^^ 0x1021 else crc <<< 1

def panelCrc16Byte (crc : UInt16) (b : UInt8) : UInt16 :=
  panelCrc16Bit^[8] (crc ^^^ (b.toUInt16 <<< 8))

def panelCrc16 (data : Bytes) : UInt16 := data.foldl panelCrc16Byte 0xFFFF

def knownType (type : UInt8) : Bool :=
  (PanelFt.snapshot ≤ type && type ≤ PanelFt.provision) ||
    (PanelFt.hello ≤ type && type ≤ PanelFt.provack)

end SolariNet
