/-
# Frames one after the other

What `solariFrameParse` accepts is exactly what `solariFrameBuild` writes, and where it ends is not
in doubt: a frame followed by anything parses to itself, a part of a frame is incomplete, and a
stream of frames is cut where they were joined.
-/
import SolariNet.Wire.Frame

namespace SolariNet

open List

theorem solariFramePackHeader_unpack (h : 32 ≤ b.length) :
    solariFramePackHeader (solariFrameUnpackHeader b) = b.take 32 := by
  have hbyte {i : Nat} (hi : i < 6) : [b.getD i 0] = slice b i 1 := by
    have hib : i < b.length := by omega
    rw [slice, drop_eq_getElem_cons hib, take_succ_cons, take_zero,
      List.getD_eq_getElem?_getD, List.getElem?_eq_getElem hib, Option.getD_some]
  have hjoin (off w : Nat) : b.take off ++ slice b off w = b.take (off + w) := by
    rw [slice, take_add]
  have hsix : [b.getD 0 0, b.getD 1 0, b.getD 2 0, b.getD 3 0, b.getD 4 0, b.getD 5 0] =
      b.take 6 := by
    calc [b.getD 0 0, b.getD 1 0, b.getD 2 0, b.getD 3 0, b.getD 4 0, b.getD 5 0]
        = b.take 0 ++ [b.getD 0 0] ++ [b.getD 1 0] ++ [b.getD 2 0] ++ [b.getD 3 0] ++
          [b.getD 4 0] ++
            [b.getD 5 0] := rfl
      _ = b.take 6 := by
          rw [hbyte (by decide), hbyte (by decide), hbyte (by decide), hbyte (by decide),
            hbyte (by decide), hbyte (by decide), hjoin, hjoin, hjoin, hjoin, hjoin, hjoin]
  simp only [solariFramePackHeader, solariFrameUnpackHeader]
  rw [hsix, solariPutU16_get (by omega), solariPutU64_get (by omega), solariPutU64_get (by omega),
    solariPutU32_get (by omega), solariPutU32_get (by omega), hjoin, hjoin, hjoin, hjoin, hjoin]

/-- **What parses was built.**  The octets a parsed frame occupied are those that its header and its
payload are built into. -/
theorem frameBytes_of_parse (h : solariFrameParse buf = .ok f) :
    Framed f.hdr f.payload ∧ f.total ≤ buf.length ∧
      frameBytes f.hdr f.payload = buf.take f.total := by
  obtain ⟨n, hn, hlow, hhigh, hlen, hcrc, hhdr, hpayload, htotal, hvh, hvp⟩ := solariFrameParse_ok h
  have hbody : (slice buf 4 n).length = n := length_slice (by omega)
  have hpack : solariFramePackHeader f.hdr ++ f.payload = slice buf 4 n := by
    rw [hhdr, hpayload, solariFramePackHeader_unpack (by omega), take_append_drop]
  have hpl : f.payload.length = n - 32 := by rw [hpayload, length_drop, hbody]
  refine ⟨⟨by omega, hvh, hvp⟩, by omega, ?_⟩
  have hlenU : UInt32.ofNat n = solariGetU32 buf 0 := by rw [← hn, UInt32.ofNat_toNat]
  have hjoin (off w : Nat) : buf.take off ++ slice buf off w = buf.take (off + w) := by
    rw [slice, take_add]
  unfold frameBytes
  simp only [hpack, hbody]
  rw [hlenU, ← hcrc, solariPutU32_get (by omega), solariPutU32_get (by omega), htotal]
  have hfront : slice buf 0 4 = buf.take 4 := by rw [slice, drop_zero]
  rw [hfront, hjoin, hjoin]

variable {payload : Bytes} {h : FrameHeader}

/-- **A strict prefix of a frame is incomplete.** -/
theorem solariFrameParse_prefix {part : Bytes} (hf : Framed h payload)
    (hpart : part <+: frameBytes h payload) (hne : part ≠ frameBytes h payload) :
    solariFrameParse part = .error .errFrameIncomplete := by
  have hlt : part.length < (frameBytes h payload).length :=
    lt_of_le_of_ne hpart.length_le fun heq => hne (hpart.eq_of_length heq)
  rw [length_frameBytes] at hlt
  unfold solariFrameParse
  by_cases hshort : part.length < 4
  · rw [if_pos hshort]
  rw [if_neg hshort]
  have hsize := hf.size
  -- the length field is whole, and it is that of the frame
  have hlen : solariGetU32 part 0 = UInt32.ofNat (32 + payload.length) := by
    obtain ⟨rest, hrest⟩ := hpart
    have hget : solariGetU32 (part ++ rest) 0 = solariGetU32 part 0 := by
      rw [solariGetU32, solariGetU32, slice, slice, drop_zero, drop_zero,
        take_append_of_le_length (by omega)]
    have hfield := solariGetU32_append
      (r := solariFramePackHeader h ++ payload ++
        solariPutU32 (solariCrc32 0 (solariFramePackHeader h ++ payload)))
      (UInt32.ofNat (solariFramePackHeader h ++ payload).length) length_nil
    rw [← hget, hrest, frameBytes]
    simpa using hfield
  have hnat : (solariGetU32 part 0).toNat = 32 + payload.length := by
    rw [hlen]
    refine UInt32.toNat_ofNat_of_lt' ?_
    simp only [solariMaxFrame] at hsize
    simp only [UInt32.size]
    omega
  have hpart : part.length < 4 + (32 + payload.length) + 4 := hlt
  simp only [hnat, if_pos hpart, ite_self]

/-! ## Frames in a row -/

def splitFramesFuel : Nat → Bytes → List Frame × Bytes
  | 0, b => ([], b)
  | fuel + 1, b =>
    match solariFrameParse b with
    | .error _ => ([], b)
    | .ok f => (f :: (splitFramesFuel fuel (b.drop f.total)).1,
        (splitFramesFuel fuel (b.drop f.total)).2)

def splitFrames (b : Bytes) : List Frame × Bytes := splitFramesFuel b.length b

structure BuiltFrame where
  hdr : FrameHeader
  payload : Bytes
  bytes : Bytes
  built : ∃ outCap, solariFrameBuild hdr payload outCap = .ok bytes

namespace BuiltFrame

theorem framed (b : BuiltFrame) : Framed b.hdr b.payload ∧
    b.bytes = frameBytes b.hdr b.payload := by
  obtain ⟨outCap, hb⟩ := b.built
  exact solariFrameBuild_ok hb

def frame (b : BuiltFrame) : Frame := ⟨b.hdr, b.payload, b.bytes.length⟩

theorem parse_append (b : BuiltFrame) (r : Bytes) :
    solariFrameParse (b.bytes ++ r) = .ok b.frame := by
  obtain ⟨hf, hbytes⟩ := b.framed
  rw [frame, hbytes]
  exact solariFrameParse_frameBytes hf r

end BuiltFrame

theorem splitFramesFuel_flatMap (bs : List BuiltFrame) {fuel : Nat} (hle : bs.length ≤ fuel) :
    splitFramesFuel fuel (bs.flatMap (·.bytes)) = (bs.map (·.frame), []) := by
  induction bs generalizing fuel with
  | nil =>
    cases fuel with
    | zero | succ fuel => rfl
  | cons b bs ih =>
    cases fuel with
    | zero => cases hle
    | succ fuel =>
      have hrest := ih (Nat.le_of_succ_le_succ hle)
      have hdrop : (b.bytes ++ bs.flatMap (·.bytes)).drop b.frame.total =
          bs.flatMap (·.bytes) := drop_left' rfl
      rw [flatMap_cons, splitFramesFuel, b.parse_append]
      simp only [hdrop, hrest, map_cons]

theorem length_le_flatMap_bytes (bs : List BuiltFrame) :
    bs.length ≤ (bs.flatMap (·.bytes)).length := by
  induction bs with
  | nil => exact Nat.le_refl _
  | cons b bs ih =>
    have hpos : 0 < b.bytes.length := by
      rw [b.framed.2, length_frameBytes]
      omega
    rw [flatMap_cons, length_append, length_cons]
    omega

/-- **Frames in a row split back.** -/
theorem splitFrames_flatMap (bs : List BuiltFrame) :
    splitFrames (bs.flatMap (·.bytes)) = (bs.map (·.frame), []) :=
  splitFramesFuel_flatMap bs (length_le_flatMap_bytes bs)

/-! ## Payloads -/

/-- Appending `ts` to an empty writer of some capacity gives `payload`. -/
def Appended (ts : List Tlv) (payload : Bytes) : Prop :=
  ∃ cap w, solariTlvAppendAll (solariTlvWriterInit cap) ts = .ok w ∧ w.buf = payload

theorem appended_iff {ts : List Tlv} : Appended ts payload ↔ payload = encodeTlvs ts := by
  constructor
  · rintro ⟨cap, w, hw, rfl⟩
    exact (solariTlvAppendAll_ok hw).trans (nil_append _)
  rintro rfl
  have hfits : ([] : Bytes).length + (encodeTlvs ts).length ≤ (encodeTlvs ts).length :=
    Nat.le_of_eq (Nat.zero_add _)
  obtain ⟨w, hw⟩ :=
    solariTlvAppendAll_of_fits (w := solariTlvWriterInit (encodeTlvs ts).length) hfits
  exact ⟨_, w, hw, (solariTlvAppendAll_ok hw).trans (nil_append _)⟩

theorem frameValidatePayload_iff : frameValidatePayload h payload = .ok ↔
      ∃ ts, payload = encodeTlvs ts ∧ ts.length = h.tlvCount.toNat := by
  constructor
  · intro hv
    obtain ⟨hend, hcount⟩ := frameValidatePayload_ok hv
    exact ⟨(readTlvs payload).1, (encodeTlvs_readTlvs hend).symm, hcount⟩
  · rintro ⟨ts, rfl, hcount⟩
    exact frameValidatePayload_encodeTlvs hcount.symm

/-- **What build accepts**: a supported header, and a payload of the size of a frame that so many
appends as the header counts can produce. -/
theorem framed_iff : (∃ outCap f, solariFrameBuild h payload outCap = .ok f) ↔
      frameValidateHeader h = .ok ∧ payload.length ≤ solariMaxFrame - solariFrameHeaderLen ∧
        ∃ ts, Appended ts payload ∧ ts.length = h.tlvCount.toNat := by
  constructor
  · rintro ⟨outCap, f, hb⟩
    obtain ⟨hf, -⟩ := solariFrameBuild_ok hb
    obtain ⟨ts, hts, hcount⟩ := frameValidatePayload_iff.1 hf.tlvs
    exact ⟨hf.header, Nat.le_sub_of_add_le hf.size, ts, appended_iff.2 hts, hcount⟩
  · rintro ⟨hhdr, hsize, ts, hts, hcount⟩
    have hle : payload.length + 32 ≤ solariMaxFrame := Nat.add_le_of_le_sub (by decide) hsize
    exact ⟨_, _, solariFrameBuild_of_framed
      ⟨hle, hhdr, frameValidatePayload_iff.2 ⟨ts, appended_iff.1 hts, hcount⟩⟩ (Nat.le_refl _)⟩

/-- **A payload that no frame holds.**  Seventeen elements of 65535 octets each can be appended, and
no header makes a frame of them. -/
theorem oversized_payload_refused : ∃ ts payload, ts.length = 17 ∧ Appended ts payload ∧
    ∀ h outCap, solariFrameBuild h payload outCap = .error .errInvalidArg := by
  have hlen : (replicate 65535 (0 : UInt8)).length < 65536 := by
    rw [length_replicate]
    decide
  let t : Tlv := ⟨0, replicate 65535 0, hlen⟩
  have ht : t.encode.length = 65539 := by
    rw [t.length_encode, length_replicate]
  have hbig : (encodeTlvs (replicate 17 t)).length = 17 * 65539 := by
    simp only [replicate_succ, replicate_zero, encodeTlvs_cons, encodeTlvs_nil,
      length_append, ht, length_nil]
  refine ⟨replicate 17 t, _, length_replicate, appended_iff.2 rfl, fun h outCap => ?_⟩
  refine if_pos ?_
  rw [hbig]
  decide

/-- **Frames split back exactly.** -/
theorem frames_split_back : (∀ h payload outCap f, solariFrameBuild h payload outCap = .ok f →
      (∀ r, solariFrameParse (f ++ r) = .ok ⟨h, payload, f.length⟩) ∧
      ∀ part, part <+: f → part ≠ f → solariFrameParse part = .error .errFrameIncomplete) ∧
    (∀ buf f, solariFrameParse buf = .ok f →
      f.total ≤ buf.length ∧ solariFrameBuild f.hdr f.payload f.total = .ok (buf.take f.total)) ∧
    (∀ bs : List BuiltFrame, splitFrames (bs.flatMap (·.bytes)) = (bs.map (·.frame), [])) ∧
    (∀ h payload, (∃ outCap f, solariFrameBuild h payload outCap = .ok f) ↔
      frameValidateHeader h = .ok ∧ payload.length ≤ solariMaxFrame - solariFrameHeaderLen ∧
        ∃ ts, Appended ts payload ∧ ts.length = h.tlvCount.toNat) ∧
    ∀ ts payload, Appended ts payload → readTlvs payload = (ts, .errTlvEnd) := by
  refine ⟨fun h payload outCap f hb => ?_, fun buf f hp => ?_, splitFrames_flatMap,
    fun h payload => framed_iff, fun ts payload hts => ?_⟩
  · obtain ⟨hf, rfl⟩ := solariFrameBuild_ok hb
    exact ⟨solariFrameParse_frameBytes hf, fun part => solariFrameParse_prefix hf⟩
  · obtain ⟨hf, hle, hbytes⟩ := frameBytes_of_parse hp
    refine ⟨hle, ?_⟩
    rw [← hbytes]
    refine solariFrameBuild_of_framed hf ?_
    have hlen := congrArg List.length hbytes
    rw [length_frameBytes, length_take, Nat.min_eq_left hle] at hlen
    exact Nat.le_of_eq hlen
  · rw [appended_iff.1 hts, readTlvs_encodeTlvs]

def shortHeader : FrameHeader :=
  { msgType := 1, tlvCount := 1, sourceNodeId := 7, sendTimeUnixMs := 9, seqNo := 3 }

theorem frames_split_back_twice : ∃ f, solariFrameBuild shortHeader [0, 1, 0, 1, 5] 64 = .ok f ∧
    solariFrameParse (f ++ f) = .ok ⟨shortHeader, [0, 1, 0, 1, 5], f.length⟩ ∧
    solariFrameParse (f.take 20) = .error .errFrameIncomplete := by
  have hb : solariFrameBuild shortHeader [0, 1, 0, 1, 5] 64 =
    .ok (frameBytes shortHeader [0, 1, 0, 1, 5]) := rfl
  obtain ⟨hwhole, hpart⟩ := frames_split_back.1 _ _ _ _ hb
  exact ⟨_, hb, hwhole _, hpart _ ⟨_, take_append_drop 20 _⟩ (by decide)⟩

end SolariNet
