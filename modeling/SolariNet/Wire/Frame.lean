/-
# The SCP frame

    u32 frameLen | 32-byte header | TLV payload | u32 crc32

`frameLen` counts header and payload; the checksum is over both (`solariFrame.c`).  The
header is modelled as the in-memory struct, with every field at its width.
-/
import SolariNet.Wire.Tlv
import SolariNet.Wire.Crypto

namespace SolariNet

structure FrameHeader where
  magic0 : UInt8 := 0x53
  magic1 : UInt8 := 0x4E
  protoVersion : UInt8 := 1
  msgType : UInt8
  flags : UInt8 := 0
  reserved : UInt8 := 0
  tlvCount : UInt16
  sourceNodeId : UInt64
  sendTimeUnixMs : UInt64
  seqNo : UInt32
  correlationId : UInt32 := 0
  deriving DecidableEq, Repr

def solariFrameHeaderLen : Nat := 32

def unsupportedFlags (flags : UInt8) : UInt8 :=
  flags &&& ~~~ (Flag.ackReq ||| Flag.spoolReplay ||| Flag.urgent)

def frameValidateHeader (h : FrameHeader) : Status :=
  if h.magic0 ≠ 0x53 ∨ h.magic1 ≠ 0x4E then .errFrameBadMagic
  else if h.protoVersion ≠ 1 then .errProtoVersion
  else if h.reserved ≠ 0 ∨ unsupportedFlags h.flags ≠ 0 then .errFrameBadEnvelope
  else .ok

def frameValidatePayload (h : FrameHeader) (payload : Bytes) : Status :=
  let r := readTlvs payload
  -- the 16-bit counter of the source refuses a 65536th element
  if 65535 < r.1.length then .errFrameBadEnvelope
  else if r.2 ≠ .errTlvEnd ∨ r.1.length ≠ h.tlvCount.toNat then .errFrameBadEnvelope
  else .ok

variable {h : FrameHeader} {payload : Bytes}

theorem frameValidatePayload_ok (hv : frameValidatePayload h payload = .ok) :
    (readTlvs payload).2 = .errTlvEnd ∧ (readTlvs payload).1.length = h.tlvCount.toNat := by
  unfold frameValidatePayload at hv
  simp only at hv
  split at hv
  · cases hv
  split at hv
  · cases hv
  · next hn => simpa using hn

theorem frameValidatePayload_encodeTlvs {ts : List Tlv} (hc : h.tlvCount.toNat = ts.length) :
    frameValidatePayload h (encodeTlvs ts) = .ok := by
  have hlt := h.tlvCount.toNat_lt
  have h1 : ¬ 65535 < ts.length := by omega
  simp [frameValidatePayload, h1, hc]

/-! ## Header -/

def solariFramePackHeader (h : FrameHeader) : Bytes :=
  [h.magic0, h.magic1, h.protoVersion, h.msgType, h.flags, h.reserved] ++
    solariPutU16 h.tlvCount ++ solariPutU64 h.sourceNodeId ++ solariPutU64 h.sendTimeUnixMs ++
    solariPutU32 h.seqNo ++ solariPutU32 h.correlationId

def solariFrameUnpackHeader (b : Bytes) : FrameHeader where
  magic0 := b.getD 0 0
  magic1 := b.getD 1 0
  protoVersion := b.getD 2 0
  msgType := b.getD 3 0
  flags := b.getD 4 0
  reserved := b.getD 5 0
  tlvCount := solariGetU16 b 6
  sourceNodeId := solariGetU64 b 8
  sendTimeUnixMs := solariGetU64 b 16
  seqNo := solariGetU32 b 24
  correlationId := solariGetU32 b 28

@[simp] theorem length_solariFramePackHeader (h : FrameHeader) :
    (solariFramePackHeader h).length = 32 := by
  simp [solariFramePackHeader]

theorem solariFrameUnpackHeader_pack (h : FrameHeader) (r : Bytes) :
    solariFrameUnpackHeader (solariFramePackHeader h ++ r) = h := by
  -- the prefixes of the packed header at which the multi-byte fields start
  let p6 : Bytes := [h.magic0, h.magic1, h.protoVersion, h.msgType, h.flags, h.reserved]
  let p8 := p6 ++ solariPutU16 h.tlvCount
  let p16 := p8 ++ solariPutU64 h.sourceNodeId
  let p24 := p16 ++ solariPutU64 h.sendTimeUnixMs
  let p28 := p24 ++ solariPutU32 h.seqNo
  have h6 : p6.length = 6 := rfl
  have h8 : p8.length = 8 := by simp [p8, h6]
  have h16 : p16.length = 16 := by simp [p16, h8]
  have h24 : p24.length = 24 := by simp [p24, h16]
  have h28 : p28.length = 28 := by simp [p28, h24]
  have htlv := solariGetU16_append (r := solariPutU64 h.sourceNodeId ++
    solariPutU64 h.sendTimeUnixMs ++ solariPutU32 h.seqNo ++ solariPutU32 h.correlationId ++ r)
    h.tlvCount h6
  have hsrc := solariGetU64_append (r := solariPutU64 h.sendTimeUnixMs ++ solariPutU32 h.seqNo ++
    solariPutU32 h.correlationId ++ r) h.sourceNodeId h8
  have htime := solariGetU64_append (r := solariPutU32 h.seqNo ++
    solariPutU32 h.correlationId ++ r) h.sendTimeUnixMs h16
  have hseq := solariGetU32_append (r := solariPutU32 h.correlationId ++ r) h.seqNo h24
  have hcorr := solariGetU32_append (r := r) h.correlationId h28
  simp only [p28, p24, p16, p8, p6, List.append_assoc] at htlv hsrc htime hseq hcorr
  simp only [solariFrameUnpackHeader, solariFramePackHeader, List.append_assoc, htlv, hsrc, htime,
    hseq, hcorr]
  rfl

/-! ## Building and parsing -/

def frameBytes (h : FrameHeader) (payload : Bytes) : Bytes :=
  let body := solariFramePackHeader h ++ payload
  solariPutU32 (UInt32.ofNat body.length) ++ body ++ solariPutU32 (solariCrc32 0 body)

def solariFrameBuild (h : FrameHeader) (payload : Bytes) (outCap : Nat) : Except Status Bytes :=
  if solariMaxFrame - solariFrameHeaderLen < payload.length then .error .errInvalidArg
  else if frameValidateHeader h ≠ .ok then .error (frameValidateHeader h)
  else if frameValidatePayload h payload ≠ .ok then .error (frameValidatePayload h payload)
  else if outCap < 4 + (solariFrameHeaderLen + payload.length) + 4 then .error .errBufferFull
  else .ok (frameBytes h payload)

structure Frame where
  hdr : FrameHeader
  payload : Bytes
  total : Nat
  deriving DecidableEq, Repr

def solariFrameParse (buf : Bytes) : Except Status Frame :=
  if buf.length < 4 then .error .errFrameIncomplete
  else
    let frameBody := (solariGetU32 buf 0).toNat
    if frameBody < solariFrameHeaderLen ∨ solariMaxFrame < frameBody then .error .errFrameIncomplete
    else if buf.length < 4 + frameBody + 4 then .error .errFrameIncomplete
    else
      let body := slice buf 4 frameBody
      if solariGetU32 buf (4 + frameBody) ≠ solariCrc32 0 body then .error .errFrameBadCrc
      else
        let h := solariFrameUnpackHeader body
        let payload := body.drop solariFrameHeaderLen
        if frameValidateHeader h ≠ .ok then .error (frameValidateHeader h)
        else if frameValidatePayload h payload ≠ .ok then .error (frameValidatePayload h payload)
        else .ok ⟨h, payload, 4 + frameBody + 4⟩

/-- A header and payload that `solariFrameBuild` accepts, up to the size of the buffer. -/
structure Framed (h : FrameHeader) (payload : Bytes) : Prop where
  size : payload.length + 32 ≤ solariMaxFrame
  header : frameValidateHeader h = .ok
  tlvs : frameValidatePayload h payload = .ok

theorem solariFrameBuild_ok {outCap : Nat}
    (hb : solariFrameBuild h payload outCap = .ok f) :
    Framed h payload ∧ f = frameBytes h payload := by
  simp only [solariFrameBuild, guard_ok, not_not, Except.ok.injEq] at hb
  obtain ⟨hlen, hh, hp, -, rfl⟩ := hb
  refine ⟨⟨?_, hh, hp⟩, rfl⟩
  simp only [solariMaxFrame, solariFrameHeaderLen] at hlen ⊢
  omega

theorem solariFrameBuild_of_framed {outCap : Nat} (hf : Framed h payload)
    (hcap : 4 + (32 + payload.length) + 4 ≤ outCap) :
    solariFrameBuild h payload outCap = .ok (frameBytes h payload) := by
  have hsize := hf.size
  unfold solariFrameBuild
  rw [if_neg (by simp only [solariFrameHeaderLen] at hsize ⊢; omega),
    if_neg (not_not.2 hf.header), if_neg (not_not.2 hf.tlvs),
    if_neg (by simp only [solariFrameHeaderLen]; omega)]

theorem length_frameBytes (h : FrameHeader) (payload : Bytes) :
    (frameBytes h payload).length = 4 + (32 + payload.length) + 4 := by
  simp [frameBytes, Nat.add_assoc]

/-- **Round trip.**  A built frame, followed by anything, parses to what it was built from. -/
theorem solariFrameParse_frameBytes (hf : Framed h payload) (r : Bytes) :
    solariFrameParse (frameBytes h payload ++ r) =
      .ok ⟨h, payload, (frameBytes h payload).length⟩ := by
  have hfl := length_frameBytes h payload
  have hsize := hf.size
  generalize hfb : frameBytes h payload = f at hfl
  generalize hbody : solariFramePackHeader h ++ payload = body
  have hfeq : f = solariPutU32 (UInt32.ofNat body.length) ++ body ++
      solariPutU32 (solariCrc32 0 body) := by rw [← hfb, ← hbody]; rfl
  have hbl : body.length = 32 + payload.length := by simp [← hbody]
  have hlenU : (UInt32.ofNat body.length).toNat = body.length := by
    refine UInt32.toNat_ofNat_of_lt' ?_
    simp only [solariMaxFrame] at hsize
    simp only [UInt32.size]
    omega
  have h0 : solariGetU32 (f ++ r) 0 = UInt32.ofNat body.length := by
    have h := solariGetU32_append (r := body ++ solariPutU32 (solariCrc32 0 body) ++ r)
      (UInt32.ofNat body.length) List.length_nil
    simpa [hfeq] using h
  have hcrc : solariGetU32 (f ++ r) (4 + body.length) = solariCrc32 0 body := by
    have ha : (solariPutU32 (UInt32.ofNat body.length) ++ body).length = 4 + body.length := by simp
    have h := solariGetU32_append (r := r) (solariCrc32 0 body) ha
    simpa [hfeq] using h
  have hs : slice (f ++ r) 4 body.length = body := by
    have h := slice_append (f := body) (r := solariPutU32 (solariCrc32 0 body) ++ r)
      (length_solariPutU32 (UInt32.ofNat body.length)) rfl
    simpa [hfeq] using h
  have hun : solariFrameUnpackHeader body = h := hbody ▸ solariFrameUnpackHeader_pack h payload
  have hdrop : body.drop solariFrameHeaderLen = payload :=
    hbody ▸ List.drop_left' (length_solariFramePackHeader h)
  have htot : (f ++ r).length = 4 + body.length + 4 + r.length := by
    rw [List.length_append, hfl, hbl]
  unfold solariFrameParse
  rw [if_neg (by omega)]
  simp only [h0, hlenU, hs, hcrc, hun, hdrop, hf.header, hf.tlvs]
  rw [if_neg (by simp only [solariFrameHeaderLen] at hsize ⊢; omega),
    if_neg (by omega), if_neg (by simp), if_neg (by simp), if_neg (by simp), hfl, hbl]

theorem solariFrameParse_of_framed (hf : Framed h payload) :
    solariFrameParse (frameBytes h payload) = .ok ⟨h, payload, (frameBytes h payload).length⟩ := by
  have hparse := solariFrameParse_frameBytes hf []
  rwa [List.append_nil] at hparse

theorem solariFrameParse_ok (h : solariFrameParse buf = .ok f) :
    ∃ n, (solariGetU32 buf 0).toNat = n ∧ 32 ≤ n ∧ n ≤ solariMaxFrame ∧ 4 + n + 4 ≤ buf.length ∧
      solariGetU32 buf (4 + n) = solariCrc32 0 (slice buf 4 n) ∧
      f.hdr = solariFrameUnpackHeader (slice buf 4 n) ∧ f.payload = (slice buf 4 n).drop 32 ∧
      f.total = 4 + n + 4 ∧ frameValidateHeader f.hdr = .ok ∧
      frameValidatePayload f.hdr f.payload = .ok := by
  simp only [solariFrameParse, guard_ok, not_or, not_lt, not_not, Except.ok.injEq] at h
  obtain ⟨-, ⟨hlow, hhigh⟩, hlen, hcrc, hhdr, htlv, rfl⟩ := h
  exact ⟨_, rfl, hlow, hhigh, hlen, hcrc, rfl, rfl, rfl, hhdr, htlv⟩

theorem solariFrameParse_payload (h : solariFrameParse buf = .ok f) :
    (readTlvs f.payload).2 = .errTlvEnd := by
  obtain ⟨n, -, -, -, -, -, -, -, -, -, htlv⟩ := solariFrameParse_ok h
  exact (frameValidatePayload_ok htlv).1

end SolariNet
