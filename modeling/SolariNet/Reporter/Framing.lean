/-
# What the reporter puts into a frame

`solariReporterFrameCorr` numbers a frame and then builds it (`frameNumbered`).  What a frame says
can be read off the handle after the first part.
-/
import SolariNet.Reporter.Reporter

namespace SolariNet

open Lib Lib.Prog

def nextSeqNo (q : UInt32) : UInt32 := if q = uint32Max then 1 else q + 1

theorem nextSeq_returns (r : Reporter) : (nextSeq r).Returns fun x => ∀ r', x = .ok r' →
    r'.nodeId = r.nodeId ∧ r'.seqNo = nextSeqNo r.seqNo := by
  unfold nextSeq nextSeqNo
  split
  · intro s
    cases s with
    | error st =>
      intro r' h
      cases h
    | ok s =>
      intro r' h
      cases h
      exact ⟨rfl, rfl⟩
  · intro r' h
    cases h
    exact ⟨rfl, rfl⟩

def NumberedFrame (r : Reporter) (msgType : UInt8) (ts : List Tlv) (frame : Bytes) : Prop :=
  ∃ f, solariFrameParse frame = .ok f ∧ f.hdr.sourceNodeId = r.nodeId ∧ f.hdr.msgType = msgType ∧
    f.hdr.seqNo = r.seqNo ∧ (isDurableReport msgType = true →
      sessionValues (readTlvs f.payload).1 = sessionValues ts ++ [r.session.val])

theorem sessionValues_append (ts us : List Tlv) :
    sessionValues (ts ++ us) = sessionValues ts ++ sessionValues us := by
  simp [sessionValues]

theorem reportPayload_ok {ts : List Tlv} {tlvCount : UInt16} {crlFile : Option Bytes}
    (h : reportPayload r (encodeTlvs ts) tlvCount crlFile = .ok w) :
    ∃ us, w.buf = encodeTlvs us ∧ sessionValues us = sessionValues ts ++ [r.session.val] := by
  unfold reportPayload at h
  cases hw : solariTlvAppend ⟨encodeTlvs ts, (encodeTlvs ts).length + 180, tlvCount⟩
      (sessionTlv r.session) with
  | error st =>
    rw [hw] at h
    cases h
  | ok w₁ =>
    rw [hw] at h
    have hbuf : w₁.buf = encodeTlvs (ts ++ [sessionTlv r.session]) := by
      rw [(solariTlvAppend_ok hw).1]
      simp
    have hval : sessionValues (ts ++ [sessionTlv r.session]) =
        sessionValues ts ++ [r.session.val] := by
      rw [sessionValues_append]
      rfl
    simp only at h
    split at h
    · cases h
      exact ⟨_, hbuf, hval⟩
    let receipt : Tlv := ⟨TlvType.crlActivation, reporterReadCrlReceipt crlFile,
      length_reporterReadCrlReceipt crlFile⟩
    refine ⟨ts ++ [sessionTlv r.session] ++ [receipt], ?_, ?_⟩
    · rw [(solariTlvAppend_ok h).1, hbuf]
      simp [receipt]
    have hne : receipt.type ≠ TlvType.reportSession :=
      show TlvType.crlActivation ≠ TlvType.reportSession by decide
    rw [sessionValues_append, hval]
    exact List.append_nil _

theorem numberedFrame_of_build {msgType : UInt8} {ts us : List Tlv}
    {cap : Nat} (hb : solariFrameBuild h (encodeTlvs us) cap = .ok frame)
    (hnode : h.sourceNodeId = r.nodeId) (htype : h.msgType = msgType) (hseq : h.seqNo = r.seqNo)
    (hus : isDurableReport msgType = true →
      sessionValues us = sessionValues ts ++ [r.session.val]) :
    NumberedFrame r msgType ts frame := by
  obtain ⟨hf, rfl⟩ := solariFrameBuild_ok hb
  refine ⟨_, solariFrameParse_of_framed hf, hnode, htype, hseq, fun hd => ?_⟩
  rw [readTlvs_encodeTlvs]
  exact hus hd

theorem frameNumbered_returns (r : Reporter) (msgType flags : UInt8) (correlationId : UInt32)
    (ts : List Tlv) (tlvCount : UInt16) (cap : Nat) :
    (frameNumbered r msgType flags correlationId (encodeTlvs ts) tlvCount cap).Returns fun out =>
      out.2 = r ∧ ∀ frame, out.1 = .ok frame → NumberedFrame r msgType ts frame := by
  intro time
  split
  · next hd =>
    split
    · exact ⟨rfl, fun frame h => by cases h⟩
    intro crlFile
    dsimp only [Prog.bind]
    split
    · exact ⟨rfl, fun frame h => by cases h⟩
    next w hw =>
    obtain ⟨us, hbuf, hus⟩ := reportPayload_ok hw
    refine ⟨rfl, fun frame h => ?_⟩
    rw [hbuf] at h
    exact numberedFrame_of_build h rfl rfl rfl fun _ => hus
  · next hd =>
    exact ⟨rfl, fun frame h => numberedFrame_of_build h rfl rfl rfl fun h => absurd h hd⟩

theorem solariReporterFrameCorr_returns (r : Reporter) (msgType flags : UInt8)
    (correlationId : UInt32) (ts : List Tlv) (tlvCount : UInt16) (cap : Nat) :
    (solariReporterFrameCorr r msgType flags correlationId (encodeTlvs ts) tlvCount cap).Returns
      fun out => out.2.nodeId = r.nodeId ∧ ∀ frame, out.1 = .ok frame →
        out.2.seqNo = nextSeqNo r.seqNo ∧ NumberedFrame out.2 msgType ts frame := by
  refine Returns.bind (nextSeq_returns r) fun x hx => ?_
  cases x with
  | error st => exact ⟨rfl, fun frame h => by cases h⟩
  | ok r' =>
    obtain ⟨hnode, hseq⟩ := hx r' rfl
    refine Returns.mono ?_ (frameNumbered_returns r' msgType flags correlationId ts tlvCount cap)
    rintro ⟨res, r''⟩ ⟨rfl, hframe⟩
    exact ⟨hnode, fun frame h => ⟨hseq, hframe frame h⟩⟩

end SolariNet
