/-
# Directives that bring nodes up and tear them down

The parts of `serverProvision.c` that publish to nodes.

A frame is stamped with the low half of the clock as its sequence number; unlike the directives of
`Server.Control` it carries no correlation id, and no pending row is written for it.
-/
import SolariNet.Server.Control

namespace SolariNet

open Lib Lib.Prog

/-! ## Operations -/

structure DecommissionIssue where
  nodeId : UInt64
  wipeScope : UInt32
  requestedBy : CStr
  tokenHash : Bytes
  issuedAt : UInt64
  expiresAt : UInt64
  deriving DecidableEq, Repr

structure DecommissionConfirm where
  nodeId : UInt64
  wipeScope : UInt32
  requestedBy : CStr
  tokenHash : Bytes
  nowMs : UInt64
  deriving DecidableEq, Repr

structure DecommissionDelivery where
  nodeId : UInt64
  wipeScope : UInt32
  generation : UInt64
  deliveryAttempts : UInt32

inductive ProvOp where
  | srv (o : SrvOp)
  | randomToken
  | audit (nodeId : UInt64) (severity : Severity) (detail : CStr)
  | setNodeTargetEpoch (nodeId targetEpoch : UInt64) (configJson : Bytes)
  | decommissionIssue (c : DecommissionIssue)
  | decommissionConfirm (c : DecommissionConfirm)
  | decommissionListDue (nowMs : UInt64) (cap : Nat)
  | decommissionNoteAttempt (nodeId generation nowMs nextMs : UInt64)
  | retireNode (nodeId : UInt64)

abbrev ProvOp.Res : ProvOp → Type
  | .srv o => o.Res
  | .randomToken | .decommissionConfirm _ => Except Status UInt64
  | .decommissionListDue _ _ => Except Status (List DecommissionDelivery)
  | .audit _ _ _ | .setNodeTargetEpoch _ _ _ | .decommissionIssue _ => Status
  | .decommissionNoteAttempt _ _ _ _ | .retireNode _ => Status

abbrev ProvM : Type → Type := Prog ProvOp ProvOp.Res

abbrev prov (o : ProvOp) : ProvM o.Res := perform o

abbrev onSrv {α : Type} (p : SrvM α) : ProvM α := p.embed ProvOp.srv fun _ r => r

/-! ## Frames -/

namespace Msg

def decommission : UInt8 := 0x32

end Msg

namespace TlvType

def lifeWipeScope : UInt16 := 0x3202

end TlvType

def provPayloadCap : Nat := 2048

def provFrameCap : Nat := 4096

def provBuildProvisionPayload (targetNode targetEpoch : UInt64) (cfgBlob : Bytes)
    (h : cfgBlob.length < 65536) (cap : Nat) : Except Status (Bytes × UInt16) :=
  solariMsgBuildControl ⟨Verb.provision, targetEpoch, targetNode, cfgBlob, h⟩ cap

def decommissionTlvs (targetNode generation : UInt64) (wipeScope : UInt32) : List Tlv :=
  [Tlv.u8 TlvType.ctrlVerb Verb.decommission, Tlv.u64 TlvType.ctrlTargetNode targetNode,
    Tlv.u64 TlvType.lifeGeneration generation,
    Tlv.u8 TlvType.lifeWipeScope (wipeScope &&& 0xFF).toUInt8]

def provBuildDecommissionPayload (targetNode generation : UInt64) (wipeScope : UInt32) (cap : Nat) :
    Except Status (Bytes × UInt16) :=
  match solariTlvAppendAll (solariTlvWriterInit cap)
      (decommissionTlvs targetNode generation wipeScope) with
  | .error st => .error st
  | .ok w => .ok (w.buf, w.count)

def provHeader (self : UInt64) (msgType : UInt8) (tlvCount : UInt16) (nowMs : UInt64) :
    FrameHeader where
  msgType := msgType
  flags := Flag.ackReq
  tlvCount := tlvCount
  sourceNodeId := self
  sendTimeUnixMs := nowMs
  seqNo := nowMs.toUInt32
  correlationId := 0

def provAssembleFrame (self : UInt64) (msgType : UInt8) (tlvCount : UInt16) (payload : Bytes)
    (cap : Nat) : ProvM (Except Status Bytes) := do
  let nowMs ← prov (.srv .now)
  .ret (solariFrameBuild (provHeader self msgType tlvCount nowMs) payload cap)

def provSendControl (pub : Bool) (frame : Bytes) : ProvM Status :=
  if !pub then .ret .errConnRetry else prov (.srv (.publishControl frame))

theorem provAssembleFrame_returns (self : UInt64) (msgType : UInt8) (tlvCount : UInt16)
    (payload : Bytes) (cap : Nat) :
    (provAssembleFrame self msgType tlvCount payload cap).Returns fun r =>
      ∀ frame, r = .ok frame → ∃ f nowMs, solariFrameParse frame = .ok f ∧
        f.hdr = provHeader self msgType tlvCount nowMs ∧ f.payload = payload := by
  intro nowMs frame h
  obtain ⟨hf, rfl⟩ := solariFrameBuild_ok h
  exact ⟨_, nowMs, solariFrameParse_of_framed hf, rfl, rfl⟩

def serverProvisionNode (self : UInt64) (pub : Bool) (nodeId : UInt64) (configJson : Bytes)
    (targetEpoch : UInt64) : ProvM Status :=
  if nodeId = 0 then .ret .errInvalidArg
  else if h : configJson.length ≤ provPayloadCap - 64 then do
    let rc ← prov (.setNodeTargetEpoch nodeId targetEpoch configJson)
    if rc ≠ .ok then .ret rc
    else
      match provBuildProvisionPayload nodeId targetEpoch configJson (lt_of_le_of_lt h (by decide))
          provPayloadCap with
      | .error st => .ret st
      | .ok (payload, count) => do
          match ← provAssembleFrame self Msg.control count payload provFrameCap with
          | .error st => .ret st
          | .ok frame => do
              let st ← provSendControl pub frame
              -- a deferred publication is no error: the target is in the tables
              .ret (if st = .errConnRetry then .ok else st)
  else .ret .errBufferFull

/-! ## Decommission -/

def provConfirmTokenHash (token : UInt64) : Bytes := solariSha256 (Lib.decimal token.toNat)

def provDecommissionRetryDelayMs (previousAttempts : UInt32) : UInt64 :=
  if 6 ≤ previousAttempts then 300000 else 5000 <<< previousAttempts.toUInt64

def provDispatchDecommission (self : UInt64) (pub : Bool) (job : DecommissionDelivery)
    (nowMs : UInt64) : ProvM Status :=
  if job.nodeId = 0 ∨ job.generation = 0 ∨ nowMs = 0 then .ret .errInvalidArg
  else
    let nextRetry := nowMs + provDecommissionRetryDelayMs job.deliveryAttempts
    match provBuildDecommissionPayload job.nodeId job.generation job.wipeScope provPayloadCap with
    | .error st => .ret st
    | .ok (payload, count) => do
        match ← provAssembleFrame self Msg.decommission count payload provFrameCap with
        | .error st => .ret st
        | .ok frame => do
            let rc ← prov (.decommissionNoteAttempt job.nodeId job.generation nowMs nextRetry)
            if rc ≠ .ok then .ret rc else provSendControl pub frame

def provRetryJobs (self : UInt64) (pub : Bool) (nowMs : UInt64) :
    List DecommissionDelivery → ProvM Unit
  | [] => .ret ()
  | job :: jobs => do
      let _ ← provDispatchDecommission self pub job nowMs
      provRetryJobs self pub nowMs jobs

def retryBatch : Nat := 16

def serverProvisionRetryDecommissions (self : UInt64) (pub : Bool) (nowMs : UInt64) :
    ProvM Unit := do
  let nowMs ← if nowMs = 0 then prov (.srv .now) else .ret nowMs
  match ← prov (.decommissionListDue nowMs retryBatch) with
  | .error _ => .ret ()
  | .ok jobs => provRetryJobs self pub nowMs jobs

def decommissionDetail (operator : CStr) (wipeScope : UInt32) : CStr :=
  ("decommission authorized by ".toList ++ operator ++ " scope=0x".toList ++
    hexByte (wipeScope &&& 0xFF).toUInt8).take 127

def serverProvisionDecommission (nodeId : UInt64) (wipeScope : UInt32) (operator : CStr) :
    ProvM (Except Status UInt64) :=
  if nodeId = 0 ∨ wipeScope &&& 0x1F = 0 ∨ operator = [] then .ret (.error .errInvalidArg)
  else do
    let nowMs ← prov (.srv .now)
    match ← prov .randomToken with
    | .error st => .ret (.error st)
    | .ok token => do
        let rc ← prov (.audit nodeId .crit (decommissionDetail operator wipeScope))
        if rc ≠ .ok then .ret (.error rc)
        else do
          let rc ← prov (.decommissionIssue ⟨nodeId, wipeScope, operator,
            provConfirmTokenHash token, nowMs, nowMs + 600000⟩)
          .ret (if rc ≠ .ok then .error rc else .ok token)

def serverProvisionConfirmDecommission (self : UInt64) (pub : Bool) (nodeId : UInt64)
    (wipeScope : UInt32) (operator : CStr) (confirmToken : UInt64) : ProvM Status :=
  if nodeId = 0 ∨ operator = [] ∨ confirmToken = 0 ∨ wipeScope &&& 0x1F = 0 then
    .ret .errInvalidArg
  else do
    let nowMs ← prov (.srv .now)
    match ← prov (.decommissionConfirm ⟨nodeId, wipeScope, operator,
        provConfirmTokenHash confirmToken, nowMs⟩) with
    | .error st => .ret st
    | .ok generation => do
        let st ← provDispatchDecommission self pub ⟨nodeId, wipeScope, generation, 0⟩ nowMs
        let _ ← prov (.audit nodeId .warn (if st = .ok
          then "decommission confirmed; directive published; awaiting node ack".toList
          else "decommission confirmed; delivery retry scheduled".toList))
        .ret .ok

def serverProvisionRetire (nodeId : UInt64) : ProvM Status :=
  if nodeId = 0 then .ret .errInvalidArg
  else do
    let rc ← prov (.retireNode nodeId)
    if rc ≠ .ok then .ret rc
    else do
      let _ ← prov (.srv .now)
      let _ ← prov (.audit nodeId .warn "node retired".toList)
      .ret .ok

end SolariNet
