/-
# Directives to nodes and what comes back

`serverControl.c`, and the `CONTROL` and `SURVEY` requests of `solariCtl.c` that use it.

    ctlControl               build a frame, insert the pending row, publish the frame
    serverControlOnResult    a node's CONTROL_RESULT: acknowledge a decommission, or delete the
                             pending row and record the outcome

A directive is known by its correlation id, which is the sequence number of its frame.  The
counter is a static variable of the process: it starts at zero with it.
-/
import SolariNet.Ctl.Line
import SolariNet.Server.Ops
import SolariNet.Wire.Frame

namespace SolariNet

open Lib Lib.Prog

/-! ## Outbound -/

def serverControlNextSeq (seq : UInt32) : UInt32 := seq + 1

def serverControlInitHeader (self : UInt64) (msgType : UInt8) (tlvCount : UInt16) (seq : UInt32)
    (nowMs : UInt64) : FrameHeader where
  msgType := msgType
  flags := Flag.none
  tlvCount := tlvCount
  sourceNodeId := self
  sendTimeUnixMs := nowMs
  seqNo := seq
  correlationId := seq

def serverControlTlvMax : Nat := 64 * 1024

def serverControlBuild (self : UInt64) (seq : UInt32) (c : Control) (cap : Nat) :
    SrvM (Except Status Bytes × UInt32) :=
  match solariMsgBuildControl c serverControlTlvMax with
  | .error st => .ret (.error st, seq)
  | .ok (tlvs, count) => do
      let nowMs ← srv .now
      let seq := serverControlNextSeq seq
      let hdr := serverControlInitHeader self Msg.control count seq nowMs
      .ret (solariFrameBuild hdr tlvs cap, seq)

theorem serverControlBuild_uses {P : SrvOp → Prop} (hnow : P .now) (self : UInt64) (seq : UInt32)
    (c : Control) (cap : Nat) : (serverControlBuild self seq c cap).Uses P := by
  unfold serverControlBuild
  split
  · trivial
  · exact .perform_bind hnow fun _ => trivial

theorem serverControlBuild_returns (self : UInt64) (seq : UInt32) (c : Control) (cap : Nat) :
    (serverControlBuild self seq c cap).Returns fun r => ∀ frame, r.1 = .ok frame →
      ∃ f, solariFrameParse frame = .ok f ∧ f.hdr.correlationId = f.hdr.seqNo ∧
        solariMsgParseControl f.payload = .ok c := by
  unfold serverControlBuild
  split
  · intro frame hf
    cases hf
  next tlvs count hb =>
  intro nowMs frame hf
  obtain ⟨hframed, rfl⟩ := solariFrameBuild_ok hf
  exact ⟨_, solariFrameParse_of_framed hframed, rfl, solariMsgParseControl_build hb⟩

def serverControlBuildSurvey (self : UInt64) (seq : UInt32) (cap : Nat) :
    SrvM (Except Status Bytes × UInt32) := do
  let nowMs ← srv .now
  let seq := serverControlNextSeq seq
  .ret (solariFrameBuild (serverControlInitHeader self Msg.survey 0 seq nowMs) [] cap, seq)

structure CtlControl where
  nodeId : UInt64
  verb : UInt64
  epoch : UInt64
  payload : Bytes
  payload_lt : payload.length < ctlReqCap

def CtlControl.directive (a : CtlControl) : Control where
  verb := a.verb.toUInt8
  targetEpoch := a.epoch
  targetNode := a.nodeId
  payload := a.payload
  payload_lt := lt_trans a.payload_lt (by decide)

/-- Insert the pending row, publish, and take the row back if that fails. -/
def ctlPublish (row : DirectiveRow) (frame : Bytes) : SrvM Status := do
  let rc ← srv (.controlDirectiveAdd row)
  if rc ≠ .ok then .ret rc
  else
    let rc ← srv (.publishControl frame)
    if rc ≠ .ok then
      let _ ← srv (.controlDirectiveCancel row.nodeId row.correlationId)
      .ret rc
    else .ret .ok

def ctlControl (self : UInt64) (seq : UInt32) (a : CtlControl) (pub : Bool) :
    SrvM (Status × UInt32) :=
  if a.nodeId = 0 then .ret (.errInvalidArg, seq)
  else if a.verb = 0 ∨ 0xFF < a.verb then .ret (.errInvalidArg, seq)
  else do
    let r ← serverControlBuild self seq a.directive ctlReqCap
    match r.1 with
    | .error st => .ret (st, r.2)
    | .ok frame =>
      if !pub then .ret (.errInvalidArg, r.2)
      else
        match solariFrameParse frame with
        | .error st => .ret (st, r.2)
        | .ok f =>
          if f.hdr.correlationId = 0 then .ret (.errInvalidArg, r.2)
          else do
            let rc ← ctlPublish ⟨a.nodeId, f.hdr.correlationId, a.verb.toUInt8, a.epoch⟩ frame
            .ret (rc, r.2)

def ctlSurvey (self : UInt64) (seq : UInt32) (pub : Bool) : SrvM (Status × UInt32) := do
  let r ← serverControlBuildSurvey self seq ctlReqCap
  match r.1 with
  | .error st => .ret (st, r.2)
  | .ok frame =>
    if !pub then .ret (.ok, r.2)
    else
      let rc ← srv (.publishControl frame)
      .ret (if rc = .errConnRetry then .ok else rc, r.2)

/-! ## Results -/

namespace TlvType

def lifeGeneration : UInt16 := 0x3203

end TlvType

structure ControlResult where
  verb : UInt8 := 0
  errCode : UInt16 := 0
  appliedEpoch : UInt64 := 0
  lifeGeneration : UInt64 := 0
  haveVerb : Bool := false
  haveErr : Bool := false
  haveEpoch : Bool := false
  haveLifeGeneration : Bool := false

def controlResultTlv (r : ControlResult) (t : Tlv) : ControlResult :=
  if t.type = TlvType.ctrlVerb then
    if t.value.length = 1 then { r with verb := t.value.getD 0 0, haveVerb := true } else r
  else if t.type = TlvType.errorCode then
    if t.value.length = 2 then { r with errCode := solariGetU16 t.value 0, haveErr := true } else r
  else if t.type = TlvType.ctrlTargetEpoch then
    if t.value.length = 8 then
      { r with appliedEpoch := solariGetU64 t.value 0, haveEpoch := true }
    else r
  else if t.type = TlvType.lifeGeneration then
    if t.value.length = 8 then
      { r with lifeGeneration := solariGetU64 t.value 0, haveLifeGeneration := true }
    else r
  else r

def serverControlParseResult (payload : Bytes) : Except Status ControlResult :=
  parseTlvs controlResultTlv {} payload

def serverControlFormatResult (res : ControlResult) : CStr :=
  if !res.haveErr ∨ res.errCode = 0 then "ok".toList
  else "err:".toList ++ (Nat.repr res.errCode.toNat).toList

def ControlResult.outcome (res : ControlResult) (nodeId : UInt64) (correlationId : UInt32) :
    DirectiveOutcome where
  nodeId := nodeId
  correlationId := correlationId
  verb := res.verb
  appliedEpoch := res.appliedEpoch
  haveEpoch := res.haveEpoch
  errCode := res.errCode
  lastResult :=
    if res.errCode = 0 ∧ convergent res.verb ∧ !res.haveEpoch then "epoch-missing".toList
    else serverControlFormatResult res

def serverControlOnResult (nodeId : UInt64) (correlationId : UInt32) (payload : Bytes) :
    SrvM Status :=
  match serverControlParseResult payload with
  | .error st => .ret st
  | .ok res =>
    if correlationId = 0 ∨ !res.haveVerb ∨ !res.haveErr ∨ res.verb = 0 then .ret .errInvalidArg
    else do
      let _whenMs ← srv .now
      if res.verb = Verb.decommission then
        if !res.haveLifeGeneration ∨ res.lifeGeneration = 0 then .ret .errInvalidArg
        else if res.errCode ≠ 0 then .ret .errPlatform
        else srv (.decommissionAck nodeId res.lifeGeneration)
      else srv (.controlResultApply (res.outcome nodeId correlationId))

end SolariNet
