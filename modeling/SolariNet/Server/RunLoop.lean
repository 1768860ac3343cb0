/-
# The main loop of the server

`main.c`: a turn of `serverRunLoop` ticks the lease when it is due and, while the server is active,
drains the one-way link and serves one request of the control link.  Every request is answered, a
report with an ACK that carries its session; a report that was committed before is acknowledged
again.

The operator bridge, the decommission retries and the sweep for silent nodes, which a turn also
runs, have nothing to do with reports or the lease and are left out.
-/
import SolariNet.Server.Footprint
import SolariNet.Server.LeaseTick

namespace SolariNet

open Lib Lib.Prog

/-! ## Replies -/

def serverReplyNextSeq (seq : UInt32) : UInt32 := seq + 1

def serverBuildReplyFrame (self : UInt64) (seq : UInt32) (msgType : UInt8) (correlationId : UInt32)
    (tlvCount : UInt16) (payload : Bytes) : SrvM (Except Status Bytes × UInt32) := do
  let nowMs ← srv .now
  let seq := serverReplyNextSeq seq
  .ret (solariFrameBuild
    { msgType := msgType, flags := Flag.none, tlvCount := tlvCount, sourceNodeId := self,
      sendTimeUnixMs := nowMs, seqNo := seq, correlationId := correlationId } payload 2048, seq)

namespace TlvType

def leaseHolderId : UInt16 := 0x0105

end TlvType

def serverSendError (self : UInt64) (seq correlationId : UInt32) (code : UInt16) (detail : String) :
    SrvM UInt32 :=
  match solariMsgBuildError code detail.toList 256 with
  | .error _ => .ret seq
  | .ok (tlvs, count) => do
      let f ← serverBuildReplyFrame self seq Msg.error correlationId count tlvs
      match f.1 with
      | .error _ => .ret f.2
      | .ok frame =>
        let _ ← srv (.reply frame)
        .ret f.2

def serverSendReportAck (self : UInt64) (seq : UInt32) (request : FrameHeader) (payload : Bytes) :
    SrvM (Status × UInt32) :=
  match scanSession none (readTlvs payload).1 with
  | .error _ => .ret (.errInvalidArg, seq)
  | .ok found =>
    match (readTlvs payload).2, found with
    | .errTlvEnd, some session =>
      match solariTlvAppend (solariTlvWriterInit 32) (sessionTlv session) with
      | .error st => .ret (st, seq)
      | .ok w => do
          let f ← serverBuildReplyFrame self seq Msg.ack request.seqNo w.count w.buf
          match f.1 with
          | .error st => .ret (st, f.2)
          | .ok frame =>
            let rc ← srv (.reply frame)
            .ret (rc, f.2)
    | _, _ => .ret (.errInvalidArg, seq)

/-! ## The control link -/

def serverLeaseBuildPrimaryIs (hostFqdn : CStr) (holder epoch : UInt64) (cap : Nat) :
    Except Status (Bytes × UInt16) := do
  let w ← solariTlvAppendAll (solariTlvWriterInit cap)
    [Tlv.u8 TlvType.role Role.server.code, Tlv.u64 TlvType.leaseHolderId holder,
      Tlv.u64 TlvType.configEpoch epoch]
  let w ← if hostFqdn = [] then .ok w else solariTlvAppendStr w TlvType.hostFqdn hostFqdn
  return (w.buf, w.count)

def serverLeaseAnswerWhoIsPrimary (hostFqdn : CStr) (self : UInt64) (m : LeaseCtx) (cap : Nat) :
    SrvM (Except Status (Bytes × UInt16)) := do
  match ← srv (.lease .read) with
  | .error st => .ret (.error st)
  | .ok (holder, epoch) =>
    let view : UInt64 × Nat :=
      if holder = 0 then
        (if m.role = .active then self else 0, if epoch = 0 then m.epoch else epoch)
      else (holder, epoch)
    .ret (serverLeaseBuildPrimaryIs hostFqdn view.1 (UInt64.ofNat view.2) cap)

structure LinkState where
  ingest : IngestState
  replySeq : UInt32

structure LoopCfg where
  server : ServerCfg
  lease : LeaseCfg
  hostFqdn : CStr

def refuse (self : UInt64) (k : LinkState) (correlationId : UInt32) (code : UInt16)
    (detail : String) : SrvM LinkState := do
  let seq ← serverSendError self k.replySeq correlationId code detail
  .ret { k with replySeq := seq }

def replyOr (self : UInt64) (k : LinkState) (msgType : UInt8) (correlationId : UInt32)
    (built : Bytes × UInt16) (code : UInt16) (detail : String) : SrvM LinkState := do
  let f ← serverBuildReplyFrame self k.replySeq msgType correlationId built.2 built.1
  match f.1 with
  | .error _ => refuse self { k with replySeq := f.2 } correlationId code detail
  | .ok frame =>
    let _ ← srv (.reply frame)
    .ret { k with replySeq := f.2 }

def serveReport (cfg : LoopCfg) (self : UInt64) (m : LeaseCtx) (k : LinkState) (f : Frame)
    (cn : CStr) : SrvM LinkState :=
  if !wantsAck f.hdr then refuse self k f.hdr.seqNo 7 "report ACK required"
  else do
    let r ← serverIngestDispatch cfg.server (UInt64.ofNat m.epoch) k.ingest f.hdr f.payload cn
    let k := { k with ingest := r.2 }
    if r.1 ≠ .ok ∧ r.1 ≠ .errConnRetry then
      refuse self k f.hdr.seqNo 8 "report persistence failed"
    else do
      let a ← serverSendReportAck self k.replySeq f.hdr f.payload
      .ret { k with replySeq := a.2 }

def serveHello (self : UInt64) (m : LeaseCtx) (k : LinkState) (f : Frame) (cn : CStr) :
    SrvM LinkState :=
  match solariMsgParseHello f.payload with
  | .error _ => refuse self k f.hdr.seqNo 3 "hello rejected"
  | .ok hello => do
      match ← serverMasterAcceptHello (UInt64.ofNat m.epoch) f.hdr hello cn 1024 with
      | .error _ => refuse self k f.hdr.seqNo 3 "hello rejected"
      | .ok built => replyOr self k Msg.welcome f.hdr.seqNo built 4 "welcome build failed"

def serveWhoIsPrimary (cfg : LoopCfg) (self : UInt64) (m : LeaseCtx) (k : LinkState) (f : Frame) :
    SrvM LinkState := do
  match ← serverLeaseAnswerWhoIsPrimary cfg.hostFqdn self m 1024 with
  | .error _ => refuse self k f.hdr.seqNo 5 "primary lookup failed"
  | .ok built => replyOr self k Msg.primaryIs f.hdr.seqNo built 4 "primary build failed"

def serveRequest (cfg : LoopCfg) (self : UInt64) (m : LeaseCtx) (k : LinkState) (f : Frame)
    (cn : CStr) : SrvM LinkState :=
  if isDurableReport f.hdr.msgType then serveReport cfg self m k f cn
  else if f.hdr.msgType = Msg.hello then serveHello self m k f cn
  else if f.hdr.msgType = Msg.whoIsPrimary then serveWhoIsPrimary cfg self m k f
  else refuse self k f.hdr.seqNo 6 "unsupported on control link"

def controlFrame (cfg : LoopCfg) (self : UInt64) (m : LeaseCtx) (k : LinkState) (rx : Received) :
    SrvM LinkState :=
  match solariFrameParse rx.bytes with
  | .error _ => refuse self k 0 1 "malformed frame"
  | .ok f => do
      let v ← serverIngestValidate k.ingest.dedup f.hdr rx.cn
      let k := { k with ingest := { k.ingest with dedup := v.2 } }
      if v.1 = .errAuthRole then refuse self k f.hdr.seqNo 2 "role not permitted"
      else if v.1 ≠ .ok ∧ v.1 ≠ .errConnRetry then
        refuse self k f.hdr.seqNo 8 "identity validation failed"
      else serveRequest cfg self m k f rx.cn

def serverServiceControl (cfg : LoopCfg) (self : UInt64) (m : LeaseCtx) (k : LinkState) :
    SrvM LinkState :=
  if !m.bound .control then .ret k
  else do
    match ← srv (.recv .control) with
    | .error _ => .ret k
    | .ok rx => controlFrame cfg self m k rx

/-! ## The loop -/

structure ServerMem where
  lease : LeaseCtx
  link : LinkState
  nextLeaseMs : UInt64

def ServerMem.init : ServerMem := ⟨.init, ⟨.empty, 0⟩, 0⟩

def leaseTurn (cfg : LoopCfg) (self : UInt64) (m : ServerMem) : LoopM ServerMem := do
  let nowMs ← loop (.srv .now)
  if nowMs < m.nextLeaseMs then .ret m
  else do
    let r ← serverLeaseTick cfg.lease self m.lease
    .ret { m with
      lease := r.2, nextLeaseMs := nowMs + cfg.lease.leaseRenewSec.toUInt64 * 1000 }

def drainTurn (cfg : LoopCfg) (m : LeaseCtx) (k : LinkState) : SrvM LinkState :=
  if !m.bound .ingest then .ret k
  else do
    let ingest ← serverDrainIngest cfg.server (UInt64.ofNat m.epoch) k.ingest
    .ret { k with ingest := ingest }

def fleetTurn (cfg : LoopCfg) (self : UInt64) (m : LeaseCtx) (k : LinkState) : SrvM LinkState :=
  if m.role ≠ .active then .ret k
  else do
    let k ← drainTurn cfg m k
    serverServiceControl cfg self m k

def serverLoopTurn (cfg : LoopCfg) (self : UInt64) (m : ServerMem) : LoopM ServerMem := do
  let m ← leaseTurn cfg self m
  let link ← onServer (fleetTurn cfg self m.lease m.link)
  .ret { m with link := link }

/-! ## What serving the fleet asks for -/

def SrvOp.leavesLease : SrvOp → Bool
  | .bind _ => false
  | .lease .read => true
  | .lease _ => false
  | _ => true

theorem SrvOp.leavesLease_of_isMinor {o : SrvOp} (ho : o.isMinor = true) :
    o.leavesLease = true := by
  cases o with
  | bind l | lease lo => cases ho
  | _ => rfl

theorem Footprint.leavesLease
    (h : Footprint cfg hdr payload o) : o.leavesLease = true := by
  cases h with
  | clientReport | monitorReport | result | ack => rfl
  | discovery _ ho =>
    cases o with
    | bind l | lease lo => cases ho
    | _ => rfl
  | minor ho => exact SrvOp.leavesLease_of_isMinor ho

/-! ### A request -/

section
variable {P : SrvOp → Prop} (hnow : P .now) (hreply : ∀ frame, P (.reply frame))
include hnow

theorem serverBuildReplyFrame_uses (self : UInt64) (seq : UInt32) (msgType : UInt8)
    (correlationId : UInt32) (tlvCount : UInt16) (payload : Bytes) :
    (serverBuildReplyFrame self seq msgType correlationId tlvCount payload).Uses P :=
  .perform_bind hnow fun _ => trivial

include hreply

theorem serverSendError_uses (self : UInt64) (seq correlationId : UInt32) (code : UInt16)
    (detail : String) : (serverSendError self seq correlationId code detail).Uses P := by
  unfold serverSendError
  split
  · trivial
  refine Uses.bind (serverBuildReplyFrame_uses hnow _ _ _ _ _ _) fun f => ?_
  split
  · trivial
  · exact .perform_bind (hreply _) fun _ => trivial

theorem serverSendReportAck_uses (self : UInt64) (seq : UInt32) (request : FrameHeader)
    (payload : Bytes) : (serverSendReportAck self seq request payload).Uses P := by
  unfold serverSendReportAck
  split
  · trivial
  split
  · split
    · trivial
    refine Uses.bind (serverBuildReplyFrame_uses hnow _ _ _ _ _ _) fun f => ?_
    split
    · trivial
    · exact .perform_bind (hreply _) fun _ => trivial
  · trivial

theorem refuse_uses (self : UInt64) (k : LinkState) (correlationId : UInt32) (code : UInt16)
    (detail : String) : (refuse self k correlationId code detail).Uses P :=
  Uses.bind (serverSendError_uses hnow hreply _ _ _ _ _) fun _ => trivial

theorem replyOr_uses (self : UInt64) (k : LinkState) (msgType : UInt8) (correlationId : UInt32)
    (built : Bytes × UInt16) (code : UInt16) (detail : String) :
    (replyOr self k msgType correlationId built code detail).Uses P := by
  refine Uses.bind (serverBuildReplyFrame_uses hnow _ _ _ _ _ _) fun f => ?_
  split
  · exact refuse_uses hnow hreply _ _ _ _ _
  · exact .perform_bind (hreply _) fun _ => trivial

theorem serveRequest_uses
    (hfoot : ∀ o, f.hdr.msgType ≠ Msg.controlResult → Footprint cfg.server f.hdr f.payload o → P o)
    (hread : P (.lease .read)) (self : UInt64) (m : LeaseCtx) (k : LinkState) (cn : CStr) :
    (serveRequest cfg self m k f cn).Uses P := by
  have hrefuse := refuse_uses hnow hreply
  unfold serveRequest
  split
  · next hreport =>
    have ht : f.hdr.msgType ≠ Msg.controlResult := by
      intro ht
      rw [ht] at hreport
      exact absurd hreport (by decide)
    unfold serveReport
    split
    · exact hrefuse _ _ _ _ _
    refine Uses.bind ((serverIngestDispatch_uses _ _ _ _ _ _).mono fun o => hfoot o ht)
      fun r => ?_
    split
    · exact hrefuse _ _ _ _ _
    · exact Uses.bind (serverSendReportAck_uses hnow hreply _ _ _ _) fun _ => trivial
  · split
    · next hhello =>
      have ht : f.hdr.msgType ≠ Msg.controlResult := by
        rw [hhello]
        decide
      unfold serveHello
      split
      · exact hrefuse _ _ _ _ _
      refine Uses.bind (serverMasterAcceptHello_uses
        (fun o ho hn => hfoot o ht (.minor ho hn)) _ _ _ _) fun r => ?_
      split
      · exact hrefuse _ _ _ _ _
      · exact replyOr_uses hnow hreply _ _ _ _ _ _ _
    · split
      · refine Uses.bind (.perform_bind hread fun r => ?_) fun r => ?_
        · cases r <;> trivial
        · split
          · exact hrefuse _ _ _ _ _
          · exact replyOr_uses hnow hreply _ _ _ _ _ _ _
      · exact hrefuse _ _ _ _ _

end

/-! ### A turn -/

section
variable {P : SrvOp → Prop} (h : ∀ o : SrvOp, o.leavesLease = true → P o)
include h

theorem controlFrame_uses (cfg : LoopCfg) (self : UInt64) (m : LeaseCtx) (k : LinkState)
    (rx : Received) : (controlFrame cfg self m k rx).Uses P := by
  have hreply : ∀ frame, P (.reply frame) := fun _ => h _ rfl
  have hrefuse := refuse_uses (h _ rfl) hreply
  unfold controlFrame
  split
  · exact hrefuse _ _ _ _ _
  refine Uses.bind (serverIngestValidate_uses
    (fun o ho _ => h o (SrvOp.leavesLease_of_isMinor ho)) _ _) fun v => ?_
  split
  · exact hrefuse _ _ _ _ _
  split
  · exact hrefuse _ _ _ _ _
  · exact serveRequest_uses (h _ rfl) hreply (fun o _ ho => h o ho.leavesLease) (h _ rfl)
      _ _ _ _

theorem drainIngest_uses (cfg : ServerCfg) (epoch : UInt64) (burst : Nat) (m : IngestState) :
    (drainIngest cfg epoch burst m).Uses P := by
  induction burst generalizing m with
  | zero => trivial
  | succ burst ih =>
    refine .perform_bind (h _ rfl) fun r => ?_
    cases r with
    | error st => trivial
    | ok rx =>
      exact Uses.bind (ingestFrame_uses (fun _ o _ ho => h o ho.leavesLease) _ _) fun m => ih m

theorem fleetTurn_uses (cfg : LoopCfg) (self : UInt64) (m : LeaseCtx) (k : LinkState) :
    (fleetTurn cfg self m k).Uses P := by
  unfold fleetTurn
  split
  · trivial
  refine Uses.bind ?_ fun k => ?_
  · unfold drainTurn
    split
    · trivial
    · exact Uses.bind (drainIngest_uses h _ _ _ _) fun _ => trivial
  · unfold serverServiceControl
    split
    · trivial
    refine .perform_bind (h _ rfl) fun r => ?_
    cases r with
    | error st => trivial
    | ok rx => exact controlFrame_uses h _ _ _ _ _

end

end SolariNet
