/-
# The frame handlers

`serverIngestDispatch` and what it calls: reports (`serverIngest.c`), HELLO and the fused
health of a monitor (`serverMaster.c`); discovery, topology and control results have modules of
their own.  `serverDrainIngest` (`main.c`) is the loop that receives, validates and dispatches.

The two report handlers are one definition (`ingestReport`) with their parser, their
transaction and what they do after it.  SURVEY_RESP goes the way of a monitor report.
-/
import SolariNet.Server.Alert
import SolariNet.Server.Control
import SolariNet.Server.Discovery
import SolariNet.Server.Validate

namespace SolariNet

open Lib Lib.Prog

structure IngestState where
  dedup : Dedup
  alerts : AlertTable

def IngestState.empty : IngestState := ⟨Dedup.empty, AlertTable.empty⟩

def frameTime (hdr : FrameHeader) : SrvM UInt64 :=
  if hdr.sendTimeUnixMs ≠ 0 then .ret hdr.sendTimeUnixMs else srv .now

def isUrgent (hdr : FrameHeader) : Bool := hdr.flags &&& Flag.urgent != 0

def wantsAck (hdr : FrameHeader) : Bool := hdr.flags &&& Flag.ackReq != 0

/-! ## Reports -/

def serverReportIdentity (hdr : FrameHeader) (payload : Bytes) (allowLegacy : Bool) :
    Except Status ReportReceipt :=
  match scanSession none (readTlvs payload).1 with
  | .error st => .error st
  | .ok found =>
    if (readTlvs payload).2 ≠ .errTlvEnd then .error (readTlvs payload).2
    else
      match found with
      | some s => .ok ⟨s, hdr.seqNo, hdr.msgType, solariSha256 payload, false⟩
      | none =>
        if !allowLegacy || wantsAck hdr then .error .errInvalidArg
        else .ok ⟨zeroSession, hdr.seqNo, hdr.msgType, solariSha256 payload, true⟩

/-- `serverReportAdmit`; a replayed report without a session is CONN_RETRY. -/
def serverReportAdmit (cfg : ServerCfg) (t : Dedup) (hdr : FrameHeader) (payload : Bytes) :
    SrvM (Except Status ReportReceipt × Dedup) :=
  let allowLegacy := cfg.allowLegacyReports &&
    (hdr.msgType == Msg.clientReport || hdr.msgType == Msg.monitorReport)
  match serverReportIdentity hdr payload allowLegacy with
  | .error st => .ret (.error st, t)
  | .ok receipt =>
    if !receipt.legacy then .ret (.ok receipt, t)
    else do
      let nowMs ← srv .now
      let r := serverDedupHas t hdr.sourceNodeId hdr.seqNo nowMs
      .ret (if r.1 then .error .errConnRetry else .ok receipt, r.2)

def markLegacy (t : Dedup) (hdr : FrameHeader) (receipt : ReportReceipt) : SrvM Dedup :=
  if receipt.legacy then do
    let nowMs ← srv .now
    .ret (serverDedupMark t hdr.sourceNodeId hdr.seqNo nowMs)
  else .ret t

def ingestReport {R : Type} (parse : Bytes → Except Status R)
    (write : R → ReportReceipt → SrvM Status) (after : R → AlertTable → SrvM AlertTable)
    (cfg : ServerCfg) (m : IngestState) (hdr : FrameHeader) (payload : Bytes) :
    SrvM (Status × IngestState) :=
  match parse payload with
  | .error st => .ret (st, m)
  | .ok rep => do
      let a ← serverReportAdmit cfg m.dedup hdr payload
      match a.1 with
      | .error st => .ret (if st = .errConnRetry then .ok else st, { m with dedup := a.2 })
      | .ok receipt =>
        let rc ← write rep receipt
        if rc = .errConnRetry then .ret (.ok, { m with dedup := a.2 })
        else if rc ≠ .ok then .ret (rc, { m with dedup := a.2 })
        else
          let t ← markLegacy a.2 hdr receipt
          let alerts ← after rep m.alerts
          .ret (.ok, ⟨t, alerts⟩)

def afterClientReport (hdr : FrameHeader) (rep : ClientReport) (alerts : AlertTable) :
    SrvM AlertTable := do
  let _ ← srv (.setNodeState hdr.sourceNodeId .up)
  let _ ← srv (.setNodeFacts hdr.sourceNodeId rep.osName rep.arch)
  let whenMs ← frameTime hdr
  let _ ← srv (.touchNode hdr.sourceNodeId whenMs)
  let r ← serverAlertEvalClient alerts hdr.sourceNodeId rep (isUrgent hdr)
  .ret r.2

def serverIngestClientReport (cfg : ServerCfg) (m : IngestState) (hdr : FrameHeader)
    (payload : Bytes) : SrvM (Status × IngestState) :=
  ingestReport solariMsgParseClientReport
    (fun rep receipt => srv (.writeClientReport hdr.sourceNodeId rep receipt))
    (afterClientReport hdr) cfg m hdr payload

/-! ## Monitors -/

def serverMasterDeriveHealth (probes : List ProbeResult) : NodeState :=
  if !probes.any (·.outcome == 0) then .down
  else if probes.any (·.outcome != 0) then .degraded
  else if probes.any (100 ≤ ·.lossPermille) then .degraded
  else .up

def serverMasterReconcile (nodeId : UInt64) (rep : MonitorReport) : SrvM Status :=
  if rep.probes = [] then .ret .ok
  else do
    let nowMs ← srv .now
    let _ ← srv (.touchNode nodeId nowMs)
    srv (.setNodeState nodeId (serverMasterDeriveHealth (rep.probes.take solariMaxProbes)))

def afterMonitorReport (hdr : FrameHeader) (rep : MonitorReport) (alerts : AlertTable) :
    SrvM AlertTable := do
  let _ ← serverMasterReconcile hdr.sourceNodeId rep
  let r ← serverAlertEvalMonitor alerts hdr.sourceNodeId rep (isUrgent hdr)
  .ret r.2

def serverIngestMonitorReport (cfg : ServerCfg) (m : IngestState) (hdr : FrameHeader)
    (payload : Bytes) : SrvM (Status × IngestState) :=
  ingestReport solariMsgParseMonitorReport
    (fun rep receipt => srv (.writeMonitorReport hdr.sourceNodeId rep receipt))
    (afterMonitorReport hdr) cfg m hdr payload

/-! ## Handshakes and heartbeats -/

def serverIngestWatchdog (hdr : FrameHeader) : SrvM Status := do
  let whenMs ← frameTime hdr
  srv (.touchNode hdr.sourceNodeId whenMs)

def Role.code : Role → UInt8
  | .client => 1
  | .monitor => 2
  | .server => 3

namespace TlvType

def schedSampleSec : UInt16 := 0x0110
def schedProbeSec : UInt16 := 0x0111
def assignedRole : UInt16 := 0x0112

end TlvType

def serverMasterBuildWelcome (epoch : UInt64) (role : Role) (sampleSec probeSec : UInt32)
    (cap : Nat) : Except Status (Bytes × UInt16) :=
  match solariTlvAppendAll (solariTlvWriterInit cap)
      [Tlv.u64 TlvType.configEpoch epoch, Tlv.u8 TlvType.assignedRole role.code,
        Tlv.u32 TlvType.schedSampleSec sampleSec, Tlv.u32 TlvType.schedProbeSec probeSec] with
  | .error st => .error st
  | .ok w => .ok (w.buf, w.count)

def serverMasterAcceptHello (epoch : UInt64) (hdr : FrameHeader) (hello : Hello)
    (peerCertCn : CStr) (cap : Nat) : SrvM (Except Status (Bytes × UInt16)) := do
  match ← srv (.nodeIdentity hdr.sourceNodeId peerCertCn) with
  | .error st => .ret (.error st)
  | .ok (role, host) =>
    if role.code ≠ hello.role ∨ !sameNoCase host hello.hostFqdn then .ret (.error .errAuthRole)
    else if !serverIngestHelloMatchesIdentity role hello.hostFqdn peerCertCn then
      .ret (.error .errAuthRole)
    else
      let rc ← srv (.upsertNode hdr.sourceNodeId role hello.hostFqdn peerCertCn hello.configEpoch)
      if rc ≠ .ok then .ret (.error rc)
      else
        let whenMs ← frameTime hdr
        let _ ← srv (.touchNode hdr.sourceNodeId whenMs)
        .ret (serverMasterBuildWelcome epoch role 15 30 cap)

def ingestHello (epoch : UInt64) (hdr : FrameHeader) (payload : Bytes) (peerCertCn : CStr) :
    SrvM Status :=
  match solariMsgParseHello payload with
  | .error st => .ret st
  | .ok hello => do
      match ← serverMasterAcceptHello epoch hdr hello peerCertCn 1024 with
      | .error st => .ret st
      | .ok _ => .ret .ok

/-! ## Dispatch -/

def serverIngestApplyCrlActivation (hdr : FrameHeader) (payload : Bytes) : SrvM Status :=
  match serverIngestParseCrlActivation payload with
  | .ok (some receipt) => do
      let _ ← srv (.crlAcknowledge hdr.sourceNodeId receipt)
      .ret .ok
  | _ => .ret .ok

def thenCrl (p : SrvM (Status × IngestState)) (hdr : FrameHeader) (payload : Bytes) :
    SrvM (Status × IngestState) := do
  let r ← p
  if r.1 = .ok then
    let rc ← serverIngestApplyCrlActivation hdr payload
    .ret (rc, r.2)
  else .ret r

def keeping (m : IngestState) (p : SrvM Status) : SrvM (Status × IngestState) := do
  let rc ← p
  .ret (rc, m)

def serverIngestDispatch (cfg : ServerCfg) (epoch : UInt64) (m : IngestState) (hdr : FrameHeader)
    (payload : Bytes) (peerCertCn : CStr) : SrvM (Status × IngestState) :=
  if hdr.msgType = Msg.clientReport then
    thenCrl (serverIngestClientReport cfg m hdr payload) hdr payload
  else if hdr.msgType = Msg.monitorReport ∨ hdr.msgType = Msg.surveyResp then
    thenCrl (serverIngestMonitorReport cfg m hdr payload) hdr payload
  else if hdr.msgType = Msg.watchdog then keeping m (serverIngestWatchdog hdr)
  else if hdr.msgType = Msg.discoveryAdvert then keeping m (serverDiscoveryOnAdvert cfg payload)
  else if hdr.msgType = Msg.topologyReport then
    keeping m (serverTopologyOnReport hdr.sourceNodeId payload)
  else if hdr.msgType = Msg.controlResult then
    keeping m (serverControlOnResult hdr.sourceNodeId hdr.correlationId payload)
  else if hdr.msgType = Msg.hello then keeping m (ingestHello epoch hdr payload peerCertCn)
  else .ret (.errUnknownMsg, m)

theorem serverIngestDispatch_result {epoch : UInt64}
    (h : hdr.msgType = Msg.controlResult) :
    serverIngestDispatch cfg epoch m hdr payload cn =
      keeping m (serverControlOnResult hdr.sourceNodeId hdr.correlationId payload) := by
  unfold serverIngestDispatch
  rw [h]
  rfl

/-! ## The one-way link -/

def Received.cn (rx : Received) : CStr :=
  match rx.peerCn with
  | .error _ => []
  | .ok cn => cn

def ingestFrame (cfg : ServerCfg) (epoch : UInt64) (m : IngestState) (rx : Received) :
    SrvM IngestState :=
  match solariFrameParse rx.bytes with
  | .error _ => .ret m
  | .ok f => do
      let v ← serverIngestValidate m.dedup f.hdr rx.cn
      if v.1 ≠ .ok then .ret { m with dedup := v.2 }
      else
        let r ← serverIngestDispatch cfg epoch { m with dedup := v.2 } f.hdr f.payload rx.cn
        .ret r.2

def drainIngest (cfg : ServerCfg) (epoch : UInt64) : Nat → IngestState → SrvM IngestState
  | 0, m => .ret m
  | burst + 1, m => do
      match ← srv (.recv .ingest) with
      | .error _ => .ret m
      | .ok rx =>
        let m ← ingestFrame cfg epoch m rx
        drainIngest cfg epoch burst m

def serverDrainIngest (cfg : ServerCfg) (epoch : UInt64) (m : IngestState) : SrvM IngestState :=
  drainIngest cfg epoch 64 m

end SolariNet
