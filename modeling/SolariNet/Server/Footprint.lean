/-
# What handling a frame can ask for

Which operations a dispatched frame can lead to, by its message type.  Only a report writes
a report, only an advert touches `discovered` and what follows from it, and only a control
result deletes a pending directive or acknowledges a decommission; the rest (`SrvOp.isMinor`) are
the clock, the node's own row, the alert tables, the topology tables and the CRL receipts.
-/
import SolariNet.Server.Ingest

namespace SolariNet

open Lib Lib.Prog

def SrvOp.isMinor : SrvOp → Bool
  | .now | .publishAlert _ _ | .nodeIdentity _ _ | .upsertNode _ _ _ _ _ | .touchNode _ _ => true
  | .setNodeState _ _ | .setNodeFacts _ _ _ | .crlAcknowledge _ _ | .loadAlertRules _ => true
  | .nodeAlertTier _ | .probeAlertTier _ | .findOpenAlertEvent _ _ _ => true
  | .alertEventDisposition _ | .writeAlertEvent _ | .upsertNetGear _ | .writeLldpEdge _ => true
  | _ => false

def SrvOp.OfNode (n : UInt64) : SrvOp → Prop
  | .nodeIdentity m _ | .upsertNode m _ _ _ _ | .setNodeState m _ => m = n
  | _ => True

def SrvOp.isDiscovery : SrvOp → Bool
  | .now | .discoveredIsKnown _ _ | .upsertDiscovered _ | .getDiscovered _ => true
  | .setDiscoveredStatus _ _ | .enrollCreate _ _ _ | .addressTombstoned _ => true
  | .upsertProbeTarget _ | .dispatchTarget _ => true
  | _ => false

def legacyAllowed (cfg : ServerCfg) (hdr : FrameHeader) : Bool :=
  cfg.allowLegacyReports && (hdr.msgType == Msg.clientReport || hdr.msgType == Msg.monitorReport)

inductive Footprint (cfg : ServerCfg) (hdr : FrameHeader) (payload : Bytes) : SrvOp → Prop where
  | clientReport {rep : ClientReport} {receipt : ReportReceipt}
      (ht : hdr.msgType = Msg.clientReport) (hp : solariMsgParseClientReport payload = .ok rep)
      (hr : serverReportIdentity hdr payload (legacyAllowed cfg hdr) = .ok receipt) :
      Footprint cfg hdr payload (.writeClientReport hdr.sourceNodeId rep receipt)
  | monitorReport {rep : MonitorReport} {receipt : ReportReceipt}
      (ht : hdr.msgType = Msg.monitorReport ∨ hdr.msgType = Msg.surveyResp)
      (hp : solariMsgParseMonitorReport payload = .ok rep)
      (hr : serverReportIdentity hdr payload (legacyAllowed cfg hdr) = .ok receipt) :
      Footprint cfg hdr payload (.writeMonitorReport hdr.sourceNodeId rep receipt)
  | discovery {o : SrvOp} (ht : hdr.msgType = Msg.discoveryAdvert) (ho : o.isDiscovery = true) :
      Footprint cfg hdr payload o
  | result {res : ControlResult} (ht : hdr.msgType = Msg.controlResult) : Footprint cfg hdr payload
        (.controlResultApply (res.outcome hdr.sourceNodeId hdr.correlationId))
  | ack {generation : UInt64} (ht : hdr.msgType = Msg.controlResult) :
      Footprint cfg hdr payload (.decommissionAck hdr.sourceNodeId generation)
  | minor {o : SrvOp} (ho : o.isMinor = true) (hn : o.OfNode hdr.sourceNodeId) :
      Footprint cfg hdr payload o

/-! ## Alerts -/

section
variable {n : UInt64} {P : SrvOp → Prop}
  (h : ∀ o : SrvOp, o.isMinor = true → o.OfNode n → P o)
  (t : AlertTable) (s : AlertSlot) (x : Sample) (tier : AlertTier)
include h

theorem alertHydrate_uses : (alertHydrate s x).Uses P := by
  unfold alertHydrate
  split
  · trivial
  · refine .perform_bind (h _ rfl trivial) fun r => ?_
    cases r <;> trivial

theorem alertOpen_uses (nowMs : UInt64) : (alertOpen s x tier nowMs).Uses P := by
  unfold alertOpen
  simp only
  split
  · trivial
  split
  · trivial
  split
  · exact .perform (h _ rfl trivial)
  refine .perform_bind (h _ rfl trivial) fun r => ?_
  cases r with
  | error st => trivial
  | ok id => exact .perform (h _ rfl trivial)

theorem alertWriteCleared_uses : (alertWriteCleared s x tier).Uses P := by
  unfold alertWriteCleared
  split
  · trivial
  refine .perform_bind (h _ rfl trivial) fun r => ?_
  cases r with
  | error st => trivial
  | ok d =>
    refine .perform_bind (h _ rfl trivial) fun r => ?_
    cases r <;> trivial

theorem alertClear_uses : (alertClear s x tier).Uses P := by
  unfold alertClear
  simp only
  split
  · trivial
  refine Uses.bind (alertWriteCleared_uses h _ _ _) fun rc => ?_
  split
  · trivial
  · exact .perform (h _ rfl trivial)

theorem alertApplySlot_uses (nowMs : UInt64) : (alertApplySlot s x tier nowMs).Uses P := by
  refine Uses.bind (alertHydrate_uses h _ _) fun r => ?_
  simp only
  split
  · trivial
  split
  · exact alertOpen_uses h _ _ _ _
  · exact alertClear_uses h _ _ _

theorem alertTierOf_uses : (alertTierOf x).Uses P := by
  unfold alertTierOf
  split
  · exact .perform (h _ rfl trivial)
  · exact .perform (h _ rfl trivial)

theorem alertApply_uses : (alertApply t x).Uses P := by
  refine .perform_bind (h _ rfl trivial) fun nowMs => ?_
  generalize alertStateFind t _ _ _ = found
  obtain ⟨place, t'⟩ := found
  refine Uses.bind (alertTierOf_uses h _) fun r => ?_
  cases r with
  | error st => trivial
  | ok tier =>
    simp only
    split
    · trivial
    cases place with
    | none => trivial
    | some i => exact Uses.bind (alertApplySlot_uses h _ _ _ _) fun _ => trivial

theorem alertApplyAll_uses (xs : List Sample) : (alertApplyAll t xs).Uses P := by
  induction xs generalizing t with
  | nil => trivial
  | cons x xs ih =>
    refine Uses.bind (alertApply_uses h t x) fun r => ?_
    simp only
    split
    · trivial
    · exact ih _

theorem alertEval_uses (scope : AlertScope) (samples : List AlertRule → List Sample) :
    (alertEval t scope samples).Uses P := by
  refine .perform_bind (h _ rfl trivial) fun r => ?_
  cases r with
  | error st => trivial
  | ok rules => exact alertApplyAll_uses h _ _

/-! ## Handlers without a footprint of their own -/

theorem frameTime_uses (hdr : FrameHeader) : (frameTime hdr).Uses P := by
  unfold frameTime
  split
  · trivial
  · exact .perform (h _ rfl trivial)

end

section
variable {P : SrvOp → Prop} {hdr : FrameHeader}
  (h : ∀ o : SrvOp, o.isMinor = true → o.OfNode hdr.sourceNodeId → P o)
include h

theorem afterClientReport_uses (rep : ClientReport) (alerts : AlertTable) :
    (afterClientReport hdr rep alerts).Uses P := by
  refine .perform_bind (h _ rfl rfl) fun _ => .perform_bind (h _ rfl trivial) fun _ => ?_
  refine Uses.bind (frameTime_uses h hdr) fun _ => .perform_bind (h _ rfl trivial) fun _ => ?_
  exact Uses.bind (alertEval_uses h _ _ _) fun _ => trivial

theorem afterMonitorReport_uses (rep : MonitorReport) (alerts : AlertTable) :
    (afterMonitorReport hdr rep alerts).Uses P := by
  refine Uses.bind ?_ fun _ => Uses.bind (alertEval_uses h _ _ _) fun _ => trivial
  unfold serverMasterReconcile
  split
  · trivial
  · refine .perform_bind (h _ rfl trivial) fun _ => .perform_bind (h _ rfl trivial) fun _ => ?_
    exact .perform (h _ rfl rfl)

theorem serverIngestWatchdog_uses : (serverIngestWatchdog hdr).Uses P :=
  Uses.bind (frameTime_uses h hdr) fun _ => .perform (h _ rfl trivial)

theorem serverMasterAcceptHello_uses (epoch : UInt64) (hello : Hello)
    (cn : CStr) (cap : Nat) : (serverMasterAcceptHello epoch hdr hello cn cap).Uses P := by
  refine .perform_bind (h _ rfl rfl) fun r => ?_
  cases r with
  | error st => trivial
  | ok identity =>
    simp only
    split
    · trivial
    split
    · trivial
    refine .perform_bind (h _ rfl rfl) fun rc => ?_
    split
    · trivial
    · refine Uses.bind (frameTime_uses h hdr) fun _ => ?_
      exact .perform_bind (h _ rfl trivial) fun _ => trivial

theorem ingestHello_uses (epoch : UInt64) (payload : Bytes) (cn : CStr) :
    (ingestHello epoch hdr payload cn).Uses P := by
  unfold ingestHello
  split
  · trivial
  · refine Uses.bind (serverMasterAcceptHello_uses h _ _ _ _) fun r => ?_
    cases r <;> trivial

theorem serverIngestApplyCrlActivation_uses (payload : Bytes) :
    (serverIngestApplyCrlActivation hdr payload).Uses P := by
  unfold serverIngestApplyCrlActivation
  split
  · exact .perform (h _ rfl trivial)
  · trivial

theorem serverIngestValidate_uses (t : Dedup) (cn : CStr) :
    (serverIngestValidate t hdr cn).Uses P := by
  unfold serverIngestValidate
  split
  · trivial
  refine .perform_bind (h _ rfl rfl) fun r => ?_
  cases r with
  | error st => trivial
  | ok identity =>
    simp only
    split
    · trivial
    refine .perform_bind (h _ rfl trivial) fun nowMs => ?_
    split
    · trivial
    · trivial

end

section
variable {n : UInt64} {P : SrvOp → Prop}
  (h : ∀ o : SrvOp, o.isMinor = true → o.OfNode n → P o)
include h

theorem topoPersist_uses (g : NetGear) (e : LldpEdge) : (topoPersist g e).Uses P := by
  refine .perform_bind (h _ rfl trivial) fun rc => ?_
  split
  · trivial
  · exact .perform (h _ rfl trivial)

theorem topoReportLoop_uses (nodeId : UInt64) (stop : Status) (s : TopoReport) (ts : List Tlv) :
    (topoReportLoop nodeId stop s ts).Uses P := by
  induction ts generalizing s with
  | nil => trivial
  | cons t ts ih =>
    have hthen : ∀ {p : SrvM Status} {s' : TopoReport}, p.Uses P →
        (do let rc ← p; if rc ≠ .ok then .ret rc else topoReportLoop nodeId stop s' ts :
          SrvM Status).Uses P := by
      intro p s' hp
      refine Uses.bind hp fun rc => ?_
      split
      · trivial
      · exact ih _
    unfold topoReportLoop
    split
    · refine hthen ?_
      unfold topoUplinkTlv
      simp only
      split
      · trivial
      · exact topoPersist_uses h _ _
    · split
      · split
        · exact ih _
        refine hthen ?_
        unfold topoNeighTlv
        simp only
        split
        · trivial
        · exact topoPersist_uses h _ _
      · split
        · simp only
          split
          · exact ih _
          · exact ih _
        · exact ih _

theorem serverTopologyOnReport_uses (nodeId : UInt64) (payload : Bytes) :
    (serverTopologyOnReport nodeId payload).Uses P :=
  .perform_bind (h _ rfl trivial) fun _ => topoReportLoop_uses h _ _ _ _

end

/-! ## Adverts -/

section
variable {P : SrvOp → Prop} (h : ∀ o : SrvOp, o.isDiscovery = true → P o)
include h

theorem serverProvisionAdoptTarget_uses (discId : Nat) (spec : CStr) :
    (serverProvisionAdoptTarget discId spec).Uses P := by
  unfold serverProvisionAdoptTarget
  split
  · trivial
  refine .perform_bind (h _ rfl) fun r => ?_
  cases r with
  | error st => trivial
  | ok e =>
    simp only
    split
    · trivial
    refine .perform_bind (h _ rfl) fun tombstoned => ?_
    split
    · exact .perform_bind (h _ rfl) fun _ => trivial
    refine .perform_bind (h _ rfl) fun _ => .perform_bind (h _ rfl) fun _ => ?_
    refine .perform_bind (h _ rfl) fun rc => ?_
    split
    · trivial
    split
    · exact .perform_bind (h _ rfl) fun _ => trivial
    · exact .perform_bind (h _ rfl) fun _ => trivial

theorem serverDiscoveryAdopt_uses (discId : Nat) (spec : CStr) :
    (serverDiscoveryAdopt discId spec).Uses P := by
  unfold serverDiscoveryAdopt
  split
  · trivial
  refine .perform_bind (h _ rfl) fun r => ?_
  cases r with
  | error st => trivial
  | ok e =>
    refine .perform_bind (h _ rfl) fun _ => ?_
    refine Uses.bind ?_ fun rc => ?_
    · unfold adoptRoute
      split
      · exact serverProvisionAdoptTarget_uses h _ _
      · exact .perform_bind (h _ rfl) fun _ => .perform (h _ rfl)
    · split
      · exact .perform_bind (h _ rfl) fun _ => trivial
      · trivial

theorem discPersistEntity_uses (cfg : ServerCfg) (e : DiscEntity) :
    (discPersistEntity cfg e).Uses P := by
  unfold discPersistEntity
  split
  · trivial
  refine .perform_bind (h _ rfl) fun r => ?_
  cases r with
  | error st => trivial
  | ok known =>
    cases known with
    | true => trivial
    | false =>
      refine .perform_bind (h _ rfl) fun r => ?_
      cases r with
      | error st => trivial
      | ok discId =>
        simp only
        split
        · exact Uses.bind (serverDiscoveryAdopt_uses h _ _) fun _ => trivial
        · trivial

theorem Advert.flush_uses (a : Advert) (cfg : ServerCfg) : (a.flush cfg).Uses P := by
  unfold Advert.flush
  split
  · trivial
  · exact Uses.bind (discPersistEntity_uses h _ _) fun _ => trivial

theorem discAdvertLoop_uses (cfg : ServerCfg) (stop : Status) (a : Advert) (ts : List Tlv) :
    (discAdvertLoop cfg stop a ts).Uses P := by
  induction ts generalizing a with
  | nil =>
    unfold discAdvertLoop
    split
    · exact Advert.flush_uses h a cfg
    · trivial
  | cons t ts ih =>
    unfold discAdvertLoop
    split
    · split
      · exact ih _
      · exact ih _
    split
    · refine Uses.bind (Advert.flush_uses h a cfg) fun rc => ?_
      split
      · trivial
      · exact ih _
    · split
      · exact ih _
      · exact ih _

theorem serverDiscoveryOnAdvert_uses (cfg : ServerCfg) (payload : Bytes) :
    (serverDiscoveryOnAdvert cfg payload).Uses P := by
  unfold serverDiscoveryOnAdvert
  split
  · trivial
  · exact .perform_bind (h _ rfl) fun _ => discAdvertLoop_uses h _ _ _ _

end

/-! ## Reports and results -/

variable {P : SrvOp → Prop}

theorem serverReportAdmit_uses (hnow : P .now) (cfg : ServerCfg) (t : Dedup)
    (hdr : FrameHeader) (payload : Bytes) : (serverReportAdmit cfg t hdr payload).Uses P := by
  unfold serverReportAdmit
  simp only
  split
  · trivial
  split
  · trivial
  · exact .perform_bind hnow fun _ => trivial

theorem serverReportAdmit_returns (cfg : ServerCfg) (t : Dedup) (hdr : FrameHeader)
    (payload : Bytes) : (serverReportAdmit cfg t hdr payload).Returns fun a =>
      ∀ receipt, a.1 = .ok receipt →
        serverReportIdentity hdr payload (legacyAllowed cfg hdr) = .ok receipt := by
  unfold serverReportAdmit
  simp only
  split
  · intro receipt hr
    cases hr
  next hid =>
  split
  · intro receipt hr
    cases hr
    exact hid
  · intro nowMs receipt hr
    split at hr
    · cases hr
    · cases hr
      exact hid

theorem ingestReport_uses {R : Type} {parse : Bytes → Except Status R}
    {write : R → ReportReceipt → SrvM Status} {after : R → AlertTable → SrvM AlertTable}
    (hnow : P .now)
    (hwrite : ∀ rep receipt, parse payload = .ok rep →
      serverReportIdentity hdr payload (legacyAllowed cfg hdr) = .ok receipt →
      (write rep receipt).Uses P)
    (hafter : ∀ rep alerts, (after rep alerts).Uses P) (m : IngestState) :
    (ingestReport parse write after cfg m hdr payload).Uses P := by
  unfold ingestReport
  split
  · trivial
  next rep hp =>
  refine Uses.bind_returns (serverReportAdmit_uses hnow _ _ _ _)
    (serverReportAdmit_returns _ _ _ _) fun a ha => ?_
  split
  · trivial
  next receipt hr =>
  refine Uses.bind (hwrite rep receipt hp (ha receipt hr)) fun rc => ?_
  split
  · trivial
  split
  · trivial
  refine Uses.bind ?_ fun t => Uses.bind (hafter rep _) fun _ => trivial
  unfold markLegacy
  split
  · exact .perform_bind hnow fun _ => trivial
  · trivial

theorem serverControlOnResult_uses {nodeId : UInt64} {correlationId : UInt32}
    (hnow : P .now) (hack : ∀ generation, P (.decommissionAck nodeId generation))
    (hres : ∀ res : ControlResult, P (.controlResultApply (res.outcome nodeId correlationId)))
    (payload : Bytes) : (serverControlOnResult nodeId correlationId payload).Uses P := by
  unfold serverControlOnResult
  split
  · trivial
  split
  · trivial
  refine .perform_bind hnow fun _ => ?_
  split
  · split
    · trivial
    split
    · trivial
    · exact .perform (hack _)
  · exact .perform (hres _)

/-! ## Dispatch -/

theorem thenCrl_uses
    (h : ∀ o : SrvOp, o.isMinor = true → o.OfNode hdr.sourceNodeId → P o)
    {p : SrvM (Status × IngestState)} (hp : p.Uses P) (payload : Bytes) :
    (thenCrl p hdr payload).Uses P := by
  refine Uses.bind hp fun r => ?_
  split
  · exact Uses.bind (serverIngestApplyCrlActivation_uses h _) fun _ => trivial
  · trivial

theorem keeping_uses (hp : p.Uses P) (m : IngestState) :
    (keeping m p).Uses P := Uses.bind hp fun _ => trivial

/-- **The footprint of a frame.** -/
theorem serverIngestDispatch_uses (cfg : ServerCfg) (epoch : UInt64) (m : IngestState)
    (hdr : FrameHeader) (payload : Bytes) (cn : CStr) :
    (serverIngestDispatch cfg epoch m hdr payload cn).Uses (Footprint cfg hdr payload) := by
  have hminor : ∀ o : SrvOp, o.isMinor = true → o.OfNode hdr.sourceNodeId →
      Footprint cfg hdr payload o := fun _ => .minor
  have hnow : Footprint cfg hdr payload .now := .minor rfl trivial
  unfold serverIngestDispatch
  split
  · next ht =>
    refine thenCrl_uses hminor (ingestReport_uses hnow ?_ ?_ m) payload
    · exact fun rep receipt hp hr => .perform (.clientReport ht hp hr)
    · exact fun rep alerts => afterClientReport_uses hminor rep alerts
  split
  · next ht =>
    refine thenCrl_uses hminor (ingestReport_uses hnow ?_ ?_ m) payload
    · exact fun rep receipt hp hr => .perform (.monitorReport ht hp hr)
    · exact fun rep alerts => afterMonitorReport_uses hminor rep alerts
  split
  · exact keeping_uses (serverIngestWatchdog_uses hminor) m
  split
  · next ht =>
    exact keeping_uses (serverDiscoveryOnAdvert_uses (fun _ => .discovery ht) _ _) m
  split
  · exact keeping_uses (serverTopologyOnReport_uses hminor _ _) m
  split
  · next ht =>
    exact keeping_uses (serverControlOnResult_uses hnow (fun _ => .ack ht)
      (fun _ => .result ht) _) m
  · split
    · exact keeping_uses (ingestHello_uses hminor _ _ _) m
    · trivial

theorem ingestFrame_uses
    (h : ∀ f o, solariFrameParse rx.bytes = .ok f → Footprint cfg f.hdr f.payload o → P o)
    (epoch : UInt64) (m : IngestState) : (ingestFrame cfg epoch m rx).Uses P := by
  unfold ingestFrame
  split
  · trivial
  next f hf =>
  refine Uses.bind (serverIngestValidate_uses
    (fun o ho hn => h f o hf (.minor ho hn)) _ _) fun v => ?_
  split
  · trivial
  · exact Uses.bind ((serverIngestDispatch_uses _ _ _ _ _ _).mono fun o ho => h f o hf ho)
      fun _ => trivial

end SolariNet
