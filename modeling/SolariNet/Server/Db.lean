/-
# The statements of the server

The statements and transactions of `serverDb.c` as functions on the tables.  That a
statement can also fail is said where they are run (`Server.Ops`).
-/
import SolariNet.Server.Tables

namespace SolariNet

open Lib

/-! ## Node statements -/

def serverDbNodeIdentity (db : Db) (nodeId : UInt64) (certCn : CStr) :
    Except Status (Role × CStr) :=
  if nodeId = 0 ∨ certCn = [] then .error .errInvalidArg
  else
    match db.node.find? nodeId with
    | none => .error .errAuthRole
    | some r =>
      if r.certCn = certCn ∧ r.state ≠ .retired ∧ r.hostFqdn.length < 256 then
        .ok (r.role, r.hostFqdn)
      else .error .errAuthRole

def serverDbUpsertNode (db : Db) (nodeId : UInt64) (role : Role) (hostFqdn certCn : CStr)
    (configEpoch : UInt64) : Db :=
  let f : NodeRow → NodeRow := fun r =>
    { r with
      role := role, hostFqdn := hostFqdn, certCn := certCn, configEpoch := configEpoch
      state := if r.state = .retired then .unknown else r.state }
  let row : NodeRow :=
    { nodeId := nodeId, role := role, hostFqdn := hostFqdn, certCn := certCn
      configEpoch := configEpoch, state := .unknown, criticality := 2 }
  { db with node := db.node.upsert row f fun _ => rfl }

def serverDbSetNodeState (db : Db) (nodeId : UInt64) (state : NodeState) : Db :=
  { db with
    node := db.node.update (fun r => if r.nodeId = nodeId then { r with state := state } else r)
      fun r => by split <;> rfl }

/-! ## Probe ids -/

def decimal (n : Nat) : CStr := Nat.toDigits 10 n

def hexByte (b : UInt8) : CStr := [Nat.digitChar (b.toNat / 16), Nat.digitChar (b.toNat % 16)]

def dottedQuad (a : ProbeAddr) : CStr :=
  let d (i : Nat) : CStr := decimal (a.val.getD i 0).toNat
  d 12 ++ '.' :: d 13 ++ '.' :: d 14 ++ '.' :: d 15

/-- Eight groups of four hexadecimal digits with colons between them. -/
def hexGroups (a : ProbeAddr) : CStr :=
  let g (i : Nat) : CStr := hexByte (a.val.getD (2 * i) 0) ++ hexByte (a.val.getD (2 * i + 1) 0)
  g 0 ++ ':' :: g 1 ++ ':' :: g 2 ++ ':' :: g 3 ++ ':' :: g 4 ++ ':' :: g 5 ++ ':' :: g 6 ++
    ':' :: g 7

def v4Mapped (a : ProbeAddr) : Bool := a.val.take 12 == List.replicate 10 0 ++ [0xff, 0xff]

def dbFormatProbeAddr (a : ProbeAddr) : CStr :=
  if a.val.all (· == 0) then "0.0.0.0".toList
  else if v4Mapped a then dottedQuad a
  else hexGroups a

def dbProtoStr (proto : UInt8) : CStr :=
  if proto = 1 then "icmp".toList
  else if proto = 2 then "tcp".toList
  else if proto = 3 then "udp".toList
  else "tcp".toList

def dbProbeTargetId (p : ProbeResult) : CStr :=
  if p.proto = 1 then "icmp:".toList ++ dbFormatProbeAddr p.dstAddr
  else dbProtoStr p.proto ++ ':' :: dbFormatProbeAddr p.dstAddr ++ ':' :: decimal p.dstPort.toNat

def dbOutcomeStr (outcome : UInt8) : ProbeOutcome :=
  if outcome = 0 then .ok
  else if outcome = 1 then .timeout
  else if outcome = 2 then .refused
  else if outcome = 3 then .unreachable
  else if outcome = 4 then .dnsFail
  else if outcome = 5 then .tlsFail
  else .protoErr

/-! ## The report transactions -/

def receiptRow (nodeId : UInt64) (receipt : ReportReceipt) : ReceiptRow where
  nodeId := nodeId
  sessionId := receipt.session
  seqNo := receipt.seqNo
  msgType := receipt.msgType
  payloadHash := receipt.payloadHash

def dbReportReceipt (db : Db) (nodeId : UInt64) (receipt : ReportReceipt) : Except Status Db :=
  let row := receiptRow nodeId receipt
  match db.reportReceipt.insert row with
  | some t => .ok { db with reportReceipt := t }
  | none =>
    match db.reportReceipt.find? row.key with
    | none => .error .errDb
    | some q => .error (if q.payloadHash = row.payloadHash then .errConnRetry else .errInvalidArg)

theorem dbReportReceipt_cases (db : Db) (nodeId : UInt64) (receipt : ReportReceipt) :
    (∃ t, db.reportReceipt.insert (receiptRow nodeId receipt) = some t ∧
      dbReportReceipt db nodeId receipt = .ok { db with reportReceipt := t }) ∨
    ∃ q ∈ db.reportReceipt.rows, q.key = (receiptRow nodeId receipt).key ∧
      dbReportReceipt db nodeId receipt =
        .error (if q.payloadHash = receipt.payloadHash then .errConnRetry else .errInvalidArg) := by
  unfold dbReportReceipt
  cases hi : db.reportReceipt.insert (receiptRow nodeId receipt) with
  | some t => exact .inl ⟨t, rfl, by simp only [hi]⟩
  | none =>
    obtain ⟨q, hq, hk⟩ := Table.insert_eq_none.1 hi
    refine .inr ⟨q, hq, hk, ?_⟩
    simp only [hi, Table.find?_eq_some.2 ⟨hq, hk⟩]
    rfl

def dbAvgCpuMilli (rep : ClientReport) : Nat :=
  (rep.cpuLoadMilli.map UInt32.toNat).sum / rep.cpuLoadMilli.length

/-- `dbMinDiskFreePct`; the product wraps and the quotient is cut to an `int`. -/
def dbMinDiskFreePct (rep : ClientReport) : Int :=
  rep.disks.foldl (fun least d =>
    if d.totalKb = 0 then least
    else min least (d.freeKb * 100 / d.totalKb).toUInt32.toInt32.toInt) 100

def dbSumNetKbps (rep : ClientReport) : UInt64 :=
  rep.ifaces.foldl (fun sum f => sum + f.rxKbps + f.txKbps) 0

def hostCurrentRow (nodeId : UInt64) (rep : ClientReport) : HostCurrentRow where
  nodeId := nodeId
  cpuLoadMilli := rep.cpuLoadMilli
  ramUsedKb := rep.ramUsedKb
  ramTotalKb := rep.ramTotalKb
  swapUsedKb := rep.swapUsedKb
  swapTotalKb := rep.swapTotalKb
  disks := rep.disks
  ifaces := rep.ifaces
  health := rep.health

def hostHistoryRow (nodeId : UInt64) (rep : ClientReport) : HostHistoryRow where
  nodeId := nodeId
  cpuAvgMilli := dbAvgCpuMilli rep
  ramUsedKb := rep.ramUsedKb
  swapUsedKb := rep.swapUsedKb
  diskMinFreePct := dbMinDiskFreePct rep
  netKbps := dbSumNetKbps rep
  fsReadonlyCount := rep.health.fsReadonlyCount
  blockDevMissing := rep.health.blockDevMissing
  smartFailCount := rep.health.smartFailCount
  failedUnitCount := rep.health.failedUnitCount
  dmesgCritCount := rep.health.dmesgCritCount

def procCurrentRow (nodeId : UInt64) (p : ProcEntry) : ProcCurrentRow where
  nodeId := nodeId
  procName := p.name
  pid := p.pid
  runState := if p.state = 0 then 0x3F else p.state
  nFiles := p.nFiles
  nSockets := p.nSockets
  rssKb := p.rssKb

def insertProcs (nodeId : UInt64) :
    Table ProcCurrentRow.key → List ProcEntry → Except Status (Table ProcCurrentRow.key)
  | t, [] => .ok t
  | t, p :: ps =>
    match t.insert (procCurrentRow nodeId p) with
    | none => .error .errDb
    | some t' => insertProcs nodeId t' ps

def dbWriteProcs (db : Db) (nodeId : UInt64) (rep : ClientReport) : Except Status Db := do
  let t ← insertProcs nodeId (db.procCurrent.delete fun r => r.nodeId = nodeId) rep.procs
  .ok { db with procCurrent := t }

def reportReceipt (db : Db) (nodeId : UInt64) (receipt : ReportReceipt) : Except Status Db :=
  if receipt.legacy then .ok db else dbReportReceipt db nodeId receipt

def writeHostCurrent (db : Db) (row : HostCurrentRow) : Db :=
  let f : HostCurrentRow → HostCurrentRow := fun r => { row with nodeId := r.nodeId }
  { db with hostCurrent := db.hostCurrent.upsert row f fun _ => rfl }

/-- The check of `serverDbWriteClientReport` and its statements between begin and commit. -/
def clientReportTxn (db : Db) (nodeId : UInt64) (rep : ClientReport) (receipt : ReportReceipt) :
    Except Status Db := do
  if receipt.msgType ≠ Msg.clientReport then .error .errInvalidArg
  let db ← reportReceipt db nodeId receipt
  let db ← dbWriteProcs (writeHostCurrent db (hostCurrentRow nodeId rep)) nodeId rep
  .ok { db with hostHistory := db.hostHistory ++ [hostHistoryRow nodeId rep] }

variable {db db' : Db} {nodeId : UInt64} {receipt : ReportReceipt}

theorem reportReceipt_eq_ok (h : reportReceipt db nodeId receipt = .ok db₁) :
    receipt.legacy = true ∧ db₁ = db ∨ receipt.legacy = false ∧
      ∃ t, db.reportReceipt.insert (receiptRow nodeId receipt) = some t ∧
        db₁ = { db with reportReceipt := t } := by
  unfold reportReceipt at h
  split at h
  · next hl =>
    cases h
    exact .inl ⟨hl, rfl⟩
  next hl =>
  refine .inr ⟨Bool.eq_false_iff.2 hl, ?_⟩
  rcases dbReportReceipt_cases db nodeId receipt with ⟨t, hi, ht⟩ | ⟨q, -, -, hq⟩
  · rw [ht] at h
    cases h
    exact ⟨t, hi, rfl⟩
  · rw [hq] at h
    cases h

theorem reportReceipt_frame (h : reportReceipt db nodeId receipt = .ok db₁) :
    ∃ t, db₁ = { db with reportReceipt := t } := by
  rcases reportReceipt_eq_ok h with ⟨-, rfl⟩ | ⟨-, t, -, rfl⟩
  · exact ⟨_, rfl⟩
  · exact ⟨t, rfl⟩

theorem clientReportTxn_eq_ok
    (h : clientReportTxn db nodeId rep receipt = .ok db') :
    receipt.msgType = Msg.clientReport ∧ ∃ db₁ t, reportReceipt db nodeId receipt = .ok db₁ ∧
      insertProcs nodeId (db₁.procCurrent.delete fun r => r.nodeId = nodeId) rep.procs = .ok t ∧
      db' = { writeHostCurrent db₁ (hostCurrentRow nodeId rep) with
        procCurrent := t, hostHistory := db₁.hostHistory ++ [hostHistoryRow nodeId rep] } := by
  obtain ⟨ht, h⟩ := guard_ok.1 h
  obtain ⟨db₁, hr, h⟩ := bind_ok h
  obtain ⟨db₂, hw, h⟩ := bind_ok h
  obtain ⟨t, hp, hw⟩ := bind_ok hw
  cases hw
  cases h
  exact ⟨not_not.1 ht, db₁, t, hr, hp, rfl⟩

def probeCurrentRow (nodeId : UInt64) (p : ProbeResult) : ProbeCurrentRow where
  targetId := dbProbeTargetId p
  monitorNode := nodeId
  outcome := dbOutcomeStr p.outcome
  rttMicros := p.rttMicros
  jitterMicros := p.jitterMicros
  lossPermille := p.lossPermille
  throughputKbps := p.throughputKbps

def probeHistoryRow (nodeId : UInt64) (p : ProbeResult) : ProbeHistoryRow where
  targetId := dbProbeTargetId p
  monitorNode := nodeId
  outcome := dbOutcomeStr p.outcome
  rttMicros := p.rttMicros
  lossPermille := p.lossPermille

def writeProbe (nodeId : UInt64) (db : Db) (p : ProbeResult) : Db :=
  let row := probeCurrentRow nodeId p
  { db with
    probeCurrent := db.probeCurrent.upsert row
      (fun r => { row with targetId := r.targetId, monitorNode := r.monitorNode }) fun _ => rfl
    probeHistory := db.probeHistory ++ [probeHistoryRow nodeId p] }

/-- The check of `serverDbWriteMonitorReport` and its statements between begin and commit. -/
def monitorReportTxn (db : Db) (nodeId : UInt64) (rep : MonitorReport) (receipt : ReportReceipt) :
    Except Status Db := do
  if receipt.msgType ≠ Msg.monitorReport ∧ receipt.msgType ≠ Msg.surveyResp then
    .error .errInvalidArg
  let db ← reportReceipt db nodeId receipt
  .ok ((rep.probes.take solariMaxProbes).foldl (writeProbe nodeId) db)

theorem monitorReportTxn_eq_ok
    (h : monitorReportTxn db nodeId rep receipt = .ok db') :
    (receipt.msgType = Msg.monitorReport ∨ receipt.msgType = Msg.surveyResp) ∧
      ∃ db₁, reportReceipt db nodeId receipt = .ok db₁ ∧
        db' = (rep.probes.take solariMaxProbes).foldl (writeProbe nodeId) db₁ := by
  obtain ⟨ht, h⟩ := guard_ok.1 h
  obtain ⟨db₁, hr, h⟩ := bind_ok h
  cases h
  refine ⟨?_, db₁, hr, rfl⟩
  by_contra hn
  exact ht (not_or.1 hn)

theorem foldl_writeProbe_eq (n : UInt64) (ps : List ProbeResult) (db : Db) :
    ∃ current, ps.foldl (writeProbe n) db =
      { db with
        probeCurrent := current
        probeHistory := db.probeHistory ++ ps.map (probeHistoryRow n) } := by
  induction ps generalizing db with
  | nil => exact ⟨db.probeCurrent, by simp⟩
  | cons p ps ih => simpa [writeProbe] using ih (writeProbe n db p)

/-! ## Alert statements -/

/-- `serverDbLoadAlertRules`, into an array of `ALERT_MAX_RULES` places. -/
def serverDbLoadAlertRules (db : Db) (scope : AlertScope) : List AlertRule :=
  (db.alertRule.filter fun r => r.enabled && r.scope == scope).take 256

/-- What the tier lookups answer: the asset (zero for none), the tier, and whether alerts
are evaluated at all. -/
structure AlertTier where
  assetId : Nat
  tier : Int
  active : Bool
  deriving DecidableEq, Repr

def serverDbNodeAlertTier (db : Db) (nodeId : UInt64) : AlertTier :=
  match db.node.find? nodeId with
  | none => ⟨0, 2, false⟩
  | some r => ⟨0, r.criticality, r.state ≠ .retired⟩

def serverDbProbeAlertTier (db : Db) (targetId : CStr) : AlertTier :=
  match db.probeTarget.find? (collate targetId) with
  | none => ⟨0, 2, false⟩
  | some p =>
    match p.assetId.bind db.asset.find? with
    | none => ⟨p.assetId.getD 0, 2, true⟩
    | some a => ⟨p.assetId.getD 0, a.criticality, a.lifecycle = .active⟩

def AlertEventRow.isOf (e : AlertEventRow) (ruleId : Int) (nodeId : UInt64)
    (targetId : CStr) : Bool :=
  e.ruleId == ruleId && e.nodeId == nodeId && collate e.targetId == collate targetId

def serverDbFindOpenAlertEvent (db : Db) (ruleId : Int) (nodeId : UInt64) (targetId : CStr) :
    Except Status Nat :=
  if ruleId ≤ 0 then .error .errInvalidArg
  else
    match db.alertEvent.rows.find? fun e =>
        e.isOf ruleId nodeId targetId ∧ e.cleared = false ∧ e.eventKind = .fired with
    | none => .ok 0
    | some e => .ok e.eventId

def serverDbAlertEventDisposition (db : Db) (eventId : Nat) : Except Status (Disposition × Int) :=
  if eventId = 0 then .error .errInvalidArg
  else match db.alertEvent.rows.find? fun e => e.eventId = eventId ∧ e.eventKind = .fired with
  | none => .error .errDb
  | some e => .ok (e.disposition, e.effectiveTier)

structure AlertEventValues where
  ruleId : Int
  nodeId : UInt64
  targetId : CStr
  severity : Option Severity
  detail : AlertDetail
  eventKind : EventKind
  openedEventId : Nat
  assetId : Nat
  effectiveTier : Int
  disposition : Disposition

def alertEventRow (v : AlertEventValues) (eventId : Nat) : AlertEventRow where
  eventId := eventId
  ruleId := v.ruleId
  nodeId := v.nodeId
  targetId := v.targetId
  cleared := v.eventKind == .cleared
  severity := v.severity
  detail := v.detail
  eventKind := v.eventKind
  openedEventId := v.openedEventId
  assetId := v.assetId
  effectiveTier := v.effectiveTier
  disposition := v.disposition

def serverDbWriteAlertEvent (db : Db) (v : AlertEventValues) : Db :=
  { db with alertEvent := db.alertEvent.push (alertEventRow v) fun _ => rfl }

/-! ## Discovery statements -/

def serverDbDiscoveredIsKnown (db : Db) (ip : CStr) (kind : DiscKind) : Bool :=
  (db.enrollment.rows.any fun r => collate r.ip == collate ip && r.status == .approved) ||
  (db.discovered.rows.any fun r =>
    collate r.entity.ip == collate ip && r.entity.kind == kind && r.status == .adopted)

def findDiscovered (db : Db) (e : DiscEntity) : Option DiscRow :=
  db.discovered.rows.find? fun r => r.entity.key = e.key

def DiscRow.merge (e : DiscEntity) (r : DiscRow) : DiscRow :=
  { r with
    entity := { e with
      ip := r.entity.ip, kind := r.entity.kind
      mac := if e.mac = [] then r.entity.mac else e.mac } }

def serverDbUpsertDiscovered (db : Db) (e : DiscEntity) : Nat × Db :=
  match findDiscovered db e with
  | none =>
    (db.discovered.next,
      { db with discovered := db.discovered.push (fun discId => ⟨discId, e, .new⟩) fun _ => rfl })
  | some q =>
    (q.discId,
      { db with
        discovered := db.discovered.update
          (fun r => if r.discId = q.discId then r.merge e else r) fun r => by split <;> rfl })

theorem serverDbUpsertDiscovered_eq (db : Db) (e : DiscEntity) :
    ∃ t, (serverDbUpsertDiscovered db e).2 = { db with discovered := t } := by
  unfold serverDbUpsertDiscovered
  split
  · exact ⟨_, rfl⟩
  · exact ⟨_, rfl⟩

def serverDbGetDiscovered (db : Db) (discId : Nat) : Except Status DiscEntity :=
  match db.discovered.rows.find? fun r => r.discId = discId with
  | none => .error .errDb
  | some r => .ok r.entity

def serverDbSetDiscoveredStatus (db : Db) (discId : Nat) (status : DiscStatus) : Db :=
  { db with
    discovered := db.discovered.update
      (fun r => if r.discId = discId then { r with status := status } else r)
      fun r => by split <;> rfl }

def serverDbEnrollCreate (db : Db) (host ip : CStr) (role : Role) : Db :=
  { db with
    enrollment := db.enrollment.push
      (fun enrId => { enrId := enrId, host := host, ip := ip, role := role, status := .token })
      fun _ => rfl }

/-- `serverDbUpsertProbeTarget` for a target without an asset; a tombstoned target stays away. -/
def serverDbUpsertProbeTarget (db : Db) (targetId : CStr) : Db :=
  if collate targetId ∈ db.probeTargetTombstone then db
  else
    { db with
      probeTarget := db.probeTarget.upsert ⟨targetId, none⟩ (fun r => { r with assetId := none })
        fun _ => rfl }

/-! ## Control statements -/

namespace Verb

def setConfig : UInt8 := 1
def provision : UInt8 := 7
def decommission : UInt8 := 8

end Verb

def convergent (verb : UInt8) : Bool := verb == Verb.setConfig || verb == Verb.provision

def serverDbControlDirectiveAdd (db : Db) (r : DirectiveRow) : Except Status Db :=
  if r.nodeId = 0 ∨ r.correlationId = 0 ∨ r.verb = 0 then .error .errInvalidArg
  else
    match db.pendingControlDirective.insert r with
    | none => .error .errDb
    | some t => .ok { db with pendingControlDirective := t }

theorem serverDbControlDirectiveAdd_eq_ok
    (h : serverDbControlDirectiveAdd db row = .ok db') :
    ∃ t, db' = { db with pendingControlDirective := t } := by
  obtain ⟨-, h⟩ := guard_ok.1 h
  split at h
  · cases h
  · cases h
    exact ⟨_, rfl⟩

def serverDbControlDirectiveCancel (db : Db) (nodeId : UInt64) (correlationId : UInt32) : Db :=
  { db with
    pendingControlDirective :=
      db.pendingControlDirective.delete fun r => r.key = (nodeId, correlationId) }

structure DirectiveOutcome where
  nodeId : UInt64
  correlationId : UInt32
  verb : UInt8
  appliedEpoch : UInt64
  haveEpoch : Bool
  errCode : UInt16
  lastResult : CStr

def DirectiveOutcome.matches (o : DirectiveOutcome) (r : DirectiveRow) : Bool :=
  r.key == (o.nodeId, o.correlationId) && r.verb == o.verb &&
    (o.errCode != 0 || !convergent o.verb || !o.haveEpoch || r.targetEpoch == o.appliedEpoch)

def DirectiveOutcome.apply (o : DirectiveOutcome) (r : NodeConfigRow) : NodeConfigRow :=
  { r with
    appliedEpoch := if convergent o.verb && o.errCode == 0 && o.haveEpoch then some o.appliedEpoch
      else r.appliedEpoch
    lastResult := o.lastResult }

def controlResultTxn (db : Db) (o : DirectiveOutcome) : Except Status Db :=
  if o.nodeId = 0 ∨ o.correlationId = 0 ∨ o.verb = 0 then .error .errInvalidArg
  else if db.pendingControlDirective.rows.any o.matches then
    .ok { db with
      pendingControlDirective := db.pendingControlDirective.delete o.matches
      nodeConfig := db.nodeConfig.update
        (fun r => if r.nodeId = o.nodeId then o.apply r else r) fun r => by split <;> rfl }
  else .error .errAuthRole

theorem controlResultTxn_eq_ok (h : controlResultTxn db o = .ok db') :
    ∃ directives config,
      db' = { db with pendingControlDirective := directives, nodeConfig := config } := by
  obtain ⟨-, h⟩ := guard_ok.1 h
  split at h
  · cases h
    exact ⟨_, _, rfl⟩
  · cases h

def decommissionAckTxn (db : Db) (nodeId generation : UInt64) : Except Status Db :=
  let hit (r : ChallengeRow) : Bool :=
    r.nodeId == nodeId && r.generation == generation && r.state == .consumed
  if nodeId = 0 ∨ generation = 0 then .error .errInvalidArg
  else if db.decommissionChallenge.rows.any hit then
    .ok (serverDbSetNodeState
      { db with
        decommissionChallenge := db.decommissionChallenge.update
          (fun r => if hit r then { r with state := .acknowledged } else r)
          fun r => by split <;> rfl } nodeId .retired)
  else .error .errAuthRole

theorem decommissionAckTxn_eq_ok {generation : UInt64}
    (h : decommissionAckTxn db nodeId generation = .ok db') :
    ∃ t, db.decommissionChallenge.updateWhere
        (fun r => r.nodeId == nodeId && r.generation == generation && r.state == .consumed)
        (fun r => { r with state := .acknowledged }) (fun _ => rfl) = some t ∧
      db' = serverDbSetNodeState { db with decommissionChallenge := t } nodeId .retired := by
  obtain ⟨-, h⟩ := guard_ok.1 h
  split at h
  · next hany =>
    cases h
    exact ⟨_, if_pos hany, rfl⟩
  · cases h

def retireNodeTxn (db : Db) (nodeId : UInt64) : Except Status Db :=
  let pending (r : ChallengeRow) : Bool :=
    r.nodeId == nodeId && (r.state == .pending || r.state == .consumed)
  if nodeId = 0 then .error .errInvalidArg
  else if ¬ db.decommissionChallenge.rows.any pending ∧ db.node.find? nodeId = none then
    .error .errAuthRole
  else
    .ok (serverDbSetNodeState
      { db with
        decommissionChallenge := db.decommissionChallenge.update
          (fun r => if pending r then { r with state := .cancelled } else r)
          fun r => by split <;> rfl } nodeId .retired)

theorem retireNodeTxn_eq_ok (h : retireNodeTxn db nodeId = .ok db') : db' = serverDbSetNodeState
      { db with
        decommissionChallenge := db.decommissionChallenge.update
          (fun r => if r.nodeId == nodeId && (r.state == .pending || r.state == .consumed) then
            { r with state := .cancelled } else r)
          fun r => by split <;> rfl } nodeId .retired := by
  obtain ⟨-, h⟩ := guard_ok.1 h
  obtain ⟨-, h⟩ := guard_ok.1 h
  cases h
  rfl

end SolariNet
