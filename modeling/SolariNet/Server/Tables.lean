/-
# The tables behind the server

The tables of `schema.sql` that the frame handlers read or that their results are judged by,
with their keys as part of the type (`Lib.Table`, `Lib.Serial`).

Text columns compare under `utf8mb4_unicode_ci`: `collate` is what two texts are compared
by.  A column that nothing here reads (time stamps, labels, the rendered JSON of a report)
is left out; a report's JSON columns keep the lists they are rendered from.
-/
import SolariNet.Lib.Table
import SolariNet.Wire.Msg

namespace SolariNet

open Lib

/-- The form in which texts are compared: no case, no trailing blanks.  The collation also ignores
accents, which are kept apart here. -/
def collate (s : CStr) : CStr := ((s.map Char.toLower).reverse.dropWhile (· = ' ')).reverse

/-! ## Nodes -/

inductive NodeState where
  | up
  | degraded
  | down
  | unknown
  | retired
  deriving DecidableEq, Repr

/-- What names a certificate: the fingerprint of its issuer, its serial number, and its own
fingerprint. -/
structure LeafCert where
  issuerFp : CStr
  serialHex : CStr
  leafCertFp : CStr

/-- A row of `node`: the enrollment of a node.  `leaf` is `leafIssuerFp`, `leafCertSerial` and
`leafCertFp`, which are written together. -/
structure NodeRow where
  nodeId : UInt64
  role : Role
  hostFqdn : CStr
  certCn : CStr
  configEpoch : UInt64
  state : NodeState
  criticality : Int
  leaf : Option LeafCert := none

/-! ## Reports -/

structure ReportReceipt where
  session : Session
  seqNo : UInt32
  msgType : UInt8
  payloadHash : Bytes
  legacy : Bool

structure ReceiptRow where
  nodeId : UInt64
  sessionId : Session
  seqNo : UInt32
  msgType : UInt8
  payloadHash : Bytes

def ReceiptRow.key (r : ReceiptRow) : UInt64 × Session × UInt32 × UInt8 :=
  (r.nodeId, r.sessionId, r.seqNo, r.msgType)

structure HostCurrentRow where
  nodeId : UInt64
  cpuLoadMilli : List UInt32
  ramUsedKb : UInt64
  ramTotalKb : UInt64
  swapUsedKb : UInt64
  swapTotalKb : UInt64
  disks : List DiskEntry
  ifaces : List IfaceEntry
  health : HostHealth

structure ProcCurrentRow where
  nodeId : UInt64
  procName : CStr
  pid : Int32
  runState : UInt8
  nFiles : UInt32
  nSockets : UInt32
  rssKb : UInt64

def ProcCurrentRow.key (r : ProcCurrentRow) : UInt64 × CStr := (r.nodeId, collate r.procName)

structure HostHistoryRow where
  nodeId : UInt64
  cpuAvgMilli : Nat
  ramUsedKb : UInt64
  swapUsedKb : UInt64
  diskMinFreePct : Int
  netKbps : UInt64
  fsReadonlyCount : UInt8
  blockDevMissing : UInt8
  smartFailCount : UInt8
  failedUnitCount : UInt16
  dmesgCritCount : UInt16

inductive ProbeOutcome where
  | ok
  | timeout
  | refused
  | unreachable
  | dnsFail
  | tlsFail
  | protoErr
  deriving DecidableEq, Repr

structure ProbeCurrentRow where
  targetId : CStr
  monitorNode : UInt64
  outcome : ProbeOutcome
  rttMicros : UInt32
  jitterMicros : UInt32
  lossPermille : UInt16
  throughputKbps : UInt32

def ProbeCurrentRow.key (r : ProbeCurrentRow) : CStr × UInt64 := (collate r.targetId, r.monitorNode)

structure ProbeHistoryRow where
  targetId : CStr
  monitorNode : UInt64
  outcome : ProbeOutcome
  rttMicros : UInt32
  lossPermille : UInt16

/-! ## Probe targets and alerts -/

inductive Lifecycle where
  | active
  | decommissioned
  | deleted
  deriving DecidableEq, Repr

structure AssetRow where
  assetId : Nat
  lifecycle : Lifecycle
  criticality : Int

structure ProbeTargetRow where
  targetId : CStr
  assetId : Option Nat

def ProbeTargetRow.key (r : ProbeTargetRow) : CStr := collate r.targetId

inductive AlertScope where
  | host
  | probe
  deriving DecidableEq, Repr

inductive AlertCmp where
  | gt
  | lt
  | eq
  | transition
  deriving DecidableEq, Repr

inductive Severity where
  | info
  | warn
  | crit
  deriving DecidableEq, Repr

/-- A row of `alertRule`, as `serverDbLoadAlertRules` reads it: no threshold or duration
reads as zero. -/
structure AlertRule where
  ruleId : Int
  scope : AlertScope
  metric : CStr
  op : AlertCmp
  threshold : Rat
  forSeconds : Int
  severity : Option Severity
  enabled : Bool
  deriving DecidableEq, Repr

structure AlertDetail where
  firing : Bool
  rule : AlertRule
  targetId : CStr
  value : Rat
  extraDetail : CStr
  deriving DecidableEq, Repr

inductive EventKind where
  | fired
  | cleared
  deriving DecidableEq, Repr

inductive Disposition where
  | publish
  | suppress
  deriving DecidableEq, Repr

/-- A row of `alertEvent`; `cleared` is `clearedAt IS NOT NULL`, and an absent target is the
empty text. -/
structure AlertEventRow where
  eventId : Nat
  ruleId : Int
  nodeId : UInt64
  targetId : CStr
  cleared : Bool
  severity : Option Severity
  detail : AlertDetail
  eventKind : EventKind
  openedEventId : Nat
  assetId : Nat
  effectiveTier : Int
  disposition : Disposition
  deriving DecidableEq, Repr

/-! ## Discovery, enrollment, control -/

inductive DiscKind where
  | host
  | service
  | network
  | other
  deriving DecidableEq, Repr

inductive DiscVia where
  | mdns
  | arp
  | scpAdvert
  | portscan
  | lldp
  deriving DecidableEq, Repr

inductive DiscStatus where
  | new
  | ignored
  | adopting
  | adopted
  deriving DecidableEq, Repr

structure DiscEntity where
  host : CStr := []
  ip : CStr := []
  kind : DiscKind := .host
  via : DiscVia := .scpAdvert
  services : CStr := []
  mac : CStr := []

structure DiscRow where
  discId : Nat
  entity : DiscEntity
  status : DiscStatus

def DiscEntity.key (e : DiscEntity) : CStr × DiscKind := (collate e.ip, e.kind)

inductive GearKind where
  | gateway
  | switch
  | ap
  | router
  | other
  deriving DecidableEq, Repr

structure NetGear where
  gearId : CStr
  name : CStr
  kind : GearKind
  mgmtIp : CStr
  segId : CStr
  wireless : Bool

structure LldpEdge where
  nodeId : UInt64
  gearId : CStr
  localIf : CStr
  peerPort : CStr
  wireless : Bool
  speedMbps : Nat
  viaLldp : Bool

inductive EnrollStatus where
  | token
  | pending
  | approved
  | rejected
  | expired
  deriving DecidableEq, Repr

structure EnrollRow where
  enrId : Nat
  host : CStr
  ip : CStr
  role : Role
  status : EnrollStatus
  certFp : Option CStr := none
  csrPem : Option CStr := none
  nodeId : Option UInt64 := none
  issuedCertPem : Option CStr := none
  enrollTokenHash : Option Bytes := none
  tokenExpiresAt : Option UInt64 := none
  certAckAt : Option UInt64 := none

structure DirectiveRow where
  nodeId : UInt64
  correlationId : UInt32
  verb : UInt8
  targetEpoch : UInt64
  deriving DecidableEq, Repr

def DirectiveRow.key (r : DirectiveRow) : UInt64 × UInt32 := (r.nodeId, r.correlationId)

inductive ChallengeState where
  | pending
  | consumed
  | acknowledged
  | cancelled
  deriving DecidableEq, Repr

structure ChallengeRow where
  nodeId : UInt64
  generation : UInt64
  state : ChallengeState
  wipeScope : UInt32
  requestedBy : CStr
  tokenHash : List UInt8
  expiresAt : UInt64
  deliveryAttempts : UInt32
  nextDeliveryAt : Option UInt64

/-! ## Certificates -/

inductive IssuanceOrigin where
  | enrollment
  | operator
  | backfill
  deriving DecidableEq, Repr

structure IssuanceRow where
  cert : LeafCert
  nodeId : Option UInt64
  enrollmentId : Option Nat
  origin : IssuanceOrigin
  issuedBy : CStr

def LeafCert.key (c : LeafCert) : CStr × CStr := (c.issuerFp, c.serialHex)

def IssuanceRow.key (r : IssuanceRow) : CStr × CStr := r.cert.key

inductive RevocationReason where
  | unspecified
  | keyCompromise
  | affiliationChanged
  | superseded
  | cessationOfOperation
  deriving DecidableEq, Repr

structure RevocationRow where
  cert : LeafCert
  nodeId : Option UInt64
  enrollmentId : Option Nat
  reason : RevocationReason
  revokedBy : CStr

def RevocationRow.key (r : RevocationRow) : CStr × CStr := r.cert.key

inductive RevokeState where
  | pending
  | consumed
  | cancelled
  deriving DecidableEq, Repr

structure RevokeChallengeRow where
  cert : LeafCert
  nodeId : Option UInt64
  enrollmentId : Option Nat
  reason : RevocationReason
  requestedBy : CStr
  tokenHash : Bytes
  state : RevokeState
  expiresAt : UInt64

def RevokeChallengeRow.key (r : RevokeChallengeRow) : CStr × CStr := r.cert.key

structure NodeConfigRow where
  nodeId : UInt64
  targetEpoch : UInt64
  appliedEpoch : Option UInt64
  lastResult : CStr

/-! ## The database -/

/-- The tables; the tombstones are ids as they compare. -/
structure Db where
  node : Table NodeRow.nodeId
  reportReceipt : Table ReceiptRow.key
  hostCurrent : Table HostCurrentRow.nodeId
  procCurrent : Table ProcCurrentRow.key
  hostHistory : List HostHistoryRow
  probeCurrent : Table ProbeCurrentRow.key
  probeHistory : List ProbeHistoryRow
  probeTarget : Table ProbeTargetRow.key
  probeTargetTombstone : List CStr
  asset : Table AssetRow.assetId
  alertRule : List AlertRule
  alertEvent : Serial AlertEventRow.eventId
  discovered : Serial DiscRow.discId
  enrollment : Serial EnrollRow.enrId
  pendingControlDirective : Table DirectiveRow.key
  nodeConfig : Table NodeConfigRow.nodeId
  decommissionChallenge : Table ChallengeRow.nodeId
  certificateIssuance : Table IssuanceRow.key
  certificateRevocation : Table RevocationRow.key
  certificateRevocationChallenge : Table RevokeChallengeRow.key
  certificateInventoryComplete : Bool

def Db.empty : Db where
  node := .empty
  reportReceipt := .empty
  hostCurrent := .empty
  procCurrent := .empty
  hostHistory := []
  probeCurrent := .empty
  probeHistory := []
  probeTarget := .empty
  probeTargetTombstone := []
  asset := .empty
  alertRule := []
  alertEvent := .empty
  discovered := .empty
  enrollment := .empty
  pendingControlDirective := .empty
  nodeConfig := .empty
  decommissionChallenge := .empty
  certificateIssuance := .empty
  certificateRevocation := .empty
  certificateRevocationChallenge := .empty
  certificateInventoryComplete := false

end SolariNet
