/-
# What the server asks of its surroundings

The handlers of the server are programs (`Lib.Prog`) over the operations below: the clock,
the bound sockets, the statements of the database (`Server.Db`) and of the lease row
(`Server.Lease`).  What is private to the process — the replay guard, the alert slots, the
sequence counters — is passed along by the handlers themselves.

`dbSem` says what the statements can do to the tables.

    a read        answers from the tables, or fails
    a write       one transaction (`Txn`): it commits and says so, it fails without effect,
                  it is refused by its own checks, or it commits and the answer is lost

An operation on data that is not modelled here (time stamps, CRL tables, network gear)
answers as it likes and leaves the tables alone.
-/
import SolariNet.Server.Db
import SolariNet.Server.Lease
import SolariNet.Wire.CrlReceipt

namespace SolariNet

open Lib

inductive Listener where
  | ingest
  | control
  | pub
  deriving DecidableEq, Repr

inductive SrvOp where
  | now
  | monotonicMs
  | bind (l : Listener)
  | recv (l : Listener)
  | reply (frame : Bytes)
  | publishAlert (severity : Option Severity) (detail : AlertDetail)
  | dispatchTarget (probeSpec : CStr)
  | lease (o : LeaseOp)
  | nodeIdentity (nodeId : UInt64) (certCn : CStr)
  | upsertNode (nodeId : UInt64) (role : Role) (hostFqdn certCn : CStr) (configEpoch : UInt64)
  | touchNode (nodeId whenMs : UInt64)
  | setNodeState (nodeId : UInt64) (state : NodeState)
  | setNodeFacts (nodeId : UInt64) (osName arch : CStr)
  | writeClientReport (nodeId : UInt64) (rep : ClientReport) (receipt : ReportReceipt)
  | writeMonitorReport (nodeId : UInt64) (rep : MonitorReport) (receipt : ReportReceipt)
  | crlAcknowledge (nodeId : UInt64) (receipt : CrlReceipt)
  | loadAlertRules (scope : AlertScope)
  | nodeAlertTier (nodeId : UInt64)
  | probeAlertTier (targetId : CStr)
  | findOpenAlertEvent (ruleId : Int) (nodeId : UInt64) (targetId : CStr)
  | alertEventDisposition (eventId : Nat)
  | writeAlertEvent (v : AlertEventValues)
  | discoveredIsKnown (ip : CStr) (kind : DiscKind)
  | upsertDiscovered (e : DiscEntity)
  | getDiscovered (discId : Nat)
  | setDiscoveredStatus (discId : Nat) (status : DiscStatus)
  | enrollCreate (host ip : CStr) (role : Role)
  | addressTombstoned (ip : CStr)
  | upsertProbeTarget (targetId : CStr)
  | upsertNetGear (g : NetGear)
  | writeLldpEdge (e : LldpEdge)
  | controlDirectiveAdd (r : DirectiveRow)
  | controlDirectiveCancel (nodeId : UInt64) (correlationId : UInt32)
  | controlResultApply (o : DirectiveOutcome)
  | decommissionAck (nodeId generation : UInt64)
  | publishControl (frame : Bytes)

abbrev SrvOp.Res : SrvOp → Type
  | .now | .monotonicMs => UInt64
  | .recv _ => Except Status Received
  | .lease o => LeaseOp.Res o
  | .nodeIdentity _ _ => Except Status (Role × CStr)
  | .publishAlert _ _ => Unit
  | .loadAlertRules _ => Except Status (List AlertRule)
  | .nodeAlertTier _ | .probeAlertTier _ => Except Status AlertTier
  | .findOpenAlertEvent _ _ _ => Except Status Nat
  | .alertEventDisposition _ => Except Status (Disposition × Int)
  | .writeAlertEvent _ | .upsertDiscovered _ => Except Status Nat
  | .discoveredIsKnown _ _ => Except Status Bool
  | .getDiscovered _ => Except Status DiscEntity
  | .addressTombstoned _ => Bool
  | .bind _ | .reply _ | .dispatchTarget _ | .upsertNode _ _ _ _ _ | .touchNode _ _ => Status
  | .setNodeState _ _ | .setNodeFacts _ _ _ | .writeClientReport _ _ _ => Status
  | .writeMonitorReport _ _ _ | .crlAcknowledge _ _ | .setDiscoveredStatus _ _ => Status
  | .enrollCreate _ _ _ | .upsertProbeTarget _ | .upsertNetGear _ | .writeLldpEdge _ => Status
  | .controlDirectiveAdd _ | .controlDirectiveCancel _ _ | .controlResultApply _ => Status
  | .decommissionAck _ _ | .publishControl _ => Status

abbrev SrvM : Type → Type := Prog SrvOp SrvOp.Res

abbrev srv (o : SrvOp) : SrvM o.Res := Prog.perform o

def onLease {α : Type} : LeaseM α → SrvM α
  | .ret a => .ret a
  | .call o k => .call (SrvOp.lease o) fun r => onLease (k r)

/-! ## What the statements can do -/

/-- A transaction on `db` whose statements compute `body`: its status, and the tables
afterwards. -/
inductive Txn (db : Db) (body : Except Status Db) : Status → Db → Prop where
  | aborted : Txn db body .errDb db
  | refused {st : Status} (h : body = .error st) : Txn db body st db
  | committed {db' : Db} (h : body = .ok db') : Txn db body .ok db'
  | unconfirmed {db' : Db} (h : body = .ok db') : Txn db body .errDb db'

def Query {α : Type} (answer r : Except Status α) : Prop := r = answer ∨ r = .error .errDb

def TxnId (db : Db) (id : Nat) (after : Db) (r : Except Status Nat) (db' : Db) : Prop :=
  ∃ rc, Txn db (.ok after) rc db' ∧ r = if rc = .ok then .ok id else .error rc

/-- What an operation of the server can do to the tables. -/
def dbSem : (o : SrvOp) → Db → o.Res → Db → Prop
  | .nodeIdentity n cn, db, r, db' => Query (serverDbNodeIdentity db n cn) r ∧ db' = db
  | .upsertNode n role host cn epoch, db, rc, db' =>
    Txn db (.ok (serverDbUpsertNode db n role host cn epoch)) rc db'
  | .setNodeState n st, db, rc, db' => Txn db (.ok (serverDbSetNodeState db n st)) rc db'
  | .writeClientReport n rep receipt, db, rc, db' =>
    Txn db (clientReportTxn db n rep receipt) rc db'
  | .writeMonitorReport n rep receipt, db, rc, db' =>
    Txn db (monitorReportTxn db n rep receipt) rc db'
  | .loadAlertRules scope, db, r, db' => Query (.ok (serverDbLoadAlertRules db scope)) r ∧ db' = db
  | .nodeAlertTier n, db, r, db' => Query (.ok (serverDbNodeAlertTier db n)) r ∧ db' = db
  | .probeAlertTier t, db, r, db' => Query (.ok (serverDbProbeAlertTier db t)) r ∧ db' = db
  | .findOpenAlertEvent rule n t, db, r, db' =>
    Query (serverDbFindOpenAlertEvent db rule n t) r ∧ db' = db
  | .alertEventDisposition id, db, r, db' =>
    Query (serverDbAlertEventDisposition db id) r ∧ db' = db
  | .writeAlertEvent v, db, r, db' =>
    TxnId db db.alertEvent.next (serverDbWriteAlertEvent db v) r db'
  | .discoveredIsKnown ip kind, db, r, db' =>
    Query (.ok (serverDbDiscoveredIsKnown db ip kind)) r ∧ db' = db
  | .upsertDiscovered e, db, r, db' =>
    TxnId db (serverDbUpsertDiscovered db e).1 (serverDbUpsertDiscovered db e).2 r db'
  | .getDiscovered id, db, r, db' => Query (serverDbGetDiscovered db id) r ∧ db' = db
  | .setDiscoveredStatus id st, db, rc, db' =>
    Txn db (.ok (serverDbSetDiscoveredStatus db id st)) rc db'
  | .enrollCreate host ip role, db, rc, db' =>
    Txn db (.ok (serverDbEnrollCreate db host ip role)) rc db'
  | .upsertProbeTarget t, db, rc, db' => Txn db (.ok (serverDbUpsertProbeTarget db t)) rc db'
  | .controlDirectiveAdd r, db, rc, db' => Txn db (serverDbControlDirectiveAdd db r) rc db'
  | .controlDirectiveCancel n c, db, rc, db' =>
    Txn db (.ok (serverDbControlDirectiveCancel db n c)) rc db'
  | .controlResultApply o, db, rc, db' => Txn db (controlResultTxn db o) rc db'
  | .decommissionAck n g, db, rc, db' => Txn db (decommissionAckTxn db n g) rc db'
  | _, db, _, db' => db' = db

theorem Txn.cases_db
    (h : Txn db body rc db') : db' = db ∨ body = .ok db' := by
  cases h with
  | aborted | refused _ => exact .inl rfl
  | committed h | unconfirmed h => exact .inr h

/-! ## A database that works -/

def txnAnswer (db : Db) : Except Status Db → Status × Db
  | .error st => (st, db)
  | .ok db' => (.ok, db')

def dbAnswers : (o : SrvOp) → Db → o.Res × Db
  | .now, db => ((0 : UInt64), db)
  | .monotonicMs, db => ((0 : UInt64), db)
  | .recv _, db => (.error .errConnRetry, db)
  | .lease (.upsert _ _), db => (Status.errDb, db)
  | .lease .read, db => (.error .errDb, db)
  | .lease (.release _ _), db => (Status.errDb, db)
  | .lease (.claimed _ _), db => ((), db)
  | .nodeIdentity n cn, db => (serverDbNodeIdentity db n cn, db)
  | .upsertNode n role host cn epoch, db => (Status.ok, serverDbUpsertNode db n role host cn epoch)
  | .setNodeState n st, db => (Status.ok, serverDbSetNodeState db n st)
  | .writeClientReport n rep receipt, db => txnAnswer db (clientReportTxn db n rep receipt)
  | .writeMonitorReport n rep receipt, db => txnAnswer db (monitorReportTxn db n rep receipt)
  | .loadAlertRules scope, db => (.ok (serverDbLoadAlertRules db scope), db)
  | .nodeAlertTier n, db => (.ok (serverDbNodeAlertTier db n), db)
  | .probeAlertTier t, db => (.ok (serverDbProbeAlertTier db t), db)
  | .findOpenAlertEvent rule n t, db => (serverDbFindOpenAlertEvent db rule n t, db)
  | .alertEventDisposition id, db => (serverDbAlertEventDisposition db id, db)
  | .writeAlertEvent v, db => (.ok db.alertEvent.next, serverDbWriteAlertEvent db v)
  | .discoveredIsKnown ip kind, db => (.ok (serverDbDiscoveredIsKnown db ip kind), db)
  | .upsertDiscovered e, db =>
    (.ok (serverDbUpsertDiscovered db e).1, (serverDbUpsertDiscovered db e).2)
  | .getDiscovered id, db => (serverDbGetDiscovered db id, db)
  | .setDiscoveredStatus id st, db => (Status.ok, serverDbSetDiscoveredStatus db id st)
  | .enrollCreate host ip role, db => (Status.ok, serverDbEnrollCreate db host ip role)
  | .upsertProbeTarget t, db => (Status.ok, serverDbUpsertProbeTarget db t)
  | .controlDirectiveAdd r, db => txnAnswer db (serverDbControlDirectiveAdd db r)
  | .controlDirectiveCancel n c, db => (Status.ok, serverDbControlDirectiveCancel db n c)
  | .controlResultApply o, db => txnAnswer db (controlResultTxn db o)
  | .decommissionAck n g, db => txnAnswer db (decommissionAckTxn db n g)
  | .publishAlert _ _, db => ((), db)
  | .addressTombstoned _, db => (false, db)
  | .bind _, db => (Status.ok, db)
  | .reply _, db => (Status.ok, db)
  | .dispatchTarget _, db => (Status.ok, db)
  | .touchNode _ _, db => (Status.ok, db)
  | .setNodeFacts _ _ _, db => (Status.ok, db)
  | .crlAcknowledge _ _, db => (Status.ok, db)
  | .upsertNetGear _, db => (Status.ok, db)
  | .writeLldpEdge _, db => (Status.ok, db)
  | .publishControl _, db => (Status.ok, db)

theorem txnAnswer_txn (db : Db) (body : Except Status Db) :
    Txn db body (txnAnswer db body).1 (txnAnswer db body).2 := by
  cases body with
  | error st => exact .refused rfl
  | ok db' => exact .committed rfl

theorem dbAnswers_sem (o : SrvOp) (db : Db) : dbSem o db (dbAnswers o db).1 (dbAnswers o db).2 := by
  cases o with
  | nodeIdentity | loadAlertRules | nodeAlertTier | probeAlertTier | findOpenAlertEvent
  | alertEventDisposition | discoveredIsKnown | getDiscovered => exact ⟨.inl rfl, rfl⟩
  | writeAlertEvent | upsertDiscovered => exact ⟨.ok, .committed rfl, rfl⟩
  | upsertNode | setNodeState | setDiscoveredStatus | enrollCreate | upsertProbeTarget
  | controlDirectiveCancel => exact .committed rfl
  | writeClientReport | writeMonitorReport | controlDirectiveAdd | controlResultApply
  | decommissionAck => exact txnAnswer_txn db _
  | lease o => cases o <;> rfl
  | _ => rfl

/-! ## What the tables can become -/

section
variable {db db' : Db} {body : Except Status Db} {rc : Status} {K : Db → Prop}

theorem txnAnswer_keeps (hdb : K db) (hbody : ∀ db₁, body = .ok db₁ → K db₁) :
    K (txnAnswer db body).2 := by
  cases body with
  | error st => exact hdb
  | ok db₁ => exact hbody db₁ rfl

theorem Txn.keeps (h : Txn db body rc db') (hdb : K db) (ha : K (txnAnswer db body).2) : K db' := by
  rcases h.cases_db with rfl | rfl
  · exact hdb
  · exact ha

theorem dbSem_keeps (h : dbSem o db r db') (hdb : K db)
    (ha : K (dbAnswers o db).2) : K db' := by
  cases o with
  | nodeIdentity | loadAlertRules | nodeAlertTier | probeAlertTier | findOpenAlertEvent
  | alertEventDisposition | discoveredIsKnown | getDiscovered => exact h.2 ▸ hdb
  | writeAlertEvent | upsertDiscovered =>
    obtain ⟨rc, htxn, -⟩ := h
    exact htxn.keeps hdb ha
  | upsertNode | setNodeState | setDiscoveredStatus | enrollCreate | upsertProbeTarget
  | controlDirectiveCancel | writeClientReport | writeMonitorReport | controlDirectiveAdd
  | controlResultApply | decommissionAck => exact Txn.keeps h hdb ha
  | _ => exact (show db' = db from h) ▸ hdb

end

end SolariNet
