/-
# One reporter, any number of servers

The reporter of an agent (`Reporter.Reporter`) with its spool, and servers that serve the control
link (`Server.RunLoop`) over one database.  Every party is a process and takes its operations one at
a time; in between others act, and a party may be restarted.

    requests      what the reporter has put on the link; a server receives any of it, at any time
                  and as often as it likes, or nothing
    replies       what servers have answered; the reporter receives any of it, or nothing
    spool         rows stay over restarts; a statement that fails may have taken effect
    sessions      every session drawn is a new one
    tables        others may change anything but what is kept of this node's reports
-/
import SolariNet.Lib.System
import SolariNet.Reporter.AckSoundness
import SolariNet.Reporter.Framing
import SolariNet.Reporter.Spool
import SolariNet.Server.RunLoop

namespace SolariNet

open List Lib Lib.Prog

/-! ## What is stored -/

inductive ReportData where
  | client (rep : ClientReport)
  | monitor (rep : MonitorReport)

structure StoredReport where
  nodeId : UInt64
  data : ReportData
  receipt : ReportReceipt

namespace StoredReport

def row (c : StoredReport) : ReceiptRow := receiptRow c.nodeId c.receipt

def key (c : StoredReport) : UInt64 × Session × UInt32 × UInt8 := c.row.key

def txn (c : StoredReport) (db : Db) : Except Status Db :=
  match c.data with
  | .client rep => clientReportTxn db c.nodeId rep c.receipt
  | .monitor rep => monitorReportTxn db c.nodeId rep c.receipt

end StoredReport

def ReportData.IsOf (payload : Bytes) : ReportData → Prop
  | .client rep => solariMsgParseClientReport payload = .ok rep
  | .monitor rep => solariMsgParseMonitorReport payload = .ok rep

/-- The transaction stored exactly this frame: its node, its identity with the hash of its payload,
and its content. -/
@[mk_iff]
structure Stores (f : Frame) (c : StoredReport) : Prop where
  report : isDurableReport f.hdr.msgType = true
  node : c.nodeId = f.hdr.sourceNodeId
  receipt : serverReportIdentity f.hdr f.payload false = .ok c.receipt
  data : c.data.IsOf f.payload

def StoredIn (commits : List StoredReport) (frame : Bytes) : Prop :=
  ∃ f, solariFrameParse frame = .ok f ∧ ∃ c ∈ commits, Stores f c

def IsReport (frame : Bytes) : Prop :=
  ∃ f, solariFrameParse frame = .ok f ∧ isDurableReport f.hdr.msgType = true

def Identified (frame : Bytes) (session : Session) (seqNo : UInt32) : Prop :=
  ∃ f, solariFrameParse frame = .ok f ∧ isDurableReport f.hdr.msgType = true ∧
    sessionValues f.tlvs = [session.val] ∧ f.hdr.seqNo = seqNo

/-! ## The state -/

structure Transmission where
  frame : Bytes
  framed : List Bytes
  sent : List Bytes
  stored : List StoredReport

structure ReportWorld where
  db : Db
  commits : List StoredReport
  spool : Spool
  sessions : List Session
  framed : List Bytes
  sends : List Transmission
  replies : List Bytes
  accepted : List Bytes
  acked : List Bytes

namespace ReportWorld

def requests (w : ReportWorld) : List Bytes := w.sends.map Transmission.frame

def Committed (w : ReportWorld) (frame : Bytes) : Prop := StoredIn w.commits frame

def send (w : ReportWorld) (frame : Bytes) : ReportWorld :=
  { w with sends := ⟨frame, w.framed, w.requests, w.commits⟩ :: w.sends }

def ackRow (w : ReportWorld) (rowId : Nat) : ReportWorld :=
  { w with
    spool := w.spool.ack rowId
    acked := (w.spool.rows.filter (·.rowId = rowId)).map SpoolRow.frame ++ w.acked }

def store (w : ReportWorld) (c : StoredReport) (db : Db) : ReportWorld :=
  { w with db := db, commits := c :: w.commits }

end ReportWorld

/-! ## Operations -/

inductive PartyOp where
  | rep (o : RepOp)
  | srv (o : SrvOp)
  | framed (frame : Bytes)

abbrev PartyOp.Res : PartyOp → Type
  | .rep o => o.Res
  | .srv o => o.Res
  | .framed _ => Unit

abbrev PartyM : Type → Type := Prog PartyOp PartyOp.Res

abbrev onReporter {α : Type} (p : RepM α) : PartyM α := p.embed PartyOp.rep fun _ r => r

abbrev onControl {α : Type} (p : SrvM α) : PartyM α := p.embed PartyOp.srv fun _ r => r

def reporterSem : (o : RepOp) → ReportWorld → o.Res → ReportWorld → Prop
  | .sendAck frame, w, _, w' => w' = w.send frame
  | .recvAck, w, r, w' => w' = w ∧ ∀ rx, r = .ok rx → rx.bytes ∈ w.replies
  | .spoolPush frame, w, rc, w' =>
    (∃ now, w' = { w with spool := w.spool.push now frame }) ∨ rc ≠ Status.ok ∧ w' = w
  | .spoolPeek, w, r, w' =>
    w' = w ∧ ((∃ st, r = .error st) ∨
      ∃ now, r = .ok ((w.spool.peek now).map fun q => (q.rowId, q.frame)))
  | .spoolAck rowId, w, rc, w' => w' = w.ackRow rowId ∨ rc ≠ Status.ok ∧ w' = w
  | .spoolNack rowId, w, _, w' => (∃ now, w' = { w with spool := w.spool.nack now rowId }) ∨ w' = w
  | .newSession, w, r, w' =>
    (∃ st, r = .error st) ∧ w' = w ∨
      ∃ s, r = .ok s ∧ s ∉ w.sessions ∧ w' = { w with sessions := s :: w.sessions }
  | .returned frame rc, w, _, w' =>
    w' = if rc = .ok then { w with accepted := frame :: w.accepted } else w
  | _, w, _, w' => w' = w

inductive StoreTxn (w : ReportWorld) (c : StoredReport) : Status → ReportWorld → Prop where
  | aborted : StoreTxn w c .errDb w
  | refused {st : Status} (h : c.txn w.db = .error st) : StoreTxn w c st w
  | committed {db : Db} (h : c.txn w.db = .ok db) : StoreTxn w c .ok (w.store c db)
  | unconfirmed {db : Db} (h : c.txn w.db = .ok db) : StoreTxn w c .errDb (w.store c db)

def controlSem : (o : SrvOp) → ReportWorld → o.Res → ReportWorld → Prop
  | .recv _, w, r, w' => w' = w ∧ ∀ rx, r = .ok rx → rx.bytes ∈ w.requests
  | .reply frame, w, _, w' => w' = { w with replies := frame :: w.replies }
  | .writeClientReport n rep receipt, w, rc, w' => StoreTxn w ⟨n, .client rep, receipt⟩ rc w'
  | .writeMonitorReport n rep receipt, w, rc, w' => StoreTxn w ⟨n, .monitor rep, receipt⟩ rc w'
  | o, w, r, w' => ∃ db, dbSem o w.db r db ∧ w' = { w with db := db }

/-! ## The system -/

inductive Party (ι : Type) where
  | agent
  | server (i : ι)
  deriving DecidableEq

inductive PartyMem where
  | closed
  | agent (r : Reporter) (framed : List Bytes)
  | server (k : LinkState)

def partySem {ι : Type} : Party ι → Sem PartyOp PartyOp.Res ReportWorld
  | .agent, .rep o, w, r, w' => reporterSem o w r w'
  | .agent, .framed frame, w, _, w' => w' = { w with framed := frame :: w.framed }
  | .server _, .srv o, w, r, w' => controlSem o w r w'
  | _, _, w, _, w' => w' = w

def buildFrame (r : Reporter) (built : List Bytes) (msgType flags : UInt8) (correlationId : UInt32)
    (ts : List Tlv) (tlvCount : UInt16) (cap : Nat) : PartyM PartyMem := do
  let x ← onReporter
    (solariReporterFrameCorr r msgType flags correlationId (encodeTlvs ts) tlvCount cap)
  match x.1 with
  | .error _ => .ret (.agent x.2 built)
  | .ok frame =>
    let _ ← (perform (PartyOp.framed frame) : PartyM Unit)
    .ret (.agent x.2 (frame :: built))

def sendFrame (r : Reporter) (frame : Bytes) : RepM Reporter := do
  let x ← solariReporterSend r frame
  let _ ← Rep.returned frame x.1
  .ret x.2

def openReporter (opts : ReporterOpts) (spool : Bool) : RepM PartyMem := do
  let session ← Rep.newSession
  match solariReporterOpen opts session spool with
  | .error _ => .ret .closed
  | .ok r => .ret (.agent r [])

/-- What a party may begin.  A server serves with whatever it knows of its lease. -/
inductive PartyStart {ι : Type} (opts : ReporterOpts) (cfg : ι → LoopCfg) (self : ι → UInt64) :
    Party ι → PartyMem → PartyM PartyMem → Prop where
  | opens (spool : Bool) :
      PartyStart opts cfg self .agent .closed (onReporter (openReporter opts spool))
  | connect (r : Reporter) (built : List Bytes) : PartyStart opts cfg self .agent (.agent r built)
        (onReporter (solariReporterConnect r >>= fun x => .ret (.agent x.2 built)))
  | frame (r : Reporter) (built : List Bytes) (msgType flags : UInt8) (correlationId : UInt32)
      (ts : List Tlv) (tlvCount : UInt16) (cap : Nat) :
      PartyStart opts cfg self .agent (.agent r built)
        (buildFrame r built msgType flags correlationId ts tlvCount cap)
  | send (r : Reporter) (built : List Bytes) (frame : Bytes) (h : frame ∈ built) :
      PartyStart opts cfg self .agent (.agent r built)
        (onReporter (sendFrame r frame >>= fun r => .ret (.agent r built)))
  | drain (r : Reporter) (built : List Bytes) : PartyStart opts cfg self .agent (.agent r built)
        (onReporter (solariReporterDrain r >>= fun x => .ret (.agent x.2 built)))
  | serve (i : ι) (m : LeaseCtx) (k : LinkState) : PartyStart opts cfg self (.server i) (.server k)
        (onControl (serverServiceControl (cfg i) (self i) m k >>= fun k => .ret (.server k)))

def PartyBoot {ι : Type} : Party ι → PartyMem → Prop
  | .agent, m => m = .closed
  | .server _, m => m = .server ⟨.empty, 0⟩

structure NodeReportsKept (n : UInt64) (db db' : Db) : Prop where
  receipts : ∀ q : ReceiptRow, q.nodeId = n →
    (q ∈ db'.reportReceipt.rows ↔ q ∈ db.reportReceipt.rows)
  host : db'.hostCurrent.find? n = db.hostCurrent.find? n
  procs : db'.procCurrent.rows.filter (·.nodeId = n) = db.procCurrent.rows.filter (·.nodeId = n)

def reportSystem {ι : Type} (opts : ReporterOpts) (cfg : ι → LoopCfg) (self : ι → UInt64) :
    System (Party ι) PartyOp PartyOp.Res ReportWorld PartyMem where
  sem := partySem
  start := PartyStart opts cfg self
  env w w' := ∃ db, NodeReportsKept opts.nodeId w.db db ∧ w' = { w with db := db }
  boot := PartyBoot

/-- Nothing of the node's reports is stored or under way; the tables may hold anything else. -/
structure ReportInitial (n : UInt64) (w : ReportWorld) : Prop where
  receipts : ∀ q ∈ w.db.reportReceipt.rows, q.nodeId ≠ n
  commits : w.commits = []
  spool : w.spool.rows = []
  framed : w.framed = []
  sends : w.sends = []
  replies : w.replies = []
  accepted : w.accepted = []
  acked : w.acked = []

/-! ## What a step can do -/

structure NewFrame (n : UInt64) (w : ReportWorld) (frame : Bytes) : Prop where
  node : ∀ f, solariFrameParse frame = .ok f → f.hdr.sourceNodeId = n
  number : ∀ s q, Identified frame s q → s ∈ w.sessions ∧ ∀ b ∈ w.framed, ¬ Identified b s q

/-- If the reply is an ACK, it is for a report that is stored, and carries its session and nothing
else of the kind. -/
def AckBacked (w : ReportWorld) (reply : Bytes) : Prop :=
  ∀ got, solariFrameParse reply = .ok got → got.hdr.msgType = Msg.ack →
    ∃ frame ∈ w.requests, ∃ s : Session, Identified frame s got.hdr.correlationId ∧
      sessionValues got.tlvs = [s.val] ∧ w.Committed frame

inductive ReportChange (n : UInt64) (w : ReportWorld) : ReportWorld → Prop where
  | same : ReportChange n w w
  | sent {frame : Bytes} (h : frame ∈ w.framed) : ReportChange n w (w.send frame)
  | pushed {frame : Bytes} (now : Nat) (h : frame ∈ w.framed) :
      ReportChange n w { w with spool := w.spool.push now frame }
  | acked {rowId : Nat}
      (h : ∀ q ∈ w.spool.rows, q.rowId = rowId → IsReport q.frame → w.Committed q.frame) :
      ReportChange n w (w.ackRow rowId)
  | nacked (now rowId : Nat) : ReportChange n w { w with spool := w.spool.nack now rowId }
  | drawn {s : Session} (h : s ∉ w.sessions) :
      ReportChange n w { w with sessions := s :: w.sessions }
  | framed {frame : Bytes} (h : NewFrame n w frame) :
      ReportChange n w { w with framed := frame :: w.framed }
  | accepted {frame : Bytes} (h : IsReport frame → w.spool.Holds frame ∨ w.Committed frame) :
      ReportChange n w { w with accepted := frame :: w.accepted }
  | replied {frame : Bytes} (h : AckBacked w frame) :
      ReportChange n w { w with replies := frame :: w.replies }
  | stored {c : StoredReport} {db : Db} {frame : Bytes} {f : Frame} (hr : frame ∈ w.requests)
      (hp : solariFrameParse frame = .ok f) (hs : Stores f c) (ht : c.txn w.db = .ok db) :
      ReportChange n w (w.store c db)
  | tables {db : Db} (h : NodeReportsKept n w.db db) : ReportChange n w { w with db := db }

/-! ## The invariant -/

structure ReportInv (n : UInt64) (w : ReportWorld) : Prop where
  node : ∀ b ∈ w.framed, ∀ f, solariFrameParse b = .ok f → f.hdr.sourceNodeId = n
  drawn : ∀ b ∈ w.framed, ∀ s q, Identified b s q → s ∈ w.sessions
  unique : ∀ b ∈ w.framed, ∀ b' ∈ w.framed, ∀ s q, Identified b s q → Identified b' s q → b = b'
  spooled : ∀ q ∈ w.spool.rows, q.frame ∈ w.framed
  sent : ∀ b ∈ w.requests, b ∈ w.framed
  replies : ∀ b ∈ w.replies, AckBacked w b
  stored : ∀ c ∈ w.commits, ∃ b ∈ w.requests, ∃ f, solariFrameParse b = .ok f ∧ Stores f c
  receipts : ∀ q : ReceiptRow, q.nodeId = n →
    (q ∈ w.db.reportReceipt.rows ↔ ∃ c ∈ w.commits, c.row = q)
  once : (w.commits.map StoredReport.key).Nodup
  accepted : ∀ b ∈ w.accepted, IsReport b → w.spool.Holds b ∨ w.Committed b
  acked : ∀ b ∈ w.acked, IsReport b → w.Committed b

theorem ReportInitial.inv {n : UInt64} (h : ReportInitial n w) :
    ReportInv n w where
  node := by simp [h.framed]
  drawn := by simp [h.framed]
  unique := by simp [h.framed]
  spooled := by simp [h.spool]
  sent := by simp [ReportWorld.requests, h.sends]
  replies := by simp [h.replies]
  stored := by simp [h.commits]
  receipts q hq := by
    simp only [h.commits, not_mem_nil, false_and, exists_false, iff_false]
    exact fun hm => h.receipts q hm hq
  once := by simp [h.commits]
  accepted := by simp [h.accepted]
  acked := by simp [h.acked]

theorem StoredIn.mono {l l' : List StoredReport} (hl : l ⊆ l')
    (h : StoredIn l frame) : StoredIn l' frame := by
  obtain ⟨f, hp, c, hc, hs⟩ := h
  exact ⟨f, hp, c, hl hc, hs⟩

theorem AckBacked.mono (h : AckBacked w reply)
    (hr : w.requests ⊆ w'.requests) (hc : w.commits ⊆ w'.commits) : AckBacked w' reply := by
  intro got hp hm
  obtain ⟨frame, hframe, s, hid, hv, hcom⟩ := h got hp hm
  exact ⟨frame, hr hframe, s, hid, hv, hcom.mono hc⟩

theorem serverReportIdentity_ok
    (h : serverReportIdentity hdr payload false = .ok receipt) :
    sessionValues (readTlvs payload).1 = [receipt.session.val] ∧ receipt.seqNo = hdr.seqNo ∧
      receipt.msgType = hdr.msgType ∧ receipt.legacy = false := by
  unfold serverReportIdentity at h
  split at h
  · cases h
  next found hfound =>
  split at h
  · cases h
  cases found with
  | none => cases h
  | some s =>
    cases h
    exact ⟨scanSession_none.1 hfound, rfl, rfl, rfl⟩

theorem Stores.identified (h : Stores f c)
    (hp : solariFrameParse frame = .ok f) : Identified frame c.receipt.session c.receipt.seqNo := by
  obtain ⟨hv, hq, -, -⟩ := serverReportIdentity_ok h.receipt
  exact ⟨f, hp, h.report, hv, hq.symm⟩

theorem StoredReport.txn_ok {c : StoredReport} {db db' : Db} (h : c.txn db = .ok db')
    (hl : c.receipt.legacy = false) :
    ∃ t, db.reportReceipt.insert c.row = some t ∧ db'.reportReceipt = t := by
  have hins {db₁ : Db} (hr : reportReceipt db c.nodeId c.receipt = .ok db₁) :
      ∃ t, db.reportReceipt.insert c.row = some t ∧ db₁.reportReceipt = t := by
    rcases reportReceipt_eq_ok hr with ⟨hleg, -⟩ | ⟨-, t, hi, rfl⟩
    · exact absurd (hl.symm.trans hleg) (by decide)
    · exact ⟨t, hi, rfl⟩
  unfold txn at h
  split at h
  · obtain ⟨-, db₁, t, hr, -, rfl⟩ := clientReportTxn_eq_ok h
    obtain ⟨t', hi, ht'⟩ := hins hr
    exact ⟨t', hi, ht'⟩
  next rep _ =>
  obtain ⟨-, db₁, hr, rfl⟩ := monitorReportTxn_eq_ok h
  obtain ⟨current, hprobes⟩ :=
    foldl_writeProbe_eq c.nodeId (rep.probes.take solariMaxProbes) db₁
  obtain ⟨t', hi, ht'⟩ := hins hr
  exact ⟨t', hi, by rw [hprobes]; exact ht'⟩

section
variable {n : UInt64} {w : ReportWorld}

section
variable (h : ReportInv n w)
include h

theorem ReportInv.store {c : StoredReport} {db : Db} {f : Frame}
    (hr : frame ∈ w.requests) (hp : solariFrameParse frame = .ok f) (hs : Stores f c)
    (ht : c.txn w.db = .ok db) : ReportInv n (w.store c db) := by
  obtain ⟨-, -, -, hlegacy⟩ := serverReportIdentity_ok hs.receipt
  obtain ⟨t, hi, hdb⟩ := StoredReport.txn_ok ht hlegacy
  obtain ⟨hrows, hnew⟩ := Table.rows_insert hi
  have hnode : c.row.nodeId = n := hs.node.trans (h.node frame (h.sent frame hr) f hp)
  have hmono {b : Bytes} (hb : w.Committed b) : (w.store c db).Committed b :=
    hb.mono (subset_cons_self c w.commits)
  have hrec : (w.store c db).db.reportReceipt.rows = w.db.reportReceipt.rows ++ [c.row] := by
    rw [← hrows, ← hdb]
    rfl
  refine
    { node := h.node, drawn := h.drawn, unique := h.unique, spooled := h.spooled, sent := h.sent
      replies := ?_
      stored := ?_, receipts := ?_, once := ?_
      accepted := fun b hb hrep => (h.accepted b hb hrep).imp_right hmono
      acked := fun b hb hrep => hmono (h.acked b hb hrep) }
  · exact fun b hb => (h.replies b hb).mono (List.Subset.refl _) (subset_cons_self c w.commits)
  · exact forall_mem_cons.2 ⟨⟨frame, hr, f, hp, hs⟩, h.stored⟩
  · intro q hq
    rw [hrec, mem_append, mem_singleton, h.receipts q hq]
    constructor
    · rintro (⟨d, hd, hrow⟩ | rfl)
      · exact ⟨d, mem_cons_of_mem c hd, hrow⟩
      · exact ⟨c, mem_cons_self, rfl⟩
    · rintro ⟨d, hd, hrow⟩
      rcases mem_cons.1 hd with rfl | hd
      · exact .inr hrow.symm
      · exact .inl ⟨d, hd, hrow⟩
  · refine nodup_cons.2 ⟨fun hmem => ?_, h.once⟩
    -- a report stored before under the key has its receipt in the table
    obtain ⟨d, hd, hkey⟩ := mem_map.1 hmem
    have hdn : d.row.nodeId = n := (congrArg Prod.fst hkey).trans hnode
    exact hnew d.row ((h.receipts d.row hdn).2 ⟨d, hd, rfl⟩) hkey

theorem ReportInv.frame {frame : Bytes} (hf : NewFrame n w frame) :
    ReportInv n { w with framed := frame :: w.framed } := by
  have hsub : w.framed ⊆ frame :: w.framed := subset_cons_self frame w.framed
  refine
    { node := ?_, drawn := ?_, unique := ?_
      spooled := fun q hq => hsub (h.spooled q hq)
      sent := fun b hb => hsub (h.sent b hb)
      replies := h.replies, stored := h.stored, receipts := h.receipts, once := h.once
      accepted := h.accepted, acked := h.acked }
  · exact forall_mem_cons.2 ⟨hf.node, h.node⟩
  · exact forall_mem_cons.2 ⟨fun s q hid => (hf.number s q hid).1, h.drawn⟩
  intro b hb b' hb' s q hid hid'
  rcases mem_cons.1 hb with rfl | hold
  · rcases mem_cons.1 hb' with rfl | hold'
    · rfl
    · exact absurd hid' ((hf.number s q hid).2 b' hold')
  · rcases mem_cons.1 hb' with rfl | hold'
    · exact absurd hid ((hf.number s q hid').2 b hold)
    · exact h.unique b hold b' hold' s q hid hid'

theorem ReportInv.ack {rowId : Nat}
    (hr : ∀ q ∈ w.spool.rows, q.rowId = rowId → IsReport q.frame → w.Committed q.frame) :
    ReportInv n (w.ackRow rowId) := by
  refine
    { node := h.node, drawn := h.drawn, unique := h.unique, spooled := ?_, sent := h.sent
      replies := h.replies, stored := h.stored, receipts := h.receipts, once := h.once
      accepted := ?_, acked := ?_ }
  · exact fun q hq => h.spooled q (Serial.mem_delete.1 hq).1
  · intro b hb hrep
    rcases h.accepted b hb hrep with ⟨q, hq, rfl⟩ | hcom
    · by_cases hid : q.rowId = rowId
      · exact .inr (hr q hq hid hrep)
      · exact .inl ⟨q, Serial.mem_delete.2 ⟨hq, by simpa using hid⟩, rfl⟩
    · exact .inr hcom
  · intro b hb hrep
    rcases mem_append.1 hb with hb | hb
    · obtain ⟨q, hq, rfl⟩ := mem_map.1 hb
      obtain ⟨hq, hid⟩ := mem_filter.1 hq
      exact hr q hq (by simpa using hid) hrep
    · exact h.acked b hb hrep

theorem ReportInv.change (hc : ReportChange n w w') : ReportInv n w' := by
  cases hc with
  | same => exact h
  | @sent frame hf =>
    have hsub : w.requests ⊆ (w.send frame).requests := subset_cons_self _ _
    refine { h with sent := ?_, replies := ?_, stored := ?_ }
    · exact fun b hb => (mem_cons.1 hb).elim (fun hb => hb ▸ hf) (h.sent b)
    · exact fun b hb => (h.replies b hb).mono hsub (List.Subset.refl _)
    · intro c hc
      obtain ⟨b, hb, hs⟩ := h.stored c hc
      exact ⟨b, hsub hb, hs⟩
  | @pushed frame now hf =>
    refine { h with spooled := fun q hq => ?_, accepted := fun b hb hrep => ?_ }
    · rcases Serial.mem_push.1 hq with hq | rfl
      · exact h.spooled q hq
      · exact hf
    · exact (h.accepted b hb hrep).imp_left fun hold => Spool.holds_push.2 (.inl hold)
  | acked hr => exact h.ack hr
  | nacked now rowId =>
    refine { h with spooled := fun q hq => ?_, accepted := fun b hb hrep => ?_ }
    · obtain ⟨r, hr, hframe⟩ := Spool.holds_nack.1 ⟨q, hq, rfl⟩
      exact hframe ▸ h.spooled r hr
    · exact (h.accepted b hb hrep).imp_left Spool.holds_nack.2
  | @drawn s hs =>
    exact { h with drawn := fun b hb t q hid => mem_cons_of_mem s (h.drawn b hb t q hid) }
  | framed hf => exact h.frame hf
  | @accepted frame hf =>
    exact { h with accepted := forall_mem_cons.2 ⟨hf, h.accepted⟩ }
  | @replied frame hf =>
    exact { h with replies := forall_mem_cons.2 ⟨hf, h.replies⟩ }
  | stored hr hp hs ht => exact h.store hr hp hs ht
  | tables hk => exact { h with receipts := fun q hq => (hk.receipts q hq).trans (h.receipts q hq) }

end

end

end SolariNet
