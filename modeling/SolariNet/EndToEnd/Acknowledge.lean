/-
# What a server acknowledges is stored

The servers of `EndToEnd.Reporting`.  What a party may rely on while others act is `ReportRely`:
what is stored, framed and sent stays so, and nobody but the agent touches its frames, its sessions
and its spool.

A report that wants an ACK is admitted with a session only, so its handler succeeds only when its
transaction has been committed, now or before; in the second case the receipt it meets is that of
the same frame, since a session and a number name one frame.
-/
import SolariNet.EndToEnd.Reporting

namespace SolariNet

open Lib Lib.Prog

/-! ## What the others do -/

/-- Everything a report is stored in. -/
structure ReportsKept (db db' : Db) : Prop where
  receipts : db'.reportReceipt = db.reportReceipt
  host : db'.hostCurrent = db.hostCurrent
  procs : db'.procCurrent = db.procCurrent
  hostHistory : db'.hostHistory = db.hostHistory
  probes : db'.probeCurrent = db.probeCurrent
  probeHistory : db'.probeHistory = db.probeHistory

structure SameOwn (w w' : ReportWorld) : Prop where
  framed : w'.framed = w.framed
  sessions : w'.sessions = w.sessions
  spool : w'.spool = w.spool

structure ReportRely {ι : Type} (p : Party ι) (w w' : ReportWorld) : Prop where
  commits : w.commits ⊆ w'.commits
  framed : w.framed ⊆ w'.framed
  requests : w.requests ⊆ w'.requests
  own : p = .agent → SameOwn w w'

namespace ReportRely

variable {ι : Type} {p : Party ι} {w w' w'' : ReportWorld}

theorem refl (p : Party ι) (w : ReportWorld) : ReportRely p w w :=
  ⟨List.Subset.refl _, List.Subset.refl _, List.Subset.refl _, fun _ => ⟨rfl, rfl, rfl⟩⟩

theorem trans (h : ReportRely p w w') (h' : ReportRely p w' w'') : ReportRely p w w'' where
  commits := List.Subset.trans h.commits h'.commits
  framed := List.Subset.trans h.framed h'.framed
  requests := List.Subset.trans h.requests h'.requests
  own hp :=
    ⟨(h'.own hp).framed.trans (h.own hp).framed, (h'.own hp).sessions.trans (h.own hp).sessions,
      (h'.own hp).spool.trans (h.own hp).spool⟩

end ReportRely

variable {w w' : ReportWorld} {K : ReportWorld → Prop} {db : Db} {st : Status} {payload : Bytes}
  {db' : Db} {ι : Type} {p : Party ι} {o : SrvOp} {n : UInt64} {r : o.Res}

def SrvOp.storesReport : SrvOp → Bool
  | .writeClientReport _ _ _ | .writeMonitorReport _ _ _ => true
  | _ => false

theorem dbSem_keepsReports (ho : o.storesReport = false) (h : dbSem o db r db') :
    ReportsKept db db' := by
  have hdb : ReportsKept db db := ⟨rfl, rfl, rfl, rfl, rfl, rfl⟩
  refine dbSem_keeps h hdb ?_
  cases o with
  | upsertProbeTarget t =>
    show ReportsKept db (serverDbUpsertProbeTarget db t)
    unfold serverDbUpsertProbeTarget
    split
    · exact hdb
    · exact ⟨rfl, rfl, rfl, rfl, rfl, rfl⟩
  | controlDirectiveAdd row =>
    refine txnAnswer_keeps hdb fun db₁ hb => ?_
    obtain ⟨t, rfl⟩ := serverDbControlDirectiveAdd_eq_ok hb
    exact ⟨rfl, rfl, rfl, rfl, rfl, rfl⟩
  | controlResultApply o =>
    refine txnAnswer_keeps hdb fun db₁ hb => ?_
    obtain ⟨t, c, rfl⟩ := controlResultTxn_eq_ok hb
    exact ⟨rfl, rfl, rfl, rfl, rfl, rfl⟩
  | decommissionAck n g =>
    refine txnAnswer_keeps hdb fun db₁ hb => ?_
    obtain ⟨t, -, rfl⟩ := decommissionAckTxn_eq_ok hb
    exact ⟨rfl, rfl, rfl, rfl, rfl, rfl⟩
  | upsertDiscovered e =>
    obtain ⟨t, ht⟩ := serverDbUpsertDiscovered_eq db e
    show ReportsKept db (serverDbUpsertDiscovered db e).2
    rw [ht]
    exact ⟨rfl, rfl, rfl, rfl, rfl, rfl⟩
  | lease o => cases o <;> exact hdb
  | writeClientReport | writeMonitorReport => cases ho
  | _ => exact ⟨rfl, rfl, rfl, rfl, rfl, rfl⟩

theorem controlSem_cases (h : controlSem o w r w') :
    w' = w ∨ (∃ b, w' = { w with replies := b :: w.replies }) ∨
      (∃ c db, c.txn w.db = .ok db ∧ w' = w.store c db) ∨
      ∃ db, ReportsKept w.db db ∧ w' = { w with db := db } := by
  have htxn {c : StoredReport} {rc : Status} (h : StoreTxn w c rc w') :
      w' = w ∨ ∃ c db, c.txn w.db = .ok db ∧ w' = w.store c db := by
    cases h with
    | aborted | refused _ => exact .inl rfl
    | committed ht | unconfirmed ht => exact .inr ⟨_, _, ht, rfl⟩
  cases o with
  | recv l => exact .inl h.1
  | reply b => exact .inr (.inl ⟨b, h⟩)
  | writeClientReport n rep receipt
  | writeMonitorReport n rep receipt => exact (htxn h).imp_right fun h => .inr (.inl h)
  | _ =>
    obtain ⟨db, hdb, rfl⟩ := h
    exact .inr (.inr (.inr ⟨db, dbSem_keepsReports rfl hdb, rfl⟩))

theorem controlSem_rely (p : Party ι) (h : controlSem o w r w') : ReportRely p w w' := by
  rcases controlSem_cases h with rfl | ⟨b, rfl⟩ | ⟨c, db, -, rfl⟩ | ⟨db, -, rfl⟩
  · exact .refl p _
  · exact { ReportRely.refl p w with own := fun _ => ⟨rfl, rfl, rfl⟩ }
  · exact ⟨List.subset_cons_self _ _, List.Subset.refl _, List.Subset.refl _,
      fun _ => ⟨rfl, rfl, rfl⟩⟩
  · exact { ReportRely.refl p w with own := fun _ => ⟨rfl, rfl, rfl⟩ }

theorem reporterSem_keeps {o : RepOp} {r : o.Res} (h : reporterSem o w r w') :
    w'.db = w.db ∧ w'.commits = w.commits ∧ w'.framed = w.framed ∧
      w.requests ⊆ w'.requests := by
  have hsame : w.db = w.db ∧ w.commits = w.commits ∧ w.framed = w.framed ∧
      w.requests ⊆ w.requests := ⟨rfl, rfl, rfl, List.Subset.refl _⟩
  cases o with
  | sendAck frame =>
    cases h
    exact ⟨rfl, rfl, rfl, List.subset_cons_self _ _⟩
  | recvAck =>
    obtain ⟨rfl, -⟩ := h
    exact hsame
  | spoolPush frame =>
    rcases h with ⟨now, rfl⟩ | ⟨-, rfl⟩
    · exact hsame
    · exact hsame
  | spoolPeek =>
    obtain ⟨rfl, -⟩ := h
    exact hsame
  | spoolAck rowId =>
    rcases h with rfl | ⟨-, rfl⟩
    · exact hsame
    · exact hsame
  | spoolNack rowId =>
    rcases h with ⟨now, rfl⟩ | rfl
    · exact hsame
    · exact hsame
  | newSession =>
    rcases h with ⟨-, rfl⟩ | ⟨s, -, -, rfl⟩
    · exact hsame
    · exact hsame
  | returned frame rc =>
    have h' : w' = if rc = .ok then { w with accepted := frame :: w.accepted } else w := h
    split at h'
    · subst h'
      exact hsame
    · subst h'
      exact hsame
  | _ =>
    cases h
    exact hsame

theorem partySem_rely {q : Party ι} (hpq : p ≠ q) {o : PartyOp} {r : o.Res}
    (h : partySem q o w r w') : ReportRely p w w' := by
  cases q with
  | server i =>
    cases o with
    | srv o => exact controlSem_rely p h
    | rep o | framed b =>
      cases h
      exact .refl p _
  | agent =>
    cases o with
    | srv o =>
      cases h
      exact .refl p _
    | rep o =>
      obtain ⟨-, hc, hf, hr⟩ := reporterSem_keeps h
      exact ⟨hc ▸ List.Subset.refl _, hf ▸ List.Subset.refl _, hr, fun hp => absurd hp hpq⟩
    | framed b =>
      cases h
      exact ⟨List.Subset.refl _, List.subset_cons_self _ _, List.Subset.refl _,
        fun hp => absurd hp hpq⟩

def Lasting (K : ReportWorld → Prop) : Prop :=
  ∀ w w' : ReportWorld, w.commits ⊆ w'.commits → w.framed ⊆ w'.framed →
    w.requests ⊆ w'.requests → K w → K w'

theorem Lasting.rely (hK : Lasting K) (hR : ReportRely p w w') (h : K w) : K w' :=
  hK w w' hR.commits hR.framed hR.requests h

theorem lasting_sent (frame : Bytes) : Lasting fun w => frame ∈ w.requests :=
  fun _ _ _ _ hr h => hr h

theorem lasting_stored (frame : Bytes) : Lasting fun w => frame ∈ w.requests ∧ w.Committed frame :=
  fun _ _ hc _ hr h => ⟨hr h.1, h.2.mono hc⟩

theorem lasting_true : Lasting fun _ => True := fun _ _ _ _ _ h => h

/-! ## The statements of a server -/

theorem ReportsKept.node (h : ReportsKept db db') (n : UInt64) : NodeReportsKept n db db' :=
  ⟨fun _ _ => by rw [h.receipts], by rw [h.host], by rw [h.procs]⟩

theorem insertProcs_error {ps : List ProcEntry}
    (h : insertProcs n t ps = .error st) : st = .errDb := by
  induction ps generalizing t with
  | nil => cases h
  | cons p ps ih =>
    unfold insertProcs at h
    split at h
    · cases h
      rfl
    · exact ih h

variable {receipt : ReportReceipt}

theorem reportReceipt_error (h : reportReceipt db n receipt = .error st) :
    st ≠ .ok ∧ (st = .errConnRetry → ∃ q ∈ db.reportReceipt.rows,
      q.key = (receiptRow n receipt).key) := by
  unfold reportReceipt at h
  split at h
  · cases h
  rcases dbReportReceipt_cases db n receipt with ⟨t, -, ht⟩ | ⟨q, hq, hk, hst⟩
  · rw [ht] at h
    cases h
  rw [hst] at h
  refine ⟨?_, fun _ => ⟨q, hq, hk⟩⟩
  split at h
  · cases h
    decide
  · cases h
    decide

theorem clientReportTxn_error
    (h : clientReportTxn db n rep receipt = .error st) :
    st = .errInvalidArg ∨ st = .errDb ∨ reportReceipt db n receipt = .error st := by
  unfold clientReportTxn at h
  split at h
  · cases h
    exact .inl rfl
  cases hr : reportReceipt db n receipt with
  | error st' =>
    rw [hr] at h
    cases h
    exact .inr (.inr rfl)
  | ok db₁ =>
    rw [hr] at h
    unfold dbWriteProcs at h
    cases hp : insertProcs n ((writeHostCurrent db₁ (hostCurrentRow n
        rep)).procCurrent.delete fun r => r.nodeId = n) rep.procs with
    | error st' =>
      simp only [Bind.bind, Except.bind, hp] at h
      cases h
      exact .inr (.inl (insertProcs_error hp))
    | ok t =>
      simp only [Bind.bind, Except.bind, hp] at h
      cases h

theorem monitorReportTxn_error
    (h : monitorReportTxn db n rep receipt = .error st) :
    st = .errInvalidArg ∨ reportReceipt db n receipt = .error st := by
  unfold monitorReportTxn at h
  split at h
  · cases h
    exact .inl rfl
  cases hr : reportReceipt db n receipt with
  | error st' =>
    rw [hr] at h
    cases h
    exact .inr rfl
  | ok db₁ =>
    rw [hr] at h
    cases h

theorem StoredReport.txn_error {c : StoredReport} (h : c.txn db = .error st) :
    st ≠ .ok ∧ (st = .errConnRetry → ∃ q ∈ db.reportReceipt.rows, q.key = c.key) := by
  unfold txn at h
  split at h
  · rcases clientReportTxn_error h with rfl | rfl | hr
    · exact ⟨by decide, fun h => by cases h⟩
    · exact ⟨by decide, fun h => by cases h⟩
    · exact reportReceipt_error hr
  · rcases monitorReportTxn_error h with rfl | hr
    · exact ⟨by decide, fun h => by cases h⟩
    · exact reportReceipt_error hr

/-! ## The handler of a report -/

theorem scanSession_error {found : Option Session} {ts : List Tlv}
    (h : scanSession found ts = .error st) : st = .errInvalidArg := by
  induction ts generalizing found with
  | nil => cases h
  | cons t ts ih =>
    unfold scanSession at h
    split at h
    · exact ih h
    split at h
    · exact ih h
    · cases h
      rfl

variable {hdr : FrameHeader}

theorem serverReportIdentity_error
    (h : serverReportIdentity hdr payload false = .error st) : st ≠ .ok ∧ st ≠ .errConnRetry := by
  unfold serverReportIdentity at h
  split at h
  · next hscan =>
    cases h
    rw [scanSession_error hscan]
    decide
  split at h
  · cases h
    rcases readTlvs_status payload with hst | hst
    · rw [hst]
      decide
    · rw [hst]
      decide
  · split at h
    · cases h
    · cases h
      decide

theorem serverReportAdmit_wantsAck (cfg : ServerCfg) (t : Dedup)
    (hack : wantsAck hdr = true) (payload : Bytes) :
    serverReportAdmit cfg t hdr payload = .ret (serverReportIdentity hdr payload false, t) := by
  have hid (allow : Bool) :
      serverReportIdentity hdr payload allow = serverReportIdentity hdr payload false := by
    simp only [serverReportIdentity, hack, Bool.or_true]
  unfold serverReportAdmit
  simp only [hid]
  cases h : serverReportIdentity hdr payload false with
  | error st => rfl
  | ok receipt =>
    obtain ⟨-, -, -, hl⟩ := serverReportIdentity_ok h
    simp only [hl]
    rfl

section server
variable {ι : Type} {i : ι} {n : UInt64} {J : ReportWorld → Prop}
  (hJ : ∀ w w', ReportInv n w → J w → ReportChange n w w' → J w')

def Upheld (n : UInt64) (J : ReportWorld → Prop) (w : ReportWorld) : Prop := ReportInv n w ∧ J w

abbrev ServerSafe (i : ι) (n : UInt64) (J : ReportWorld → Prop) {α : Type} :
    (α → ReportWorld → Prop) → SrvM α → ReportWorld → Prop :=
  Safe controlSem (ReportRely (.server i)) (Upheld n J)

def ReportSettled (frame : Bytes) (rc : Status) (w : ReportWorld) : Prop :=
  frame ∈ w.requests ∧ (rc = .ok ∨ rc = .errConnRetry → w.Committed frame)

include hJ

theorem Upheld.change (h : Upheld n J w) (hc : ReportChange n w w') : Upheld n J w' :=
  ⟨h.1.change hc, hJ w w' h.1 h.2 hc⟩

variable {reply : Bytes} {cn : CStr} {m : LeaseCtx} {k : LinkState} {cfg : ServerCfg} {α : Type}
  {seq : UInt32} {msgType : UInt8}

theorem minor_safe (hK : Lasting K) {p : SrvM α}
    (hp : p.Uses fun o => o.isMinor = true ∨ o = .lease .read) (hw : K w) :
    ServerSafe i n J (fun _ => K) p w := by
  refine Safe.of_uses (fun s s' h hR _ => hK.rely hR h) (fun o s r s' ho hI h hs => ?_) hp hw
  refine ⟨?_, hK.rely (controlSem_rely (.server i) hs) h⟩
  have hdb : ∃ db, ReportsKept s.db db ∧ s' = { s with db := db } := by
    cases o with
    | recv | reply | writeClientReport | writeMonitorReport => rcases ho with ho | ho <;> cases ho
    | _ =>
      obtain ⟨db, hdb, rfl⟩ := hs
      exact ⟨db, dbSem_keepsReports rfl hdb, rfl⟩
  obtain ⟨db, hdb, rfl⟩ := hdb
  exact Upheld.change hJ hI (.tables (hdb.node n))

theorem reply_safe (hK : Lasting K) (hb : ∀ w, K w → AckBacked w reply) (hw : K w) :
    ServerSafe i n J (fun _ => K) (srv (.reply reply)) w := by
  intro w' hR hI rc w'' hs
  have hw' := hK.rely hR hw
  have hs' : w'' = { w' with replies := reply :: w'.replies } := hs
  subst hs'
  exact ⟨Upheld.change hJ hI (.replied (hb w' hw')), hK.rely (controlSem_rely (.server i) hs) hw'⟩

variable {frame : Bytes} {f : Frame}

theorem StoreTxn.upheld {c : StoredReport} {rc : Status} (h : StoreTxn w c rc w')
    (hI : Upheld n J w) (hr : frame ∈ w.requests) (hp : solariFrameParse frame = .ok f)
    (hs : Stores f c) : Upheld n J w' ∧ (rc = .ok ∨ rc = .errConnRetry → w'.Committed frame) := by
  cases h with
  | aborted => exact ⟨hI, fun h => by rcases h with h | h <;> cases h⟩
  | committed ht =>
    exact ⟨Upheld.change hJ hI (.stored hr hp hs ht), fun _ => ⟨f, hp, c, List.mem_cons_self, hs⟩⟩
  | unconfirmed ht =>
    exact ⟨Upheld.change hJ hI (.stored hr hp hs ht), fun h => by rcases h with h | h <;> cases h⟩
  | refused ht =>
    obtain ⟨hok, hretry⟩ := StoredReport.txn_error ht
    refine ⟨hI, fun h => ?_⟩
    -- the receipt it met is of a report stored before, and that is this one
    obtain ⟨q, hq, hkey⟩ := hretry (h.resolve_left hok)
    have hframed := hI.1.sent frame hr
    have hqn : q.nodeId = n :=
      (congrArg Prod.fst hkey).trans (hs.node.trans (hI.1.node frame hframed f hp))
    obtain ⟨d, hd, rfl⟩ := (hI.1.receipts q hqn).1 hq
    obtain ⟨b, hb, g, hg, hsd⟩ := hI.1.stored d hd
    have hsess : d.receipt.session = c.receipt.session := congrArg (·.2.1) hkey
    have hseq : d.receipt.seqNo = c.receipt.seqNo := congrArg (·.2.2.1) hkey
    have hid := hsd.identified hg
    rw [hsess, hseq] at hid
    obtain rfl := hI.1.unique b (hI.1.sent b hb) frame hframed _ _ hid (hs.identified hp)
    exact ⟨g, hg, d, hd, hsd⟩

theorem ingestReport_safe {R : Type} {parse : Bytes → Except Status R}
    {write : R → ReportReceipt → SrvM Status} {after : R → AlertTable → SrvM AlertTable}
    (hparse : ∀ st, parse f.payload ≠ .error st) (hack : wantsAck f.hdr = true)
    (hwrite : ∀ rep receipt, parse f.payload = .ok rep →
      serverReportIdentity f.hdr f.payload false = .ok receipt → ∀ w : ReportWorld,
      frame ∈ w.requests → ServerSafe i n J (ReportSettled frame) (write rep receipt) w)
    (hafter : ∀ rep alerts, (after rep alerts).Uses fun o => o.isMinor = true ∨ o = .lease .read)
    (m : IngestState) (hw : frame ∈ w.requests) :
    ServerSafe i n J (fun x => ReportSettled frame x.1)
      (ingestReport parse write after cfg m f.hdr f.payload) w := by
  unfold ingestReport
  split
  · next st hst => exact absurd hst (hparse st)
  next rep hrep =>
  rw [serverReportAdmit_wantsAck cfg _ hack, ret_bind]
  cases hid : serverReportIdentity f.hdr f.payload false with
  | error st =>
    obtain ⟨hok, hretry⟩ := serverReportIdentity_error hid
    simp only [if_neg hretry]
    exact ⟨hw, fun h => (h.elim hok hretry).elim⟩
  | ok receipt =>
    refine (hwrite rep receipt hrep hid w hw).seq fun rc w' hrc => ?_
    obtain ⟨hsent, hcom⟩ := hrc
    split
    · next h => exact ⟨hsent, fun _ => hcom (.inr h)⟩
    next hretry =>
    split
    · next hok => exact ⟨hsent, fun h => (h.elim hok hretry).elim⟩
    next hok =>
    have hlegacy := (serverReportIdentity_ok hid).2.2.2
    have hmark : markLegacy m.dedup f.hdr receipt = .ret m.dedup := by
      simp [markLegacy, hlegacy]
    rw [hmark]
    exact (minor_safe hJ (lasting_stored frame) (hafter rep _)
      ⟨hsent, hcom (.inl (not_not.1 hok))⟩).seq fun _ _ h => ⟨h.1, fun _ => h.2⟩

theorem thenCrl_safe {p : SrvM (Status × IngestState)}
    (hp : ServerSafe i n J (fun x => ReportSettled frame x.1) p w) :
    ServerSafe i n J (fun x => ReportSettled frame x.1) (thenCrl p hdr payload) w := by
  refine hp.seq fun x w' hx => ?_
  split
  · next hok =>
    exact (minor_safe hJ (lasting_stored frame)
      (serverIngestApplyCrlActivation_uses (fun o ho _ => .inl ho) payload)
      ⟨hx.1, hx.2 (.inl hok)⟩).seq fun _ _ h => ⟨h.1, fun _ => h.2⟩
  · exact hx

theorem dispatch_safe {epoch : UInt64} (hp : solariFrameParse frame = .ok f)
    (hd : isDurableReport f.hdr.msgType = true) (hack : wantsAck f.hdr = true) (m : IngestState)
    (hw : frame ∈ w.requests) :
    ServerSafe i n J (fun x => ReportSettled frame x.1)
      (serverIngestDispatch cfg epoch m f.hdr f.payload cn) w := by
  have hend := solariFrameParse_payload hp
  have hwrite {c : StoredReport} (hs : Stores f c) {rc : Status} {w w' w'' : ReportWorld}
      (hw : frame ∈ w.requests) (hR : ReportRely (.server i) w w') (hI : Upheld n J w')
      (h : StoreTxn w' c rc w'') (hsem : ReportRely (.server i) w' w'') :
      Upheld n J w'' ∧ ReportSettled frame rc w'' := by
    obtain ⟨hI', hcom⟩ := StoreTxn.upheld hJ h hI (hR.requests hw) hp hs
    exact ⟨hI', hsem.requests (hR.requests hw), hcom⟩
  unfold serverIngestDispatch
  split
  · refine thenCrl_safe hJ (ingestReport_safe hJ ?_ hack ?_ ?_ m hw)
    · intro st h
      rw [solariMsgParseClientReport, parseTlvs_ok.2 ⟨hend, rfl⟩] at h
      cases h
    · intro rep receipt hrep hid w hw w' hR hI rc w'' hs
      have hst : Stores f ⟨f.hdr.sourceNodeId, .client rep, receipt⟩ := ⟨hd, rfl, hid, hrep⟩
      exact hwrite hst hw hR hI hs (controlSem_rely (.server i) hs)
    · exact fun rep alerts => afterClientReport_uses (fun o ho _ => .inl ho) rep alerts
  · next hne =>
    have hmon : f.hdr.msgType = Msg.monitorReport ∨ f.hdr.msgType = Msg.surveyResp := by
      simp only [isDurableReport, Bool.or_eq_true, beq_iff_eq] at hd
      rcases hd with (hd | hd) | hd
      · exact absurd hd hne
      · exact .inl hd
      · exact .inr hd
    rw [if_pos hmon]
    refine thenCrl_safe hJ (ingestReport_safe hJ ?_ hack ?_ ?_ m hw)
    · intro st h
      rw [solariMsgParseMonitorReport, parseTlvs_ok.2 ⟨hend, rfl⟩] at h
      cases h
    · intro rep receipt hrep hid w hw w' hR hI rc w'' hs
      have hst : Stores f ⟨f.hdr.sourceNodeId, .monitor rep, receipt⟩ := ⟨hd, rfl, hid, hrep⟩
      exact hwrite hst hw hR hI hs (controlSem_rely (.server i) hs)
    · exact fun rep alerts => afterMonitorReport_uses (fun o ho _ => .inl ho) rep alerts

omit hJ in
theorem replyFrame_parse {cap : Nat}
    (hb : solariFrameBuild h payload cap = .ok reply) :
    ∃ got, solariFrameParse reply = .ok got ∧ got.hdr = h ∧ got.payload = payload := by
  obtain ⟨hf, rfl⟩ := solariFrameBuild_ok hb
  exact ⟨_, solariFrameParse_of_framed hf, rfl, rfl⟩

variable {self : UInt64}

theorem buildReply_safe (hK : Lasting K) {correlationId : UInt32} {tlvCount : UInt16}
    {k : Except Status Bytes × UInt32 → SrvM α} (hw : K w) (hk : ∀ x w', K w' →
      (∀ reply, x.1 = .ok reply → ∃ got, solariFrameParse reply = .ok got ∧
        got.hdr.msgType = msgType ∧ got.hdr.correlationId = correlationId ∧ got.payload = payload) →
      ServerSafe i n J (fun _ => K) (k x) w') :
    ServerSafe i n J (fun _ => K)
      (serverBuildReplyFrame self seq msgType correlationId tlvCount payload >>= k) w := by
  refine Safe.bind ?_
  have hnow : (srv .now).Uses fun o => o.isMinor = true ∨ o = .lease .read := .perform (.inl rfl)
  refine (minor_safe hJ hK hnow hw).seq fun nowMs w' hw' => ?_
  refine hk _ w' hw' fun reply hb => ?_
  obtain ⟨got, hp, hh, hpay⟩ := replyFrame_parse hb
  exact ⟨got, hp, by rw [hh], by rw [hh], hpay⟩

theorem otherReply_safe (hp : solariFrameParse reply = .ok got)
    (hm : got.hdr.msgType ≠ Msg.ack) :
    ServerSafe i n J (fun _ _ => True) (srv (.reply reply)) w := by
  refine reply_safe hJ lasting_true (fun w _ got' hp' hack => ?_) trivial
  obtain rfl : got = got' := Except.ok.inj (hp.symm.trans hp')
  exact absurd hack hm

theorem serverSendError_safe (self : UInt64) (seq correlationId : UInt32) (code : UInt16)
    (detail : String) (w : ReportWorld) :
    ServerSafe i n J (fun _ _ => True) (serverSendError self seq correlationId code detail) w := by
  unfold serverSendError
  split
  · trivial
  refine buildReply_safe hJ lasting_true trivial fun x w' hw' hx => ?_
  split
  · trivial
  next reply hreply =>
  obtain ⟨got, hp, hm, -⟩ := hx reply hreply
  exact (otherReply_safe hJ hp (hm ▸ by decide)).seq fun _ _ h => h

theorem refuse_safe (self : UInt64) (k : LinkState) (correlationId : UInt32) (code : UInt16)
    (detail : String) (w : ReportWorld) :
    ServerSafe i n J (fun _ _ => True) (refuse self k correlationId code detail) w :=
  (serverSendError_safe hJ self _ correlationId code detail w).seq fun _ _ h => h

theorem replyOr_safe (hm : msgType ≠ Msg.ack) (self : UInt64) (k : LinkState)
    (correlationId : UInt32) (built : Bytes × UInt16) (code : UInt16) (detail : String)
    (w : ReportWorld) :
    ServerSafe i n J (fun _ _ => True)
      (replyOr self k msgType correlationId built code detail) w := by
  refine buildReply_safe hJ lasting_true trivial fun x w' hw' hx => ?_
  split
  · exact refuse_safe hJ ..
  next reply hreply =>
  obtain ⟨got, hp, hmt, -⟩ := hx reply hreply
  exact (otherReply_safe hJ hp (hmt ▸ hm)).seq fun _ _ h => h

section
variable (hp : solariFrameParse frame = .ok f)
include hp

theorem serverSendReportAck_safe
    (hd : isDurableReport f.hdr.msgType = true) (hw : frame ∈ w.requests ∧ w.Committed frame) :
    ServerSafe i n J
      (fun _ w => frame ∈ w.requests ∧ w.Committed frame)
      (serverSendReportAck self seq f.hdr f.payload) w := by
  have hK := lasting_stored frame
  unfold serverSendReportAck
  split
  · exact hw
  next found hfound =>
  split
  · next session _ =>
    split
    · exact hw
    next writer hwriter =>
    refine buildReply_safe hJ hK hw fun x w' hw' hx => ?_
    split
    · exact hw'
    next reply hreply =>
    obtain ⟨got, hpg, -, hcorr, hpay⟩ := hx reply hreply
    refine (reply_safe hJ hK (fun w hw => ?_) hw').seq fun _ _ h => h
    intro got' hp' _
    obtain rfl : got = got' := Except.ok.inj (hpg.symm.trans hp')
    have hbuf : writer.buf = encodeTlvs [sessionTlv session] := by
      rw [(solariTlvAppend_ok hwriter).1]
      simp [solariTlvWriterInit]
    refine ⟨frame, hw.1, session, ⟨f, hp, hd, scanSession_none.1 hfound, hcorr.symm⟩, ?_, hw.2⟩
    rw [Frame.tlvs, hpay, hbuf, readTlvs_encodeTlvs]
    rfl
  · exact hw

/-- **What a server acknowledges is stored.** -/
theorem serveReport_safe {cfg : LoopCfg}
    (hd : isDurableReport f.hdr.msgType = true) (hw : frame ∈ w.requests) :
    ServerSafe i n J (fun _ _ => True) (serveReport cfg self m k f cn) w := by
  unfold serveReport
  split
  · exact refuse_safe hJ ..
  next hack =>
  have hack' : wantsAck f.hdr = true := by simpa using hack
  refine (dispatch_safe hJ hp hd hack' k.ingest hw).seq fun x w' hx => ?_
  split
  · exact refuse_safe hJ ..
  next hst =>
  have hcom := hx.2 (by
    by_contra hn
    rw [not_or] at hn
    exact hst hn)
  exact (serverSendReportAck_safe hJ hp hd ⟨hx.1, hcom⟩).seq fun _ _ _ => trivial

theorem serveRequest_safe {cfg : LoopCfg} (hw : frame ∈ w.requests) :
    ServerSafe i n J (fun _ _ => True) (serveRequest cfg self m k f cn) w := by
  unfold serveRequest
  split
  · next hd => exact serveReport_safe hJ hp hd hw
  split
  · unfold serveHello
    split
    · exact refuse_safe hJ ..
    refine (minor_safe hJ lasting_true
      (serverMasterAcceptHello_uses (fun o ho _ => .inl ho) _ _ _ _) trivial).seq
        fun r w' _ => ?_
    split
    · exact refuse_safe hJ ..
    · exact replyOr_safe hJ (by decide) _ _ _ _ _ _ _
  · split
    · refine Safe.bind ((minor_safe hJ lasting_true (.perform (.inr rfl))
        trivial).seq fun r w' _ => ?_)
      cases r with
      | error st => exact refuse_safe hJ ..
      | ok row =>
        refine safe_ret.2 ?_
        split
        · exact refuse_safe hJ ..
        · exact replyOr_safe hJ (by decide) _ _ _ _ _ _ _
    · exact refuse_safe hJ ..

end

theorem serverServiceControl_safe (cfg : LoopCfg) (self : UInt64) (m : LeaseCtx) (k : LinkState)
    (w : ReportWorld) : ServerSafe i n J (fun _ _ => True)
      (serverServiceControl cfg self m k) w := by
  unfold serverServiceControl
  split
  · trivial
  intro w₁ hR hI r w₂ hs
  obtain ⟨rfl, hrx⟩ := hs
  refine ⟨hI, ?_⟩
  cases r with
  | error st => trivial
  | ok rx =>
    show Safe _ _ _ _ (controlFrame cfg self m k rx) _
    have hw : rx.bytes ∈ w₂.requests := hrx rx rfl
    unfold controlFrame
    split
    · exact refuse_safe hJ ..
    next f hp =>
    refine (minor_safe hJ (lasting_sent rx.bytes)
      (serverIngestValidate_uses (fun o ho _ => .inl ho) _ _) hw).seq fun v w' hw' => ?_
    split
    · exact refuse_safe hJ ..
    split
    · exact refuse_safe hJ ..
    · exact serveRequest_safe hJ hp hw'

end server

end SolariNet
