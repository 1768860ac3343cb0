/-
# What the replay guard mistakes for a replay

The guard knows a frame by its node id and its sequence number.  Under one node id the numbers
come from two counters: the reporter's, which starts at zero with every start of the client, and
the watchdog's, which starts at zero with every start of the watchdog.

A run (`AgentStep`) has the two senders, their restarts and the server:

    frame, frameFailed    the reporter frames a message of its caller
    turn                  one turn of the watchdog
    reopen, respawn       a new client, a new watchdog
    receive               the server gets one of the frames framed so far, in any order and as
                          often as the links, the spool and retransmissions bring it
    other                 the server gets a frame of another node
-/
import SolariNet.Reporter.Framing
import SolariNet.Reporter.Watchdog
import SolariNet.Server.Ingest

namespace SolariNet

open List Lib Lib.Prog Relation

/-! ## What the server remembers of one frame -/

variable {hdr : FrameHeader} {cn : CStr} {m : IngestState} {cfg : ServerCfg} {f : Frame}
  {nodeId : UInt64} {bytes payload : Bytes} {db db' : Db} {t' : Dedup} {m' : IngestState}
  {ts : List Tlv} {opts : ReporterOpts} {rc : Status} {interval q : UInt32} {n : UInt64}
  {w : Watchdog} {t : WatchdogTrace}

theorem serverIngestValidate_retry {t : Dedup}
    (h : Exec dbSem (serverIngestValidate t hdr cn) db (.errConnRetry, t') db') :
    isDurableReport hdr.msgType = false ∧ t.Remembers hdr.sourceNodeId hdr.seqNo := by
  rcases serverIngestValidate_cases h with ⟨-, hne, -⟩ | ⟨-, ⟨⟨⟩, -⟩ | ⟨hd, nowMs, hrc, -⟩⟩
  · exact absurd rfl hne
  refine ⟨hd, ?_⟩
  unfold serverDedupSeen at hrc
  simp only at hrc
  split at hrc
  · next hhit => exact remembers_of_has hhit
  · exact absurd hrc (by simp)

theorem serverIngestValidate_remembers {t : Dedup}
    (h : Exec dbSem (serverIngestValidate t hdr cn) db (rc, t') db') (hr : t'.Remembers n q) :
    t.Remembers n q ∨ rc = .ok ∧ isDurableReport hdr.msgType = false ∧ n = hdr.sourceNodeId ∧
      q = hdr.seqNo := by
  rcases serverIngestValidate_cases h with ⟨-, -, rfl⟩ | ⟨-, ⟨-, rfl⟩ | ⟨hd, nowMs, rfl, rfl⟩⟩
  · exact .inl hr
  · exact .inl hr
  · refine (remembers_seen hr).imp_right fun ⟨hmiss, hn, hq⟩ => ?_
    rw [hmiss]
    exact ⟨rfl, hd, hn, hq⟩

def Sessionless (payload : Bytes) : Prop := scanSession none (readTlvs payload).1 = .ok none

theorem serverReportIdentity_legacy {allowLegacy : Bool}
    (h : serverReportIdentity hdr payload allowLegacy = .ok receipt) (hl : receipt.legacy = true) :
    Sessionless payload := by
  unfold serverReportIdentity at h
  split at h
  · cases h
  next found hfound =>
  split at h
  · cases h
  cases found with
  | none => exact hfound
  | some s =>
    cases h
    cases hl

theorem serverReportAdmit_remembers (cfg : ServerCfg) (t : Dedup) (hdr : FrameHeader)
    (payload : Bytes) : (serverReportAdmit cfg t hdr payload).Returns fun a =>
      (∀ n q, a.2.Remembers n q → t.Remembers n q) ∧
        ∀ receipt, a.1 = .ok receipt → receipt.legacy = true → Sessionless payload := by
  unfold serverReportAdmit
  simp only
  split
  · exact ⟨fun n q h => h, fun receipt h => by cases h⟩
  next receipt hid =>
  split
  · next hl =>
    refine ⟨fun n q h => h, fun receipt' h hl' => ?_⟩
    cases h
    exact serverReportIdentity_legacy hid hl'
  · intro nowMs
    refine ⟨fun n q h => remembers_has h, fun receipt' h hl' => ?_⟩
    split at h
    · cases h
    · cases h
      exact serverReportIdentity_legacy hid hl'

def Marks (m : IngestState) (hdr : FrameHeader) (payload : Bytes) (r : Status × IngestState) :
    Prop :=
  ∀ n q, r.2.dedup.Remembers n q →
    m.dedup.Remembers n q ∨ Sessionless payload ∧ n = hdr.sourceNodeId ∧ q = hdr.seqNo

theorem ingestReport_marks {R : Type} (parse : Bytes → Except Status R)
    (write : R → ReportReceipt → SrvM Status) (after : R → AlertTable → SrvM AlertTable)
    (cfg : ServerCfg) (m : IngestState) (hdr : FrameHeader) (payload : Bytes) :
    (ingestReport parse write after cfg m hdr payload).Returns (Marks m hdr payload) := by
  unfold ingestReport
  split
  · exact fun n q h => .inl h
  next rep hp =>
  refine Returns.bind (serverReportAdmit_remembers cfg m.dedup hdr payload) fun a ha => ?_
  obtain ⟨hkept, hlegacy⟩ := ha
  split
  · exact fun n q h => .inl (hkept n q h)
  next receipt hr =>
  refine Returns.bind (Returns.of_forall (Q := fun _ => True) (fun _ => trivial) _)
    fun rc _ => ?_
  split
  · exact fun n q h => .inl (hkept n q h)
  split
  · exact fun n q h => .inl (hkept n q h)
  refine Returns.bind (Q := fun t => ∀ n q, t.Remembers n q → m.dedup.Remembers n q ∨
    Sessionless payload ∧ n = hdr.sourceNodeId ∧ q = hdr.seqNo) ?_ fun t ht => ?_
  · unfold markLegacy
    split
    · next hl =>
      intro nowMs n q h
      exact (remembers_mark h).imp (hkept n q) fun h => ⟨hlegacy receipt hr hl, h⟩
    · exact fun n q h => .inl (hkept n q h)
  · exact Returns.bind (Returns.of_forall (Q := fun _ => True) (fun _ => trivial) _)
      fun alerts _ => ht

theorem thenCrl_marks {p : SrvM (Status × IngestState)} (hp : p.Returns (Marks m hdr payload)) :
    (thenCrl p hdr payload).Returns (Marks m hdr payload) := by
  refine Returns.bind hp fun r hr => ?_
  split
  · exact Returns.bind (Returns.of_forall (Q := fun _ => True) (fun _ => trivial) _) fun rc _ => hr
  · exact hr

theorem keeping_marks (m : IngestState) (p : SrvM Status) (hdr : FrameHeader) (payload : Bytes) :
    (keeping m p).Returns (Marks m hdr payload) :=
  Returns.bind (Returns.of_forall (Q := fun _ => True) (fun _ => trivial) p) fun _ _ _ _ h => .inl h

theorem serverIngestDispatch_marks (cfg : ServerCfg) (epoch : UInt64) (m : IngestState)
    (hdr : FrameHeader) (payload : Bytes) (cn : CStr) :
    (serverIngestDispatch cfg epoch m hdr payload cn).Returns (Marks m hdr payload) := by
  unfold serverIngestDispatch
  split
  · exact thenCrl_marks (ingestReport_marks _ _ _ _ _ _ _)
  split
  · exact thenCrl_marks (ingestReport_marks _ _ _ _ _ _ _)
  repeat' split
  all_goals first
    | exact keeping_marks _ _ _ _
    | exact fun n q h => .inl h

/-! ## Runs of one agent -/

/-- The server takes a frame from the link: it validates it, and dispatches it if it passed.
The tables may be any, and may change in between. -/
inductive Processes (cfg : ServerCfg) (m : IngestState) (f : Frame) (cn : CStr) :
    Status → IngestState → Prop where
  | dropped {db db' : Db} {rc : Status} {t : Dedup} (hrc : rc ≠ .ok)
      (hv : Exec dbSem (serverIngestValidate m.dedup f.hdr cn) db (rc, t) db') :
      Processes cfg m f cn rc { m with dedup := t }
  | dispatched {db db₁ db₂ db₃ : Db} {t : Dedup} {epoch : UInt64} {st : Status} {m' : IngestState}
      (hv : Exec dbSem (serverIngestValidate m.dedup f.hdr cn) db (.ok, t) db₁)
      (hd : Exec dbSem
        (serverIngestDispatch cfg epoch { m with dedup := t } f.hdr f.payload cn) db₂
          (st, m') db₃) :
      Processes cfg m f cn .ok m'

theorem Processes.retry (h : Processes cfg m f cn .errConnRetry m') :
    isDurableReport f.hdr.msgType = false ∧ m.dedup.Remembers f.hdr.sourceNodeId f.hdr.seqNo := by
  cases h with
  | dropped _ hv => exact serverIngestValidate_retry hv

theorem Processes.remembers (h : Processes cfg m f cn rc m') (hr : m'.dedup.Remembers n q) :
    m.dedup.Remembers n q ∨ rc = .ok ∧
      (isDurableReport f.hdr.msgType = true → Sessionless f.payload) ∧ n = f.hdr.sourceNodeId ∧
        q = f.hdr.seqNo := by
  have hval {t : Dedup} {db db' : Db}
      (hv : Exec dbSem (serverIngestValidate m.dedup f.hdr cn) db (rc, t) db')
      (ht : t.Remembers n q) : m.dedup.Remembers n q ∨ rc = .ok ∧
        (isDurableReport f.hdr.msgType = true → Sessionless f.payload) ∧ n = f.hdr.sourceNodeId ∧
          q = f.hdr.seqNo :=
    (serverIngestValidate_remembers hv ht).imp_right fun ⟨hok, hd, hn, hq⟩ =>
      ⟨hok, fun h => absurd (hd.symm.trans h) (by decide), hn, hq⟩
  cases h with
  | dropped _ hv => exact hval hv hr
  | dispatched hv hd =>
    rcases (serverIngestDispatch_marks _ _ _ _ _ _).exec hd n q hr with hr | ⟨hs, hn, hq⟩
    · exact hval hv hr
    · exact .inr ⟨rfl, fun _ => hs, hn, hq⟩

/-- One agent and the server, with the frames that were framed, let pass and dropped as replays. -/
structure AgentRun where
  reporter : Reporter
  watchdog : Watchdog
  issued : List Bytes
  server : IngestState
  accepted : List Bytes
  refused : List Bytes

inductive Mover where
  | reporter (msgType : UInt8)
  | watchdog
  | rest

inductive AgentStep (opts : ReporterOpts) (cfg : ServerCfg) :
    Mover → AgentRun → AgentRun → Prop where
  | frame {s : AgentRun} {msgType flags : UInt8} {correlationId : UInt32} {ts : List Tlv}
      {tlvCount : UInt16} {cap : Nat} {t : List (Event RepOp RepOp.Res)} {frame : Bytes}
      {r : Reporter} (h : Runs (solariReporterFrameCorr s.reporter msgType flags correlationId
        (encodeTlvs ts) tlvCount cap) t (.ok frame, r)) :
      AgentStep opts cfg (.reporter msgType) s
        { s with reporter := r, issued := s.issued ++ [frame] }
  | frameFailed {s : AgentRun} {msgType flags : UInt8} {correlationId : UInt32} {ts : List Tlv}
      {tlvCount : UInt16} {cap : Nat} {t : List (Event RepOp RepOp.Res)} {st : Status}
      {r : Reporter} (h : Runs (solariReporterFrameCorr s.reporter msgType flags correlationId
        (encodeTlvs ts) tlvCount cap) t (.error st, r)) :
      AgentStep opts cfg .rest s { s with reporter := r }
  | turn {s : AgentRun} {interval : UInt32} {t : WatchdogTrace} {w : Watchdog}
      (h : Runs (watchdogTurn interval opts.nodeId s.watchdog) t (.ok w)) :
      AgentStep opts cfg .watchdog s { s with watchdog := w, issued := s.issued ++ sentFrames t }
  | reopen {s : AgentRun} {session : Except Status Session} {spool : Bool} {r : Reporter}
      (h : solariReporterOpen opts session spool = .ok r) :
      AgentStep opts cfg .rest s { s with reporter := r }
  | respawn {s : AgentRun} (conn : Bool) :
      AgentStep opts cfg .rest s { s with watchdog := ⟨conn, 0⟩ }
  | receive {s : AgentRun} (rx : Received) {f : Frame} {rc : Status} {m : IngestState}
      (hi : rx.bytes ∈ s.issued) (hp : solariFrameParse rx.bytes = .ok f)
      (h : Processes cfg s.server f rx.cn rc m) :
      AgentStep opts cfg .rest s
        { s with
          server := m
          accepted := if rc = .ok then s.accepted ++ [rx.bytes] else s.accepted
          refused := if rc = .errConnRetry then s.refused ++ [rx.bytes] else s.refused }
  | other {s : AgentRun} {f : Frame} {cn : CStr} {rc : Status} {m : IngestState}
      (hn : f.hdr.sourceNodeId ≠ opts.nodeId) (h : Processes cfg s.server f cn rc m) :
      AgentStep opts cfg .rest s { s with server := m }

/-- A fresh agent, and a server that has seen nothing of its node. -/
structure AgentInitial (opts : ReporterOpts) (s : AgentRun) : Prop where
  reporter : ∃ session spool, solariReporterOpen opts session spool = .ok s.reporter
  watchdog : s.watchdog.seq = 0
  issued : s.issued = []
  server : ∀ q, ¬ s.server.dedup.Remembers opts.nodeId q
  accepted : s.accepted = []
  refused : s.refused = []

/-! ## Numbers of their own -/

def guardedSeq (frame : Bytes) : Option UInt32 :=
  match solariFrameParse frame with
  | .error _ => none
  | .ok f => if isDurableReport f.hdr.msgType then none else some f.hdr.seqNo

def AgentRun.numbers (s : AgentRun) : List UInt32 := s.issued.filterMap guardedSeq

/-- The number the mover will give to a guarded frame is not in use. -/
def NumberFree (s : AgentRun) : Mover → Prop
  | .reporter msgType =>
    isDurableReport msgType = false → nextSeqNo s.reporter.seqNo ∉ s.numbers
  | .watchdog => s.watchdog.seq + 1 ∉ s.numbers
  | .rest => True

def OfAgent (nodeId : UInt64) (frame : Bytes) : Prop :=
  ∃ f, solariFrameParse frame = .ok f ∧ f.hdr.sourceNodeId = nodeId ∧
    (isDurableReport f.hdr.msgType = true → ¬ Sessionless f.payload)

structure GuardInv (nodeId : UInt64) (s : AgentRun) : Prop where
  reporter : s.reporter.nodeId = nodeId
  issued : ∀ frame ∈ s.issued, OfAgent nodeId frame
  distinct : ∀ f ∈ s.issued, ∀ g ∈ s.issued, ∀ q, guardedSeq f = some q → guardedSeq g = some q →
    f = g
  accepted : ∀ f ∈ s.accepted, f ∈ s.issued
  remembered : ∀ q, s.server.dedup.Remembers nodeId q → ∃ f ∈ s.accepted, guardedSeq f = some q
  refused : ∀ f ∈ s.refused, f ∈ s.accepted

theorem guardedSeq_of_parse (hp : solariFrameParse frame = .ok f) :
    guardedSeq frame = if isDurableReport f.hdr.msgType then none else some f.hdr.seqNo := by
  unfold guardedSeq
  rw [hp]

variable {s : AgentRun}

theorem GuardInv.initial (h : AgentInitial opts s) : GuardInv opts.nodeId s where
  reporter := by
    obtain ⟨session, spool, hopen⟩ := h.reporter
    exact (solariReporterOpen_ok hopen).2.1
  issued := by simp [h.issued]
  distinct := by simp [h.issued]
  accepted := by simp [h.accepted]
  remembered q hq := absurd hq (h.server q)
  refused := by simp [h.refused]

variable {r : Reporter}

theorem GuardInv.issue (h : GuardInv nodeId s) (hf : OfAgent nodeId frame)
    (hq : ∀ q, guardedSeq frame = some q → q ∉ s.numbers) (hr : r.nodeId = nodeId) :
    GuardInv nodeId { s with reporter := r, watchdog := w, issued := s.issued ++ [frame] } where
  reporter := hr
  issued := forall_mem_append.2 ⟨h.issued, forall_mem_singleton.2 hf⟩
  distinct f hmem g hmem' q hfq hgq := by
    -- an old frame with the number of the new one is excluded by `hq`
    have hold {f : Bytes} (hmem : f ∈ s.issued) (hfq : guardedSeq f = some q) : q ∈ s.numbers :=
      mem_filterMap.2 ⟨f, hmem, hfq⟩
    rcases mem_append.1 hmem with hmem | hmem
    · rcases mem_append.1 hmem' with hmem' | hmem'
      · exact h.distinct f hmem g hmem' q hfq hgq
      · rw [mem_singleton.1 hmem'] at hgq
        exact absurd (hold hmem hfq) (hq q hgq)
    · rw [mem_singleton.1 hmem] at hfq
      rcases mem_append.1 hmem' with hmem' | hmem'
      · exact absurd (hold hmem' hgq) (hq q hfq)
      · rw [mem_singleton.1 hmem, mem_singleton.1 hmem']
  accepted f hmem := mem_append_left _ (h.accepted f hmem)
  remembered := h.remembered
  refused := h.refused

theorem GuardInv.senders (h : GuardInv nodeId s) (w : Watchdog)
    (hr : r.nodeId = nodeId) : GuardInv nodeId { s with reporter := r, watchdog := w } :=
  ⟨hr, h.issued, h.distinct, h.accepted, h.remembered, h.refused⟩

theorem not_sessionless_of_session
    (hs : sessionValues (readTlvs f.payload).1 = sessionValues ts ++ [r.session.val]) :
    ¬ Sessionless f.payload := by
  intro h
  exact absurd (hs.symm.trans (scanSession_ok.1 h))
    (append_ne_nil_of_right_ne_nil _ (cons_ne_nil _ _))

theorem GuardInv.frame (h : GuardInv nodeId s) {msgType : UInt8}
    (hfree : NumberFree s (.reporter msgType)) {frame : Bytes} (hr : r.nodeId = s.reporter.nodeId)
    (hseq : r.seqNo = nextSeqNo s.reporter.seqNo) (hf : NumberedFrame r msgType ts frame) :
    GuardInv nodeId { s with reporter := r, issued := s.issued ++ [frame] } := by
  obtain ⟨f, hp, hnode, rfl, hnum, hsess⟩ := hf
  have hid : r.nodeId = nodeId := hr.trans h.reporter
  refine h.issue ⟨f, hp, hnode.trans hid, fun hd => not_sessionless_of_session (hsess hd)⟩
    (fun q hq => ?_) hid
  rw [guardedSeq_of_parse hp] at hq
  split at hq
  · cases hq
  next hd =>
  cases hq
  rw [hnum, hseq]
  exact hfree (Bool.eq_false_iff.2 hd)

theorem GuardInv.turn (h : GuardInv nodeId s) (hfree : NumberFree s .watchdog)
    (ht : Runs (watchdogTurn interval nodeId s.watchdog) t (.ok w)) :
    GuardInv nodeId { s with watchdog := w, issued := s.issued ++ sentFrames t } := by
  rcases watchdogTurn_sent ht with ⟨hnone, -⟩ | ⟨-, time, hsent⟩
  · rw [hnone, append_nil]
    exact h.senders w h.reporter
  rw [hsent]
  have hp := solariFrameParse_of_framed (heartbeat_framed nodeId (s.watchdog.seq + 1) time)
  have hd : isDurableReport Msg.watchdog = false := by decide
  refine h.issue ⟨_, hp, rfl, fun hdur => absurd (hd.symm.trans hdur) (by decide)⟩
    (fun q hq => ?_) h.reporter
  rw [guardedSeq_of_parse hp] at hq
  cases hq
  exact hfree

theorem GuardInv.receive (h : GuardInv nodeId s) (hi : bytes ∈ s.issued)
    (hp : solariFrameParse bytes = .ok f) (hx : Processes cfg s.server f cn rc m) :
    GuardInv nodeId
      { s with
        server := m
        accepted := if rc = .ok then s.accepted ++ [bytes] else s.accepted
        refused := if rc = .errConnRetry then s.refused ++ [bytes] else s.refused } := by
  obtain ⟨f', hp', hnode, hsess⟩ := h.issued bytes hi
  cases hp.symm.trans hp'
  have hgrow : ∀ g ∈ s.accepted, g ∈ if rc = .ok then s.accepted ++ [bytes] else s.accepted := by
    intro g hg
    split
    · exact mem_append_left _ hg
    · exact hg
  refine ⟨h.reporter, h.issued, h.distinct, ?_, ?_, ?_⟩
  · split
    · exact forall_mem_append.2 ⟨h.accepted, forall_mem_singleton.2 hi⟩
    · exact h.accepted
  · intro q hq
    rcases hx.remembers hq with hold | ⟨rfl, hd, -, rfl⟩
    · obtain ⟨g, hg, hgq⟩ := h.remembered q hold
      exact ⟨g, hgrow g hg, hgq⟩
    refine ⟨bytes, ?_, ?_⟩
    · rw [if_pos rfl]
      exact mem_append_right _ mem_cons_self
    · rw [guardedSeq_of_parse hp, if_neg]
      exact fun hdur => hsess hdur (hd hdur)
  · have hrefused := fun g hg => hgrow g (h.refused g hg)
    dsimp only
    split
    · next hrc =>
      subst hrc
      refine forall_mem_append.2 ⟨hrefused, forall_mem_singleton.2 ?_⟩
      -- the number was remembered for an accepted frame, and a number names one frame
      obtain ⟨hd, hrem⟩ := hx.retry
      rw [hnode] at hrem
      obtain ⟨g', hg', hgq⟩ := h.remembered _ hrem
      have hq : guardedSeq bytes = some f.hdr.seqNo := by
        rw [guardedSeq_of_parse hp, hd]
        rfl
      rw [h.distinct bytes hi g' (h.accepted g' hg') _ hq hgq]
      exact hgrow g' hg'
    · exact hrefused

theorem GuardInv.step (h : GuardInv opts.nodeId s)
    (hfree : NumberFree s mover) (hs : AgentStep opts cfg mover s s') :
    GuardInv opts.nodeId s' := by
  cases hs with
  | frame hf =>
    obtain ⟨hr, hframe⟩ := (solariReporterFrameCorr_returns _ _ _ _ _ _ _).runs hf
    obtain ⟨hseq, hnum⟩ := hframe _ rfl
    exact h.frame hfree hr hseq hnum
  | frameFailed hf =>
    obtain ⟨hr, -⟩ := (solariReporterFrameCorr_returns _ _ _ _ _ _ _).runs hf
    exact h.senders _ (hr.trans h.reporter)
  | turn ht => exact h.turn hfree ht
  | reopen hopen => exact h.senders _ (solariReporterOpen_ok hopen).2.1
  | respawn conn => exact h.senders _ h.reporter
  | receive rx hi hp hx => exact h.receive hi hp hx
  | other hn hx =>
    refine ⟨h.reporter, h.issued, h.distinct, h.accepted, fun q hq => ?_, h.refused⟩
    rcases hx.remembers hq with hold | ⟨-, -, hsrc, -⟩
    · exact h.remembered q hold
    · exact absurd hsrc.symm hn

/-- **No false duplicates**, if guarded frames take numbers that no guarded frame has taken before:
what is dropped as a replay is byte for byte a frame that was accepted before. -/
theorem no_false_duplicates (opts : ReporterOpts) (cfg : ServerCfg) {s₀ s : AgentRun}
    (h₀ : AgentInitial opts s₀)
    (hrun : ReflTransGen (fun s s' => ∃ mover, NumberFree s mover ∧ AgentStep opts cfg mover s s')
      s₀ s) : ∀ frame ∈ s.refused, frame ∈ s.accepted := by
  have hinv : GuardInv opts.nodeId s := by
    induction hrun with
    | refl => exact .initial h₀
    | tail _ hstep ih =>
      obtain ⟨mover, hfree, hs⟩ := hstep
      exact ih.step hfree hs
  exact hinv.refused

/-! ### A heartbeat, and then an advertisement -/

def agentOpts : ReporterOpts := ⟨['p'], [], ['a'], [], true, 7⟩

def openedReporter : Reporter :=
  ⟨['p'], [], ['a'], [], true, 7, 0, zeroSession, false, false, false, false⟩

def countedReporter : Reporter :=
  ⟨['p'], [], ['a'], [], true, 7, 1, zeroSession, false, false, false, false⟩

def freshRun : AgentRun := ⟨openedReporter, ⟨true, 0⟩, [], IngestState.empty, [], []⟩

theorem freshRun_initial : AgentInitial agentOpts freshRun :=
  ⟨⟨.ok zeroSession, false, rfl⟩, rfl, rfl, fun q => not_remembers_empty 7 q, rfl, rfl⟩

def lenientCfg : ServerCfg := ⟨false, false, false⟩

def heartbeat : Bytes := frameBytes (heartbeatHeader 7 1 5) []

def advertHeader : FrameHeader :=
  { msgType := Msg.discoveryAdvert, tlvCount := 0, sourceNodeId := 7,
    sendTimeUnixMs := 6, seqNo := 1 }

def advert : Bytes := frameBytes advertHeader []

theorem heartbeat_parse :
    solariFrameParse heartbeat = .ok ⟨heartbeatHeader 7 1 5, [], heartbeat.length⟩ :=
  solariFrameParse_of_framed (heartbeat_framed 7 1 5)

theorem advert_framed : Framed advertHeader [] := ⟨by decide, by decide, by decide⟩

theorem advert_parse : solariFrameParse advert = .ok ⟨advertHeader, [], advert.length⟩ :=
  solariFrameParse_of_framed advert_framed

set_option maxRecDepth 20000

def beaten : IngestState :=
  { IngestState.empty with
    dedup := ((serverIngestValidate .empty (heartbeatHeader 7 1 5) "host".toList).run dbAnswers
      (enrolledDb "host".toList)).1.2 }

theorem heartbeat_processed : Processes lenientCfg IngestState.empty
    ⟨heartbeatHeader 7 1 5, [], heartbeat.length⟩ "host".toList .ok beaten :=
  .dispatched (.of_run dbAnswers_sem _ (enrolledDb "host".toList))
    (.of_run dbAnswers_sem (serverIngestDispatch lenientCfg 0 beaten _ _ _) Db.empty)

theorem remembered_dropped (hdr : FrameHeader) (payload : Bytes) (n : Nat)
    (h : ((serverIngestValidate beaten.dedup hdr "host".toList).run dbAnswers
      (enrolledDb "host".toList)).1.1 = .errConnRetry) :
    ∃ m', Processes lenientCfg beaten ⟨hdr, payload, n⟩ "host".toList .errConnRetry m' := by
  have hx := Exec.of_run dbAnswers_sem (serverIngestValidate beaten.dedup hdr "host".toList)
    (enrolledDb "host".toList)
  generalize (serverIngestValidate beaten.dedup hdr "host".toList).run dbAnswers _ = out at h hx
  obtain ⟨⟨rc, t⟩, db⟩ := out
  cases h
  exact ⟨_, .dropped (by decide) hx⟩

theorem accept_step (hi : bytes ∈ s.issued) (hp : solariFrameParse bytes = .ok f)
    (h : Processes lenientCfg s.server f cn .ok m) : AgentStep agentOpts lenientCfg .rest s
      ⟨s.reporter, s.watchdog, s.issued, m, s.accepted ++ [bytes], s.refused⟩ :=
  .receive ⟨bytes, .ok cn⟩ hi hp h

theorem refuse_step (hi : bytes ∈ s.issued) (hp : solariFrameParse bytes = .ok f)
    (h : Processes lenientCfg s.server f cn .errConnRetry m) :
    AgentStep agentOpts lenientCfg .rest s
      ⟨s.reporter, s.watchdog, s.issued, m, s.accepted, s.refused ++ [bytes]⟩ :=
  .receive ⟨bytes, .ok cn⟩ hi hp h

def sentRun : AgentRun := ⟨openedReporter, ⟨true, 1⟩, [heartbeat], IngestState.empty, [], []⟩

def beatenRun (m : IngestState) : AgentRun :=
  ⟨openedReporter, ⟨true, 1⟩, [heartbeat], m, [heartbeat], []⟩

abbrev FreeStep (s s' : AgentRun) : Prop :=
  ∃ mover, NumberFree s mover ∧ AgentStep agentOpts lenientCfg mover s s'

theorem heartbeat_runs : Runs (watchdogTurn 5 7 ⟨true, 0⟩)
    [⟨.sleepMs 5000, ()⟩, ⟨.processAlive, .ok true⟩, ⟨.now, (5 : UInt64)⟩,
      ⟨.send heartbeat, Status.ok⟩] (.ok ⟨true, 1⟩) :=
  .call (.call (.call (.call (.ret _))))

theorem turn_step {frames : List Bytes} (h : Runs (watchdogTurn interval 7 s.watchdog) t (.ok w))
    (ht : sentFrames t = frames) :
    AgentStep agentOpts lenientCfg .watchdog s
      ⟨s.reporter, w, s.issued ++ frames, s.server, s.accepted, s.refused⟩ :=
  ht ▸ .turn h

theorem beatenRun_reached : ReflTransGen FreeStep freshRun (beatenRun beaten) := by
  have hfree : NumberFree freshRun .watchdog := by
    simp [NumberFree, AgentRun.numbers, freshRun]
  have hturn : AgentStep agentOpts lenientCfg .watchdog freshRun sentRun :=
    turn_step heartbeat_runs rfl
  have hreceive : AgentStep agentOpts lenientCfg .rest sentRun (beatenRun beaten) :=
    accept_step mem_cons_self heartbeat_parse heartbeat_processed
  exact (ReflTransGen.single ⟨.watchdog, hfree, hturn⟩).tail ⟨.rest, trivial, hreceive⟩

/-- The heartbeat comes twice: it is dropped the second time, and was accepted the first. -/
theorem no_false_duplicates_heartbeat : ∃ s, ReflTransGen FreeStep freshRun s ∧
    heartbeat ∈ s.refused ∧ ∀ frame ∈ s.refused, frame ∈ s.accepted := by
  obtain ⟨m', hm⟩ := remembered_dropped (heartbeatHeader 7 1 5) [] heartbeat.length
    (by decide +kernel)
  have hagain := refuse_step (s := beatenRun beaten) mem_cons_self heartbeat_parse hm
  have hrun := beatenRun_reached.tail ⟨.rest, trivial, hagain⟩
  exact ⟨_, hrun, mem_cons_self, no_false_duplicates agentOpts lenientCfg freshRun_initial hrun⟩

/-- The reporter's first message has the number of the watchdog's first heartbeat, and is dropped
as a replay although nothing like it was accepted. -/
theorem advert_dropped_after_heartbeat : ∃ s, AgentInitial agentOpts freshRun ∧
    ReflTransGen (fun s s' => ∃ mover, AgentStep agentOpts lenientCfg mover s s') freshRun s ∧
      ∃ frame ∈ s.refused, frame ∉ s.accepted := by
  have hframe : Runs (solariReporterFrameCorr openedReporter Msg.discoveryAdvert 0 0
    (encodeTlvs []) 0
      1024) [⟨.now, (6 : UInt64)⟩] (.ok advert, countedReporter) := .call (.ret _)
  obtain ⟨m', hm⟩ := remembered_dropped advertHeader [] advert.length (by decide +kernel)
  have hany : ReflTransGen (fun s s' => ∃ mover, AgentStep agentOpts lenientCfg mover s s')
      freshRun (beatenRun beaten) := beatenRun_reached.lift id fun s s' ⟨mover, _, h⟩ => ⟨mover, h⟩
  have hissue : AgentStep agentOpts lenientCfg (.reporter Msg.discoveryAdvert) (beatenRun beaten)
      ⟨countedReporter, ⟨true, 1⟩, [heartbeat, advert], beaten, [heartbeat], []⟩ :=
    .frame hframe
  have hdrop := refuse_step (s := ⟨countedReporter, ⟨true, 1⟩, [heartbeat, advert], beaten,
    [heartbeat], []⟩) (mem_cons_of_mem _ mem_cons_self) advert_parse hm
  have hother : advert ∉ [heartbeat] := by decide +kernel
  exact ⟨_, freshRun_initial, (hany.tail ⟨_, hissue⟩).tail ⟨_, hdrop⟩, advert, mem_cons_self,
    hother⟩

end SolariNet
