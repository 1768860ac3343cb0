/-
# Which report the current rows hold

`serverDbWriteClientReport` writes `hostCurrent` and `procCurrent` whatever they hold, so the rows
of a node are those of the report that was stored last.  The reporter tries a new report before the
ones it has spooled, and a request may arrive late; so the report stored last need not be the one
produced last (`overtaken_rows`).
-/
import SolariNet.EndToEnd.ExactlyOnce

namespace SolariNet

open List Lib Lib.Prog

/-! ## The rows of the last report -/

def lastClient (commits : List StoredReport) : Option ClientReport :=
  commits.findSome? StoredReport.client?

structure HoldsReport (n : UInt64) (db : Db) (rep : ClientReport) : Prop where
  host : db.hostCurrent.find? n = some (hostCurrentRow n rep)
  procs : db.procCurrent.rows.filter (·.nodeId = n) = rep.procs.map (procCurrentRow n)

variable {db db' : Db} {receipt : ReportReceipt} {n : UInt64}

theorem rows_insertProcs {ps : List ProcEntry}
    (h : insertProcs n t ps = .ok t') : t'.rows = t.rows ++ ps.map (procCurrentRow n) := by
  induction ps generalizing t with
  | nil =>
    cases h
    simp
  | cons p ps ih =>
    unfold insertProcs at h
    cases hi : t.insert (procCurrentRow n p) with
    | none =>
      rw [hi] at h
      cases h
    | some t₁ =>
      rw [hi] at h
      rw [ih h, (Table.rows_insert hi).1]
      simp

theorem clientReportTxn_holds
    (h : clientReportTxn db n rep receipt = .ok db') :
    HoldsReport n db' rep := by
  obtain ⟨-, db₁, t, -, hp, rfl⟩ := clientReportTxn_eq_ok h
  refine ⟨writeHostCurrent_find? db₁ (hostCurrentRow n rep), ?_⟩
  have hold : (db₁.procCurrent.delete fun r => r.nodeId = n).rows.filter (·.nodeId = n) = [] := by
    simp [Table.delete]
  have hnew : (rep.procs.map (procCurrentRow n)).filter (·.nodeId = n) =
      rep.procs.map (procCurrentRow n) := by
    refine filter_eq_self.2 fun r hr => ?_
    obtain ⟨p, -, rfl⟩ := mem_map.1 hr
    simp [procCurrentRow]
  rw [rows_insertProcs hp, filter_append, hold, hnew, nil_append]

theorem monitorReportTxn_holds {m : UInt64}
    (h : monitorReportTxn db m rep receipt = .ok db') (hr : HoldsReport n db r) :
    HoldsReport n db' r := by
  obtain ⟨-, db₁, hrec, rfl⟩ := monitorReportTxn_eq_ok h
  obtain ⟨current, hprobes⟩ := foldl_writeProbe_eq m (rep.probes.take solariMaxProbes) db₁
  obtain ⟨t, rfl⟩ := reportReceipt_frame hrec
  rw [hprobes]
  exact ⟨hr.host, hr.procs⟩

/-! ## The order of production -/

def producedAt (framed : List Bytes) (frame : Bytes) : Nat := framed.reverse.idxOf frame

theorem producedAt_cons {framed : List Bytes} (h : frame ∈ framed) (b : Bytes) :
    producedAt (b :: framed) frame = producedAt framed frame := by
  unfold producedAt
  rw [reverse_cons, idxOf_append_of_mem (mem_reverse.2 h)]

def StoresFrame (c : StoredReport) (frame : Bytes) : Prop :=
  ∃ f, solariFrameParse frame = .ok f ∧ Stores f c

def IsClientReport (frame : Bytes) : Prop :=
  ∃ f, solariFrameParse frame = .ok f ∧ f.hdr.msgType = Msg.clientReport

/-- A transmission that cannot overtake or be overtaken: its report is stored, or everything else
that has been sent is stored and older. -/
def SentInOrder (s : Transmission) : Prop :=
  IsClientReport s.frame → StoredIn s.stored s.frame ∨
    ∀ g ∈ s.sent, IsClientReport g → g = s.frame ∨
      StoredIn s.stored g ∧ producedAt s.framed g < producedAt s.framed s.frame

structure InOrder (w : ReportWorld) : Prop where
  pending : ∀ g ∈ w.requests, IsClientReport g → ¬ w.Committed g →
    ∀ b ∈ w.requests, IsClientReport b →
      b = g ∨ w.Committed b ∧ producedAt w.framed b < producedAt w.framed g
  sorted : w.commits.Pairwise fun c d => c.receipt.msgType = Msg.clientReport →
    d.receipt.msgType = Msg.clientReport → ∃ b ∈ w.framed, ∃ g ∈ w.framed,
      StoresFrame c b ∧ StoresFrame d g ∧ producedAt w.framed g < producedAt w.framed b

structure CurrentInv (n : UInt64) (w : ReportWorld) : Prop where
  rows : ∀ rep, lastClient w.commits = some rep → HoldsReport n w.db rep
  typed : ∀ c ∈ w.commits, c.receipt.msgType = Msg.clientReport ↔ c.client?.isSome = true
  order : (∀ s ∈ w.sends, SentInOrder s) → InOrder w

section
variable {n : UInt64} {w : ReportWorld} {c : StoredReport} {b : Bytes} {db : Db} {f : Frame}

theorem StoredReport.txn_typed (h : c.txn db = .ok db') :
    c.receipt.msgType = Msg.clientReport ↔ c.client?.isSome = true := by
  unfold txn at h
  unfold client?
  cases hdata : c.data with
  | client rep =>
    rw [hdata] at h
    simp [(clientReportTxn_eq_ok h).1]
  | monitor rep =>
    rw [hdata] at h
    rcases (monitorReportTxn_eq_ok h).1 with hm | hm
    · simp [hm, Msg.clientReport, Msg.monitorReport]
    · simp [hm, Msg.clientReport, Msg.surveyResp]

theorem StoresFrame.isClientReport (h : StoresFrame c frame)
    (hc : c.receipt.msgType = Msg.clientReport) : IsClientReport frame := by
  obtain ⟨f, hp, hs⟩ := h
  obtain ⟨-, -, hmsg, -⟩ := serverReportIdentity_ok hs.receipt
  exact ⟨f, hp, hmsg.symm.trans hc⟩

theorem ReportInv.committed_sent (h : ReportInv n w) {frame : Bytes} (hf : frame ∈ w.framed)
    (hc : w.Committed frame) : frame ∈ w.requests := by
  obtain ⟨f, hp, c, hc, hs⟩ := hc
  obtain ⟨b, hb, g, hg, hsg⟩ := h.stored c hc
  obtain rfl := h.unique frame hf b (h.sent b hb) _ _ (hs.identified hp) (hsg.identified hg)
  exact hb

theorem ReportInv.stores_unique (h : ReportInv n w) (hb : b ∈ w.framed)
    (hg : g ∈ w.framed) (hcb : StoresFrame c b) (hcg : StoresFrame c g) :
    b = g := by
  obtain ⟨f, hp, hs⟩ := hcb
  obtain ⟨f', hp', hs'⟩ := hcg
  exact h.unique b hb g hg _ _ (hs.identified hp) (hs'.identified hp')

theorem Stores.key_eq (hc : Stores f c) (hd : Stores f d) : c.key = d.key := by
  have hr : c.receipt = d.receipt := Except.ok.inj (hc.receipt.symm.trans hd.receipt)
  simp only [StoredReport.key, StoredReport.row, hr, hc.node, hd.node]

theorem InOrder.send (h : InOrder w) (hI : ReportInv n w) {frame : Bytes} (hf : frame ∈ w.framed)
    (ho : SentInOrder ⟨frame, w.framed, w.requests, w.commits⟩) : InOrder (w.send frame) := by
  refine ⟨?_, h.sorted⟩
  intro g hg hgc hgn b hb hbc
  rcases mem_cons.1 hg with rfl | hgold
  · rcases mem_cons.1 hb with rfl | hbold
    · exact .inl rfl
    rcases ho hgc with hst | hall
    · exact absurd hst hgn
    · exact hall b hbold hbc
  · rcases mem_cons.1 hb with rfl | hbold
    · rcases ho hbc with hst | hall
      -- sent again: it is among the requests already
      · exact h.pending g hgold hgc hgn _ (hI.committed_sent hf hst) hbc
      · rcases hall g hgold hgc with hgb | ⟨hst, -⟩
        · exact .inl hgb.symm
        · exact absurd hst hgn
    · exact h.pending g hgold hgc hgn b hbold hbc

theorem InOrder.frame (h : InOrder w) (hI : ReportInv n w) (frame : Bytes) :
    InOrder { w with framed := frame :: w.framed } := by
  refine ⟨?_, h.sorted.imp fun hcd hc hd => ?_⟩
  · intro g hg hgc hgn b hb hbc
    refine (h.pending g hg hgc hgn b hb hbc).imp_right fun hold => ⟨hold.1, ?_⟩
    rw [producedAt_cons (hI.sent b hb), producedAt_cons (hI.sent g hg)]
    exact hold.2
  · obtain ⟨b, hb, g, hg, hcb, hdg, hlt⟩ := hcd hc hd
    refine ⟨b, mem_cons_of_mem _ hb, g, mem_cons_of_mem _ hg, hcb, hdg, ?_⟩
    rw [producedAt_cons hb, producedAt_cons hg]
    exact hlt

theorem InOrder.store (h : InOrder w) (hI : ReportInv n w) {frame : Bytes} (hr : frame ∈ w.requests)
    (hp : solariFrameParse frame = .ok f) (hs : Stores f c) (ht : c.txn w.db = .ok db) :
    InOrder (w.store c db) := by
  have hmono {b : Bytes} (hb : w.Committed b) : (w.store c db).Committed b :=
    hb.mono (subset_cons_self c w.commits)
  refine ⟨?_, pairwise_cons.2 ⟨?_, h.sorted⟩⟩
  · intro g hg hgc hgn b hb hbc
    exact (h.pending g hg hgc (fun hold => hgn (hmono hold)) b hb hbc).imp_right
      fun hold => ⟨hmono hold.1, hold.2⟩
  · intro d hd hc hdc
    have hcf : StoresFrame c frame := ⟨f, hp, hs⟩
    -- the frame was not stored before: no key is stored twice
    have hnew : ¬ w.Committed frame := by
      rintro ⟨f', hp', e, he, hse⟩
      obtain rfl : f = f' := Except.ok.inj (hp.symm.trans hp')
      exact (nodup_cons.1 (hI.store hr hp hs ht).once).1 (mem_map.2 ⟨e, he, hse.key_eq hs⟩)
    obtain ⟨g, hg, f', hp', hsd⟩ := hI.stored d hd
    have hdg : StoresFrame d g := ⟨f', hp', hsd⟩
    rcases h.pending frame hr (hcf.isClientReport hc) hnew g hg (hdg.isClientReport hdc) with
      rfl | ⟨-, hlt⟩
    · exact absurd ⟨f', hp', d, hd, hsd⟩ hnew
    · exact ⟨frame, hI.sent frame hr, g, hI.sent g hg, hcf, hdg, hlt⟩

theorem CurrentInv.store_rows (h : CurrentInv n w) (hI : ReportInv n w)
    (hr : frame ∈ w.requests) (hp : solariFrameParse frame = .ok f) (hs : Stores f c)
    (ht : c.txn w.db = .ok db) (hlast : lastClient (c :: w.commits) = some rep) :
    HoldsReport n db rep := by
  have hnode : c.nodeId = n := hs.node.trans (hI.node frame (hI.sent frame hr) f hp)
  unfold lastClient StoredReport.client? at hlast
  unfold StoredReport.txn at ht
  rw [List.findSome?_cons] at hlast
  cases hdata : c.data with
  | client r =>
    rw [hdata] at ht hlast
    cases hlast
    exact hnode ▸ clientReportTxn_holds ht
  | monitor r =>
    rw [hdata] at ht hlast
    exact monitorReportTxn_holds ht (h.rows rep hlast)

theorem CurrentInv.change (hI : ReportInv n w) (h : CurrentInv n w)
    (hc : ReportChange n w w') : CurrentInv n w' := by
  cases hc with
  | @sent frame hf =>
    refine { h with order := fun ho => ?_ }
    obtain ⟨hnew, hold⟩ := forall_mem_cons.1 ho
    exact (h.order hold).send hI hf hnew
  | @framed frame hf => exact { h with order := fun ho => (h.order ho).frame hI frame }
  | @stored c db frame f hr hp hs ht =>
    refine ⟨fun rep => h.store_rows hI hr hp hs ht, ?_, fun ho => (h.order ho).store hI hr hp hs ht⟩
    exact forall_mem_cons.2 ⟨StoredReport.txn_typed ht, h.typed⟩
  | tables hk =>
    refine { h with rows := fun rep hrep => ?_, order := fun ho => ?_ }
    · have hold := h.rows rep hrep
      exact ⟨hk.host.trans hold.host, hk.procs.trans hold.procs⟩
    · exact ⟨(h.order ho).pending, (h.order ho).sorted⟩
  | _ => exact { h with order := fun ho => ⟨(h.order ho).pending, (h.order ho).sorted⟩ }

theorem ReportInitial.current (h : ReportInitial n w) : CurrentInv n w := by
  refine ⟨?_, ?_, fun _ => ⟨?_, ?_⟩⟩
  · simp [lastClient, h.commits]
  · simp [h.commits]
  · simp [ReportWorld.requests, h.sends]
  · simp [h.commits]

theorem InOrder.produced (h : InOrder w) (hI : ReportInv n w) :
    w.commits.Pairwise fun c d => ∀ b ∈ w.framed, ∀ g ∈ w.framed,
      c.receipt.msgType = Msg.clientReport → d.receipt.msgType = Msg.clientReport →
      StoresFrame c b → StoresFrame d g → producedAt w.framed g < producedAt w.framed b := by
  refine h.sorted.imp fun {c d} hcd b hb g hg hc hd hcb hdg => ?_
  obtain ⟨b', hb', g', hg', hcb', hdg', hlt⟩ := hcd hc hd
  obtain rfl := hI.stores_unique hb hb' hcb hcb'
  obtain rfl := hI.stores_unique hg hg' hdg hdg'
  exact hlt

theorem CurrentInv.newest (h : CurrentInv n w) (hI : ReportInv n w) (ho : InOrder w)
    (hb : b ∈ w.framed) (hbc : IsClientReport b) (hst : w.Committed b)
    (hmax : ∀ g ∈ w.framed, IsClientReport g → w.Committed g →
      producedAt w.framed g ≤ producedAt w.framed b) :
    ∃ f rep, solariFrameParse b = .ok f ∧ solariMsgParseClientReport f.payload = .ok rep ∧
      HoldsReport n w.db rep := by
  obtain ⟨f, hp, d, hd, hs⟩ := hst
  obtain ⟨-, -, hmsg, -⟩ := serverReportIdentity_ok hs.receipt
  have hdc : d.receipt.msgType = Msg.clientReport := by
    obtain ⟨f', hp', hc⟩ := hbc
    obtain rfl : f = f' := Except.ok.inj (hp.symm.trans hp')
    exact hmsg.trans hc
  cases hl : lastClient w.commits with
  | none =>
    have hnone := List.findSome?_eq_none_iff.1 hl d hd
    rw [h.typed d hd, hnone] at hdc
    cases hdc
  | some rep =>
    obtain ⟨l₁, c, l₂, hsplit, hrep, hlate⟩ := List.findSome?_eq_some_iff.1 hl
    have hcmem : c ∈ w.commits := by simp [hsplit]
    have hcc : c.receipt.msgType = Msg.clientReport := (h.typed c hcmem).2 (by simp [hrep])
    -- the report stored last is the one of `b`: it is not newer, and the others are older
    have hcd : c = d := by
      rw [hsplit] at hd
      rcases mem_append.1 hd with hd | hd
      · rw [h.typed d (by simp [hsplit, hd]), hlate d hd] at hdc
        cases hdc
      rcases mem_cons.1 hd with rfl | hd
      · rfl
      have hpair := ho.produced hI
      rw [hsplit] at hpair
      have hpair := (pairwise_cons.1 (pairwise_append.1 hpair).2.1).1 d hd
      obtain ⟨g, hg, f', hp', hsg⟩ := hI.stored c hcmem
      have hgf : g ∈ w.framed := hI.sent g hg
      have hlt := hpair g hgf b hb hcc hdc ⟨f', hp', hsg⟩ ⟨f, hp, hs⟩
      have hle := hmax g hgf (StoresFrame.isClientReport ⟨f', hp', hsg⟩ hcc)
        ⟨f', hp', c, hcmem, hsg⟩
      omega
    subst hcd
    refine ⟨f, rep, hp, ?_, h.rows rep hl⟩
    have hdata := hs.data
    unfold StoredReport.client? at hrep
    split at hrep
    · next r hr =>
      cases hrep
      rw [hr] at hdata
      exact hdata
    · cases hrep

end

/-- **Current rows follow the reports.** If all transmissions were orderly, reports were stored in
the order in which they were produced, and the current rows hold the newest that is stored. -/
theorem current_rows_newest {ι : Type} [DecidableEq ι] {opts : ReporterOpts} {cfg : ι → LoopCfg}
    {self : ι → UInt64} {c c' : Conf (Party ι) PartyOp PartyOp.Res ReportWorld PartyMem}
    (hc : (reportSystem opts cfg self).Initial (ReportInitial opts.nodeId) c)
    (hs : (reportSystem opts cfg self).Steps c c') (ho : ∀ s ∈ c'.shared.sends, SentInOrder s) :
    (c'.shared.commits.Pairwise fun c d => ∀ b ∈ c'.shared.framed, ∀ g ∈ c'.shared.framed,
      c.receipt.msgType = Msg.clientReport → d.receipt.msgType = Msg.clientReport →
      StoresFrame c b → StoresFrame d g →
        producedAt c'.shared.framed g < producedAt c'.shared.framed b) ∧
    ∀ b ∈ c'.shared.framed, IsClientReport b → c'.shared.Committed b →
      (∀ g ∈ c'.shared.framed, IsClientReport g → c'.shared.Committed g →
        producedAt c'.shared.framed g ≤ producedAt c'.shared.framed b) →
      ∃ f rep, solariFrameParse b = .ok f ∧ solariMsgParseClientReport f.payload = .ok rep ∧
        HoldsReport opts.nodeId c'.shared.db rep := by
  obtain ⟨hI, hJ⟩ := reportSystem_upheld (J := CurrentInv opts.nodeId)
    (fun _ _ hI h hc => h.change hI hc) rfl (fun _ h => h.current) hc hs
  have horder := hJ.order ho
  exact ⟨horder.produced hI, fun b hb hbc hst hmax => hJ.newest hI horder hb hbc hst hmax⟩

def confirming : List SoleCue :=
  [opensCue, .ends .agent] ++ [5, 6].flatMap fun kb =>
    [framesCue [Tlv.u64 TlvType.ramUsedKb kb], .ends .agent, sendsCue, .acts .agent 2, servesCue,
      .ends (.server ()), .ends .agent]

theorem confirming_legal : ∀ q ∈ confirming, System.Cue.Legal soleSystem q := by
  simp [confirming]

set_option maxRecDepth 20000

theorem confirming_plays : (System.play partyAnswers confirming soleStart).isSome = true := by
  decide +kernel

def confirmed : Conf (Party Unit) PartyOp PartyOp.Res ReportWorld PartyMem :=
  (System.play partyAnswers confirming soleStart).get confirming_plays

deriving instance DecidableEq for DiskEntry, IfaceEntry, UsbEntry, ProcEntry, LogEntry, HostHealth,
  ClientReport, ProbeResult, LinkStat, MonitorReport, ReportReceipt

instance (payload : Bytes) : (d : ReportData) → Decidable (d.IsOf payload)
  | .client _ | .monitor _ => inferInstanceAs (Decidable (_ = _))

instance (f : Frame) (c : StoredReport) : Decidable (Stores f c) :=
  decidable_of_iff' _ (stores_iff f c)

instance (commits : List StoredReport) (frame : Bytes) : Decidable (StoredIn commits frame) :=
  match h : solariFrameParse frame with
  | .ok f => decidable_of_iff (∃ c ∈ commits, Stores f c) (by simp [StoredIn, h])
  | .error _ => .isFalse (by simp [StoredIn, h])

theorem confirmed_inOrder : ∀ s ∈ confirmed.shared.sends, SentInOrder s := by
  have hsent : ∀ s ∈ confirmed.shared.sends, ∀ g ∈ s.sent,
      StoredIn s.stored g ∧ producedAt s.framed g < producedAt s.framed s.frame := by
    decide +kernel
  exact fun s hs _ => .inr fun g hg _ => .inr (hsent s hs g hg)

/-- The second report is sent when the first is stored, and the rows hold it. -/
theorem current_rows_confirmed :
    (confirmed.shared.commits.map fun c => c.receipt.seqNo) = [2, 1] ∧
      (∀ s ∈ confirmed.shared.sends, SentInOrder s) ∧
      ∀ b ∈ confirmed.shared.framed, IsClientReport b → confirmed.shared.Committed b →
        (∀ g ∈ confirmed.shared.framed, IsClientReport g → confirmed.shared.Committed g →
          producedAt confirmed.shared.framed g ≤ producedAt confirmed.shared.framed b) →
        ∃ f rep, solariFrameParse b = .ok f ∧ solariMsgParseClientReport f.payload = .ok rep ∧
          HoldsReport 7 confirmed.shared.db rep :=
  ⟨by decide +kernel, confirmed_inOrder,
    (current_rows_newest soleStart_initial (System.steps_play partyAnswers_sem confirming_legal
      (Option.some_get confirming_plays).symm) confirmed_inOrder).2⟩

/-- Report 1 is sent first and spooled.  Report 2, produced after it, is stored; then the drain
delivers report 1, and the rows of the node go back to it. -/
theorem overtaken_rows :
    soleSystem.Initial (ReportInitial 7) soleStart ∧ soleSystem.Steps soleStart overtaken ∧
      (overtaken.shared.framed.map fun b => (solariFrameParse b).toOption.map (·.hdr.seqNo)) =
        [some 2, some 1] ∧
      (overtaken.shared.commits.map fun c => (c.receipt.seqNo, c.client?.map (·.ramUsedKb))) =
        [(1, some 0), (2, some 5)] ∧
      (overtaken.shared.db.hostCurrent.find? 7).map (·.ramUsedKb) = some 0 :=
  ⟨soleStart_initial, overtaking_steps, by decide +kernel, by decide +kernel, by decide +kernel⟩

end SolariNet
