/-
# The rows of the stored reports

What the transaction of a report is for.

    client report     one row of `hostHistory`, and the row of the node in `hostCurrent`
    monitor report    one row of `probeHistory` for each of its first `SOLARI_MAX_PROBES` probes,
                      and for each target the row of the node in `probeCurrent`

`RowsOnce` says so of all reports a node has stored.  A history is append-only, so each report has
its row there once, in the order of the commits; a current row is that of the last report, or of the
last probe of its target.  Rows of history are dropped by age, and those of a target with it:
`HistoryKept` is that the others leave the node's rows alone.
-/
import SolariNet.EndToEnd.Acknowledge

namespace SolariNet

open List Lib

/-! ## What is stored of a report -/

def StoredReport.client? (c : StoredReport) : Option ClientReport :=
  match c.data with
  | .client rep => some rep
  | .monitor _ => none

def StoredReport.probes (c : StoredReport) : List ProbeResult :=
  match c.data with
  | .client _ => []
  | .monitor rep => rep.probes.take solariMaxProbes

/-- The node's client reports, the oldest first. -/
def ReportWorld.clientReports (w : ReportWorld) : List ClientReport :=
  w.commits.reverse.filterMap StoredReport.client?

def ReportWorld.probes (w : ReportWorld) : List ProbeResult :=
  w.commits.reverse.flatMap StoredReport.probes

structure HostSample (n : UInt64) (rep : ClientReport) (row : HostHistoryRow) : Prop where
  node : row.nodeId = n
  cpu : row.cpuAvgMilli = dbAvgCpuMilli rep
  ram : row.ramUsedKb = rep.ramUsedKb
  swap : row.swapUsedKb = rep.swapUsedKb
  disk : row.diskMinFreePct = dbMinDiskFreePct rep
  net : row.netKbps = dbSumNetKbps rep
  readonlyFs : row.fsReadonlyCount = rep.health.fsReadonlyCount
  missing : row.blockDevMissing = rep.health.blockDevMissing
  smart : row.smartFailCount = rep.health.smartFailCount
  units : row.failedUnitCount = rep.health.failedUnitCount
  dmesg : row.dmesgCritCount = rep.health.dmesgCritCount

structure HostNow (n : UInt64) (rep : ClientReport) (row : HostCurrentRow) : Prop where
  node : row.nodeId = n
  cpu : row.cpuLoadMilli = rep.cpuLoadMilli
  ram : row.ramUsedKb = rep.ramUsedKb ∧ row.ramTotalKb = rep.ramTotalKb
  swap : row.swapUsedKb = rep.swapUsedKb ∧ row.swapTotalKb = rep.swapTotalKb
  disks : row.disks = rep.disks
  ifaces : row.ifaces = rep.ifaces
  health : row.health = rep.health

structure ProbeSample (n : UInt64) (p : ProbeResult) (row : ProbeHistoryRow) : Prop where
  target : row.targetId = dbProbeTargetId p
  monitor : row.monitorNode = n
  outcome : row.outcome = dbOutcomeStr p.outcome
  rtt : row.rttMicros = p.rttMicros
  loss : row.lossPermille = p.lossPermille

structure ProbeNow (p : ProbeResult) (row : ProbeCurrentRow) : Prop where
  outcome : row.outcome = dbOutcomeStr p.outcome
  rtt : row.rttMicros = p.rttMicros
  jitter : row.jitterMicros = p.jitterMicros
  loss : row.lossPermille = p.lossPermille
  throughput : row.throughputKbps = p.throughputKbps

/-- For every target the row of the node is that of the last of the probes. -/
def ProbesNow (n : UInt64) (db : Db) (ps : List ProbeResult) : Prop :=
  ∀ t p, ps.reverse.find? (fun p => collate (dbProbeTargetId p) = t) = some p →
    ∃ row, db.probeCurrent.find? (t, n) = some row ∧ ProbeNow p row

/-- `rows` have been added to those of `before`, one for each of `xs` and in their order. -/
def AddedFor {α β : Type} (R : α → β → Prop) (mine : β → Bool) (before after : List β)
    (xs : List α) : Prop :=
  ∃ rows, after.filter mine = before.filter mine ++ rows ∧ Forall₂ R xs rows

structure RowsOnce (n : UInt64) (db : Db) (w : ReportWorld) : Prop where
  host : AddedFor (HostSample n) (·.nodeId = n) db.hostHistory w.db.hostHistory w.clientReports
  probes : AddedFor (ProbeSample n) (·.monitorNode = n) db.probeHistory w.db.probeHistory w.probes
  hostNow : ∀ rep, w.clientReports.getLast? = some rep →
    ∃ row, w.db.hostCurrent.find? n = some row ∧ HostNow n rep row
  probesNow : ProbesNow n w.db w.probes

structure HistoryKept (n : UInt64) (db db' : Db) : Prop where
  host : db'.hostHistory.filter (·.nodeId = n) = db.hostHistory.filter (·.nodeId = n)
  probes : db'.probeHistory.filter (·.monitorNode = n) = db.probeHistory.filter (·.monitorNode = n)
  probesNow : ∀ t, db'.probeCurrent.find? (t, n) = db.probeCurrent.find? (t, n)

/-! ## The statements of a report -/

section
variable {n : UInt64} {db db' : Db} {w : ReportWorld} {c : StoredReport} {rep : ClientReport}
  {p : ProbeResult} {ps : List ProbeResult}

theorem hostHistoryRow_sample (n : UInt64) (rep : ClientReport) :
    HostSample n rep (hostHistoryRow n rep) :=
  ⟨rfl, rfl, rfl, rfl, rfl, rfl, rfl, rfl, rfl, rfl, rfl⟩

theorem writeHostCurrent_find? (db : Db) (row : HostCurrentRow) :
    (writeHostCurrent db row).hostCurrent.find? row.nodeId = some row := by
  refine (Table.find?_upsert db.hostCurrent row (fun r => { row with nodeId := r.nodeId })
    fun _ => rfl).trans ?_
  cases hf : db.hostCurrent.find? row.nodeId with
  | none => rfl
  | some r =>
    have hn : r.nodeId = row.nodeId := (Table.find?_eq_some.1 hf).2
    simp [hn]

theorem AddedFor.refl {α β : Type} (R : α → β → Prop) (mine : β → Bool) (l : List β) :
    AddedFor R mine l l [] := ⟨[], (append_nil _).symm, .nil⟩

theorem AddedFor.append {α β : Type} {R : α → β → Prop} {mine : β → Bool} {before after : List β}
    {xs : List α} (f : α → β) (ys : List α) (h : AddedFor R mine before after xs)
    (hf : ∀ y ∈ ys, R y (f y) ∧ mine (f y) = true) :
    AddedFor R mine before (after ++ ys.map f) (xs ++ ys) := by
  obtain ⟨rows, hrows, hR⟩ := h
  have hnew : (ys.map f).filter mine = ys.map f :=
    filter_eq_self.2 (forall_mem_map.2 fun y hy => (hf y hy).2)
  refine ⟨rows ++ ys.map f, by rw [filter_append, hrows, hnew, append_assoc], ?_⟩
  refine rel_append hR (forall₂_map_right_iff.2 (forall₂_same.2 fun y hy => (hf y hy).1))

theorem ProbesNow.write (h : ProbesNow n db ps) (p : ProbeResult) :
    ProbesNow n (writeProbe n db p) (ps ++ [p]) := by
  intro t q hq
  let f (r : ProbeCurrentRow) : ProbeCurrentRow :=
    { probeCurrentRow n p with targetId := r.targetId, monitorNode := r.monitorNode }
  have hf (r : ProbeCurrentRow) : (f r).key = r.key := rfl
  rw [reverse_append, reverse_singleton, singleton_append, find?_cons] at hq
  by_cases ht : collate (dbProbeTargetId p) = t
  · -- the row in place, or the new one: either has the values of `p`
    simp only [ht, decide_true, Option.some.injEq] at hq
    subst hq ht
    refine ⟨_, Table.find?_upsert db.probeCurrent (probeCurrentRow n p) f hf, ?_⟩
    cases db.probeCurrent.find? (probeCurrentRow n p).key with
    | none => exact ⟨rfl, rfl, rfl, rfl, rfl⟩
    | some row => exact ⟨rfl, rfl, rfl, rfl, rfl⟩
  · simp only [ht, decide_false] at hq
    obtain ⟨row, hrow, hnow⟩ := h t q hq
    have hne : (t, n) ≠ (probeCurrentRow n p).key := fun he => ht (congrArg Prod.fst he).symm
    exact ⟨row, (Table.find?_upsert_of_ne _ hf hne).trans hrow, hnow⟩

theorem ProbesNow.foldl (h : ProbesNow n db ps) (qs : List ProbeResult) :
    ProbesNow n (qs.foldl (writeProbe n) db) (ps ++ qs) := by
  induction qs generalizing db ps with
  | nil => simpa using h
  | cons q qs ih => simpa using ih (h.write q)

theorem RowsOnce.initial (hw : w.commits = []) (n : UInt64) : RowsOnce n w.db w := by
  have hreports : w.clientReports = [] := by rw [ReportWorld.clientReports, hw]; rfl
  have hprobes : w.probes = [] := by rw [ReportWorld.probes, hw]; rfl
  refine ⟨hreports ▸ .refl _ _ _, hprobes ▸ .refl _ _ _, ?_, ?_⟩
  · simp [hreports]
  · simp [ProbesNow, hprobes]

theorem clientReports_store (w : ReportWorld) (c : StoredReport) (db : Db) :
    (w.store c db).clientReports = w.clientReports ++ c.client?.toList := by
  unfold ReportWorld.clientReports
  cases hc : c.client? <;> simp [ReportWorld.store, hc]

theorem probes_store (w : ReportWorld) (c : StoredReport) (db : Db) :
    (w.store c db).probes = w.probes ++ c.probes := by
  simp [ReportWorld.probes, ReportWorld.store]

theorem RowsOnce.store {db₀ : Db} (h : RowsOnce n db₀ w) (hc : c.txn w.db = .ok db)
    (hn : c.nodeId = n) : RowsOnce n db₀ (w.store c db) := by
  subst hn
  unfold StoredReport.txn at hc
  split at hc
  · next rep hdata =>
    obtain ⟨-, db₁, t, hr, -, rfl⟩ := clientReportTxn_eq_ok hc
    obtain ⟨receipts, rfl⟩ := reportReceipt_frame hr
    have hreports := clientReports_store w c
    have hprobes := probes_store w c
    simp only [StoredReport.client?, StoredReport.probes, hdata, append_nil] at hreports hprobes
    refine ⟨?_, hprobes _ ▸ h.probes, fun r hrep => ?_, hprobes _ ▸ h.probesNow⟩
    · rw [hreports]
      exact h.host.append (hostHistoryRow c.nodeId) [rep] fun r _ =>
        ⟨hostHistoryRow_sample c.nodeId r, by simp [hostHistoryRow]⟩
    · rw [hreports, Option.toList_some, getLast?_concat, Option.some.injEq] at hrep
      subst hrep
      exact ⟨_, writeHostCurrent_find? _ (hostCurrentRow c.nodeId rep),
        ⟨rfl, rfl, ⟨rfl, rfl⟩, ⟨rfl, rfl⟩, rfl, rfl, rfl⟩⟩
  · next rep hdata =>
    obtain ⟨-, db₁, hr, rfl⟩ := monitorReportTxn_eq_ok hc
    obtain ⟨receipts, rfl⟩ := reportReceipt_frame hr
    have hreports := clientReports_store w c
    have hprobes := probes_store w c
    simp only [StoredReport.client?, StoredReport.probes, hdata, Option.toList_none, append_nil]
      at hreports hprobes
    obtain ⟨current, hdb⟩ := foldl_writeProbe_eq c.nodeId (rep.probes.take solariMaxProbes)
      { w.db with reportReceipt := receipts }
    refine ⟨?_, ?_, ?_, ?_⟩
    · rw [hreports, ReportWorld.store, hdb]
      exact h.host
    · rw [hprobes, ReportWorld.store, hdb]
      exact h.probes.append (probeHistoryRow c.nodeId) _ fun p _ =>
        ⟨⟨rfl, rfl, rfl, rfl, rfl⟩, by simp [probeHistoryRow]⟩
    · rw [hreports, ReportWorld.store, hdb]
      exact h.hostNow
    · rw [hprobes]
      have hnow : ProbesNow c.nodeId { w.db with reportReceipt := receipts } w.probes := h.probesNow
      exact hnow.foldl _

theorem RowsOnce.tables {db₀ : Db} (h : RowsOnce n db₀ w) (hk : HistoryKept n w.db db)
    (hh : db.hostCurrent.find? n = w.db.hostCurrent.find? n) :
    RowsOnce n db₀ { w with db := db } := by
  obtain ⟨hosts, hhosts, hR⟩ := h.host
  obtain ⟨probes, hprobes, hP⟩ := h.probes
  refine ⟨⟨hosts, hk.host.trans hhosts, hR⟩, ⟨probes, hk.probes.trans hprobes, hP⟩, ?_, ?_⟩
  · exact fun rep hrep => hh ▸ h.hostNow rep hrep
  · intro t p hp
    show ∃ row, db.probeCurrent.find? (t, n) = some row ∧ ProbeNow p row
    rw [hk.probesNow t]
    exact h.probesNow t p hp

theorem ReportsKept.history (h : ReportsKept db db') (n : UInt64) : HistoryKept n db db' :=
  ⟨by rw [h.hostHistory], by rw [h.probeHistory], fun _ => by rw [h.probes]⟩

end

/-! ## The system -/

section
variable {ι : Type} {opts : ReporterOpts} {cfg : ι → LoopCfg} {self : ι → UInt64}
  {w w' : ReportWorld}

/-- The system, when the others leave the rows of the node's reports alone. -/
def rowsSystem (opts : ReporterOpts) (cfg : ι → LoopCfg) (self : ι → UInt64) :
    System (Party ι) PartyOp PartyOp.Res ReportWorld PartyMem :=
  { reportSystem opts cfg self with
    env := fun w w' => ∃ db, NodeReportsKept opts.nodeId w.db db ∧
      HistoryKept opts.nodeId w.db db ∧ w' = { w with db := db } }

theorem RowsOnce.same {n : UInt64} {db₀ : Db} (h : RowsOnce n db₀ w) (hdb : w'.db = w.db)
    (hc : w'.commits = w.commits) : RowsOnce n db₀ w' := by
  have hreports : w'.clientReports = w.clientReports := by rw [ReportWorld.clientReports, hc]; rfl
  have hprobes : w'.probes = w.probes := by rw [ReportWorld.probes, hc]; rfl
  refine ⟨?_, ?_, ?_, ?_⟩
  · rw [hdb, hreports]
    exact h.host
  · rw [hdb, hprobes]
    exact h.probes
  · rw [hdb, hreports]
    exact h.hostNow
  · rw [hdb, hprobes]
    exact h.probesNow

theorem partySem_rowsOnce {n : UInt64} {db₀ : Db} {p : Party ι} {o : PartyOp} {r : o.Res}
    (h : partySem p o w r w') (hrows : RowsOnce n db₀ w) (hn : ∀ c ∈ w'.commits, c.nodeId = n) :
    RowsOnce n db₀ w' := by
  cases p with
  | agent =>
    cases o with
    | rep o =>
      obtain ⟨hdb, hc, -⟩ := reporterSem_keeps h
      exact hrows.same hdb hc
    | srv o | framed b =>
      cases h
      exact hrows.same rfl rfl
  | server i =>
    cases o with
    | srv o =>
      rcases controlSem_cases h with rfl | ⟨b, rfl⟩ | ⟨c, db, hc, rfl⟩ | ⟨db, hk, rfl⟩
      · exact hrows
      · exact hrows.same rfl rfl
      · exact hrows.store hc (hn c mem_cons_self)
      · exact hrows.tables (hk.history n) (by rw [hk.host])
    | rep o | framed b =>
      cases h
      exact hrows

theorem rowsSystem_step [DecidableEq ι] {db₀ : Db}
    {c c' : Conf (Party ι) PartyOp PartyOp.Res ReportWorld PartyMem}
    (h : (rowsSystem opts cfg self).Step c c') (hrows : RowsOnce opts.nodeId db₀ c.shared)
    (hn : ∀ x ∈ c'.shared.commits, x.nodeId = opts.nodeId) :
    RowsOnce opts.nodeId db₀ c'.shared := by
  cases h with
  | start | finish | crash => exact hrows
  | act i hi ho => exact partySem_rowsOnce ho hrows hn
  | env he =>
    obtain ⟨db, hk, hh, rfl⟩ := he
    exact hrows.tables hh hk.host

end

end SolariNet
