/-
# Rules, breach slots, fired and cleared rows

`serverAlert.c`: each report is judged by the rules of its scope.  A rule, a node and a
target make a rule instance; its state between reports is one of 1024 slots in memory.

    alertStateFind    the slot of an instance: its own, the first unused one, or the first
                      one that has not fired
    alertApply        tier lookup, breach, hydration from `alertEvent`, then open or clear

A slot that has not looked yet takes its state from the table: the oldest row of the
instance that fired and has no `clearedAt` (`alertHydrate`).

Values are doubles in the source; here they are rationals.  A severity that is absent in the
rule stays absent in the row.
-/
import SolariNet.Server.Ops

namespace SolariNet

open List Lib Lib.Prog

/-! ## Slots -/

structure AlertSlot where
  inUse : Bool := false
  ruleId : Int := 0
  nodeId : UInt64 := 0
  targetId : CStr := []
  breachSinceMs : UInt64 := 0
  fired : Bool := false
  checkedOpen : Bool := false
  openedEventId : Nat := 0
  lastValue : Rat := 0
  haveLast : Bool := false

def alertStateSlots : Nat := 1024

abbrev AlertTable : Type := Fin alertStateSlots → AlertSlot

def AlertTable.empty : AlertTable := fun _ => {}

def AlertSlot.isOf (s : AlertSlot) (ruleId : Int) (nodeId : UInt64) (targetId : CStr) : Bool :=
  s.inUse && s.ruleId == ruleId && s.nodeId == nodeId && s.targetId == targetId

def alertStateFind (t : AlertTable) (ruleId : Int) (nodeId : UInt64) (targetId : CStr) :
    Option (Fin alertStateSlots) × AlertTable :=
  match Fin.find? fun i => (t i).isOf ruleId nodeId targetId with
  | some i => (some i, t)
  | none =>
    match (Fin.find? fun i => !(t i).inUse).or (Fin.find? fun i => !(t i).fired) with
    | none => (none, t)
    | some i =>
      let s : AlertSlot :=
        { inUse := true, ruleId := ruleId, nodeId := nodeId, targetId := targetId }
      (some i, Function.update t i s)

/-! ## Rules -/

def alertEqEpsilon : Rat := 1 / 2

def alertThresholdBreached (op : AlertCmp) (value threshold : Rat) : Bool :=
  match op with
  | .gt => threshold < value
  | .lt => value < threshold
  | .eq => |value - threshold| ≤ alertEqEpsilon
  | .transition => false

def alertComposeSeverity (severity : Option Severity) (tier : Int) : Option (Option Severity) :=
  if tier < 0 ∨ 4 < tier then none
  else if tier = 0 then none
  else if tier = 1 ∧ severity = some .crit then some (some .warn)
  else if tier = 4 then some (some .crit)
  else some severity

def shownSeverity (r : AlertRule) (tier : Int) : Option Severity :=
  (alertComposeSeverity r.severity tier).getD (some (r.severity.getD .info))

def alertObserve (s : AlertSlot) (r : AlertRule) (value : Rat) : Bool × AlertSlot :=
  if r.op = .transition then
    (s.haveLast && alertEqEpsilon < |value - s.lastValue|,
      { s with lastValue := value, haveLast := true })
  else (alertThresholdBreached r.op value r.threshold, s)

def alertFireNow (s : AlertSlot) (r : AlertRule) (nowMs : UInt64) (urgent : Bool) : Bool :=
  let needMs : UInt64 := if 0 < r.forSeconds then UInt64.ofInt r.forSeconds * 1000 else 0
  urgent || r.op == .transition || needMs ≤ nowMs - s.breachSinceMs

/-! ## The state machine -/

structure Sample where
  nodeId : UInt64
  rule : AlertRule
  targetId : CStr
  value : Rat
  urgent : Bool
  extraDetail : CStr

def alertBuildDetail (x : Sample) (firing : Bool) : AlertDetail :=
  ⟨firing, x.rule, x.targetId, x.value, x.extraDetail⟩

def alertHydrate (s : AlertSlot) (x : Sample) : SrvM (Status × AlertSlot) :=
  if s.checkedOpen then .ret (.ok, s)
  else do
    match ← srv (.findOpenAlertEvent x.rule.ruleId x.nodeId x.targetId) with
    | .error st => .ret (st, { s with openedEventId := 0 })
    | .ok id => .ret (.ok, { s with openedEventId := id, fired := id ≠ 0, checkedOpen := true })

def firedValues (x : Sample) (tier : AlertTier) : AlertEventValues where
  ruleId := x.rule.ruleId
  nodeId := x.nodeId
  targetId := x.targetId
  severity := shownSeverity x.rule tier.tier
  detail := alertBuildDetail x true
  eventKind := .fired
  openedEventId := 0
  assetId := tier.assetId
  effectiveTier := tier.tier
  disposition := if tier.tier ≤ 1 then .suppress else .publish

def AlertSlot.noteBreach (s : AlertSlot) (nowMs : UInt64) : AlertSlot :=
  { s with breachSinceMs := if s.breachSinceMs = 0 then nowMs else s.breachSinceMs }

def alertOpen (s : AlertSlot) (x : Sample) (tier : AlertTier) (nowMs : UInt64) :
    SrvM (Status × AlertSlot) :=
  let s := s.noteBreach nowMs
  if s.fired then .ret (.ok, s)
  else if !alertFireNow s x.rule nowMs x.urgent then .ret (.ok, s)
  else do
    let s := { s with openedEventId := 0 }
    match alertComposeSeverity x.rule.severity tier.tier with
    | none =>
      srv (.publishAlert (shownSeverity x.rule tier.tier) (alertBuildDetail x true))
      .ret (.ok, { s with fired := true })
    | some _ =>
      match ← srv (.writeAlertEvent (firedValues x tier)) with
      | .error st => .ret (st, s)
      | .ok id =>
        srv (.publishAlert (shownSeverity x.rule tier.tier) (alertBuildDetail x true))
        .ret (.ok, { s with openedEventId := id, fired := true })

/-- The `cleared` row of a sample, with what its `fired` row says. -/
def clearedValues (x : Sample) (tier : AlertTier) (opened : Nat) (disposition : Disposition)
    (effectiveTier : Int) : AlertEventValues where
  ruleId := x.rule.ruleId
  nodeId := x.nodeId
  targetId := x.targetId
  severity := shownSeverity x.rule tier.tier
  detail := alertBuildDetail x false
  eventKind := .cleared
  openedEventId := opened
  assetId := tier.assetId
  effectiveTier := effectiveTier
  disposition := disposition

def alertWriteCleared (s : AlertSlot) (x : Sample) (tier : AlertTier) : SrvM Status :=
  if s.openedEventId = 0 then .ret .ok
  else do
    match ← srv (.alertEventDisposition s.openedEventId) with
    | .error st => .ret st
    | .ok (disposition, effectiveTier) =>
      match ← srv (.writeAlertEvent
          (clearedValues x tier s.openedEventId disposition effectiveTier)) with
      | .error st => .ret st
      | .ok _ => .ret .ok

def AlertSlot.release (s : AlertSlot) (r : AlertRule) : AlertSlot :=
  { s with inUse := s.inUse && !(r.op == .transition && !s.haveLast) }

def alertClear (s : AlertSlot) (x : Sample) (tier : AlertTier) : SrvM (Status × AlertSlot) :=
  let s := { s with breachSinceMs := 0 }
  if !s.fired then .ret (.ok, s.release x.rule)
  else do
    let rc ← alertWriteCleared s x tier
    if rc ≠ .ok then .ret (rc, s)
    else
      srv (.publishAlert (shownSeverity x.rule tier.tier) (alertBuildDetail x false))
      .ret (.ok, { s with fired := false, openedEventId := 0 }.release x.rule)

def alertApplySlot (s : AlertSlot) (x : Sample) (tier : AlertTier) (nowMs : UInt64) :
    SrvM (Status × AlertSlot) := do
  let (breached, s) := alertObserve s x.rule x.value
  let (rc, s) ← alertHydrate s x
  if rc ≠ .ok then .ret (rc, s)
  else if breached then alertOpen s x tier nowMs
  else alertClear s x tier

def alertTierOf (x : Sample) : SrvM (Except Status AlertTier) :=
  if x.targetId = [] then srv (.nodeAlertTier x.nodeId) else srv (.probeAlertTier x.targetId)

def alertApply (t : AlertTable) (x : Sample) : SrvM (Status × AlertTable) := do
  let nowMs ← srv .now
  let (place, t) := alertStateFind t x.rule.ruleId x.nodeId x.targetId
  match ← alertTierOf x with
  | .error _ => .ret (.ok, t)
  | .ok tier =>
    if !tier.active then .ret (.ok, t)
    else
      match place with
      | none => .ret (.ok, t)
      | some i => do
          let (rc, s) ← alertApplySlot (t i) x tier nowMs
          .ret (rc, Function.update t i s)

def alertApplyAll : AlertTable → List Sample → SrvM (Status × AlertTable)
  | t, [] => .ret (.ok, t)
  | t, x :: xs => do
      let (rc, t) ← alertApply t x
      if rc ≠ .ok then .ret (rc, t) else alertApplyAll t xs

/-! ## Reports -/

def alertClientCpuAvgMilli (rep : ClientReport) : Rat :=
  if rep.cpuLoadMilli = [] then 0
  else ((rep.cpuLoadMilli.map UInt32.toNat).sum : Rat) / rep.cpuLoadMilli.length

def percent (part whole : UInt64) : Rat := if whole = 0 then 0 else 100 * part.toNat / whole.toNat

def clientMetrics (rep : ClientReport) : List (CStr × Rat) :=
  [("cpuAvgMilli".toList, alertClientCpuAvgMilli rep),
    ("ramUsedKb".toList, rep.ramUsedKb.toNat),
    ("ramTotalKb".toList, rep.ramTotalKb.toNat),
    ("swapUsedKb".toList, rep.swapUsedKb.toNat),
    ("swapTotalKb".toList, rep.swapTotalKb.toNat),
    ("ramUsedPct".toList, percent rep.ramUsedKb rep.ramTotalKb),
    ("swapUsedPct".toList, percent rep.swapUsedKb rep.swapTotalKb),
    ("diskFreeMinKb".toList, (rep.disks.map fun d => d.freeKb.toNat).min?.getD 0),
    ("procCount".toList, rep.procs.length),
    ("ifaceCount".toList, rep.ifaces.length),
    ("diskCount".toList, rep.disks.length),
    ("health.fsReadonly".toList, rep.health.fsReadonlyCount.toNat),
    ("health.blockDevMissing".toList, rep.health.blockDevMissing.toNat),
    ("health.smartFail".toList, rep.health.smartFailCount.toNat),
    ("health.failedUnits".toList, rep.health.failedUnitCount.toNat),
    ("health.dmesgCrit".toList, rep.health.dmesgCritCount.toNat)]

def alertClientMetric (rep : ClientReport) (metric : CStr) : Option Rat :=
  (clientMetrics rep).lookup metric

def alertClientMetricDetail (rep : ClientReport) (metric : CStr) : CStr :=
  ([("health.fsReadonly".toList, rep.health.fsReadonlyList),
    ("health.smartFail".toList, rep.health.smartFailList),
    ("health.failedUnits".toList, rep.health.failedUnitList),
    ("health.dmesgCrit".toList, rep.health.dmesgCritSample)].lookup metric).getD []

def alertProbeMetric (p : ProbeResult) (metric : CStr) : Option Rat :=
  [("lossPermille".toList, (p.lossPermille.toNat : Rat)),
    ("rttMicros".toList, p.rttMicros.toNat),
    ("rttMs".toList, p.rttMicros.toNat / 1000),
    ("jitterMicros".toList, p.jitterMicros.toNat),
    ("throughputKbps".toList, p.throughputKbps.toNat),
    ("outcome".toList, p.outcome.toNat),
    ("reachable".toList, if p.outcome = 0 then 1 else 0)].lookup metric

def alertProbeTargetId (p : ProbeResult) : CStr :=
  decimal p.proto.toNat ++
    ':' :: (if v4Mapped p.dstAddr then dottedQuad p.dstAddr else hexGroups p.dstAddr) ++
    ':' :: decimal p.dstPort.toNat

def clientSamples (nodeId : UInt64) (rep : ClientReport) (urgent : Bool) (rules : List AlertRule) :
    List Sample :=
  rules.filterMap fun r => (alertClientMetric rep r.metric).map fun v =>
    ⟨nodeId, r, [], v, urgent, alertClientMetricDetail rep r.metric⟩

def monitorSamples (nodeId : UInt64) (rep : MonitorReport) (urgent : Bool)
    (rules : List AlertRule) : List Sample :=
  rules.flatMap fun r => (rep.probes.take solariMaxProbes).filterMap fun p =>
    (alertProbeMetric p r.metric).map fun v => ⟨nodeId, r, alertProbeTargetId p, v, urgent, []⟩

def alertEval (t : AlertTable) (scope : AlertScope) (samples : List AlertRule → List Sample) :
    SrvM (Status × AlertTable) := do
  match ← srv (.loadAlertRules scope) with
  | .error st => .ret (st, t)
  | .ok rules => alertApplyAll t (samples rules)

def serverAlertEvalClient (t : AlertTable) (nodeId : UInt64) (rep : ClientReport) (urgent : Bool) :
    SrvM (Status × AlertTable) :=
  alertEval t .host (clientSamples nodeId rep urgent)

def serverAlertEvalMonitor (t : AlertTable) (nodeId : UInt64) (rep : MonitorReport)
    (urgent : Bool) :
    SrvM (Status × AlertTable) :=
  alertEval t .probe (monitorSamples nodeId rep urgent)

/-! ## The two ids of a probe -/

theorem head?_collate {c : Char} {s : CStr} (h : c.toLower ≠ ' ') :
    (collate (c :: s)).head? = some c.toLower := by
  simp only [collate, map_cons, reverse_cons, dropWhile_append]
  split
  · simp [h]
  · simp

theorem decimal_eq_cons (n : Nat) : ∃ c s, decimal n = c :: s ∧ c.isDigit = true := by
  cases hd : decimal n with
  | nil => exact absurd hd Nat.toDigits_ne_nil
  | cons c s =>
    refine ⟨c, s, rfl, ?_⟩
    have hc : c ∈ Nat.toDigits 10 n := by
      have : c ∈ decimal n := hd ▸ mem_cons_self
      exact this
    exact Nat.isDigit_of_mem_toDigits (by decide) (by decide) hc

theorem toLower_of_isDigit {c : Char} (h : c.isDigit = true) : c.toLower = c := by
  unfold Char.isDigit at h
  simp only [Bool.and_eq_true, decide_eq_true_eq] at h
  refine dif_neg fun hAZ => ?_
  have hlt : ¬ 'A'.val ≤ '9'.val := by decide
  exact hlt (UInt32.le_trans hAZ.1 h.2)

theorem head?_alertProbeTargetId (p : ProbeResult) :
    ∃ c, (collate (alertProbeTargetId p)).head? = some c ∧ c.isDigit = true := by
  obtain ⟨c, s, hs, hc⟩ := decimal_eq_cons p.proto.toNat
  refine ⟨c, ?_, hc⟩
  have hlow := toLower_of_isDigit hc
  have hblank : c.toLower ≠ ' ' := by
    rw [hlow]
    intro h
    rw [h] at hc
    exact absurd hc (by decide)
  rw [alertProbeTargetId, hs, cons_append, cons_append, head?_collate hblank, hlow]

theorem head?_dbProbeTargetId (p : ProbeResult) :
    ∃ c, (collate (dbProbeTargetId p)).head? = some c ∧ c.isDigit = false := by
  unfold dbProbeTargetId dbProtoStr
  split
  · exact ⟨'i', head?_collate (by decide), by decide⟩
  split
  · exact ⟨'t', head?_collate (by decide), by decide⟩
  split
  · exact ⟨'u', head?_collate (by decide), by decide⟩
  · exact ⟨'t', head?_collate (by decide), by decide⟩

/-- **A probe's target is never found.** The row under the id of the stored results is not the one
the tier lookup of the alerts finds. -/
theorem probe_tier_lookup_misses (db : Db) (p : ProbeResult) (row : ProbeTargetRow)
    (hrow : row ∈ db.probeTarget.rows) (hid : row.targetId = dbProbeTargetId p) :
    db.probeTarget.find? (collate (dbProbeTargetId p)) = some row ∧
      db.probeTarget.find? (collate (alertProbeTargetId p)) ≠ some row := by
  refine ⟨Table.find?_eq_some.2 ⟨hrow, by rw [← hid]; rfl⟩, fun hfind => ?_⟩
  obtain ⟨-, hkey⟩ := Table.find?_eq_some.1 hfind
  obtain ⟨c, hc, hdigit⟩ := head?_alertProbeTargetId p
  obtain ⟨d, hd, hletter⟩ := head?_dbProbeTargetId p
  have hkey' : collate (dbProbeTargetId p) = collate (alertProbeTargetId p) := by
    rw [← hkey, ← hid]
    rfl
  rw [hkey', hc] at hd
  cases hd
  rw [hdigit] at hletter
  cases hletter

def tcpProbe : ProbeResult :=
  ⟨2, 1, 443, ⟨[0, 0, 0, 0, 0, 0, 0, 0, 0, 0, 0xff, 0xff, 10, 0, 0, 1], rfl⟩, 0, 0, 1000, 0, 0⟩

def tcpTarget : ProbeTargetRow := ⟨"tcp:10.0.0.1:443".toList, none⟩

def tcpTargetDb : Db :=
  { Db.empty with probeTarget := ⟨[tcpTarget], nodup_singleton _⟩ }

theorem probe_tier_lookup_misses_tcp :
    tcpTargetDb.probeTarget.find? (collate (dbProbeTargetId tcpProbe)) = some tcpTarget ∧
      tcpTargetDb.probeTarget.find? (collate (alertProbeTargetId tcpProbe)) ≠ some tcpTarget :=
  probe_tier_lookup_misses tcpTargetDb tcpProbe tcpTarget mem_cons_self (by decide)

/-- The catalogued target is looked up as `2:10.0.0.1:443` and so counts as inactive. -/
theorem tcp_target_inactive :
    tcpTarget ∈ tcpTargetDb.probeTarget.rows ∧ tcpTarget.targetId = dbProbeTargetId tcpProbe ∧
      alertProbeTargetId tcpProbe = "2:10.0.0.1:443".toList ∧
      serverDbProbeAlertTier tcpTargetDb (alertProbeTargetId tcpProbe) = ⟨0, 2, false⟩ :=
  ⟨mem_cons_self, by decide, by decide, by decide⟩

end SolariNet
