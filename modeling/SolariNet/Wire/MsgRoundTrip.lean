/-
# The typed messages survive the wire

The builders of `solariMsg.c`, and what their parsers make of the result.  A builder appends
the elements of a message to a writer of the given capacity and stops at the first that does
not fit.

Both sides are folds.  What the builder appends is a list of elements, the parser's `switch`
is a step on the message, and an array is inverted by an induction on its entries: each
element pushes one entry on the array (`foldl_push`).  The host health is left out of the
payload where it is zero, which is what the parser starts from.
-/
import Mathlib.Data.List.TakeWhile
import SolariNet.Wire.Msg

namespace SolariNet

open List Lib TlvType

/-! ## Fields behind one another -/

variable {a r : Bytes} {cap : Nat} {α : Type} {s : CStr} {h : HostHealth} {ts us : List Tlv}
  {loads : List UInt32} {n off : Nat} {t : Tlv} {type : UInt16} {step : α → Tlv → α}

@[simp] theorem drop_skip (h : a.length ≤ n) : (a ++ r).drop n = r.drop (n - a.length) := by
  rw [drop_append, drop_eq_nil_of_le h, nil_append]

@[simp] theorem solariGetU16_skip (h : a.length ≤ off) :
    solariGetU16 (a ++ r) off = solariGetU16 r (off - a.length) := by
  rw [solariGetU16, slice_skip h, solariGetU16]

@[simp] theorem solariGetU32_skip (h : a.length ≤ off) :
    solariGetU32 (a ++ r) off = solariGetU32 r (off - a.length) := by
  rw [solariGetU32, slice_skip h, solariGetU32]

@[simp] theorem solariGetU64_skip (h : a.length ≤ off) :
    solariGetU64 (a ++ r) off = solariGetU64 r (off - a.length) := by
  rw [solariGetU64, slice_skip h, solariGetU64]

@[simp] theorem solariGetU16_put (v : UInt16) (r : Bytes) :
    solariGetU16 (solariPutU16 v ++ r) 0 = v :=
  solariGetU16_append (a := []) v rfl

@[simp] theorem solariGetU32_put (v : UInt32) (r : Bytes) :
    solariGetU32 (solariPutU32 v ++ r) 0 = v :=
  solariGetU32_append (a := []) v rfl

@[simp] theorem solariGetU64_put (v : UInt64) (r : Bytes) :
    solariGetU64 (solariPutU64 v ++ r) 0 = v :=
  solariGetU64_append (a := []) v rfl

/-! ## Texts -/

def FieldText (cap : Nat) (s : CStr) : Prop :=
  s.length < cap ∧ ∀ c ∈ s, 0 < c.toNat ∧ c.toNat < 256

@[simp] theorem length_textBytes (s : CStr) : (textBytes s).length = s.length := length_map _

theorem FieldText.take_eq (h : FieldText cap s) (hn : cap ≤ n + 1) :
    (textBytes s).take n = textBytes s := by
  have hs := h.1
  apply take_of_length_le
  rw [length_textBytes]
  omega

theorem FieldText.copyBounded_eq (h : FieldText cap s) : copyBounded cap (textBytes s) = s := by
  have hnz : ∀ b ∈ textBytes s, decide (b ≠ 0) = true := by
    intro b hb
    obtain ⟨c, hc, rfl⟩ := mem_map.1 hb
    obtain ⟨hpos, hlt⟩ := h.2 c hc
    apply decide_eq_true
    intro hzero
    have := congrArg UInt8.toNat hzero
    rw [UInt8.toNat_ofNat_of_lt' hlt] at this
    exact absurd this (Nat.pos_iff_ne_zero.1 hpos)
  have hback : ∀ c ∈ s, byteChar (UInt8.ofNat c.toNat) = c := by
    intro c hc
    rw [byteChar, UInt8.toNat_ofNat_of_lt' (h.2 c hc).2, Char.ofNat_toNat]
  rw [copyBounded, h.take_eq (by omega), takeWhile_eq_self_iff.2 hnz, textBytes, map_map]
  exact (map_congr_left hback).trans (map_id s)

/-! ## The records of a client report -/

def recordTlv (type : UInt16) (fixed : Bytes) (name : CStr) : Tlv :=
  ⟨type, (fixed ++ textBytes name).take 512, lt_of_le_of_lt (length_take_le _ _) (by decide)⟩

theorem recordTlv_value (h : FieldText cap name)
    (hfixed : fixed.length + cap ≤ 513) :
    (recordTlv type fixed name).value = fixed ++ textBytes name := by
  have hs := h.1
  apply take_of_length_le
  rw [length_append, length_textBytes]
  omega

def DiskEntry.tlv (d : DiskEntry) : Tlv :=
  recordTlv diskFreeKb (solariPutU64 d.freeKb ++ solariPutU64 d.totalKb) d.mount

def IfaceEntry.tlv (f : IfaceEntry) : Tlv :=
  recordTlv netIface
    (solariPutU64 f.rxKbps ++ solariPutU64 f.txKbps ++ solariPutU64 f.capacityKbps) f.name

def UsbEntry.tlv (u : UsbEntry) : Tlv :=
  recordTlv usbThroughput
    (solariPutU64 u.throughputKbps ++ solariPutU64 u.capacityKbps) u.bus

def ProcEntry.tlv (p : ProcEntry) : Tlv :=
  recordTlv procWatch
    (solariPutU32 p.pid.toUInt32 ++ [p.state] ++ solariPutU32 p.nFiles ++
      solariPutU32 p.nSockets ++ solariPutU64 p.rssKb) p.name

def LogEntry.tlv (l : LogEntry) : Tlv :=
  recordTlv logfileStat
    (solariPutU64 l.sizeDelta ++ solariPutU32 l.matchCount ++ solariPutU64 l.lastOffset) l.path

section
variable (r : ClientReport)

theorem clientReportTlv_disk (h : FieldText 64 d.mount) :
    clientReportTlv r d.tlv = { r with disks := pushCapped 24 r.disks d } := by
  show diskTlv r d.tlv.value = _
  rw [DiskEntry.tlv, recordTlv_value h (by simp), diskTlv, if_neg (by simp; omega)]
  simp [h.copyBounded_eq]

theorem clientReportTlv_iface (h : FieldText 32 f.name) :
    clientReportTlv r f.tlv = { r with ifaces := pushCapped 16 r.ifaces f } := by
  show ifaceTlv r f.tlv.value = _
  rw [IfaceEntry.tlv, recordTlv_value h (by simp), ifaceTlv, if_neg (by simp; omega)]
  simp [h.copyBounded_eq]

theorem clientReportTlv_usb (h : FieldText 32 u.bus) :
    clientReportTlv r u.tlv = { r with usb := pushCapped 16 r.usb u } := by
  show usbTlv r u.tlv.value = _
  rw [UsbEntry.tlv, recordTlv_value h (by simp), usbTlv, if_neg (by simp; omega)]
  simp [h.copyBounded_eq]

theorem clientReportTlv_proc (h : FieldText 128 p.name) :
    clientReportTlv r p.tlv = { r with procs := pushCapped 32 r.procs p } := by
  have hv : p.tlv.value = solariPutU32 p.pid.toUInt32 ++ ([p.state] ++ (solariPutU32 p.nFiles ++
      (solariPutU32 p.nSockets ++ (solariPutU64 p.rssKb ++ textBytes p.name)))) := by
    rw [ProcEntry.tlv, recordTlv_value h (by simp)]
    simp only [append_assoc]
  show procTlv r p.tlv.value = _
  rw [procTlv, hv]
  simp (disch := simp) only [solariGetU32_put, solariGetU32_skip, solariGetU64_put,
    solariGetU64_skip, drop_skip, length_solariPutU32, length_solariPutU64,
    length_singleton, Nat.reduceSub, drop_zero, h.copyBounded_eq]
  rfl

theorem clientReportTlv_log (h : FieldText 256 l.path) :
    clientReportTlv r l.tlv = { r with logs := pushCapped 16 r.logs l } := by
  show logTlv r l.tlv.value = _
  rw [LogEntry.tlv, recordTlv_value h (by simp), logTlv, if_neg (by simp; omega)]
  simp [h.copyBounded_eq]

end

/-! ## Arrays -/

structure ArrayField (β α : Type) where
  get : β → List α
  set : β → List α → β
  get_set : ∀ b xs, get (set b xs) = xs := by intros; rfl
  set_set : ∀ b xs ys, set (set b xs) ys = set b ys := by intros; rfl
  set_get : ∀ b, set b (get b) = b := by intros; rfl

section
variable {β : Type} {step : β → Tlv → β} {enc : α → Tlv} (f : ArrayField β α) {xs : List α} {b : β}

theorem foldl_push (hstep : ∀ b, ∀ x ∈ xs, step b (enc x) = f.set b (pushCapped cap (f.get b) x))
    (hroom : (f.get b).length + xs.length ≤ cap) :
    (xs.map enc).foldl step b = f.set b (f.get b ++ xs) := by
  induction xs generalizing b with
  | nil => rw [map_nil, foldl_nil, append_nil, f.set_get]
  | cons x xs ih =>
    rw [length_cons] at hroom
    have hx : step b (enc x) = f.set b (f.get b ++ [x]) := by
      rw [hstep b x mem_cons_self, pushCapped, if_pos (by omega)]
    have hroom' : (f.get (f.set b (f.get b ++ [x]))).length + xs.length ≤ cap := by
      rw [f.get_set, length_append, length_singleton]
      omega
    rw [map_cons, foldl_cons, hx, ih (fun b y hy => hstep b y (mem_cons_of_mem x hy)) hroom',
      f.get_set, f.set_set, append_assoc, singleton_append]

theorem foldl_fill (hstep : ∀ b, ∀ x ∈ xs, step b (enc x) = f.set b (pushCapped cap (f.get b) x))
    (hcap : xs.length ≤ cap) (hempty : f.get b = []) :
    ((xs.take cap).map enc).foldl step b = f.set b xs := by
  have hroom : (f.get b).length + xs.length ≤ cap := by
    rw [hempty, length_nil, Nat.zero_add]
    exact hcap
  rw [take_of_length_le hcap, foldl_push f hstep hroom, hempty, nil_append]

end

@[simp] theorem readU64_u64 (type : UInt16) (v old : UInt64) :
    readU64 (Tlv.u64 type v).value old = v :=
  (if_pos (length_solariPutU64 v)).trans (solariGetU64_put_nil v)

/-! ## Client report -/

theorem length_flatMap_solariPutU32 (loads : List UInt32) :
    (loads.flatMap solariPutU32).length = 4 * loads.length := by
  induction loads with
  | nil => rfl
  | cons v loads ih =>
    rw [flatMap_cons, length_append, length_solariPutU32, length_cons]
    omega

def cpuLoadTlv (loads : List UInt32) : Tlv :=
  ⟨cpuLoadMilli, (loads.take 64).flatMap solariPutU32, by
    have htake : (loads.take 64).length ≤ 64 := length_take_le _ _
    rw [length_flatMap_solariPutU32]
    omega⟩

theorem solariGetU32_flatMap {k : Nat} (h : k < loads.length) :
    solariGetU32 (loads.flatMap solariPutU32) (4 * k) = loads[k] := by
  induction loads generalizing k with
  | nil => exact absurd h (Nat.not_lt_zero k)
  | cons v loads ih =>
    cases k with
    | zero => exact solariGetU32_put v _
    | succ k =>
      exact ih (Nat.lt_of_succ_lt_succ h)

theorem cpuLoads_cpuLoadTlv (h : loads.length ≤ 64) :
    cpuLoads (cpuLoadTlv loads).value = loads := by
  have hv : (cpuLoadTlv loads).value = loads.flatMap solariPutU32 :=
    congrArg (flatMap solariPutU32) (take_of_length_le h)
  rw [cpuLoads, hv, length_flatMap_solariPutU32, Nat.mul_div_cancel_left _ (by decide),
    Nat.min_eq_left h]
  apply ext_getElem
  · rw [length_map, length_range]
  · intro k hk hk'
    rw [getElem_map, getElem_range, solariGetU32_flatMap hk']

def healthListTlvs (type : UInt16) (s : CStr) : List Tlv :=
  if s = [] then []
  else [⟨type, (textBytes s).take 256, lt_of_le_of_lt (length_take_le _ _) (by decide)⟩]

def HostHealth.scalarTlvs (h : HostHealth) : List Tlv :=
  if h.fsReadonlyCount ≠ 0 ∨ h.blockDevMissing ≠ 0 ∨ h.smartFailCount ≠ 0 ∨
      h.failedUnitCount ≠ 0 ∨ h.dmesgCritCount ≠ 0 then
    [⟨healthScalars, [h.fsReadonlyCount, h.blockDevMissing, h.smartFailCount] ++
      (solariPutU16 h.failedUnitCount ++ solariPutU16 h.dmesgCritCount), by simp⟩]
  else []

def HostHealth.tlvs (h : HostHealth) : List Tlv :=
  h.scalarTlvs ++ healthListTlvs healthFsList h.fsReadonlyList ++
    healthListTlvs healthSmartList h.smartFailList ++
    healthListTlvs healthUnitList h.failedUnitList ++
    healthListTlvs healthDmesgSample h.dmesgCritSample

def ClientReport.tlvs (r : ClientReport) : List Tlv :=
  [cpuLoadTlv r.cpuLoadMilli, Tlv.u64 TlvType.ramUsedKb r.ramUsedKb,
    Tlv.u64 TlvType.ramTotalKb r.ramTotalKb, Tlv.u64 TlvType.swapUsedKb r.swapUsedKb,
    Tlv.u64 TlvType.swapTotalKb r.swapTotalKb] ++
  (r.disks.take 24).map DiskEntry.tlv ++ (r.ifaces.take 16).map IfaceEntry.tlv ++
  (r.usb.take 16).map UsbEntry.tlv ++ (r.procs.take 32).map ProcEntry.tlv ++
  (r.logs.take 16).map LogEntry.tlv ++ r.health.tlvs

def solariMsgBuildClientReport (r : ClientReport) (cap : Nat) : Except Status (Bytes × UInt16) := do
  let w ← solariTlvAppendStr (solariTlvWriterInit cap) hostFqdn r.hostFqdn
  let w ← solariTlvAppendStr w osName r.osName
  let w ← solariTlvAppendStr w arch r.arch
  let w ← solariTlvAppendAll w r.tlvs
  return (w.buf, w.count)

structure HostHealth.Fits (h : HostHealth) : Prop where
  fsReadonlyList : FieldText 256 h.fsReadonlyList
  smartFailList : FieldText 256 h.smartFailList
  failedUnitList : FieldText 256 h.failedUnitList
  dmesgCritSample : FieldText 256 h.dmesgCritSample

/-- The counts are within the arrays, the texts inside their fields. -/
structure ClientReport.Fits (r : ClientReport) : Prop where
  hostFqdn : FieldText 256 r.hostFqdn
  osName : FieldText 64 r.osName
  arch : FieldText 16 r.arch
  coreCount : r.cpuLoadMilli.length ≤ 64
  diskCount : r.disks.length ≤ 24
  disks : ∀ d ∈ r.disks, FieldText 64 d.mount
  ifaceCount : r.ifaces.length ≤ 16
  ifaces : ∀ f ∈ r.ifaces, FieldText 32 f.name
  usbCount : r.usb.length ≤ 16
  usb : ∀ u ∈ r.usb, FieldText 32 u.bus
  procCount : r.procs.length ≤ 32
  procs : ∀ p ∈ r.procs, FieldText 128 p.name
  logCount : r.logs.length ≤ 16
  logs : ∀ l ∈ r.logs, FieldText 256 l.path
  health : r.health.Fits

theorem foldl_healthListTlvs (set : HostHealth → CStr → HostHealth)
    (hstep : ∀ h v hv, healthTlv h ⟨type, v, hv⟩ = set h (copyBounded 256 v)) (hzero : set h [] = h)
    (hs : FieldText 256 s) :
    (healthListTlvs type s).foldl healthTlv h = set h s := by
  unfold healthListTlvs
  split
  · next hnil => rw [foldl_nil, hnil, hzero]
  · rw [foldl_cons, foldl_nil, hstep, hs.take_eq (by decide), hs.copyBounded_eq]

theorem foldl_scalarTlvs (h : HostHealth) : h.scalarTlvs.foldl healthTlv {} =
      { fsReadonlyCount := h.fsReadonlyCount, blockDevMissing := h.blockDevMissing,
        smartFailCount := h.smartFailCount, failedUnitCount := h.failedUnitCount,
        dmesgCritCount := h.dmesgCritCount } := by
  unfold HostHealth.scalarTlvs
  split
  · simp only [foldl_cons, healthTlv, healthScalarsTlv]
    simp (disch := simp) only [solariGetU16_skip, solariGetU16_put, solariGetU16_put_nil,
      length_cons, length_nil, length_solariPutU16, Nat.reduceAdd, Nat.reduceSub]
    rfl
  · next hzero =>
    simp only [not_or, not_not] at hzero
    obtain ⟨h₁, h₂, h₃, h₄, h₅⟩ := hzero
    rw [h₁, h₂, h₃, h₄, h₅]
    rfl

theorem HostHealth.foldl_tlvs (hf : h.Fits) : h.tlvs.foldl healthTlv {} = h := by
  rw [HostHealth.tlvs, foldl_append, foldl_append, foldl_append, foldl_append, foldl_scalarTlvs,
    foldl_healthListTlvs (fun h s => { h with fsReadonlyList := s }) (fun _ _ _ => rfl) rfl
      hf.fsReadonlyList,
    foldl_healthListTlvs (fun h s => { h with smartFailList := s }) (fun _ _ _ => rfl) rfl
      hf.smartFailList,
    foldl_healthListTlvs (fun h s => { h with failedUnitList := s }) (fun _ _ _ => rfl) rfl
      hf.failedUnitList,
    foldl_healthListTlvs (fun h s => { h with dmesgCritSample := s }) (fun _ _ _ => rfl) rfl
      hf.dmesgCritSample]

def healthTypes : List UInt16 :=
  [healthScalars, healthFsList, healthSmartList, healthUnitList, healthDmesgSample]

theorem clientReportTlv_health (h : t.type ∈ healthTypes) (r : ClientReport) :
    clientReportTlv r t = { r with health := healthTlv r.health t } := by
  obtain ⟨type, v, hv⟩ := t
  simp only [healthTypes, mem_cons, not_mem_nil, or_false] at h
  rcases h with rfl | rfl | rfl | rfl | rfl <;> rfl

theorem foldl_clientReportTlv_health (h : ∀ t ∈ ts, t.type ∈ healthTypes) (r : ClientReport) :
    ts.foldl clientReportTlv r = { r with health := ts.foldl healthTlv r.health } := by
  induction ts generalizing r with
  | nil => rfl
  | cons t ts ih =>
    rw [foldl_cons, clientReportTlv_health (h t mem_cons_self),
      ih (fun u hu => h u (mem_cons_of_mem t hu)), foldl_cons]

theorem HostHealth.type_of_mem_tlvs (ht : t ∈ h.tlvs) : t.type ∈ healthTypes := by
  have hlist : ∀ type s, t ∈ healthListTlvs type s → t.type = type := by
    intro type s hmem
    unfold healthListTlvs at hmem
    split at hmem
    · cases hmem
    · rw [mem_singleton.1 hmem]
  have hscalar : t ∈ h.scalarTlvs → t.type = healthScalars := by
    intro hmem
    unfold HostHealth.scalarTlvs at hmem
    split at hmem
    · rw [mem_singleton.1 hmem]
    · cases hmem
  simp only [HostHealth.tlvs, mem_append] at ht
  rcases ht with (((ht | ht) | ht) | ht) | ht
  · rw [hscalar ht]
    decide
  all_goals
    rw [hlist _ _ ht]
    decide

theorem foldl_clientReportTlv_sizes {r : ClientReport} (h : r.cpuLoadMilli.length ≤ 64)
    (q : ClientReport) :
    [cpuLoadTlv r.cpuLoadMilli, Tlv.u64 ramUsedKb r.ramUsedKb,
      Tlv.u64 ramTotalKb r.ramTotalKb, Tlv.u64 swapUsedKb r.swapUsedKb,
      Tlv.u64 swapTotalKb r.swapTotalKb].foldl clientReportTlv q =
    { q with
      cpuLoadMilli := r.cpuLoadMilli, ramUsedKb := r.ramUsedKb, ramTotalKb := r.ramTotalKb,
      swapUsedKb := r.swapUsedKb, swapTotalKb := r.swapTotalKb } := by
  show { q with
    cpuLoadMilli := cpuLoads (cpuLoadTlv r.cpuLoadMilli).value
    ramUsedKb := readU64 (Tlv.u64 ramUsedKb r.ramUsedKb).value q.ramUsedKb
    ramTotalKb := readU64 (Tlv.u64 ramTotalKb r.ramTotalKb).value q.ramTotalKb
    swapUsedKb := readU64 (Tlv.u64 swapUsedKb r.swapUsedKb).value q.swapUsedKb
    swapTotalKb := readU64 (Tlv.u64 swapTotalKb r.swapTotalKb).value q.swapTotalKb } = _
  simp only [cpuLoads_cpuLoadTlv h, readU64_u64]

/-- **The elements behind the strings**, read into a report that has only those. -/
theorem ClientReport.foldl_tlvs {r : ClientReport} (hf : r.Fits) :
    r.tlvs.foldl clientReportTlv { hostFqdn := r.hostFqdn, osName := r.osName, arch := r.arch } =
      r := by
  simp only [ClientReport.tlvs, foldl_append]
  rw [foldl_clientReportTlv_sizes hf.coreCount,
    foldl_fill { get := (·.disks), set := fun q xs => { q with disks := xs } }
      (fun q d hd => clientReportTlv_disk q (hf.disks d hd))
      hf.diskCount,
    foldl_fill { get := (·.ifaces), set := fun q xs => { q with ifaces := xs } }
      (fun q f h => clientReportTlv_iface q (hf.ifaces f h))
      hf.ifaceCount,
    foldl_fill { get := (·.usb), set := fun q xs => { q with usb := xs } }
      (fun q u hu => clientReportTlv_usb q (hf.usb u hu))
      hf.usbCount,
    foldl_fill { get := (·.procs), set := fun q xs => { q with procs := xs } }
      (fun q p hp => clientReportTlv_proc q (hf.procs p hp))
      hf.procCount,
    foldl_fill { get := (·.logs), set := fun q xs => { q with logs := xs } }
      (fun q l hl => clientReportTlv_log q (hf.logs l hl))
      hf.logCount, foldl_clientReportTlv_health fun t ht => HostHealth.type_of_mem_tlvs ht]
  · exact congrArg (fun h => { r with health := h }) (HostHealth.foldl_tlvs hf.health)
  all_goals rfl

/-! ## From the writer to the elements -/

def textTlv (type : UInt16) (s : CStr) (h : (textBytes s).length < 65536) : Tlv :=
  ⟨type, textBytes s, h⟩

section
variable {w w' : TlvWriter} {l : List Tlv} (hw : w.buf = encodeTlvs l)
include hw

theorem appended (h : solariTlvAppend w t = .ok w') : w'.buf = encodeTlvs (l ++ [t]) := by
  rw [(solariTlvAppend_ok h).1, hw]
  simp

theorem appendedStr {type : UInt16} (h : solariTlvAppendStr w type s = .ok w') :
    ∃ hs, w'.buf = encodeTlvs (l ++ [textTlv type s hs]) := by
  unfold solariTlvAppendStr at h
  split at h
  · next hs => exact ⟨hs, appended hw h⟩
  · cases h

end

theorem parseTlvs_encodeTlvs (step : α → Tlv → α) (zero : α) (ts : List Tlv) :
    parseTlvs step zero (encodeTlvs ts) = .ok (ts.foldl step zero) :=
  parseTlvs_ok.2 ⟨by rw [readTlvs_encodeTlvs], by rw [readTlvs_encodeTlvs]⟩

/-- Whatever `build` makes of a valid message, `parse` reads it back. -/
def RoundTrips {α : Type} (valid : α → Prop) (build : α → Nat → Except Status (Bytes × UInt16))
    (parse : Bytes → Except Status α) : Prop :=
  ∀ m, valid m → ∀ cap payload count, build m cap = .ok (payload, count) → parse payload = .ok m

theorem clientReport_roundTrips :
    RoundTrips ClientReport.Fits solariMsgBuildClientReport solariMsgParseClientReport := by
  intro r hf cap payload count h
  obtain ⟨w₁, h₁, h⟩ := bind_ok h
  obtain ⟨w₂, h₂, h⟩ := bind_ok h
  obtain ⟨w₃, h₃, h⟩ := bind_ok h
  obtain ⟨w₄, h₄, h⟩ := bind_ok h
  cases h
  obtain ⟨hs₁, e₁⟩ := appendedStr (l := []) rfl h₁
  obtain ⟨hs₂, e₂⟩ := appendedStr e₁ h₂
  obtain ⟨hs₃, e₃⟩ := appendedStr e₂ h₃
  have hts := ClientReport.foldl_tlvs hf
  rw [solariMsgParseClientReport, solariTlvAppendAll_ok h₄, e₃, ← encodeTlvs_append,
    parseTlvs_encodeTlvs]
  generalize r.tlvs = ts at hts ⊢
  show Except.ok (ts.foldl clientReportTlv
    { hostFqdn := copyBounded 256 (textBytes r.hostFqdn),
      osName := copyBounded 64 (textBytes r.osName),
      arch := copyBounded 16 (textBytes r.arch) }) = _
  rw [hf.hostFqdn.copyBounded_eq, hf.osName.copyBounded_eq, hf.arch.copyBounded_eq, hts]

/-! ## Monitor report -/

def ProbeResult.tlv (p : ProbeResult) : Tlv :=
  ⟨probeResult,
    [p.proto, p.outcome] ++ (solariPutU16 p.dstPort ++ (p.dstAddr.1 ++ (solariPutU32 p.rttMicros ++
      (solariPutU32 p.jitterMicros ++ (solariPutU16 p.lossPermille ++
        (solariPutU32 p.throughputKbps ++ solariPutU64 p.probeTimeUnixMs)))))), by
    simp [p.dstAddr.2]⟩

def LinkStat.tlv (l : LinkStat) : Tlv :=
  ⟨linkStat,
    solariPutU64 l.peerNodeId ++ (solariPutU32 l.transitMicros ++ (solariPutU32 l.throughputKbps ++
      (solariPutU32 l.capacityKbps ++ solariPutU16 l.overheadPermille))), by simp⟩

def MonitorReport.tlvs (r : MonitorReport) : List Tlv :=
  (r.probes.take solariMaxProbes).map ProbeResult.tlv ++ (r.links.take 16).map LinkStat.tlv

def solariMsgBuildMonitorReport (r : MonitorReport) (cap : Nat) :
    Except Status (Bytes × UInt16) := do
  let w ← solariTlvAppendStr (solariTlvWriterInit cap) hostFqdn r.hostFqdn
  let w ← solariTlvAppendAll w r.tlvs
  return (w.buf, w.count)

/-- The counts are within the arrays, the host name inside its field. -/
structure MonitorReport.Fits (r : MonitorReport) : Prop where
  hostFqdn : FieldText 256 r.hostFqdn
  capped : r.Capped

theorem ProbeResult.length_tlv (p : ProbeResult) : p.tlv.value.length = 42 := by
  simp [ProbeResult.tlv, p.dstAddr.2]

theorem readProbe_tlv (p : ProbeResult) (h : p.tlv.value.length = 42) :
    readProbe p.tlv.value h = p := by
  obtain ⟨proto, outcome, port, ⟨addr, ha⟩, rtt, jitter, loss, rate, time⟩ := p
  have haddr : ∀ w, slice (addr ++ w) 0 16 = addr := fun w => by
    rw [slice, drop_zero, take_left' ha]
  simp only [readProbe, ProbeResult.tlv, ProbeResult.mk.injEq]
  refine ⟨rfl, rfl, ?_, ?_, ?_, ?_, ?_, ?_, ?_⟩
  all_goals
    simp (disch := simp [ha]) only [solariGetU16_put, solariGetU16_skip, solariGetU32_put,
      solariGetU32_skip, solariGetU64_skip, solariGetU64_put_nil, slice_skip, haddr,
      length_cons, length_nil, length_solariPutU16, length_solariPutU32, ha,
      Nat.reduceAdd, Nat.reduceSub]

theorem monitorReportTlv_probe (r : MonitorReport) (p : ProbeResult) :
    monitorReportTlv r p.tlv = { r with probes := pushCapped solariMaxProbes r.probes p } := by
  show probeTlv r p.tlv.value = _
  rw [probeTlv, dif_pos p.length_tlv, readProbe_tlv]

theorem monitorReportTlv_link (r : MonitorReport) (l : LinkStat) :
    monitorReportTlv r l.tlv = { r with links := pushCapped 16 r.links l } := by
  show linkTlv r l.tlv.value = _
  have hlen : l.tlv.value.length = 22 := by simp [LinkStat.tlv]
  rw [linkTlv, if_pos hlen]
  simp (disch := simp) only [LinkStat.tlv, solariGetU64_put, solariGetU32_skip, solariGetU32_put,
    solariGetU16_skip, solariGetU16_put_nil, length_solariPutU64, length_solariPutU32,
    Nat.reduceSub]

theorem MonitorReport.foldl_tlvs {r : MonitorReport} (hf : r.Fits) :
    r.tlvs.foldl monitorReportTlv { hostFqdn := r.hostFqdn } = r := by
  rw [MonitorReport.tlvs, foldl_append,
    foldl_fill { get := (·.probes), set := fun q xs => { q with probes := xs } }
      (fun q p _ => monitorReportTlv_probe q p) hf.capped.1,
    foldl_fill { get := (·.links), set := fun q xs => { q with links := xs } }
      (fun q l _ => monitorReportTlv_link q l) hf.capped.2]
  all_goals rfl

theorem monitorReport_roundTrips :
    RoundTrips MonitorReport.Fits solariMsgBuildMonitorReport solariMsgParseMonitorReport := by
  intro r hf cap payload count h
  obtain ⟨w₁, h₁, h⟩ := bind_ok h
  obtain ⟨w₂, h₂, h⟩ := bind_ok h
  cases h
  obtain ⟨hs, e₁⟩ := appendedStr (l := []) rfl h₁
  rw [solariMsgParseMonitorReport, solariTlvAppendAll_ok h₂, e₁, ← encodeTlvs_append,
    parseTlvs_encodeTlvs]
  show Except.ok (r.tlvs.foldl monitorReportTlv
    { hostFqdn := copyBounded 256 (textBytes r.hostFqdn) }) = _
  rw [hf.hostFqdn.copyBounded_eq, MonitorReport.foldl_tlvs hf]

/-! ## Hello, control, error -/

def solariMsgBuildHello (h : Hello) (cap : Nat) : Except Status (Bytes × UInt16) := do
  let w ← solariTlvAppend (solariTlvWriterInit cap) (Tlv.u8 role h.role)
  let w ← solariTlvAppendStr w agentVersion h.agentVersion
  let w ← solariTlvAppendStr w hostFqdn h.hostFqdn
  let w ← solariTlvAppend w (Tlv.u64 configEpoch h.configEpoch)
  let w ← solariTlvAppendStr w osName h.osName
  let w ← solariTlvAppendStr w arch h.arch
  return (w.buf, w.count)

structure Hello.Fits (h : Hello) : Prop where
  agentVersion : FieldText 32 h.agentVersion
  hostFqdn : FieldText 256 h.hostFqdn
  osName : FieldText 64 h.osName
  arch : FieldText 16 h.arch

theorem hello_roundTrips : RoundTrips Hello.Fits solariMsgBuildHello solariMsgParseHello := by
  intro m hf cap payload count h
  obtain ⟨w₁, h₁, h⟩ := bind_ok h
  obtain ⟨w₂, h₂, h⟩ := bind_ok h
  obtain ⟨w₃, h₃, h⟩ := bind_ok h
  obtain ⟨w₄, h₄, h⟩ := bind_ok h
  obtain ⟨w₅, h₅, h⟩ := bind_ok h
  obtain ⟨w₆, h₆, h⟩ := bind_ok h
  cases h
  obtain ⟨hs₂, e₂⟩ := appendedStr (appended (l := []) rfl h₁) h₂
  obtain ⟨hs₃, e₃⟩ := appendedStr e₂ h₃
  obtain ⟨hs₅, e₅⟩ := appendedStr (appended e₃ h₄) h₅
  obtain ⟨hs₆, e₆⟩ := appendedStr e₅ h₆
  rw [solariMsgParseHello, e₆, parseTlvs_encodeTlvs]
  show (.ok
    { role := m.role, agentVersion := copyBounded 32 (textBytes m.agentVersion),
      hostFqdn := copyBounded 256 (textBytes m.hostFqdn),
      osName := copyBounded 64 (textBytes m.osName), arch := copyBounded 16 (textBytes m.arch),
      configEpoch := readU64 (Tlv.u64 configEpoch m.configEpoch).value 0 } :
        Except Status Hello) = _
  rw [hf.agentVersion.copyBounded_eq, hf.hostFqdn.copyBounded_eq, hf.osName.copyBounded_eq,
    hf.arch.copyBounded_eq, readU64_u64]

theorem control_roundTrips :
    RoundTrips (fun _ : Control => True) solariMsgBuildControl solariMsgParseControl :=
  fun _ _ _ _ _ h => solariMsgParseControl_build h

def ErrorMsg.Fits (e : ErrorMsg) : Prop := FieldText 256 e.detail

theorem error_roundTrips : RoundTrips ErrorMsg.Fits (fun e => solariMsgBuildError e.code e.detail)
      solariMsgParseError := by
  intro e hf cap payload count h
  obtain ⟨w₁, h₁, h⟩ := bind_ok h
  obtain ⟨w₂, h₂, h⟩ := bind_ok h
  cases h
  obtain ⟨hs, e₂⟩ := appendedStr (appended (l := []) rfl h₁) h₂
  have hcode : readU16 (Tlv.u16 errorCode e.code).value 0 = e.code :=
    (if_pos (length_solariPutU16 e.code)).trans (solariGetU16_put_nil e.code)
  rw [solariMsgParseError, e₂, parseTlvs_encodeTlvs]
  show (.ok
    { code := readU16 (Tlv.u16 errorCode e.code).value 0,
      detail := copyBounded 256 (textBytes e.detail) } : Except Status ErrorMsg) = _
  rw [hcode, FieldText.copyBounded_eq hf]

/-! ## Elements of unknown types -/

/-- `Padded known ts us`: `us` is `ts` with elements of types outside `known` put anywhere. -/
inductive Padded (known : List UInt16) : List Tlv → List Tlv → Prop where
  | nil : Padded known [] []
  | keep {ts us : List Tlv} (t : Tlv) : Padded known ts us → Padded known (t :: ts) (t :: us)
  | insert {ts us : List Tlv} {t : Tlv} : t.type ∉ known → Padded known ts us →
      Padded known ts (t :: us)

/-- Elements of unknown types between those of a well-formed payload change nothing. -/
def SkipsUnknown {α : Type} (known : List UInt16) (parse : Bytes → Except Status α) : Prop :=
  ∀ payload us, (readTlvs payload).2 = .errTlvEnd → Padded known (readTlvs payload).1 us →
    parse (encodeTlvs us) = parse payload

variable {known : List UInt16}

theorem Padded.foldl_eq (hskip : ∀ x t, t.type ∉ known → step x t = x) (h : Padded known ts us)
    (x : α) :
    us.foldl step x = ts.foldl step x := by
  induction h generalizing x with
  | nil => rfl
  | keep t _ ih => exact ih (step x t)
  | insert ht _ ih => rw [foldl_cons, hskip x _ ht, ih]

theorem Padded.foldlM_eq {step : α → Tlv → Except Status α}
    (hskip : ∀ x t, t.type ∉ known → step x t = .ok x) (h : Padded known ts us) (x : α) :
    us.foldlM step x = ts.foldlM step x := by
  induction h generalizing x with
  | nil => rfl
  | keep t _ ih =>
    exact bind_congr ih
  | insert ht _ ih =>
    rw [foldlM_cons, hskip x _ ht]
    exact ih x

theorem skipsUnknown_parseTlvs {zero : α} (hskip : ∀ x t, t.type ∉ known → step x t = x) :
    SkipsUnknown known (parseTlvs step zero) := by
  intro payload us hend hpad
  rw [parseTlvs_encodeTlvs, hpad.foldl_eq hskip, ← parseTlvs_encodeTlvs, encodeTlvs_readTlvs hend]

def clientReportTypes : List UInt16 :=
  [hostFqdn, osName, arch, cpuLoadMilli, ramUsedKb, ramTotalKb, swapUsedKb, swapTotalKb, diskFreeKb,
    netIface, usbThroughput, procWatch, logfileStat] ++ healthTypes

def monitorReportTypes : List UInt16 :=
  [hostFqdn, probeResult, linkStat]

def helloTypes : List UInt16 :=
  [role, agentVersion, hostFqdn, configEpoch, osName, arch]

def controlTypes : List UInt16 :=
  [ctrlVerb, ctrlTargetEpoch, ctrlTargetNode, ctrlPayload]

def errorTypes : List UInt16 := [errorCode, errorDetail]

theorem clientReport_skipsUnknown : SkipsUnknown clientReportTypes solariMsgParseClientReport := by
  refine skipsUnknown_parseTlvs fun r t ht => ?_
  simp only [clientReportTypes, healthTypes, cons_append, nil_append, mem_cons, not_or] at ht
  simp only [clientReportTlv, healthTlv, ht, if_false]

theorem monitorReport_skipsUnknown :
    SkipsUnknown monitorReportTypes solariMsgParseMonitorReport := by
  refine skipsUnknown_parseTlvs fun r t ht => ?_
  simp only [monitorReportTypes, mem_cons, not_or] at ht
  simp only [monitorReportTlv, ht, if_false]

theorem hello_skipsUnknown : SkipsUnknown helloTypes solariMsgParseHello := by
  refine skipsUnknown_parseTlvs fun m t ht => ?_
  simp only [helloTypes, mem_cons, not_or] at ht
  simp only [helloTlv, ht, if_false]

theorem error_skipsUnknown : SkipsUnknown errorTypes solariMsgParseError := by
  refine skipsUnknown_parseTlvs fun e t ht => ?_
  simp only [errorTypes, mem_cons, not_or] at ht
  simp only [errorTlv, ht, if_false]

theorem control_skipsUnknown : SkipsUnknown controlTypes solariMsgParseControl := by
  intro payload us hend hpad
  have hskip : ∀ c t, t.type ∉ controlTypes → controlTlv c t = .ok c := by
    intro c t ht
    simp only [controlTypes, mem_cons, not_or] at ht
    simp only [controlTlv, ht, if_false]
  simp only [solariMsgParseControl, readTlvs_encodeTlvs, hpad.foldlM_eq hskip, hend]

/-- **Typed messages survive the wire**, and elements of types a parser does not know can stand
anywhere in a payload. -/
theorem typed_messages_survive :
    (RoundTrips ClientReport.Fits solariMsgBuildClientReport solariMsgParseClientReport ∧
      RoundTrips MonitorReport.Fits solariMsgBuildMonitorReport solariMsgParseMonitorReport ∧
      RoundTrips Hello.Fits solariMsgBuildHello solariMsgParseHello ∧
      RoundTrips (fun _ : Control => True) solariMsgBuildControl solariMsgParseControl ∧
      RoundTrips ErrorMsg.Fits (fun e => solariMsgBuildError e.code e.detail)
        solariMsgParseError) ∧
    (SkipsUnknown clientReportTypes solariMsgParseClientReport ∧
      SkipsUnknown monitorReportTypes solariMsgParseMonitorReport ∧
      SkipsUnknown helloTypes solariMsgParseHello ∧
      SkipsUnknown controlTypes solariMsgParseControl ∧
      SkipsUnknown errorTypes solariMsgParseError) :=
  ⟨⟨clientReport_roundTrips, monitorReport_roundTrips, hello_roundTrips, control_roundTrips,
      error_roundTrips⟩,
    clientReport_skipsUnknown, monitorReport_skipsUnknown, hello_skipsUnknown,
    control_skipsUnknown, error_skipsUnknown⟩

def twoProbes : MonitorReport where
  hostFqdn := ['m']
  probes := [⟨1, 0, 80, ⟨replicate 16 1, rfl⟩, 900, 40, 0, 0, 1⟩,
    ⟨1, 2, 443, ⟨replicate 16 1, rfl⟩, 0, 0, 1000, 0, 2⟩]

theorem typed_messages_survive_probes :
    ∃ payload, solariMsgBuildMonitorReport twoProbes 256 = .ok (payload, 3) ∧
      payload.length = 97 ∧ solariMsgParseMonitorReport payload = .ok twoProbes :=
  ⟨_, rfl, rfl, typed_messages_survive.1.2.1 twoProbes
    ⟨⟨by decide, by simp [twoProbes]⟩, by decide, by decide⟩ 256 _ 3 rfl⟩

end SolariNet
