/-
# The typed messages

The parsers of `solariMsg.c`: a payload becomes a record, element by element.  An unknown
element is skipped, an element of the wrong size or beyond the capacity of its array is
dropped, and only a truncated payload is refused.

Each parser is the loop over the elements (`readTlvs`) with its `switch` as the step, such as
`clientReportTlv`.  That of the directives (`controlTlv`) refuses a field of the wrong size.
-/
import SolariNet.Wire.Tlv

namespace SolariNet

/-! ## Strings and integers of an element -/

def byteChar (b : UInt8) : Char := Char.ofNat b.toNat

def copyBounded (cap : Nat) (v : Bytes) : CStr :=
  ((v.take (cap - 1)).takeWhile (· ≠ 0)).map byteChar

def textBytes (s : CStr) : Bytes := s.map fun c => UInt8.ofNat c.toNat

def solariTlvAppendStr (w : TlvWriter) (type : UInt16) (s : CStr) : Except Status TlvWriter :=
  if h : (textBytes s).length < 65536 then solariTlvAppend w ⟨type, textBytes s, h⟩
  else .error .errBufferFull

def readU8 (v : Bytes) (old : UInt8) : UInt8 := if v.length = 1 then v.getD 0 0 else old

def readU16 (v : Bytes) (old : UInt16) : UInt16 := if v.length = 2 then solariGetU16 v 0 else old

def readU64 (v : Bytes) (old : UInt64) : UInt64 := if v.length = 8 then solariGetU64 v 0 else old

def pushCapped {α : Type} (cap : Nat) (xs : List α) (x : α) : List α :=
  if xs.length < cap then xs ++ [x] else xs

/-- The parsing loop: the steps over the elements seen, unless the payload is truncated. -/
def parseTlvs {α : Type} (step : α → Tlv → α) (zero : α) (payload : Bytes) : Except Status α :=
  let r := readTlvs payload
  if r.2 = .errTlvEnd then .ok (r.1.foldl step zero) else .error r.2

theorem parseTlvs_ok {α : Type} {step : α → Tlv → α} {zero x : α} :
    parseTlvs step zero payload = .ok x ↔
      (readTlvs payload).2 = .errTlvEnd ∧ (readTlvs payload).1.foldl step zero = x := by
  unfold parseTlvs
  simp only
  split
  · next h => simp [h]
  · next h => simp [h]

namespace TlvType

def osName : UInt16 := 0x1001
def arch : UInt16 := 0x1002
def cpuLoadMilli : UInt16 := 0x1003
def ramUsedKb : UInt16 := 0x1004
def ramTotalKb : UInt16 := 0x1005
def swapUsedKb : UInt16 := 0x1006
def swapTotalKb : UInt16 := 0x1007
def diskFreeKb : UInt16 := 0x1008
def netIface : UInt16 := 0x1009
def usbThroughput : UInt16 := 0x100A
def procWatch : UInt16 := 0x100B
def logfileStat : UInt16 := 0x100C
def healthScalars : UInt16 := 0x1010
def healthFsList : UInt16 := 0x1011
def healthSmartList : UInt16 := 0x1012
def healthUnitList : UInt16 := 0x1013
def healthDmesgSample : UInt16 := 0x1014
def probeResult : UInt16 := 0x1101
def linkStat : UInt16 := 0x1102
def ctrlVerb : UInt16 := 0x3001
def ctrlPayload : UInt16 := 0x3002
def ctrlTargetEpoch : UInt16 := 0x3003
def ctrlTargetNode : UInt16 := 0x3004
def errorCode : UInt16 := 0xFF01
def errorDetail : UInt16 := 0xFF02

end TlvType

/-! ## Client report -/

structure DiskEntry where
  mount : CStr
  freeKb : UInt64
  totalKb : UInt64

structure IfaceEntry where
  name : CStr
  rxKbps : UInt64
  txKbps : UInt64
  capacityKbps : UInt64

structure UsbEntry where
  bus : CStr
  throughputKbps : UInt64
  capacityKbps : UInt64

structure ProcEntry where
  name : CStr
  pid : Int32
  state : UInt8
  nFiles : UInt32
  nSockets : UInt32
  rssKb : UInt64

structure LogEntry where
  path : CStr
  sizeDelta : UInt64
  matchCount : UInt32
  lastOffset : UInt64

structure HostHealth where
  fsReadonlyCount : UInt8 := 0
  blockDevMissing : UInt8 := 0
  smartFailCount : UInt8 := 0
  failedUnitCount : UInt16 := 0
  dmesgCritCount : UInt16 := 0
  fsReadonlyList : CStr := []
  smartFailList : CStr := []
  failedUnitList : CStr := []
  dmesgCritSample : CStr := []

structure ClientReport where
  hostFqdn : CStr := []
  osName : CStr := []
  arch : CStr := []
  cpuLoadMilli : List UInt32 := []
  ramUsedKb : UInt64 := 0
  ramTotalKb : UInt64 := 0
  swapUsedKb : UInt64 := 0
  swapTotalKb : UInt64 := 0
  disks : List DiskEntry := []
  ifaces : List IfaceEntry := []
  usb : List UsbEntry := []
  procs : List ProcEntry := []
  logs : List LogEntry := []
  health : HostHealth := {}

def cpuLoads (v : Bytes) : List UInt32 :=
  (List.range (min (v.length / 4) 64)).map fun k => solariGetU32 v (4 * k)

def diskTlv (r : ClientReport) (v : Bytes) : ClientReport :=
  if v.length < 16 then r
  else
    let d : DiskEntry := ⟨copyBounded 64 (v.drop 16), solariGetU64 v 0, solariGetU64 v 8⟩
    { r with disks := pushCapped 24 r.disks d }

def ifaceTlv (r : ClientReport) (v : Bytes) : ClientReport :=
  if v.length < 24 then r
  else
    let f : IfaceEntry :=
      ⟨copyBounded 32 (v.drop 24), solariGetU64 v 0, solariGetU64 v 8, solariGetU64 v 16⟩
    { r with ifaces := pushCapped 16 r.ifaces f }

def usbTlv (r : ClientReport) (v : Bytes) : ClientReport :=
  if v.length < 16 then r
  else
    let u : UsbEntry := ⟨copyBounded 32 (v.drop 16), solariGetU64 v 0, solariGetU64 v 8⟩
    { r with usb := pushCapped 16 r.usb u }

def procTlv (r : ClientReport) (v : Bytes) : ClientReport :=
  if v.length < 21 then r
  else
    let p : ProcEntry :=
      ⟨copyBounded 128 (v.drop 21), (solariGetU32 v 0).toInt32, v.getD 4 0, solariGetU32 v 5,
        solariGetU32 v 9, solariGetU64 v 13⟩
    { r with procs := pushCapped 32 r.procs p }

def logTlv (r : ClientReport) (v : Bytes) : ClientReport :=
  if v.length < 20 then r
  else
    let l : LogEntry :=
      ⟨copyBounded 256 (v.drop 20), solariGetU64 v 0, solariGetU32 v 8, solariGetU64 v 12⟩
    { r with logs := pushCapped 16 r.logs l }

def healthScalarsTlv (h : HostHealth) (v : Bytes) : HostHealth :=
  if v.length = 7 then
    { h with
      fsReadonlyCount := v.getD 0 0, blockDevMissing := v.getD 1 0, smartFailCount := v.getD 2 0,
      failedUnitCount := solariGetU16 v 3, dmesgCritCount := solariGetU16 v 5 }
  else h

def healthTlv (h : HostHealth) (t : Tlv) : HostHealth :=
  if t.type = TlvType.healthScalars then healthScalarsTlv h t.value
  else if t.type = TlvType.healthFsList then { h with fsReadonlyList := copyBounded 256 t.value }
  else if t.type = TlvType.healthSmartList then { h with smartFailList := copyBounded 256 t.value }
  else if t.type = TlvType.healthUnitList then { h with failedUnitList := copyBounded 256 t.value }
  else if t.type = TlvType.healthDmesgSample then
    { h with dmesgCritSample := copyBounded 256 t.value }
  else h

def clientReportTlv (r : ClientReport) (t : Tlv) : ClientReport :=
  let v := t.value
  if t.type = TlvType.hostFqdn then { r with hostFqdn := copyBounded 256 v }
  else if t.type = TlvType.osName then { r with osName := copyBounded 64 v }
  else if t.type = TlvType.arch then { r with arch := copyBounded 16 v }
  else if t.type = TlvType.cpuLoadMilli then { r with cpuLoadMilli := cpuLoads v }
  else if t.type = TlvType.ramUsedKb then { r with ramUsedKb := readU64 v r.ramUsedKb }
  else if t.type = TlvType.ramTotalKb then { r with ramTotalKb := readU64 v r.ramTotalKb }
  else if t.type = TlvType.swapUsedKb then { r with swapUsedKb := readU64 v r.swapUsedKb }
  else if t.type = TlvType.swapTotalKb then { r with swapTotalKb := readU64 v r.swapTotalKb }
  else if t.type = TlvType.diskFreeKb then diskTlv r v
  else if t.type = TlvType.netIface then ifaceTlv r v
  else if t.type = TlvType.usbThroughput then usbTlv r v
  else if t.type = TlvType.procWatch then procTlv r v
  else if t.type = TlvType.logfileStat then logTlv r v
  else { r with health := healthTlv r.health t }

def solariMsgParseClientReport (payload : Bytes) : Except Status ClientReport :=
  parseTlvs clientReportTlv {} payload

/-! ## Monitor report -/

abbrev ProbeAddr : Type := { b : Bytes // b.length = 16 }

structure ProbeResult where
  proto : UInt8
  outcome : UInt8
  dstPort : UInt16
  dstAddr : ProbeAddr
  rttMicros : UInt32
  jitterMicros : UInt32
  lossPermille : UInt16
  throughputKbps : UInt32
  probeTimeUnixMs : UInt64

structure LinkStat where
  peerNodeId : UInt64
  transitMicros : UInt32
  throughputKbps : UInt32
  capacityKbps : UInt32
  overheadPermille : UInt16

structure MonitorReport where
  hostFqdn : CStr := []
  probes : List ProbeResult := []
  links : List LinkStat := []

def solariMaxProbes : Nat := 128

def readProbe (v : Bytes) (h : v.length = 42) : ProbeResult where
  proto := v.getD 0 0
  outcome := v.getD 1 0
  dstPort := solariGetU16 v 2
  dstAddr := ⟨slice v 4 16, by simp [slice, h]⟩
  rttMicros := solariGetU32 v 20
  jitterMicros := solariGetU32 v 24
  lossPermille := solariGetU16 v 28
  throughputKbps := solariGetU32 v 30
  probeTimeUnixMs := solariGetU64 v 34

def probeTlv (r : MonitorReport) (v : Bytes) : MonitorReport :=
  if h : v.length = 42 then { r with probes := pushCapped solariMaxProbes r.probes (readProbe v h) }
  else r

def linkTlv (r : MonitorReport) (v : Bytes) : MonitorReport :=
  if v.length = 22 then
    let l : LinkStat :=
      ⟨solariGetU64 v 0, solariGetU32 v 8, solariGetU32 v 12, solariGetU32 v 16, solariGetU16 v 20⟩
    { r with links := pushCapped 16 r.links l }
  else r

def monitorReportTlv (r : MonitorReport) (t : Tlv) : MonitorReport :=
  if t.type = TlvType.hostFqdn then { r with hostFqdn := copyBounded 256 t.value }
  else if t.type = TlvType.probeResult then probeTlv r t.value
  else if t.type = TlvType.linkStat then linkTlv r t.value
  else r

def solariMsgParseMonitorReport (payload : Bytes) : Except Status MonitorReport :=
  parseTlvs monitorReportTlv {} payload

def MonitorReport.Capped (r : MonitorReport) : Prop :=
  r.probes.length ≤ solariMaxProbes ∧ r.links.length ≤ 16

/-! ## Hello -/

structure Hello where
  role : UInt8 := 0
  agentVersion : CStr := []
  hostFqdn : CStr := []
  osName : CStr := []
  arch : CStr := []
  configEpoch : UInt64 := 0

def helloTlv (h : Hello) (t : Tlv) : Hello :=
  if t.type = TlvType.role then { h with role := readU8 t.value h.role }
  else if t.type = TlvType.agentVersion then { h with agentVersion := copyBounded 32 t.value }
  else if t.type = TlvType.hostFqdn then { h with hostFqdn := copyBounded 256 t.value }
  else if t.type = TlvType.configEpoch then { h with configEpoch := readU64 t.value h.configEpoch }
  else if t.type = TlvType.osName then { h with osName := copyBounded 64 t.value }
  else if t.type = TlvType.arch then { h with arch := copyBounded 16 t.value }
  else h

def solariMsgParseHello (payload : Bytes) : Except Status Hello := parseTlvs helloTlv {} payload

/-! ## Error -/

structure ErrorMsg where
  code : UInt16 := 0
  detail : CStr := []

def solariMsgBuildError (code : UInt16) (detail : CStr) (cap : Nat) :
    Except Status (Bytes × UInt16) := do
  let w ← solariTlvAppend (solariTlvWriterInit cap) (Tlv.u16 TlvType.errorCode code)
  let w ← solariTlvAppendStr w TlvType.errorDetail detail
  return (w.buf, w.count)

def errorTlv (e : ErrorMsg) (t : Tlv) : ErrorMsg :=
  if t.type = TlvType.errorCode then { e with code := readU16 t.value e.code }
  else if t.type = TlvType.errorDetail then { e with detail := copyBounded 256 t.value }
  else e

def solariMsgParseError (payload : Bytes) : Except Status ErrorMsg := parseTlvs errorTlv {} payload

/-! ## Control -/

structure Control where
  verb : UInt8 := 0
  targetEpoch : UInt64 := 0
  targetNode : UInt64 := 0
  payload : Bytes := []
  payload_lt : payload.length < 65536 := by decide

def Control.tlvs (c : Control) : List Tlv :=
  [Tlv.u8 TlvType.ctrlVerb c.verb, Tlv.u64 TlvType.ctrlTargetEpoch c.targetEpoch] ++
    (if c.targetNode ≠ 0 then [Tlv.u64 TlvType.ctrlTargetNode c.targetNode] else []) ++
    if c.payload ≠ [] then [⟨TlvType.ctrlPayload, c.payload, c.payload_lt⟩] else []

def solariMsgBuildControl (c : Control) (cap : Nat) : Except Status (Bytes × UInt16) :=
  match solariTlvAppendAll (solariTlvWriterInit cap) c.tlvs with
  | .error st => .error st
  | .ok w => .ok (w.buf, w.count)

def controlTlv (c : Control) (t : Tlv) : Except Status Control :=
  if t.type = TlvType.ctrlVerb then
    if t.value.length = 1 then .ok { c with verb := t.value.getD 0 0 } else .error .errInvalidArg
  else if t.type = TlvType.ctrlTargetEpoch then
    if t.value.length = 8 then .ok { c with targetEpoch := solariGetU64 t.value 0 }
    else .error .errInvalidArg
  else if t.type = TlvType.ctrlTargetNode then
    if t.value.length = 8 then .ok { c with targetNode := solariGetU64 t.value 0 }
    else .error .errInvalidArg
  else if t.type = TlvType.ctrlPayload then
    .ok { c with payload := t.value, payload_lt := t.len_lt }
  else .ok c

theorem noPayload_lt : ([] : Bytes).length < 65536 := by decide

def solariMsgParseControl (payload : Bytes) : Except Status Control :=
  match (readTlvs payload).1.foldlM controlTlv {} with
  | .error st => .error st
  | .ok c => if (readTlvs payload).2 = .errTlvEnd then .ok c else .error (readTlvs payload).2

theorem foldlM_append_ok {α β : Type} {f : β → α → Except Status β} {b c : β} {d : Except Status β}
    {l m : List α} (hl : l.foldlM f b = .ok c) (hm : m.foldlM f c = d) :
    (l ++ m).foldlM f b = d := by
  rw [List.foldlM_append, hl]
  exact hm

@[simp] theorem solariGetU16_put_nil (v : UInt16) : solariGetU16 (solariPutU16 v) 0 = v := by
  simpa using solariGetU16_append (a := []) (r := []) v rfl

@[simp] theorem solariGetU64_put_nil (v : UInt64) : solariGetU64 (solariPutU64 v) 0 = v := by
  simpa using solariGetU64_append (a := []) (r := []) v rfl

theorem controlTlv_epoch (c : Control) (v : UInt64) :
    controlTlv c (Tlv.u64 TlvType.ctrlTargetEpoch v) = .ok { c with targetEpoch := v } := by
  simp [controlTlv, Tlv.u64, TlvType.ctrlTargetEpoch, TlvType.ctrlVerb]

theorem controlTlv_node (c : Control) (v : UInt64) :
    controlTlv c (Tlv.u64 TlvType.ctrlTargetNode v) = .ok { c with targetNode := v } := by
  simp [controlTlv, Tlv.u64, TlvType.ctrlTargetEpoch, TlvType.ctrlVerb, TlvType.ctrlTargetNode]

theorem foldlM_controlTlv_tlvs (c : Control) : c.tlvs.foldlM controlTlv {} = .ok c := by
  obtain ⟨verb, epoch, node, payload, hp⟩ := c
  have htail : ∀ c : Control, c.payload = [] →
      (if payload ≠ [] then [(⟨TlvType.ctrlPayload, payload, hp⟩ : Tlv)] else []).foldlM
        controlTlv c =
        .ok { c with payload := payload, payload_lt := hp } := by
    intro c hc
    split
    · rfl
    next h =>
    obtain ⟨v, e, n, q, hq⟩ := c
    have hnil : payload = q := (not_not.1 h).trans hc.symm
    subst hnil
    rfl
  have hnode : (if node ≠ 0 then [Tlv.u64 TlvType.ctrlTargetNode node] else []).foldlM controlTlv
      { verb := verb, targetEpoch := epoch } =
        .ok { verb := verb, targetEpoch := epoch, targetNode := node } := by
    split
    · simp only [List.foldlM_cons, controlTlv_node]
      rfl
    · next h => rw [not_not.1 h]; rfl
  have hhead : [Tlv.u8 TlvType.ctrlVerb verb, Tlv.u64 TlvType.ctrlTargetEpoch epoch].foldlM
      controlTlv {} = .ok { verb := verb, targetEpoch := epoch } := by
    simp only [List.foldlM_cons, controlTlv_epoch]
    rfl
  exact foldlM_append_ok (foldlM_append_ok hhead hnode) (htail _ rfl)

/-- **Round trip.**  A built directive parses to what it was built from. -/
theorem solariMsgParseControl_build {cap : Nat} {count : UInt16}
    (h : solariMsgBuildControl c cap = .ok (payload, count)) :
    solariMsgParseControl payload = .ok c := by
  unfold solariMsgBuildControl at h
  split at h
  · cases h
  next w hw =>
  cases h
  have hread : readTlvs w.buf = (c.tlvs, .errTlvEnd) := by
    rw [solariTlvAppendAll_ok hw, solariTlvWriterInit, List.nil_append, readTlvs_encodeTlvs]
  simp only [solariMsgParseControl, hread, foldlM_controlTlv_tlvs, if_true]

end SolariNet
