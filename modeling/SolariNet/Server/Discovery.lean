/-
# What nodes see around them

DISCOVERY_ADVERT (`serverDiscovery.c`, with the adoption path of `serverProvision.c`) and
TOPOLOGY_REPORT (`serverTopology.c`).

A handler persists while it reads: what stood before a truncated element stays persisted.
-/
import SolariNet.Server.Ops

namespace SolariNet

open Lib Lib.Prog

structure ServerCfg where
  autoDiscover : Bool
  autoEnroll : Bool
  allowLegacyReports : Bool

/-- Field `n` of a record with `|` between its fields, into a buffer of `cap` bytes
(`discSplitField`, `topoSplitField`). -/
def splitField (rec : Bytes) (n cap : Nat) : CStr := copyBounded cap ((rec.splitOn 0x7C).getD n [])

def digitsValue (cs : CStr) : Nat := cs.foldl (fun v c => v * 10 + (c.toNat - '0'.toNat)) 0

/-! ## Adoption -/

def provFirstPort : CStr → Nat
  | [] => 0
  | c :: cs =>
    let port := digitsValue (cs.takeWhile Char.isDigit)
    if c = ':' ∧ 0 < port ∧ port ≤ 65535 then port else provFirstPort cs

def provProbeSpec (e : DiscEntity) (spec : CStr) : CStr :=
  let port := provFirstPort e.services
  let label := if e.host ≠ [] then e.host else e.ip
  if spec ≠ [] then spec
  else if port ≠ 0 then
    "tcp:".toList ++ e.ip ++ ':' :: decimal port ++ " : ".toList ++ label
  else "icmp:".toList ++ e.ip ++ " : ".toList ++ label

def provTargetId (e : DiscEntity) : CStr :=
  let port := provFirstPort e.services
  if port ≠ 0 then "tcp:".toList ++ e.ip ++ ':' :: decimal port else "icmp:".toList ++ e.ip

def serverProvisionAdoptTarget (discId : Nat) (probeSpec : CStr) : SrvM Status :=
  if discId = 0 then .ret .errInvalidArg
  else do
    match ← srv (.getDiscovered discId) with
    | .error st => .ret st
    | .ok e =>
      let spec := provProbeSpec e probeSpec
      if spec = [] ∨ e.ip = [] then .ret .errInvalidArg
      else if ← srv (.addressTombstoned e.ip) then
        let _ ← srv (.setDiscoveredStatus discId .ignored)
        .ret .ok
      else
        let _ ← srv (.upsertProbeTarget (provTargetId e))
        let _ ← srv (.setDiscoveredStatus discId .adopting)
        let rc ← srv (.dispatchTarget spec)
        if rc = .errConnRetry then .ret .ok
        else if rc ≠ .ok then
          let _ ← srv (.setDiscoveredStatus discId .new)
          .ret rc
        else
          let _ ← srv (.setDiscoveredStatus discId .adopted)
          .ret .ok

def adoptRoute (discId : Nat) (e : DiscEntity) (roleOrSpec : CStr) : SrvM Status :=
  if e.kind = .service ∨ e.kind = .network then serverProvisionAdoptTarget discId roleOrSpec
  else do
    let _nowMs ← srv .now
    srv (.enrollCreate e.host e.ip .client)

def serverDiscoveryAdopt (discId : Nat) (roleOrSpec : CStr) : SrvM Status :=
  if discId = 0 then .ret .errInvalidArg
  else do
    match ← srv (.getDiscovered discId) with
    | .error st => .ret st
    | .ok e =>
      let _ ← srv (.setDiscoveredStatus discId .adopting)
      let rc ← adoptRoute discId e roleOrSpec
      if rc ≠ .ok then
        let _ ← srv (.setDiscoveredStatus discId .new)
        .ret rc
      else .ret .ok

/-! ## Adverts -/

def discPersistEntity (cfg : ServerCfg) (e : DiscEntity) : SrvM Status :=
  if e.ip = [] then .ret .errInvalidArg
  else do
    match ← srv (.discoveredIsKnown e.ip e.kind) with
    | .error st => .ret st
    | .ok true => .ret .errConnRetry
    | .ok false =>
      match ← srv (.upsertDiscovered e) with
      | .error st => .ret st
      | .ok discId =>
        if cfg.autoEnroll ∧ e.kind = .host then
          -- a failed adoption is only logged
          let _ ← serverDiscoveryAdopt discId "host".toList
          .ret .ok
        else .ret .ok

namespace TlvType

def discEntity : UInt16 := 0x1201
def discService : UInt16 := 0x1202
def discSource : UInt16 := 0x1203

end TlvType

def discViaFromSource (source : UInt8) : DiscVia :=
  if source = 1 then .mdns
  else if source = 2 then .arp
  else if source = 4 then .portscan
  else if source = 5 then .lldp
  else .scpAdvert

def discKindFromSource (source : UInt8) : DiscKind := if source = 4 then .service else .host

def discServiceAppend (body proto port : CStr) : CStr :=
  let comma := if body ≠ [] then [','] else []
  let token := comma ++ '"' :: proto ++ ':' :: port ++ ['"']
  if 480 < body.length + token.length + 1 then body else body ++ token

def discServicesFinalize (body : CStr) : CStr := if body = [] then [] else '[' :: body ++ [']']

structure Advert where
  via : DiscVia := .scpAdvert
  kind : DiscKind := .host
  entities : Nat := 0
  cur : Option DiscEntity := none
  svcBody : CStr := []

def Advert.flush (a : Advert) (cfg : ServerCfg) : SrvM Status :=
  match a.cur with
  | none => .ret .ok
  | some e => do
      let rc ← discPersistEntity cfg { e with services := discServicesFinalize a.svcBody }
      .ret (if rc = .errConnRetry then .ok else rc)

def discMaxEntitiesPerAdvert : Nat := 256

def Advert.begin (a : Advert) (v : Bytes) : Advert :=
  if discMaxEntitiesPerAdvert ≤ a.entities then { a with cur := none }
  else
    let ip := splitField v 0 64
    let e : DiscEntity := { ip := ip, mac := splitField v 1 18, kind := a.kind, via := a.via }
    { a with
      entities := a.entities + 1
      cur := if ip = [] then none else some e
      svcBody := [] }

def Advert.service (a : Advert) (v : Bytes) : Advert :=
  match a.cur with
  | none => a
  | some e =>
    let proto := splitField v 0 32
    let port := splitField v 1 16
    if proto ≠ [] ∨ port ≠ [] then
      { a with
        cur := some { e with kind := .service }
        svcBody := discServiceAppend a.svcBody proto port }
    else a

def discAdvertLoop (cfg : ServerCfg) (stop : Status) : Advert → List Tlv → SrvM Status
  | a, [] => if stop = .errTlvEnd then a.flush cfg else .ret stop
  | a, t :: ts =>
    if t.type = TlvType.discSource then
      if t.value.length = 1 then
        let source := t.value.getD 0 0
        discAdvertLoop cfg stop
          { a with via := discViaFromSource source, kind := discKindFromSource source } ts
      else discAdvertLoop cfg stop a ts
    else if t.type = TlvType.discEntity then do
      let rc ← a.flush cfg
      if rc ≠ .ok then .ret rc else discAdvertLoop cfg stop (a.begin t.value) ts
    else if t.type = TlvType.discService then discAdvertLoop cfg stop (a.service t.value) ts
    else discAdvertLoop cfg stop a ts

def serverDiscoveryOnAdvert (cfg : ServerCfg) (payload : Bytes) : SrvM Status :=
  if !cfg.autoDiscover then .ret .ok
  else do
    let _nowMs ← srv .now
    let r := readTlvs payload
    discAdvertLoop cfg r.2 {} r.1

/-! ## Topology -/

namespace TlvType

def topoUplink : UInt16 := 0x1301
def topoLldpNeigh : UInt16 := 0x1302
def topoSegment : UInt16 := 0x1303

end TlvType

def topoParseInt (s : CStr) : Nat :=
  ((s.dropWhile (· = ' ')).takeWhile Char.isDigit).foldl
    (fun v c => min (v * 10 + (c.toNat - '0'.toNat)) 1000000000) 0

def topoDeriveLoop (cap : Nat) : Bool → CStr → CStr → CStr
  | _, out, [] => out
  | lastDash, out, c :: cs =>
    if cap - 1 ≤ out.length then out
    else if c.isAlphanum then topoDeriveLoop cap false (out ++ [c.toLower]) cs
    else if !lastDash ∧ out ≠ [] then topoDeriveLoop cap true (out ++ ['-']) cs
    else topoDeriveLoop cap lastDash out cs

def topoDeriveGearId (pre seed : CStr) (cap : Nat) : CStr :=
  ((topoDeriveLoop cap false (pre.take (cap - 1)) seed).reverse.dropWhile (· = '-')).reverse

def topoDeriveSegId (cidr : CStr) : CStr :=
  if cidr = [] then [] else topoDeriveGearId "seg-".toList cidr 32

def topoPersist (g : NetGear) (e : LldpEdge) : SrvM Status := do
  let rc ← srv (.upsertNetGear g)
  if rc ≠ .ok then .ret rc else srv (.writeLldpEdge e)

structure TopoReport where
  curSeg : CStr := []
  neighbours : Nat := 0
  segments : Nat := 0

def topoUplinkTlv (nodeId : UInt64) (s : TopoReport) (v : Bytes) : SrvM Status :=
  let gwIp := splitField v 1 64
  let gearId := topoDeriveGearId "gw-".toList gwIp 48
  if gwIp = [] ∨ gearId = [] then .ret .ok
  else
    topoPersist ⟨gearId, gwIp, .gateway, gwIp, s.curSeg, false⟩
      ⟨nodeId, gearId, splitField v 0 48, [], false, topoParseInt (splitField v 2 16), false⟩

def topoNeighTlv (nodeId : UInt64) (s : TopoReport) (v : Bytes) : SrvM Status :=
  let chassis := splitField v 0 64
  let gearId := topoDeriveGearId "sw-".toList chassis 48
  if gearId = [] then .ret .ok
  else
    topoPersist ⟨gearId, chassis, .switch, [], s.curSeg, false⟩
      ⟨nodeId, gearId, splitField v 2 48, splitField v 1 48, false, 0, true⟩

def topoMaxNeighPerReport : Nat := 256

def topoMaxSegPerReport : Nat := 64

def topoReportLoop (nodeId : UInt64) (stop : Status) : TopoReport → List Tlv → SrvM Status
  | _, [] => .ret (if stop = .errTlvEnd then .ok else stop)
  | s, t :: ts =>
    if t.type = TlvType.topoUplink then do
      let rc ← topoUplinkTlv nodeId s t.value
      if rc ≠ .ok then .ret rc else topoReportLoop nodeId stop s ts
    else if t.type = TlvType.topoLldpNeigh then
      if topoMaxNeighPerReport ≤ s.neighbours ∨ splitField t.value 0 64 = [] then
        topoReportLoop nodeId stop s ts
      else do
        let rc ← topoNeighTlv nodeId s t.value
        if rc ≠ .ok then .ret rc
        else topoReportLoop nodeId stop { s with neighbours := s.neighbours + 1 } ts
    else if t.type = TlvType.topoSegment then
      let cidr := splitField t.value 1 64
      if topoMaxSegPerReport ≤ s.segments ∨ cidr = [] then topoReportLoop nodeId stop s ts
      else
        topoReportLoop nodeId stop
          { s with curSeg := topoDeriveSegId cidr, segments := s.segments + 1 } ts
    else topoReportLoop nodeId stop s ts

def serverTopologyOnReport (nodeId : UInt64) (payload : Bytes) : SrvM Status := do
  let _nowMs ← srv .now
  let r := readTlvs payload
  topoReportLoop nodeId r.2 {} r.1

end SolariNet
