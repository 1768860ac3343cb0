/-
# Allocating inside the caller's transaction

The database layer of `netdb/sor/allocator.py`: who owns the address, which subnet it comes from,
and the loop that reads under the subnet's lock, selects, and inserts behind a savepoint.

Every statement is an operation (`AllocOp`) that is answered or fails with the driver's exception.
An exception ends the call, but for the two handlers around the insertion: an integrity error is
unwound and tells a lost race from other errors by its code and the key its text names; any other
error is unwound as far as that goes, and raised.
-/
import Mathlib.Data.List.Infix
import SolariNet.Lib.Calls
import SolariNet.Netdb.Select

namespace SolariNet

open Lib Lib.Prog

/-- The driver's exceptions.  A fatal one has ended the transaction. -/
inductive SqlError where
  | integrity (code : Option Nat) (message : CStr)
  | other (fatal : Bool)
  deriving DecidableEq

structure NewAddress where
  address : Nat
  subnetId : Nat
  interfaceId : Option Nat
  entityId : Option Nat
  assignment : CStr
  isPrimary : Bool
  sourceId : Nat

/-- A function tag with its home network, of which the last two are missing when it is not live. -/
structure FunctionRow where
  networkId : Option Nat
  enabled : Option Bool
  allocatorEligible : Option Bool

structure LockedSubnet where
  networkId : Nat
  cidr : Cidr
  gateway : Option Addr
  enabled : Bool
  allocatorEligible : Bool

inductive CallerWrite where
  | subnet (id networkId : Nat) (cidr : Cidr) (gateway : Option Addr) (live : Bool)
  | range (subnetId id : Nat) (range : DhcpRange) (live : Bool)
  | address (address : Addr) (subnetId : Option Nat)
  | retireAddress (address : Addr)
  | other (n : Nat)

/-- What is asked of the connection; `calling` only marks the start of a call. -/
inductive AllocOp where
  | calling
  | getAutocommit
  | txIsolation
  | selectSource (slug : CStr)
  | lockInterface (id : Nat)
  | selectMemberships (entityId : Nat)
  | selectFunction (slug : CStr)
  | selectSubnets (networkId : Nat)
  | lockSubnet (id : Nat)
  | selectOtherSubnets (networkId : Nat)
  | selectUsed (subnetId : Nat) (bounds : Option (Nat × Nat))
  | lockRanges (subnetId : Nat)
  | uuid4
  | savepoint (sp : Nat)
  | releaseSavepoint (sp : Nat)
  | rollbackToSavepoint (sp : Nat)
  | insertAddress (row : NewAddress)
  | callerWrite (w : CallerWrite)
  | commit
  | rollback

abbrev AllocOp.Ans : AllocOp → Type
  | .getAutocommit => Bool
  | .txIsolation => Option CStr
  | .selectSource _ | .lockInterface _ => Option Nat
  | .selectMemberships _ => List (CStr × Bool)
  | .selectFunction _ => Option FunctionRow
  | .selectSubnets _ => List (Nat × Cidr × Option Addr)
  | .lockSubnet _ => Option LockedSubnet
  | .selectOtherSubnets _ => List (CStr × Cidr)
  | .selectUsed _ _ => List Addr
  | .lockRanges _ => List DhcpRange
  | .uuid4 => Nat
  | _ => Unit

abbrev AllocOp.Res (o : AllocOp) : Type := Except SqlError o.Ans

inductive AllocError where
  | autocommit
  | isolation (iso : CStr)
  | unknownSource (slug : CStr)
  | unknownInterface (id : Nat)
  | notOwner (entityId interfaceId owner : Nat)
  | primaryWithoutEntity
  | functionRequired
  | noTags (entityId : Nat)
  | noPrimaryTag (entityId : Nat)
  | otherPrimaryTag (entityId : Nat) (tag slug : CStr)
  | functionRequiredForSecondary
  | tagNotCarried (entityId : Nat) (slug : CStr) (tags : List CStr)
  | unknownFunction (slug : CStr)
  | noHomeNetwork (slug : CStr)
  | homeNotLive (networkId : Nat) (slug : CStr)
  | homeDisabled (networkId : Nat) (slug : CStr)
  | homeNotApproved (networkId : Nat) (slug : CStr)
  | noSubnet (slug : CStr)
  | ambiguousSubnet (slug : CStr) (cidrs : List Cidr)
  | subnetVanished (id : Nat)
  | subnetDisabled (id : Nat)
  | subnetNotApproved (id : Nat)
  | overlap (id : Nat) (cidr otherCidr : Cidr) (otherName : CStr)
  | value (e : SelectError)
  | exhausted (cidr : Cidr) (slug : CStr)
  | lostRace (slug : CStr) (maxRetries : Nat)
  | sql (e : SqlError)

abbrev AllocM : Type → Type := ExceptT AllocError (Prog AllocOp AllocOp.Res)

def sql (o : AllocOp) : AllocM o.Ans :=
  ExceptT.mk (perform o >>= fun r => .ret (r.mapError .sql))

/-! ## Whose address, from where -/

def sourceIdOf (slug : CStr) : AllocM Nat := do
  match ← sql (.selectSource slug) with
  | none => throw (.unknownSource slug)
  | some id => return id

def entityIdForInterface (interfaceId : Nat) : AllocM Nat := do
  match ← sql (.lockInterface interfaceId) with
  | none => throw (.unknownInterface interfaceId)
  | some entity => return entity

def reconcileEntity (entityId interfaceId : Option Nat) (isPrimary : Bool) :
    AllocM (Option Nat) := do
  match interfaceId with
  | none => if isPrimary && entityId.isNone then throw .primaryWithoutEntity else return entityId
  | some iface =>
    let owner ← entityIdForInterface iface
    match entityId with
    | none => return some owner
    | some entity =>
      if entity ≠ owner then throw (.notOwner entity iface owner) else return some owner

def resolveFunctionForEntity (entityId : Option Nat) (functionSlug : CStr) (isPrimary : Bool) :
    AllocM CStr := do
  match entityId with
  | none => if functionSlug.isEmpty then throw .functionRequired else return functionSlug
  | some entity =>
    let memberships ← sql (.selectMemberships entity)
    if memberships.isEmpty then throw (.noTags entity)
    else if isPrimary then
      match memberships.find? (·.2) with
      | none => throw (.noPrimaryTag entity)
      | some (tag, _) =>
        if !functionSlug.isEmpty && functionSlug != tag
        then throw (.otherPrimaryTag entity tag functionSlug) else return tag
    else if functionSlug.isEmpty then throw .functionRequiredForSecondary
    else if functionSlug ∈ memberships.map (·.1) then return functionSlug
    else throw (.tagNotCarried entity functionSlug (memberships.map (·.1)))

def homeSubnetForFunction (functionSlug : CStr) : AllocM Nat := do
  match ← sql (.selectFunction functionSlug) with
  | none => throw (.unknownFunction functionSlug)
  | some f =>
    match f.networkId, f.enabled with
    | none, _ => throw (.noHomeNetwork functionSlug)
    | some networkId, none => throw (.homeNotLive networkId functionSlug)
    | some networkId, some false => throw (.homeDisabled networkId functionSlug)
    | some networkId, some true =>
      if f.allocatorEligible ≠ some true then throw (.homeNotApproved networkId functionSlug)
      else do
        let rows ← sql (.selectSubnets networkId)
        let v4subnets := rows.filter fun r => r.2.1 matches .v4 _
        match v4subnets with
        | [] => throw (.noSubnet functionSlug)
        | [r] => return r.1
        | _ => throw (.ambiguousSubnet functionSlug (v4subnets.map (·.2.1)))

/-! ## Reading under the lock -/

/-- The overlap check of `_usedAndRanges`: the first other network that claims a part of `net`. -/
def overlapping (net : Net4) (others : List (CStr × Cidr)) : Option (CStr × Cidr) :=
  others.find? fun o =>
    match o.2 with
    | .v4 other => net.overlaps other
    | _ => false

structure SubnetState where
  cidr : Cidr
  gateway : Option Addr
  used : List Addr
  ranges : List DhcpRange

def pureLayer {α : Type} (r : Except SelectError α) : AllocM α :=
  ExceptT.mk (.ret (r.mapError .value))

def checkSubnet (subnetId : Nat) (s : LockedSubnet) : AllocM (Option Net4) := do
  if !s.enabled then throw (.subnetDisabled subnetId)
  else if !s.allocatorEligible then throw (.subnetNotApproved subnetId)
  else
    match ← pureLayer s.cidr.parse with
    | none => return none
    | some net =>
      let others ← sql (.selectOtherSubnets s.networkId)
      match overlapping net others with
      | some (name, cidr) => throw (.overlap subnetId s.cidr cidr name)
      | none => return some net

def usedAndRanges (subnetId : Nat) : AllocM SubnetState := do
  match ← sql (.lockSubnet subnetId) with
  | none => throw (.subnetVanished subnetId)
  | some s =>
    let net ← checkSubnet subnetId s
    let used ← sql (.selectUsed subnetId
      (net.map fun n => (n.networkAddress, n.broadcastAddress)))
    let ranges ← sql (.lockRanges subnetId)
    return ⟨s.cidr, s.gateway, used, ranges⟩

/-! ## Inserting -/

def unwind (sp : Nat) : AllocM Unit := do
  sql (.rollbackToSavepoint sp)
  sql (.releaseSavepoint sp)

def tryInsert (sp : Nat) (row : NewAddress) : AllocM Unit := do
  sql (.insertAddress row)
  sql (.releaseSavepoint sp)

def isRace (code : Option Nat) (message : CStr) : Bool :=
  code == some 1062 && decide ("uq_ip_addr_live".toList <:+: message)

def insertOrUnwind (sp : Nat) (row : NewAddress) : AllocM Bool :=
  ExceptT.mk do
    match ← (tryInsert sp row).run with
    | .ok _ => return .ok true
    | .error (.sql (.integrity code message)) =>
      match ← (unwind sp).run with
      | .error e => return .error e
      | .ok _ =>
        if isRace code message then return .ok false
        else return .error (.sql (.integrity code message))
    | .error e => do
        let _ ← (unwind sp).run
        return .error e

structure AllocArgs where
  functionSlug : CStr
  entityId : Option Nat
  interfaceId : Option Nat
  isPrimary : Bool
  sourceSlug : CStr
  assignment : CStr
  maxRetries : Nat

structure AllocPlan where
  args : AllocArgs
  sourceId : Nat
  entityId : Option Nat
  slug : CStr
  subnetId : Nat
  sp : Nat

def AllocPlan.row (p : AllocPlan) (chosen : Nat) : NewAddress :=
  ⟨chosen, p.subnetId, p.args.interfaceId, p.entityId, p.args.assignment, p.args.isPrimary,
    p.sourceId⟩

def allocateOnce (p : AllocPlan) : AllocM (Option Nat) := do
  let s ← usedAndRanges p.subnetId
  match ← pureLayer (selectAddress s.cidr s.gateway s.used s.ranges) with
  | none => throw (.exhausted s.cidr p.slug)
  | some chosen =>
    sql (.savepoint p.sp)
    let inserted ← insertOrUnwind p.sp (p.row chosen)
    if inserted then return some chosen else return none

def allocateLoop (p : AllocPlan) : Nat → AllocM Nat
  | 0 => throw (.lostRace p.slug p.args.maxRetries)
  | n + 1 => do
      match ← allocateOnce p with
      | some chosen => return chosen
      | none => allocateLoop p n

def isolationName (iso : Option CStr) : CStr :=
  (iso.getD []).map fun c => if c = '_' then '-' else c.toUpper

def planAllocation (a : AllocArgs) : AllocM AllocPlan := do
  let autocommit ← sql .getAutocommit
  if autocommit then throw .autocommit
  else do
    let iso ← sql .txIsolation
    if isolationName iso ≠ "READ-COMMITTED".toList then throw (.isolation (isolationName iso))
    else do
      let sourceId ← sourceIdOf a.sourceSlug
      let entityId ← reconcileEntity a.entityId a.interfaceId a.isPrimary
      let slug ← resolveFunctionForEntity entityId a.functionSlug a.isPrimary
      let subnetId ← homeSubnetForFunction slug
      let sp ← sql .uuid4
      return ⟨a, sourceId, entityId, slug, subnetId, sp⟩

def allocate (a : AllocArgs) : AllocM Nat := do
  let p ← planAllocation a
  allocateLoop p a.maxRetries

/-! ## What a plan rests on -/

def AllocError.NotLost (e : AllocError) : Prop := ∀ slug n, e ≠ .lostRace slug n

def AllocOp.plans : AllocOp → Bool
  | .getAutocommit | .txIsolation | .selectSource _ | .lockInterface _ | .selectMemberships _
  | .selectFunction _ | .selectSubnets _ | .selectOtherSubnets _ | .uuid4 => true
  | _ => false

def Cidr.isV4 : Cidr → Bool
  | .v4 _ => true
  | _ => false

structure Planned (A : (o : AllocOp) → o.Ans → Prop) (a : AllocArgs) (p : AllocPlan) : Prop where
  args : p.args = a
  interface : ∀ id, a.interfaceId = some id →
    ∃ e, A (.lockInterface id) (some e) ∧ p.entityId = some e
  owned : a.isPrimary = true → p.entityId ≠ none
  tag : ∀ e, p.entityId = some e → ∃ tags, A (.selectMemberships e) tags ∧
    if a.isPrimary then (tags.find? (·.2)).map (·.1) = some p.slug else p.slug ∈ tags.map (·.1)
  home : ∃ f networkId rows r, A (.selectFunction p.slug) (some f) ∧ f.networkId = some networkId ∧
    A (.selectSubnets networkId) rows ∧ rows.filter (·.2.1.isV4) = [r] ∧ p.subnetId = r.1

section
variable {σ : Type} (S : Setting AllocOp AllocOp.Res σ) (P : σ → Prop)

abbrev Finds {α : Type} (x : AllocM α) (Q : α → Prop) : Prop :=
  S.Triple P x (fun v s => P s ∧ Q v) fun e _ => e.NotLost

variable {S P} {A : (o : AllocOp) → o.Ans → Prop} {α β : Type} {x : AllocM α} {Q : α → Prop}

theorem finds_bind {f : α → AllocM β} {R : β → Prop} (hx : Finds S P x Q)
    (hf : ∀ v, Q v → Finds S P (f v) R) : Finds S P (x >>= f) R :=
  hx.bind fun v s hs => hf v hs.2 s hs.1

theorem finds_pure {v : α} (h : Q v) : Finds S P (pure v) Q := .pure fun _ hs => ⟨hs, h⟩

theorem finds_throw (h : e.NotLost) : Finds S P (throw e) Q := .throw fun _ _ => h

theorem finds_pureLayer {r : Except SelectError α} : Finds S P (pureLayer r) fun _ => True := by
  cases r with
  | error e => exact finds_throw fun _ _ => nofun
  | ok v => exact finds_pure trivial

variable (hA : ∀ o, o.plans = true → Finds S P (sql o) (A o))
include hA

theorem reconcileEntity_finds (entityId interfaceId : Option Nat) (isPrimary : Bool) :
    Finds S P (reconcileEntity entityId interfaceId isPrimary) fun owner =>
      (∀ id, interfaceId = some id → ∃ e, A (.lockInterface id) (some e) ∧ owner = some e) ∧
        (isPrimary = true → owner ≠ none) := by
  unfold reconcileEntity
  cases interfaceId with
  | none =>
    dsimp only
    split
    · exact finds_throw fun _ _ => nofun
    next h =>
    refine finds_pure ⟨nofun, ?_⟩
    rintro rfl rfl
    exact h rfl
  | some iface =>
    refine finds_bind (Q := fun e => A (.lockInterface iface) (some e)) ?_ fun owner ho => ?_
    · refine finds_bind (hA _ rfl) fun r hr => ?_
      cases r with
      | none => exact finds_throw fun _ _ => nofun
      | some e => exact finds_pure hr
    · have hfound : (∀ id, some iface = some id →
          ∃ e, A (.lockInterface id) (some e) ∧ some owner = some e) ∧
          (isPrimary = true → some owner ≠ none) :=
        ⟨fun id hid => ⟨owner, Option.some.inj hid ▸ ho, rfl⟩, nofun⟩
      cases entityId with
      | none => exact finds_pure hfound
      | some e =>
        dsimp only
        split
        · exact finds_throw fun _ _ => nofun
        · exact finds_pure hfound

theorem resolveFunctionForEntity_finds (entityId : Option Nat) (slug : CStr) (isPrimary : Bool) :
    Finds S P (resolveFunctionForEntity entityId slug isPrimary) fun tag =>
      ∀ e, entityId = some e → ∃ tags, A (.selectMemberships e) tags ∧
        if isPrimary then (tags.find? (·.2)).map (·.1) = some tag else tag ∈ tags.map (·.1) := by
  unfold resolveFunctionForEntity
  cases entityId with
  | none =>
    dsimp only
    split
    · exact finds_throw fun _ _ => nofun
    · exact finds_pure nofun
  | some e =>
    refine finds_bind (hA _ rfl) fun tags htags => ?_
    split
    · exact finds_throw fun _ _ => nofun
    split
    · next hprimary =>
      split
      · exact finds_throw fun _ _ => nofun
      next tag b hfind =>
      split
      · exact finds_throw fun _ _ => nofun
      refine finds_pure fun e' he => ?_
      cases he
      exact ⟨tags, htags, by simp [hfind]⟩
    · next hsecondary =>
      split
      · exact finds_throw fun _ _ => nofun
      split
      · next hmem =>
        refine finds_pure fun e' he => ?_
        cases he
        exact ⟨tags, htags, by simpa using hmem⟩
      · exact finds_throw fun _ _ => nofun

theorem homeSubnetForFunction_finds (tag : CStr) :
    Finds S P (homeSubnetForFunction tag) fun subnetId => ∃ f networkId rows r,
      A (.selectFunction tag) (some f) ∧ f.networkId = some networkId ∧
        A (.selectSubnets networkId) rows ∧ rows.filter (·.2.1.isV4) = [r] ∧ subnetId = r.1 := by
  refine finds_bind (hA _ rfl) fun r hf => ?_
  cases r with
  | none => exact finds_throw fun _ _ => nofun
  | some f =>
    dsimp only
    split
    · exact finds_throw fun _ _ => nofun
    · exact finds_throw fun _ _ => nofun
    · exact finds_throw fun _ _ => nofun
    next networkId hn _ =>
    split
    · exact finds_throw fun _ _ => nofun
    refine finds_bind (hA _ rfl) fun rows hrows => ?_
    split
    · exact finds_throw fun _ _ => nofun
    · next r hr => exact finds_pure ⟨f, networkId, rows, r, hf, hn, hrows, hr, rfl⟩
    · exact finds_throw fun _ _ => nofun

theorem planAllocation_finds (a : AllocArgs) : Finds S P (planAllocation a) (Planned A a) := by
  refine finds_bind (hA _ rfl) fun autocommit _ => ?_
  split
  · exact finds_throw fun _ _ => nofun
  refine finds_bind (hA _ rfl) fun iso _ => ?_
  split
  · exact finds_throw fun _ _ => nofun
  refine finds_bind (Q := fun _ => True) ?_ fun sourceId _ => ?_
  · refine finds_bind (hA _ rfl) fun r _ => ?_
    cases r with
    | none => exact finds_throw fun _ _ => nofun
    | some id => exact finds_pure trivial
  refine finds_bind (reconcileEntity_finds hA _ _ _) fun owner howner => ?_
  refine finds_bind (resolveFunctionForEntity_finds hA owner _ _) fun tag htag => ?_
  refine finds_bind (homeSubnetForFunction_finds hA tag) fun subnetId hsubnet => ?_
  exact finds_bind (hA _ rfl) fun sp _ => finds_pure ⟨rfl, howner.1, howner.2, htag, hsubnet⟩

theorem checkSubnet_finds (subnetId : Nat) (s : LockedSubnet) :
    Finds S P (checkSubnet subnetId s) fun _ => True := by
  unfold checkSubnet
  split
  · exact finds_throw fun _ _ => nofun
  split
  · exact finds_throw fun _ _ => nofun
  refine finds_bind finds_pureLayer fun net _ => ?_
  cases net with
  | none => exact finds_pure trivial
  | some net =>
    refine finds_bind (hA _ rfl) fun others _ => ?_
    split
    · exact finds_throw fun _ _ => nofun
    · exact finds_pure trivial

end

end SolariNet
