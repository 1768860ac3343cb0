/-
# Whose address, and from which subnet

The tables that `netdb/sor/allocator.py` resolves owner and subnet from: interfaces belong to
entities, memberships give entities function tags, a tag has a home network and with it a home
subnet.  A tag is a slug; it is looked up under the collation of the column.

`allocate` runs against such tables with every other statement answered at will, and any statement
failing.  What it sends to `ip_addresses` is kept in a log.
-/
import SolariNet.Netdb.AllocSystem

namespace SolariNet

open List Lib Lib.Prog

/-! ## The tables -/

structure InterfaceRow where
  id : Nat
  entityId : Nat
  live : Bool

structure FunctionTag where
  id : Nat
  slug : CStr
  networkId : Option Nat
  live : Bool

structure Membership where
  entityId : Nat
  functionId : Nat
  isPrimary : Bool
  live : Bool

structure NetworkRow where
  id : Nat
  enabled : Bool
  allocatorEligible : Bool
  live : Bool

structure Taxonomy where
  interfaces : List InterfaceRow
  functions : List FunctionTag
  memberships : List Membership
  networks : List NetworkRow
  subnets : List SubnetRow
  same : CStr → CStr → Bool

namespace Taxonomy

variable (db : Taxonomy)

def interfaceOwner (id : Nat) : Option Nat :=
  (db.interfaces.find? fun r => r.id = id && r.live).map (·.entityId)

def tagsOf (entityId : Nat) : List (CStr × Bool) :=
  (db.memberships.filter fun m => m.entityId = entityId && m.live).flatMap fun m =>
    (db.functions.filter fun f => f.id = m.functionId).map fun f => (f.slug, m.isPrimary)

def liveFunction (slug : CStr) : Option FunctionTag :=
  db.functions.find? fun f => db.same f.slug slug && f.live

def functionRow (slug : CStr) : Option FunctionRow :=
  (db.liveFunction slug).map fun f =>
    let n := db.networks.find? fun n => f.networkId = some n.id && n.live
    ⟨f.networkId, n.map (·.enabled), n.map (·.allocatorEligible)⟩

def subnetsOf (networkId : Nat) : List (Nat × Cidr × Option Addr) :=
  (db.subnets.filter fun s => s.networkId = networkId && s.live).map fun s =>
    (s.id, s.cidr, s.gateway)

def Answers : (o : AllocOp) → o.Ans → Prop
  | .lockInterface id, r => r = db.interfaceOwner id
  | .selectMemberships entityId, r => r = db.tagsOf entityId
  | .selectFunction slug, r => r = db.functionRow slug
  | .selectSubnets networkId, r => r.Perm (db.subnetsOf networkId)
  | _, _ => True

/-! ## What a row is entitled to -/

def primaryTag (entityId : Nat) : Option CStr := ((db.tagsOf entityId).find? (·.2)).map (·.1)

def HomeSubnet (tag : CStr) (subnetId : Nat) : Prop :=
  ∃ f, db.liveFunction tag = some f ∧ ∃ s ∈ db.subnets, s.id = subnetId ∧ s.live = true ∧
    f.networkId = some s.networkId ∧ s.cidr.isV4 = true ∧
    ∀ s' ∈ db.subnets, s'.live = true → s'.networkId = s.networkId → s'.cidr.isV4 = true →
      s'.id = subnetId

structure Entitled (a : AllocArgs) (row : NewAddress) : Prop where
  asked : row.interfaceId = a.interfaceId ∧ row.isPrimary = a.isPrimary
  interface : ∀ id, row.interfaceId = some id →
    ∃ owner, db.interfaceOwner id = some owner ∧ row.entityId = some owner
  owned : row.isPrimary = true → row.entityId ≠ none
  primary : row.isPrimary = true → ∀ e, row.entityId = some e →
    ∃ tag, db.primaryTag e = some tag ∧ db.HomeSubnet tag row.subnetId
  secondary : row.isPrimary = false → ∀ e, row.entityId = some e →
    ∃ tag ∈ (db.tagsOf e).map (·.1), db.HomeSubnet tag row.subnetId

end Taxonomy

/-! ## The call -/

def AllocOp.inserts : AllocOp → List NewAddress
  | .insertAddress row => [row]
  | _ => []

/-- A statement fails or is answered; what is sent to be inserted is logged. -/
def taxonomySem (db : Taxonomy) : Sem AllocOp AllocOp.Res (List NewAddress) := fun o s r s' =>
  (∀ x, r = .ok x → db.Answers o x) ∧ s' = o.inserts ++ s

def taxonomySetting (db : Taxonomy) (a : AllocArgs) :
    Setting AllocOp AllocOp.Res (List NewAddress) :=
  ⟨taxonomySem db, Eq, fun s => ∀ row ∈ s, db.Entitled a row⟩

section
variable {db : Taxonomy} {a : AllocArgs} {P : List NewAddress → Prop} {o : AllocOp}

theorem logs_sql (hrow : ∀ row ∈ o.inserts, db.Entitled a row) :
    (taxonomySetting db a).Triple P (sql o)
      (fun v s => db.Answers o v ∧ ∃ s₀, P s₀ ∧ s = o.inserts ++ s₀) fun e _ => e.NotLost := by
  intro s hs
  refine safe_perform_bind.2 ?_
  rintro _ rfl hI r _ ⟨hans, rfl⟩
  refine ⟨fun row hmem => (mem_append.1 hmem).elim (hrow row) (hI row), ?_⟩
  cases r with
  | error e => exact fun _ _ => nofun
  | ok v => exact ⟨hans v rfl, s, hs, rfl⟩

theorem finds_sql (ho : o.inserts = []) :
    Finds (taxonomySetting db a) P (sql o) (db.Answers o) := by
  refine (logs_sql (by simp [ho])).post ?_
  rintro v _ ⟨hans, s, hs, rfl⟩
  rw [ho]
  exact ⟨hs, hans⟩

theorem finds_plans (o : AllocOp) (ho : o.plans = true) :
    Finds (taxonomySetting db a) P (sql o) (db.Answers o) := by
  refine finds_sql ?_
  cases o <;> first | rfl | cases ho

/-! ### The plan -/

theorem mem_subnetsOf {networkId : Nat} {r : Nat × Cidr × Option Addr} :
    r ∈ db.subnetsOf networkId ↔ ∃ s ∈ db.subnets, s.networkId = networkId ∧ s.live = true ∧
      (s.id, s.cidr, s.gateway) = r := by
  simp [Taxonomy.subnetsOf, and_assoc]

theorem Planned.homeSubnet (h : Planned db.Answers a p) :
    db.HomeSubnet p.slug p.subnetId := by
  obtain ⟨_, networkId, rows, r, hrow, hn, hrows, hone, hid⟩ := h.home
  obtain ⟨f, hf, rfl⟩ := Option.map_eq_some_iff.1 hrow.symm
  obtain ⟨hr, hv⟩ := mem_filter.1 (hone ▸ mem_singleton_self r)
  obtain ⟨s, hs, rfl, hlive, rfl⟩ := mem_subnetsOf.1 (List.Perm.mem_iff hrows |>.1 hr)
  refine ⟨f, hf, s, hs, hid.symm, hlive, hn, hv, fun s' hs' hlive' hn' hv' => ?_⟩
  have hmem : (s'.id, s'.cidr, s'.gateway) ∈ rows.filter (·.2.1.isV4) :=
    mem_filter.2 ⟨List.Perm.mem_iff hrows |>.2 (mem_subnetsOf.2 ⟨s', hs', hn', hlive', rfl⟩), hv'⟩
  rw [hone] at hmem
  exact (congrArg Prod.fst (mem_singleton.1 hmem)).trans hid.symm

theorem Planned.entitled (h : Planned db.Answers a p) (chosen : Nat) :
    db.Entitled a (p.row chosen) := by
  have hargs := h.args
  refine ⟨by rw [← hargs]; exact ⟨rfl, rfl⟩, fun id hid => ?_, fun hp => h.owned (hargs ▸ hp),
    fun hp e he => ⟨p.slug, ?_, h.homeSubnet⟩, fun hp e he => ⟨p.slug, ?_, h.homeSubnet⟩⟩
  · obtain ⟨owner, hans, hown⟩ := h.interface id (hargs ▸ hid)
    exact ⟨owner, hans.symm, hown⟩
  · obtain ⟨_, rfl, htag⟩ := h.tag e he
    rwa [if_pos (hargs ▸ hp)] at htag
  · obtain ⟨_, rfl, htag⟩ := h.tag e he
    rwa [if_neg (Bool.eq_false_iff.1 (hargs ▸ hp))] at htag

/-! ### The loop -/

theorem usedAndRanges_finds (subnetId : Nat) :
    Finds (taxonomySetting db a) P (usedAndRanges subnetId) fun _ => True := by
  refine finds_bind (finds_sql rfl) fun r _ => ?_
  cases r with
  | none => exact finds_throw fun _ _ => nofun
  | some s =>
    refine finds_bind (checkSubnet_finds finds_plans subnetId s) fun _ _ => ?_
    exact finds_bind (finds_sql rfl) fun _ _ => finds_bind (finds_sql rfl) fun _ _ =>
      finds_pure trivial

theorem unwind_finds (sp : Nat) : Finds (taxonomySetting db a) P (unwind sp) fun _ => True :=
  finds_bind (finds_sql rfl) fun _ _ => finds_sql rfl

abbrev AllocReturns {α : Type} (db : Taxonomy) (a : AllocArgs) (x : AllocM α)
    (Q : α → List NewAddress → Prop) : Prop :=
  (taxonomySetting db a).Triple (fun _ => True) x Q fun _ _ => True

theorem insertOrUnwind_returns {sp : Nat} (hrow : db.Entitled a row) :
    AllocReturns db a (insertOrUnwind sp row) fun inserted s => inserted = true → s ≠ [] := by
  have htry : AllocReturns db a (tryInsert sp row) fun _ s => s ≠ [] := by
    refine .raises (.bind (Q := fun _ s => s ≠ []) ((logs_sql ?_).post ?_) fun _ =>
      (finds_sql rfl).post fun _ _ h => h.1) fun _ _ _ => trivial
    · rintro _ h
      exact mem_singleton.1 h ▸ hrow
    · rintro _ _ ⟨-, s, -, rfl⟩
      exact cons_ne_nil _ _
  have hunwind : Finds (taxonomySetting db a) (fun _ => True) (unwind sp) fun _ => True :=
    unwind_finds sp
  intro s hs
  refine (htry s hs).seq fun r s₁ hr => ?_
  cases r with
  | ok u => exact fun _ => hr
  | error e =>
    cases e with
    | sql e =>
      cases e with
      | integrity code message =>
        refine (hunwind s₁ trivial).seq fun r s₂ _ => ?_
        cases r with
        | error e => trivial
        | ok u =>
          dsimp only
          split
          · exact nofun
          · trivial
      | other fatal => exact (hunwind s₁ trivial).seq fun _ _ _ => trivial
    | _ => exact (hunwind s₁ trivial).seq fun _ _ _ => trivial

theorem allocateLoop_returns (hp : Planned db.Answers a p) (n : Nat) :
    AllocReturns db a (allocateLoop p n) fun _ s => s ≠ [] := by
  induction n with
  | zero => exact .throw fun _ _ => trivial
  | succ n ih =>
    refine .bind (Q := fun r s => r ≠ none → s ≠ []) ?_ fun r => ?_
    · refine .bind ((usedAndRanges_finds p.subnetId).raises fun _ _ _ => trivial) fun s => ?_
      refine .bind (finds_pureLayer.raises fun _ _ _ => trivial) fun chosen => ?_
      cases chosen with
      | none => exact .throw fun _ _ => trivial
      | some chosen =>
        refine .bind (((finds_sql rfl).post fun _ _ _ => trivial).raises fun _ _ _ => trivial)
          fun _ => ?_
        refine .bind (insertOrUnwind_returns (hp.entitled chosen)) fun inserted => ?_
        cases inserted with
        | true => exact .pure fun _ h _ => h rfl
        | false => exact .pure fun _ _ h => absurd rfl h
    · cases r with
      | some chosen => exact .pure fun _ h => h nofun
      | none => exact ih.pre fun _ _ => trivial

end

/-- **Ownership of addresses.** What `allocate` inserts has the owner of its interface, is not a
primary address without an owner, and comes from the home subnet of a tag of its owner. -/
theorem allocation_entitled (db : Taxonomy) (a : AllocArgs) {r : Except AllocError Nat}
    {rows : List NewAddress} (h : Exec (taxonomySem db) (allocate a).run [] r rows) :
    (∀ row ∈ rows, db.Entitled a row) ∧ (rows = [] → ∃ e, r = .error e) := by
  have hsafe : AllocReturns db a (allocate a) fun _ s => s ≠ [] :=
    .bind ((planAllocation_finds finds_plans a).raises fun _ _ _ => trivial) fun p s hs =>
      allocateLoop_returns hs.2 a.maxRetries s trivial
  obtain ⟨hrows, hend⟩ := (hsafe [] trivial).exec (fun _ => rfl) nofun h
  refine ⟨hrows, fun hnil => ?_⟩
  cases r with
  | error e => exact ⟨e, rfl⟩
  | ok chosen => exact absurd hnil hend

/-! ### A primary address -/

/-- Interface 4 of entity 7, whose primary tag is at home in network 2. -/
def smallTaxonomy : Taxonomy where
  interfaces := [⟨4, 7, true⟩]
  functions := [⟨1, "dns".toList, some 2, true⟩]
  memberships := [⟨7, 1, true, true⟩]
  networks := [⟨2, true, true, true⟩]
  subnets := [⟨3, 2, .v4 ⟨167772160, 29⟩, none, true⟩]
  same x y := x == y

def smallAnswers : (o : AllocOp) → o.Ans
  | .getAutocommit => false
  | .txIsolation => some "READ-COMMITTED".toList
  | .selectSource _ => some 1
  | .lockInterface id => smallTaxonomy.interfaceOwner id
  | .selectMemberships entityId => smallTaxonomy.tagsOf entityId
  | .selectFunction slug => smallTaxonomy.functionRow slug
  | .selectSubnets networkId => smallTaxonomy.subnetsOf networkId
  | .lockSubnet _ => some ⟨2, .v4 ⟨167772160, 29⟩, none, true, true⟩
  | .selectOtherSubnets _ | .selectUsed _ _ | .lockRanges _ => []
  | .uuid4 => 0
  | .calling | .savepoint _ | .releaseSavepoint _ | .rollbackToSavepoint _ | .insertAddress _
  | .callerWrite _ | .commit | .rollback => ()

def smallRun (o : AllocOp) (s : List NewAddress) : o.Res × List NewAddress :=
  (.ok (smallAnswers o), o.inserts ++ s)

theorem smallRun_sem (o : AllocOp) (s : List NewAddress) :
    taxonomySem smallTaxonomy o s (smallRun o s).1 (smallRun o s).2 := by
  refine ⟨fun x hx => ?_, rfl⟩
  cases hx
  cases o <;> first | trivial | rfl | exact .refl _

def interfaceArgs : AllocArgs := ⟨[], none, some 4, true, "provisioner".toList, "static".toList, 5⟩

/-- The owner comes from the interface, the subnet from the owner's tag. -/
theorem allocation_entitled_interface :
    ∃ r row, Exec (taxonomySem smallTaxonomy) (allocate interfaceArgs).run [] r [row] ∧
      row.entityId = some 7 ∧ row.subnetId = 3 ∧ smallTaxonomy.Entitled interfaceArgs row := by
  have hx := Exec.of_run smallRun_sem (allocate interfaceArgs).run []
  exact ⟨_, _, hx, rfl, rfl, (allocation_entitled _ _ hx).1 _ mem_cons_self⟩

end SolariNet
