/-
# Catalogue identity and installation targets

The units of the inventory, with the triggers of migrations 033 and 037 and the routes that create
and edit them.  A unit has a product type, which a hardware model implies, and a software unit may
be installed on another unit.  The triggers rewrite the row that is written; they read the other
tables, but never the units installed on the unit that is written.

Columns that only describe a unit are left out; of the other licence fields there is whether one of
them is set.
-/
import SolariNet.Lib.Table

namespace SolariNet.Inventory

open List Lib

inductive ProductKind where
  | hardware
  | peripheral
  | component
  | software
  | accessory
  | consumable
  | other
  deriving DecidableEq, Repr

structure ProductType where
  id : Nat
  kind : ProductKind
  retired : Bool

structure HardwareModel where
  id : Nat
  productTypeId : Option Nat
  retired : Bool

structure HardwareUnit where
  id : Nat
  modelId : Option Nat
  productTypeId : Option Nat
  installedOn : Option Nat
  licensed : Bool
  retired : Bool

structure Tables where
  types : Table ProductType.id
  models : Table HardwareModel.id
  units : Serial HardwareUnit.id

def refuseIf (p : Prop) [Decidable p] (message : String) : Except String Unit :=
  if p then .error message else .ok ()

namespace Tables

def modelType (c : Tables) (model : Nat) : Option Nat :=
  (c.models.find? model).bind (·.productTypeId)

def liveModel (c : Tables) (type : Nat) : Option Nat :=
  (c.models.rows.find? fun m => m.productTypeId = some type ∧ m.retired = false).map (·.id)

def kind (c : Tables) (type : Option Nat) : Option ProductKind :=
  (type.bind c.types.find?).map (·.kind)

def Hosts (c : Tables) (u : HardwareUnit) : Prop := ∃ k ∈ c.kind u.productTypeId, k ≠ .software

instance (c : Tables) (u : HardwareUnit) : Decidable (c.Hosts u) :=
  inferInstanceAs (Decidable (∃ k ∈ _, _))

def checkTarget (c : Tables) (new : HardwareUnit) : Except String Unit :=
  match new.installedOn with
  | none => .ok ()
  | some target => do
    refuseIf (new.id = target) "installed_on_unit_id cannot reference the same unit"
    refuseIf (¬ ∃ u ∈ c.units.rows, u.id = target ∧ c.Hosts u)
      "installed_on_unit_id must reference a non-software unit"

/-- What `trg_hw_units_installed_target_ins` makes of the row: one column is derived from the
other. -/
def derive (c : Tables) (new : HardwareUnit) : HardwareUnit :=
  match new.modelId, new.productTypeId with
  | some m, none => { new with productTypeId := c.modelType m }
  | none, some t => { new with modelId := c.liveModel t }
  | _, _ => new

def beforeInsert (c : Tables) (new : HardwareUnit) : Except String HardwareUnit := do
  refuseIf (new.modelId ≠ none ∧ new.productTypeId ≠ none ∧
    new.productTypeId ≠ new.modelId.bind c.modelType) "model_id and product_type_id disagree"
  let new := c.derive new
  refuseIf (new.productTypeId = none) "hardware unit product_type_id is required"
  c.checkTarget new
  return new

/-- What `trg_hw_units_installed_target_upd` makes of the row: a change of one column takes the
other along. -/
def follow (c : Tables) (old new : HardwareUnit) : HardwareUnit :=
  if new.productTypeId ≠ none ∧ new.productTypeId ≠ old.productTypeId ∧
    new.modelId = old.modelId then
    { new with modelId := new.productTypeId.bind c.liveModel }
  else if new.modelId ≠ none ∧ (new.productTypeId = none ∨
      new.modelId ≠ old.modelId ∧ new.productTypeId = old.productTypeId) then
    { new with productTypeId := new.modelId.bind c.modelType }
  else new

def beforeUpdate (c : Tables) (old new : HardwareUnit) : Except String HardwareUnit := do
  let new := c.follow old new
  refuseIf (new.productTypeId = none) "hardware unit product_type_id is required"
  refuseIf (new.modelId ≠ none ∧ new.productTypeId ≠ new.modelId.bind c.modelType)
    "model_id and product_type_id disagree"
  c.checkTarget new
  return new

/-- `trg_product_types_no_software_install_target`, and the change of the kind. -/
def setKind (c : Tables) (type : Nat) (kind : ProductKind) : Except String Tables :=
  if kind = .software ∧ c.kind (some type) ≠ some .software ∧ (∃ u ∈ c.units.rows,
      u.productTypeId = some type ∧ ∃ v ∈ c.units.rows, v.installedOn = some u.id) then
    .error "product type cannot become software while installed units target it"
  else .ok { c with
    types := c.types.update (fun t => if t.id = type then { t with kind := kind } else t)
      (by intro t; split <;> rfl) }

end Tables

/-! ## The routes -/

/-- The value of an id field of a request: absent, null or empty, no digits, or a number. -/
inductive IdArg where
  | absent
  | empty
  | malformed
  | id (n : Nat)
  deriving DecidableEq, Repr

/-- The body of a request; `licensed` is whether a licence field is set, if there is one. -/
structure ComponentBody where
  productTypeId : IdArg := .absent
  modelId : IdArg := .absent
  installedOn : IdArg := .absent
  licensed : Option Bool := none
  other : Bool := false
  deriving DecidableEq, Repr

structure Identity where
  modelId : Option Nat
  productTypeId : Nat
  kind : ProductKind
  setModel : Bool
  setProductType : Bool

def IdArg.number (label : String) : IdArg → Except String (Option Nat)
  | .absent | .empty => .ok none
  | .malformed => .error s!"{label} must be an integer."
  | .id n => .ok (some n)

def invComponentIdentity (c : Tables) (b : ComponentBody) (current : Option HardwareUnit) :
    Except String Identity := do
  let hasType := decide (b.productTypeId ≠ .absent ∧ b.productTypeId ≠ .empty)
  refuseIf (current ≠ none ∧ b.productTypeId = .empty) "product_type_id cannot be cleared."
  let modelId ← b.modelId.number "model_id"
  refuseIf (∃ m ∈ modelId, (c.models.find? m).map (·.retired) ≠ some false)
    s!"No hardware_models row {modelId.getD 0}"
  refuseIf (current = none ∧ hasType = false ∧ modelId = none) "product_type_id is required."
  let currentType := current.bind (·.productTypeId)
  let typeId ← b.productTypeId.number "product_type_id"
  refuseIf (modelId ≠ none ∧ typeId ≠ none ∧ typeId ≠ modelId.bind c.modelType)
    "model_id and product_type_id disagree."
  match (modelId.bind c.modelType <|> typeId) <|> currentType with
  | none => throw "No product type (none)"
  | some t =>
    match c.types.find? t with
    | none => throw s!"No product type {t}"
    | some type => do
      refuseIf (type.retired = true ∧ some t ≠ currentType)
        s!"Product type {t} is retired; choose a live product type."
      return ⟨modelId, t, type.kind, decide (b.modelId ≠ .absent), hasType || modelId.isSome⟩

def invComponentLicence (c : Tables) (b : ComponentBody) (current : Option HardwareUnit)
    (kind : ProductKind) (selfId : Option Nat) : Except String (Option Nat × Bool) := do
  let given ← b.installedOn.number "installed_on_unit_id"
  refuseIf (∃ t ∈ given, ¬ (some t ≠ selfId ∧
      ∃ u ∈ c.units.rows, u.id = t ∧ u.retired = false ∧ c.Hosts u))
    "installed_on_unit_id must reference another live, non-software item."
  let target := if b.installedOn = .absent then current.bind (·.installedOn) else given
  let licensed := b.licensed.getD (current.any (·.licensed))
  refuseIf (kind ≠ .software ∧ (licensed = true ∨ target ≠ none))
    "Licence and installation fields apply only to software items."
  return (target, licensed)

def invComponentBatchMax : Nat := 50

def foreignKeys (c : Tables) (row : HardwareUnit) : Except String Unit :=
  refuseIf (¬ ((∀ m ∈ row.modelId, c.models.find? m ≠ none) ∧
    (∀ t ∈ row.productTypeId, c.types.find? t ≠ none) ∧
    ∀ i ∈ row.installedOn, ∃ u ∈ c.units.rows, u.id = i)) "Duplicate or constraint violation."

def insertUnit (c : Tables) (new : HardwareUnit) : Except String Tables := do
  let row ← c.beforeInsert new
  foreignKeys c row
  return { c with units := c.units.push (fun id => { row with id := id }) fun _ => rfl }

def insertUnits (new : HardwareUnit) : Nat → Tables → Except String Tables
  | 0, c => .ok c
  | n + 1, c => do insertUnits new n (← insertUnit c new)

/-- `POST /api/inventory/components`. -/
def createComponents (c : Tables) (b : ComponentBody) (count : Nat) : Except String Tables := do
  let identity ← invComponentIdentity c b none
  let (target, licensed) ← invComponentLicence c b none identity.kind none
  refuseIf (count < 1 ∨ invComponentBatchMax < count)
    s!"count must be an integer from 1 to {invComponentBatchMax}."
  insertUnits ⟨0, identity.modelId, some identity.productTypeId, target, licensed, false⟩ count c

/-- `PUT /api/inventory/components/{id}`. -/
def editComponent (c : Tables) (id : Nat) (b : ComponentBody) : Except String Tables := do
  match c.units.rows.find? fun u => u.id = id ∧ u.retired = false with
  | none => throw s!"No component {id}"
  | some current =>
    let identity ← invComponentIdentity c b (some current)
    let (target, licensed) ← invComponentLicence c b (some current) identity.kind (some id)
    refuseIf (b = {}) "No updatable fields supplied."
    let row ← c.beforeUpdate current { current with
      productTypeId :=
        if identity.setProductType then some identity.productTypeId else current.productTypeId
      modelId := if identity.setModel then identity.modelId else current.modelId
      installedOn := target
      licensed := licensed }
    foreignKeys c row
    return { c with
      units := c.units.update (fun u => if u.id = id then { row with id := u.id } else u)
        (by intro u; split <;> rfl) }

/-! ## What the triggers guarantee -/

section
variable {ε α β : Type} {x : Except ε α} {f : α → Except ε β} {y : β}

theorem bind_ok : (x >>= f) = .ok y ↔ ∃ a, x = .ok a ∧ f a = .ok y := by
  cases x <;> simp [bind, Except.bind]

theorem refuseIf_ok {p : Prop} [Decidable p] {message : String} :
    refuseIf p message = .ok v ↔ ¬ p := by
  by_cases h : p <;> simp [refuseIf]

end

variable {c c' : Tables} {new old row u : HardwareUnit} {b : ComponentBody} {id : Nat}

/-- A unit as the rules want it: with a product type, that of its model, and installed, if it is, on
another unit that is not software. -/
structure Sound (c : Tables) (u : HardwareUnit) : Prop where
  typed : u.productTypeId ≠ none
  model : ∀ m, u.modelId = some m → u.productTypeId = c.modelType m
  target : ∀ t, u.installedOn = some t → u.id ≠ t ∧ ∃ v ∈ c.units.rows, v.id = t ∧ c.Hosts v

def Valid (c : Tables) : Prop := ∀ u ∈ c.units.rows, Sound c u

theorem checkTarget_ok (h : c.checkTarget row = .ok v) :
    ∀ t, row.installedOn = some t → row.id ≠ t ∧ ∃ v ∈ c.units.rows, v.id = t ∧ c.Hosts v := by
  intro t ht
  simp only [Tables.checkTarget, ht, bind_ok, refuseIf_ok, not_not] at h
  obtain ⟨-, hne, hhost⟩ := h
  exact ⟨hne, hhost⟩

theorem modelType_liveModel {t m : Nat} (h : c.liveModel t = some m) : c.modelType m = some t := by
  obtain ⟨row, hrow, rfl⟩ := Option.map_eq_some_iff.1 h
  have hp := List.find?_some hrow
  rw [Tables.modelType, Table.find?_eq_some.2 ⟨mem_of_find?_eq_some hrow, rfl⟩]
  exact (of_decide_eq_true hp).1

theorem beforeInsert_ok (h : c.beforeInsert new = .ok row) : Sound c row := by
  simp only [Tables.beforeInsert, bind_ok, refuseIf_ok] at h
  obtain ⟨_, hagree, _, htyped, _, htarget, hrow⟩ := h
  obtain rfl := Except.ok.inj hrow
  refine ⟨htyped, fun m hm => ?_, checkTarget_ok htarget⟩
  rcases new with ⟨id, _ | k, _ | t, rest⟩
  · cases hm
  · exact (modelType_liveModel hm).symm
  · cases hm
    rfl
  · cases hm
    simpa [Tables.derive] using hagree

theorem beforeUpdate_ok (h : c.beforeUpdate old new = .ok row) :
    Sound c row ∧ row = c.follow old new := by
  simp only [Tables.beforeUpdate, bind_ok, refuseIf_ok] at h
  obtain ⟨_, htyped, _, hagree, _, htarget, hrow⟩ := h
  obtain rfl := Except.ok.inj hrow
  refine ⟨⟨htyped, ?_, checkTarget_ok htarget⟩, rfl⟩
  intro m hm
  simpa [hm] using hagree

/-! ## The steps -/

theorem Sound.mono (h : Sound c u) (hm : c'.models = c.models)
    (ht : ∀ v ∈ c.units.rows, u.installedOn = some v.id → c.Hosts v →
      ∃ v' ∈ c'.units.rows, v'.id = v.id ∧ c'.Hosts v') : Sound c' u := by
  refine ⟨h.typed, fun m hmodel => ?_, fun t hinst => ?_⟩
  · rw [Tables.modelType, hm]
    exact h.model m hmodel
  · obtain ⟨hne, v, hv, rfl, hhost⟩ := h.target t hinst
    exact ⟨hne, ht v hv hinst hhost⟩

theorem Valid.insertUnit (h : Valid c) (hins : insertUnit c new = .ok c') : Valid c' := by
  simp only [Inventory.insertUnit, bind_ok] at hins
  obtain ⟨row, hrow, _, -, hc⟩ := hins
  obtain rfl := Except.ok.inj hc
  have hkeep : ∀ {u}, Sound c u →
      Sound { c with units := c.units.push (fun id => { row with id := id }) fun _ => rfl } u :=
    fun hu => hu.mono rfl fun v hv _ hhost => ⟨v, Serial.mem_push.2 (.inl hv), rfl, hhost⟩
  intro u hu
  rcases Serial.mem_push.1 hu with hu | rfl
  · exact hkeep (h u hu)
  have hs := hkeep (beforeInsert_ok hrow)
  refine ⟨hs.typed, hs.model, fun t hinst => ⟨?_, (hs.target t hinst).2⟩⟩
  obtain ⟨-, v, hv, rfl, -⟩ := (beforeInsert_ok hrow).target t hinst
  exact Nat.ne_of_gt (c.units.bounded v hv).2

theorem Valid.insertUnits {n : Nat} (h : Valid c) (hins : insertUnits new n c = .ok c') :
    Valid c' := by
  induction n generalizing c with
  | zero => exact Except.ok.inj hins ▸ h
  | succ n ih =>
    obtain ⟨mid, hmid, hrest⟩ := bind_ok.1 hins
    exact ih (h.insertUnit hmid) hrest

theorem Valid.createComponents {count : Nat} (h : Valid c)
    (hc : createComponents c b count = .ok c') : Valid c' := by
  simp only [Inventory.createComponents, bind_ok] at hc
  obtain ⟨_, -, _, -, _, -, hins⟩ := hc
  exact h.insertUnits hins

theorem Valid.setKind {type : Nat} (h : Valid c)
    (hc : c.setKind type kind = .ok c') : Valid c' := by
  unfold Tables.setKind at hc
  split at hc
  · cases hc
  next hfree =>
  obtain rfl := Except.ok.inj hc
  intro u hu
  refine (h u hu).mono rfl fun v hv hinst hhost => ⟨v, hv, rfl, ?_⟩
  obtain ⟨k, hk, hsoft⟩ := hhost
  obtain ⟨t, ht, rfl⟩ := Option.map_eq_some_iff.1 hk
  obtain ⟨n, hn, hfind⟩ := Option.bind_eq_some_iff.1 ht
  have hnew : (c.types.update (fun t => if t.id = type then { t with kind := kind } else t)
      (by intro t; split <;> rfl)).find? n =
        some (if t.id = type then { t with kind := kind } else t) := by
    rw [Table.find?_update, hfind, Option.map_some]
  refine ⟨_, Option.map_eq_some_iff.2 ⟨_, Option.bind_eq_some_iff.2 ⟨n, hn, hnew⟩, rfl⟩, ?_⟩
  split
  · next heq =>
    rintro rfl
    -- the trigger has looked for a unit installed on one of this type
    have hid : n = type := (Table.find?_eq_some.1 hfind).2.symm.trans heq
    subst hid
    refine hfree ⟨rfl, ?_, v, hv, hn, u, hu, hinst⟩
    rw [Tables.kind, Option.bind_some, hfind]
    exact fun hs => hsoft (Option.some.inj hs)
  · exact hsoft

/-- An edit that would make software of a unit on which others are installed. -/
def Demotes (c : Tables) (id : Nat) (b : ComponentBody) : Prop :=
  (∃ v ∈ c.units.rows, v.installedOn = some id) ∧
    ∃ current ∈ c.units.rows, current.id = id ∧ current.retired = false ∧
      ∃ i, invComponentIdentity c b (some current) = .ok i ∧ i.kind = .software

theorem invComponentIdentity_ok {current : Option HardwareUnit}
    (h : invComponentIdentity c b current = .ok i) :
    c.kind (some i.productTypeId) = some i.kind ∧ (i.setProductType = false →
        i.modelId = none ∧ current.bind (·.productTypeId) = some i.productTypeId) ∧
      ∀ m t, i.modelId = some m → c.modelType m = some t → t = i.productTypeId := by
  simp only [invComponentIdentity, bind_ok] at h
  obtain ⟨_, -, modelId, -, _, -, _, -, typeId, htype, _, hagree, h⟩ := h
  split at h
  · cases h
  next t ht =>
  split at h
  · cases h
  next type hfind =>
  obtain ⟨_, -, hi⟩ := bind_ok.1 h
  obtain rfl := Except.ok.inj hi
  refine ⟨by simp [Tables.kind, hfind], fun hset => ?_, fun m s hm hs => ?_⟩
  · simp only [Bool.or_eq_false_iff, Option.isSome_eq_false_iff, Option.isNone_iff_eq_none] at hset
    obtain ⟨hno, rfl⟩ := hset
    refine ⟨rfl, ?_⟩
    have hnone : typeId = none := by
      cases hb : b.productTypeId <;> simp_all [IdArg.number]
    simpa [hnone] using ht
  · subst hm
    simpa [hs] using ht

theorem follow_productTypeId {t : Nat} (ht : new.productTypeId = some t)
    (hm : ∀ m s, new.modelId = some m → new.modelId ≠ old.modelId → c.modelType m = some s → s = t)
    (htyped : (c.follow old new).productTypeId ≠ none) :
    (c.follow old new).productTypeId = some t := by
  obtain ⟨s, hs⟩ := Option.ne_none_iff_exists'.1 htyped
  rw [hs]
  unfold Tables.follow at hs
  split at hs
  · exact hs.symm.trans ht
  split at hs
  · next hfollow =>
    obtain ⟨hmodel, hnone | ⟨hne, -⟩⟩ := hfollow
    · cases hnone.symm.trans ht
    obtain ⟨m, hmodel⟩ := Option.ne_none_iff_exists'.1 hmodel
    rw [hm m s hmodel hne ?_]
    simpa [hmodel] using hs
  · exact hs.symm.trans ht

theorem follow_id (c : Tables) (old new : HardwareUnit) : (c.follow old new).id = new.id := by
  unfold Tables.follow
  split
  · rfl
  · split <;> rfl

theorem editComponent_ok (h : editComponent c id b = .ok c') :
    ∃ current row i, current ∈ c.units.rows ∧ current.id = id ∧ current.retired = false ∧
      invComponentIdentity c b (some current) = .ok i ∧ Sound c row ∧ row.id = id ∧
      row.productTypeId = some i.productTypeId ∧ c'.types = c.types ∧ c'.models = c.models ∧
      ∀ u, u ∈ c'.units.rows ↔ u = row ∨ u ∈ c.units.rows ∧ u.id ≠ id := by
  unfold editComponent at h
  split at h
  · cases h
  next current hfind =>
  have hcur := List.find?_some hfind
  simp only [decide_eq_true_eq] at hcur
  simp only [bind_ok] at h
  obtain ⟨i, hi, ⟨target, licensed⟩, -, _, -, row, hrow, _, -, hc⟩ := h
  obtain rfl := Except.ok.inj hc
  obtain ⟨hsound, hfollow⟩ := beforeUpdate_ok hrow
  obtain ⟨-, hkeep, hmodel⟩ := invComponentIdentity_ok hi
  have hid : row.id = id := by rw [hfollow, follow_id, hcur.1]
  refine ⟨current, row, i, mem_of_find?_eq_some hfind, hcur.1, hcur.2, hi, hsound, hid,
    ?_, rfl, rfl,
    fun u => ?_⟩
  · rw [hfollow]
    refine follow_productTypeId ?_ (fun m s hm hne => ?_) (hfollow ▸ hsound.typed)
    · by_cases hset : i.setProductType = true
      · exact if_pos hset
      · exact (if_neg hset).trans (hkeep (Bool.not_eq_true _ ▸ hset)).2
    · by_cases hset : i.setModel = true
      · exact hmodel m s ((if_pos hset).symm.trans hm)
      · exact absurd (if_neg hset) hne
  · constructor
    · intro hu
      obtain ⟨q, hq, rfl⟩ := mem_map.1 hu
      by_cases hqid : q.id = id
      · rw [if_pos hqid, hqid, ← hid]
        exact .inl rfl
      · rw [if_neg hqid]
        exact .inr ⟨hq, hqid⟩
    · rintro (rfl | ⟨hu, hne⟩)
      · refine mem_map.2 ⟨current, mem_of_find?_eq_some hfind, ?_⟩
        rw [if_pos hcur.1, hcur.1, ← hid]
      · exact mem_map.2 ⟨u, hu, if_neg hne⟩

theorem Valid.edit_iff (h : Valid c) (hedit : editComponent c id b = .ok c') :
    Valid c' ↔ ¬ Demotes c id b := by
  obtain ⟨current, row, i, hcur, hid, hlive, hi, hsound, hrow, htype, htypes, hmodels, hunits⟩ :=
    editComponent_ok hedit
  have hkind := (invComponentIdentity_ok hi).1
  have hhosts : c'.Hosts = c.Hosts := by
    funext u
    rw [Tables.Hosts, Tables.Hosts, Tables.kind, Tables.kind, htypes]
  have hrowkind : c.Hosts row ↔ i.kind ≠ .software := by simp [Tables.Hosts, htype, hkind]
  constructor
  · rintro hvalid ⟨⟨v, hv, hinst⟩, q, hq, hqid, -, j, hj, hsoft⟩
    obtain rfl := c.units.eq_of_id hq hcur (hqid.trans hid.symm)
    obtain rfl := Except.ok.inj (hi.symm.trans hj)
    obtain ⟨hne, -⟩ := (h v hv).target id hinst
    obtain ⟨-, w, hw, hwid, hhost⟩ := (hvalid v ((hunits v).2 (.inr ⟨hv, hne⟩))).target id hinst
    rcases (hunits w).1 hw with rfl | ⟨-, hwne⟩
    · exact hrowkind.1 (hhosts ▸ hhost) hsoft
    · exact hwne hwid
  · intro hkeep u hu
    have hlost : ∀ v ∈ c.units.rows, u.installedOn = some v.id → c.Hosts v →
        ∃ v' ∈ c'.units.rows, v'.id = v.id ∧ c'.Hosts v' := by
      intro v hv hinst hhost
      by_cases hvid : v.id = id
      · refine ⟨row, (hunits row).2 (.inl rfl), hrow.trans hvid.symm, ?_⟩
        rw [hhosts, hrowkind]
        intro hsoft
        rcases (hunits u).1 hu with rfl | ⟨hu, -⟩
        · exact (hsound.target v.id hinst).1 (hrow.trans hvid.symm)
        · exact hkeep ⟨⟨u, hu, hvid ▸ hinst⟩, current, hcur, hid, hlive, i, hi, hsoft⟩
      · exact ⟨v, (hunits v).2 (.inr ⟨hv, hvid⟩), rfl, hhosts ▸ hhost⟩
    rcases (hunits u).1 hu with rfl | ⟨hu, -⟩
    · exact hsound.mono hmodels hlost
    · exact (h u hu).mono hmodels hlost

/-! ## Whole runs -/

inductive Request where
  | create (b : ComponentBody) (count : Nat)
  | edit (id : Nat) (b : ComponentBody)
  | setKind (type : Nat) (kind : ProductKind)

def Request.run (c : Tables) : Request → Except String Tables
  | .create b count => createComponents c b count
  | .edit id b => editComponent c id b
  | .setKind type kind => c.setKind type kind

def Request.Demotes (c : Tables) : Request → Prop
  | .edit id b => Inventory.Demotes c id b
  | _ => False

theorem Valid.run_iff {r : Request} (h : Valid c) (hrun : r.run c = .ok c') :
    Valid c' ↔ ¬ r.Demotes c := by
  cases r with
  | create b count => exact iff_of_true (h.createComponents hrun) id
  | edit id b => exact h.edit_iff hrun
  | setKind type kind => exact iff_of_true (h.setKind hrun) id

/-- **Installation targets and catalogue identity stay valid** in the runs in which no edit makes
software of a unit on which others are installed; an edit that does is accepted. -/
theorem installations_stay_valid (h : Valid c)
    (hrun : Relation.ReflTransGen (fun c c' => ∃ r : Request, r.run c = .ok c' ∧
      ¬ r.Demotes c) c c') :
    Valid c' ∧ ∀ (r : Request) (c'' : Tables), r.run c' = .ok c'' →
      (Valid c'' ↔ ¬ r.Demotes c') := by
  have hvalid : Valid c' := by
    induction hrun with
    | refl => exact h
    | tail _ hstep ih =>
      obtain ⟨r, hr, hkeep⟩ := hstep
      exact (ih.run_iff hr).2 hkeep
  exact ⟨hvalid, fun r c'' hr => hvalid.run_iff hr⟩

def laptop : Tables where
  types := ⟨[⟨1, .hardware, false⟩, ⟨2, .software, false⟩], by decide⟩
  models := .empty
  units := ⟨[⟨1, none, some 1, none, false, false⟩, ⟨2, none, some 2, some 1, false, false⟩], 3,
    by decide, by decide, by decide⟩

theorem laptop_valid : Valid laptop := by
  intro u hu
  simp only [laptop, mem_cons, not_mem_nil, or_false] at hu
  rcases hu with rfl | rfl
  · refine ⟨by decide, ?_, ?_⟩ <;> intro _ h <;> cases h
  · refine ⟨by decide, ?_, ?_⟩ <;> intro _ h <;> cases h
    exact ⟨by decide, _, mem_cons_self, rfl, .hardware, rfl, by decide⟩

theorem installations_valid_removed :
    ∃ c', Request.run laptop (.edit 2 { installedOn := .empty }) = .ok c' ∧ Valid c' := by
  refine ⟨_, rfl, (installations_stay_valid laptop_valid (.single
    ⟨.edit 2 { installedOn := .empty }, rfl, ?_⟩)).1⟩
  rintro ⟨⟨v, hv, hinst⟩, -⟩
  simp only [laptop, mem_cons, not_mem_nil, or_false] at hv
  rcases hv with rfl | rfl <;> cases hinst

/-- The laptop is edited into a program of type 2, with the other program still installed on it. -/
theorem target_becomes_software : Valid laptop ∧
    ∃ c', editComponent laptop 1 { productTypeId := .id 2 } = .ok c' ∧ ¬ Valid c' := by
  obtain ⟨c', hc⟩ : ∃ c', editComponent laptop 1 { productTypeId := .id 2 } = .ok c' := ⟨_, rfl⟩
  refine ⟨laptop_valid, c', hc, fun hvalid => ?_⟩
  refine (laptop_valid.edit_iff hc).1 hvalid ⟨⟨_, mem_cons_of_mem _ mem_cons_self, rfl⟩, ?_⟩
  exact ⟨_, mem_cons_self, rfl, rfl, _, rfl, rfl⟩

end SolariNet.Inventory
