/-
# The table of privileged requests

`ctlRequest` and the statements `serverDb.c` sends to it.  The primary key is a serial id; the
unique index over requester and idempotency key compares as the table's collation does, and leaves
rows without a key alone.
-/
import SolariNet.Server.Tables

namespace SolariNet

open List Lib

inductive RequestState where
  | pending
  | claimed
  | done
  | failed
  deriving DecidableEq, Repr

structure CtlRequestRow where
  id : Nat
  verb : Bytes
  argsWire : Bytes
  requestedBy : Bytes
  idempotencyKey : Option Bytes
  state : RequestState
  attempts : Nat
  claimedBy : Option Bytes
  result : Option Bytes
  error : Option Bytes
  deriving DecidableEq

def textKey (s : Bytes) : CStr := collate (s.map fun b => Char.ofNat b.toNat)

/-- The entry of a row in the unique index. -/
def idemKey (requestedBy : Bytes) (key : Option Bytes) : Option (CStr × CStr) :=
  key.map fun k => (textKey requestedBy, textKey k)

def CtlRequestRow.idem (r : CtlRequestRow) : Option (CStr × CStr) :=
  idemKey r.requestedBy r.idempotencyKey

def CtlRequestRow.claim (claimedBy : Bytes) (r : CtlRequestRow) : CtlRequestRow :=
  { r with state := .claimed, claimedBy := some claimedBy, attempts := r.attempts + 1 }

def CtlRequestRow.finish (ok : Bool) (text : Bytes) (r : CtlRequestRow) : CtlRequestRow :=
  { r with
    state := if ok then .done else .failed
    result := if ok then some text else r.result
    error := if ok then r.error else some text }

structure CtlRequests where
  serial : Serial CtlRequestRow.id
  unique : ∀ r ∈ serial.rows, ∀ q ∈ serial.rows, ∀ k, r.idem = some k → q.idem = some k → r = q

namespace CtlRequests

def empty : CtlRequests := ⟨Serial.empty, by simp [Serial.empty]⟩

abbrev rows (t : CtlRequests) : List CtlRequestRow := t.serial.rows

def newRow (verb argsWire requestedBy : Bytes) (key : Option Bytes) (id : Nat) : CtlRequestRow :=
  ⟨id, verb, argsWire, requestedBy, key, .pending, 0, none, none, none⟩

def taken (t : CtlRequests) (requestedBy : Bytes) (key : Option Bytes) : Bool :=
  t.rows.any fun r => r.idem.isSome && r.idem == idemKey requestedBy key

variable {t t' : CtlRequests} {requestedBy argsWire : Bytes} {key : Option Bytes}
  {r r' : CtlRequestRow}

theorem taken_eq_false (h : t.taken requestedBy key = false) :
    ∀ r ∈ t.rows, ∀ k, r.idem = some k → idemKey requestedBy key ≠ some k := by
  intro r hr k hk heq
  have := any_eq_false.1 h r hr
  simp [hk, heq] at this

def insert (t : CtlRequests) (verb argsWire requestedBy : Bytes) (key : Option Bytes) :
    Option CtlRequests :=
  if h : t.taken requestedBy key = true then none
  else some
    { serial := t.serial.push (newRow verb argsWire requestedBy key) fun _ => rfl
      unique := by
        have hnew := taken_eq_false (Bool.eq_false_iff.2 h)
        intro r hr q hq k hk hk'
        rcases Serial.mem_push.1 hr with hr | rfl <;> rcases Serial.mem_push.1 hq with hq | rfl
        · exact t.unique r hr q hq k hk hk'
        · exact absurd hk' (hnew r hr k hk)
        · exact absurd hk (hnew q hq k hk')
        · rfl }

def update (t : CtlRequests) (f : CtlRequestRow → CtlRequestRow) (hid : ∀ r, (f r).id = r.id)
    (hidem : ∀ r, (f r).idem = r.idem) : CtlRequests where
  serial := t.serial.update f hid
  unique := by
    intro r hr q hq k hk hk'
    obtain ⟨a, ha, rfl⟩ := mem_map.1 hr
    obtain ⟨b, hb, rfl⟩ := mem_map.1 hq
    rw [hidem] at hk hk'
    rw [t.unique a ha b hb k hk hk']

theorem mem_update {f : CtlRequestRow → CtlRequestRow} {hid : ∀ r, (f r).id = r.id}
    {hidem : ∀ r, (f r).idem = r.idem} :
    r ∈ (t.update f hid hidem).rows ↔ ∃ a ∈ t.rows, f a = r := mem_map

def oldestPending (t : CtlRequests) : Option CtlRequestRow :=
  t.rows.find? fun r => r.state == .pending

/-- The claiming `UPDATE`: the id it hit, by `LAST_INSERT_ID`. -/
def claimOldest (t : CtlRequests) (claimedBy : Bytes) : Option (Nat × CtlRequests) :=
  match t.oldestPending with
  | none => none
  | some row => some (row.id, t.update
      (fun r => if r.id = row.id then CtlRequestRow.claim claimedBy r else r)
      (fun r => by split <;> rfl) (fun r => by split <;> rfl))

def complete (t : CtlRequests) (id : Nat) (ok : Bool) (text : Bytes) : Option CtlRequests :=
  if t.rows.any fun r => r.id == id && r.state == .claimed then
    some (t.update
      (fun r => if r.id = id ∧ r.state = .claimed then CtlRequestRow.finish ok text r else r)
      (fun r => by split <;> rfl) (fun r => by split <;> rfl))
  else none

def findKey (t : CtlRequests) (requestedBy key : Bytes) : Option CtlRequestRow :=
  t.rows.find? fun r => r.idem == idemKey requestedBy (some key)

def findId (t : CtlRequests) (id : Nat) : Option CtlRequestRow := t.rows.find? fun r => r.id == id

/-! ## What a statement does to a row -/

structure SameRequest (r r' : CtlRequestRow) : Prop where
  id : r'.id = r.id
  verb : r'.verb = r.verb
  argsWire : r'.argsWire = r.argsWire
  requestedBy : r'.requestedBy = r.requestedBy
  idempotencyKey : r'.idempotencyKey = r.idempotencyKey

theorem SameRequest.refl (r : CtlRequestRow) : SameRequest r r := ⟨rfl, rfl, rfl, rfl, rfl⟩

theorem SameRequest.trans (h : SameRequest r r') (h' : SameRequest r' r'') :
    SameRequest r r'' :=
  ⟨h'.id.trans h.id, h'.verb.trans h.verb, h'.argsWire.trans h.argsWire,
    h'.requestedBy.trans h.requestedBy, h'.idempotencyKey.trans h.idempotencyKey⟩

theorem SameRequest.idem (h : SameRequest r r') : r'.idem = r.idem := by
  unfold CtlRequestRow.idem
  rw [h.requestedBy, h.idempotencyKey]

inductive Moves (r r' : CtlRequestRow) : Prop where
  | stays (h : r' = r)
  | claimed (h : SameRequest r r') (hr : r.state = .pending) (hr' : r'.state = .claimed)
  | settled (h : SameRequest r r') (hr : r.state = .claimed)
      (hr' : r'.state = .done ∨ r'.state = .failed)

theorem Moves.same (h : Moves r r') : SameRequest r r' := by
  cases h with
  | stays h => exact h ▸ .refl r
  | claimed h _ _ | settled h _ _ => exact h

theorem Moves.pending (h : Moves r r') (hr : r.state ≠ .pending) : r'.state ≠ .pending := by
  cases h with
  | stays h => exact h ▸ hr
  | claimed _ hp _ => exact absurd hp hr
  | settled _ _ hr' => rcases hr' with hr' | hr' <;> rw [hr'] <;> decide

def RowsMove (t t' : CtlRequests) : Prop := ∀ r ∈ t.rows, ∃ r' ∈ t'.rows, Moves r r'

theorem RowsMove.refl (t : CtlRequests) : RowsMove t t := fun r hr => ⟨r, hr, .stays rfl⟩

def RowsFrom (t t' : CtlRequests) : Prop := ∀ r' ∈ t'.rows, ∃ r ∈ t.rows, SameRequest r r'

section
variable {verb : Bytes} (h : t.insert verb argsWire requestedBy key = some t')
include h

theorem insert_eq_some :
    ∀ r, r ∈ t'.rows ↔ r ∈ t.rows ∨ r = newRow verb argsWire requestedBy key t.serial.next := by
  unfold insert at h
  split at h
  · cases h
  cases h
  intro r
  show r ∈ (t.serial.push (newRow verb argsWire requestedBy key) fun _ => rfl).rows ↔ _
  exact Serial.mem_push

theorem moves_insert : RowsMove t t' :=
  fun r hr => ⟨r, (insert_eq_some h r).2 (.inl hr), .stays rfl⟩

end

theorem insert_eq_none (h : t.insert verb argsWire requestedBy key = none) :
    ∃ r ∈ t.rows, ∃ k, idemKey requestedBy key = some k ∧ r.idem = some k := by
  unfold insert at h
  split at h
  · next htaken =>
    obtain ⟨r, hr, hk⟩ := any_eq_true.1 htaken
    rw [Bool.and_eq_true, Option.isSome_iff_exists, beq_iff_eq] at hk
    obtain ⟨⟨k, hk⟩, heq⟩ := hk
    exact ⟨r, hr, k, heq ▸ hk, hk⟩
  · cases h

theorem oldestPending_eq_some (h : t.oldestPending = some row) :
    row ∈ t.rows ∧ row.state = .pending ∧ ∀ r ∈ t.rows, r.state = .pending → row.id ≤ r.id := by
  obtain ⟨hp, a, b, hab, hbefore⟩ := List.find?_eq_some_iff_append.1 h
  have hrow : row ∈ t.rows := List.mem_of_find?_eq_some h
  refine ⟨hrow, by simpa using hp, fun r hr hr' => ?_⟩
  -- rows stand in the order of their ids, and none before `row` is pending
  rw [hab] at hr
  rcases mem_append.1 hr with hr | hr
  · have := hbefore r hr
    simp [hr'] at this
  have hsorted : t.rows.Pairwise fun a b => a.id < b.id := t.serial.sorted
  rw [hab, pairwise_append] at hsorted
  rcases mem_cons.1 hr with rfl | hr
  · exact le_rfl
  · exact le_of_lt (rel_of_pairwise_cons hsorted.2.1 hr)

theorem claimOldest_eq_some {id : Nat}
    (h : t.claimOldest claimedBy = some (id, t')) :
    (∃ row ∈ t.rows, row.id = id ∧ row.state = .pending) ∧
      (∀ r ∈ t.rows, r.state = .pending → id ≤ r.id) ∧
      (∀ r ∈ t'.rows, r.id = id → r.state ≠ .pending) ∧ RowsMove t t' ∧ RowsFrom t t' := by
  unfold claimOldest at h
  split at h
  · cases h
  next row hrow =>
  cases h
  obtain ⟨hmem, hpending, hleast⟩ := oldestPending_eq_some hrow
  refine ⟨⟨row, hmem, rfl, hpending⟩, hleast, fun r hr hid => ?_, fun r hr => ?_, fun r hr => ?_⟩
  · obtain ⟨a, ha, rfl⟩ := mem_update.1 hr
    split at hid
    · next hid' => rw [if_pos hid']; exact show RequestState.claimed ≠ .pending by decide
    · next hid' => exact absurd hid hid'
  · refine ⟨_, mem_update.2 ⟨r, hr, rfl⟩, ?_⟩
    split
    · next hid =>
      cases Serial.eq_of_id hr hmem hid
      exact .claimed ⟨rfl, rfl, rfl, rfl, rfl⟩ hpending rfl
    · exact .stays rfl
  · obtain ⟨a, ha, rfl⟩ := mem_update.1 hr
    refine ⟨a, ha, ?_⟩
    split
    · exact ⟨rfl, rfl, rfl, rfl, rfl⟩
    · exact .refl a

theorem complete_eq_some {id : Nat} {ok : Bool} (h : t.complete id ok text = some t') :
    RowsMove t t' ∧ RowsFrom t t' := by
  unfold complete at h
  split at h
  · cases h
    refine ⟨fun r hr => ⟨_, mem_update.2 ⟨r, hr, rfl⟩, ?_⟩, fun r hr => ?_⟩
    · split
      · next hc =>
        refine .settled ⟨rfl, rfl, rfl, rfl, rfl⟩ hc.2 ?_
        cases ok
        · exact .inr rfl
        · exact .inl rfl
      · exact .stays rfl
    · obtain ⟨a, ha, rfl⟩ := mem_update.1 hr
      refine ⟨a, ha, ?_⟩
      split
      · exact ⟨rfl, rfl, rfl, rfl, rfl⟩
      · exact .refl a
  · cases h

theorem findKey_eq_some {key : Bytes} (h : t.findKey requestedBy key = some r) :
    r ∈ t.rows ∧ r.idem = idemKey requestedBy (some key) :=
  ⟨List.mem_of_find?_eq_some h, by simpa using List.find?_some h⟩

theorem findKey_eq_none {key : Bytes} (h : t.findKey requestedBy key = none) :
    ∀ r ∈ t.rows, r.idem ≠ idemKey requestedBy (some key) := by
  intro r hr
  simpa using List.find?_eq_none.1 h r hr

theorem findId_eq_some {id : Nat} (h : t.findId id = some r) : r ∈ t.rows ∧ r.id = id :=
  ⟨List.mem_of_find?_eq_some h, by simpa using List.find?_some h⟩

end CtlRequests

end SolariNet
