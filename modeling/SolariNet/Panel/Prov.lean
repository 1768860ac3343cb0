/-
# Provisioning on the panel

`firmware/panelProv.c`: a `PROVISION` frame carries one chunk of one item.  The panel stages the
items of a session, which is named by the generation byte of the frames, and answers each frame
with the number of bytes it has accepted of the item.  A `COMMIT` validates the staged set and
hands it to the credential store; a `WIPE` clears both.

The staging area is modelled as the accepted bytes of each item, so that the watermark `fill` is
their number; the bound of each item is part of the type.
-/
import Mathlib.Data.Fin.VecNotation
import Mathlib.Data.List.OfFn
import SolariNet.Panel.Store
import SolariNet.Panel.Utf8

namespace SolariNet

open Function List Lib

/-! ## Payload codecs (`protocol.c`) -/

def panelProvHdrSize : Nat := 6
def panelProvAckSize : Nat := 5
def panelProvChunk : Nat := 192

namespace PanelProvItem

def ssid : UInt8 := 1
def commit : UInt8 := 8
def wipe : UInt8 := 9

end PanelProvItem

def PanelProvStatus.code : PanelProvStatus → UInt8
  | .ok => 0
  | .formatInvalid => 1
  | .storageFull => 2
  | .rejectedWifi => 3
  | .commitInvalid => 4
  | .offsetMismatch => 5
  | .flashIo => 6
  | .cryptoInvalid => 7
  | .busy => 8

theorem PanelProvStatus.code_inj {a b : PanelProvStatus} (h : a.code = b.code) : a = b := by
  revert h
  cases a <;> cases b <;> decide

structure Provision where
  itemId : UInt8
  generation : UInt8
  offset : UInt16
  data : Bytes

def panelEncodeProvision (p : Provision) : Option Bytes :=
  if panelProvHdrSize + p.data.length > panelMaxPayload then none
  else some ([p.itemId, p.generation] ++ writeLe16 p.offset ++
    writeLe16 (UInt16.ofNat p.data.length) ++ p.data)

def panelDecodeProvision (payload : Bytes) : Option Provision :=
  if payload.length < panelProvHdrSize ∨ payload.length > panelMaxPayload then none
  else if (readLe16 payload 4).toNat ≠ payload.length - panelProvHdrSize then none
  else some ⟨payload.getD 0 0, payload.getD 1 0, readLe16 payload 2, payload.drop panelProvHdrSize⟩

structure ProvAck where
  itemId : UInt8
  status : UInt8
  generation : UInt8
  nextOffset : UInt16

def panelEncodeProvAck (a : ProvAck) : Bytes :=
  [a.itemId, a.status, a.generation] ++ writeLe16 a.nextOffset

def panelDecodeProvAck (payload : Bytes) : Option ProvAck :=
  if payload.length < panelProvAckSize then none
  else some ⟨payload.getD 0 0, payload.getD 1 0, payload.getD 2 0, readLe16 payload 3⟩

theorem panelDecodeProvision_encode
    (h : panelEncodeProvision p = some payload) : panelDecodeProvision payload = some p := by
  obtain ⟨hmax, h⟩ := Option.ite_none_left_eq_some.1 h
  set hdr := [p.itemId, p.generation] ++ writeLe16 p.offset with hhdr
  set len := writeLe16 (UInt16.ofNat p.data.length)
  cases h
  have hlen : (hdr ++ len ++ p.data).length = panelProvHdrSize + p.data.length := by
    simp [hhdr, len, panelProvHdrSize]
    omega
  have hdl : (readLe16 (hdr ++ len ++ p.data) 4).toNat = p.data.length := by
    rw [readLe16_append _ (by simp [hhdr]), UInt16.toNat_ofNat',
      Nat.mod_eq_of_lt (by unfold panelMaxPayload panelProvHdrSize at hmax; omega)]
  have hoff : readLe16 (hdr ++ len ++ p.data) 2 = p.offset := by
    rw [append_assoc hdr]
    exact readLe16_append _ rfl
  unfold panelDecodeProvision
  rw [if_neg (by rw [hlen]; omega), if_neg (by rw [hdl]; omega), hoff]
  rfl

theorem panelDecodeProvAck_encode (a : ProvAck) :
    panelDecodeProvAck (panelEncodeProvAck a) = some a := by
  have hnext : readLe16 (panelEncodeProvAck a) 3 = a.nextOffset := by
    have h := readLe16_append (a := [a.itemId, a.status, a.generation]) (r := []) a.nextOffset rfl
    rwa [append_nil] at h
  unfold panelDecodeProvAck
  rw [hnext]
  rfl

/-! ## Staging -/

def kItemMax : Fin 10 → Nat := ![32, 63, 253, 2, 2048, 4096, 2048, 0, 0, 253]

structure PanelProv where
  active : Bool
  generation : UInt8
  staged : Fin 10 → Bytes
  bounded : ∀ i, (staged i).length ≤ kItemMax i

def panelProvInit : PanelProv := ⟨false, 0, fun _ => [], fun _ => Nat.zero_le _⟩

def startSession (generation : UInt8) : PanelProv :=
  ⟨true, generation, fun _ => [], fun _ => Nat.zero_le _⟩

def PanelProv.put (p : PanelProv) (i : Fin 10) (b : Bytes) (hb : b.length ≤ kItemMax i) :
    PanelProv where
  active := p.active
  generation := p.generation
  staged := Function.update p.staged i b
  bounded := (forall_update_iff _ fun j (b : Bytes) => b.length ≤ kItemMax j).2
    ⟨hb, fun j _ => p.bounded j⟩

def PanelProv.items (p : PanelProv) : Items where
  vals := ofFn p.staged
  count := length_ofFn
  small := by
    intro v hv
    obtain ⟨i, rfl⟩ := (mem_ofFn' p.staged v).1 hv
    have hmax : ∀ i, kItemMax i < 65536 := by decide
    exact Nat.lt_of_le_of_lt (p.bounded i) (hmax i)

/-! ## Validation of the staged set -/

def isAlnumByte (c : UInt8) : Bool :=
  (c ≥ 97 && c ≤ 122) || (c ≥ 65 && c ≤ 90) || (c ≥ 48 && c ≤ 57)

/-- The loop of `validHostname`, with the byte before and the length of the label so far. -/
def hostnameLoop : Bytes → UInt8 → Nat → Bool
  | [], prev, labelLen => labelLen > 0 && prev != 45
  | c :: s, prev, labelLen =>
    if c == 46 then
      if labelLen == 0 || prev == 45 then false else hostnameLoop s c 0
    else if isAlnumByte c || c == 45 then
      if c == 45 && labelLen == 0 then false
      else if labelLen + 1 > 63 then false
      else hostnameLoop s c (labelLen + 1)
    else false

def validHostname (s : Bytes) : Bool :=
  if s.length == 0 || s.length > 253 || s.getD 0 0 == 46 || s.getD (s.length - 1) 0 == 46 then false
  else hostnameLoop s 0 0

structure PanelProvCrypto where
  validCert : Bytes → Bool → Bool
  validKey : Bytes → Bool
  keyMatchesCert : Bytes → Bytes → Bool

def acceptAll : Option PanelProvCrypto := some ⟨fun _ _ => true, fun _ => true, fun _ _ => true⟩

def panelProvMinPsk : Nat := 8

def validateStaged (p : PanelProv) (crypto : Option PanelProvCrypto) : PanelProvStatus :=
  if [0, 1, 2, 3, 4, 5, 6].any fun i => (p.staged i).length == 0 then .commitInvalid
  else if (p.staged 1).length < panelProvMinPsk then .commitInvalid
  else if (p.staged 3).length ≠ 2 then .commitInvalid
  else if readLe16 (p.staged 3) 0 = 0 then .commitInvalid
  else if !validUtf8 (p.staged 0) then .commitInvalid
  else if (p.staged 1).any fun c => c < 32 || c > 126 then .commitInvalid
  else if !validHostname (p.staged 2) then .commitInvalid
  else if (p.staged 9).length ≠ 0 ∧ validHostname (p.staged 9) = false then .commitInvalid
  else match crypto with
    | none => .cryptoInvalid
    | some c =>
      if !c.validCert (p.staged 4) true || !c.validCert (p.staged 5) false then .cryptoInvalid
      else if !c.validKey (p.staged 6) then .cryptoInvalid
      else if !c.keyMatchesCert (p.staged 6) (p.staged 5) then .cryptoInvalid
      else .ok

/-! ## The handler -/

structure PanelState where
  prov : PanelProv
  store : PanelProvStore
  flash : Flash

def itemIdx (itemId : UInt8) : Option (Fin 10) :=
  if h : 1 ≤ itemId.toNat ∧ itemId.toNat ≤ 10 then
    let i : Fin 10 := ⟨itemId.toNat - 1, by omega⟩
    if kItemMax i = 0 then none else some i
  else none

def provItem (p : PanelProv) (i : Fin 10) (m : Provision) : PanelProv × PanelProvStatus × Nat :=
  let p := if p.active = false ∨ m.generation ≠ p.generation then startSession m.generation else p
  let p := if m.offset = 0 then p.put i [] (Nat.zero_le _) else p
  let fill := (p.staged i).length
  if m.offset.toNat > fill then (p, .offsetMismatch, fill)
  else if m.offset.toNat < fill then (p, .ok, fill)
  else if h : (p.staged i ++ m.data).length ≤ kItemMax i then
    (p.put i (p.staged i ++ m.data) h, .ok, fill + m.data.length)
  else (p, .formatInvalid, fill)

def provCommit (crypto : Option PanelProvCrypto) (s : PanelState) (m : Provision) (w : WriteFate) :
    PanelState × PanelProvStatus :=
  let p := if s.prov.active = true ∧ m.generation ≠ s.prov.generation then
    startSession m.generation else s.prov
  if m.data.length ≠ 0 ∨ m.offset ≠ 0 then (⟨p, s.store, s.flash⟩, .formatInvalid)
  else if p.active = false then (⟨p, s.store, s.flash⟩, .commitInvalid)
  else if validateStaged p crypto ≠ .ok then (⟨p, s.store, s.flash⟩, validateStaged p crypto)
  else
    let r := panelProvStoreCommit s.store s.flash p.items w
    (⟨if r.1 = .ok then panelProvInit else p, r.2.1, r.2.2⟩, r.1)

def provWipe (s : PanelState) (m : Provision) (w0 w1 : WriteFate) : PanelState × PanelProvStatus :=
  if m.data.length ≠ 0 ∨ m.offset ≠ 0 then (s, .formatInvalid)
  else
    let r := panelProvStoreWipe s.flash w0 w1
    (⟨panelProvInit, r.2.1, r.2.2⟩, if r.1 then .ok else .flashIo)

def provAckOf (payload : Bytes) (status : PanelProvStatus) (next : Nat) : Bytes :=
  panelEncodeProvAck ⟨payload.getD 0 0, status.code, payload.getD 1 0, UInt16.ofNat next⟩

def panelProvHandle (crypto : Option PanelProvCrypto) (s : PanelState) (payload : Bytes)
    (onWifi : Bool) (w0 w1 : WriteFate) : PanelState × Bytes :=
  if onWifi then (s, provAckOf payload .rejectedWifi 0)
  else match panelDecodeProvision payload with
    | none => (s, provAckOf payload .formatInvalid 0)
    | some m =>
      if m.itemId = PanelProvItem.wipe then
        let r := provWipe s m w0 w1
        (r.1, provAckOf payload r.2 0)
      else if m.itemId = PanelProvItem.commit then
        let r := provCommit crypto s m w0
        (r.1, provAckOf payload r.2 0)
      else match itemIdx m.itemId with
        | none => (s, provAckOf payload .formatInvalid 0)
        | some i =>
          let r := provItem s.prov i m
          (⟨r.1, s.store, s.flash⟩, provAckOf payload r.2.1 r.2.2)

/-! ## What the handler does -/

def PanelProv.openBytes (p : PanelProv) (generation : UInt8) (i : Fin 10) : Bytes :=
  if p.active = true ∧ p.generation = generation then p.staged i else []

def accept (i : Fin 10) (m : Provision) (b : Bytes) : Bytes :=
  let kept := if m.offset = 0 then [] else b
  if m.offset.toNat = kept.length ∧ (kept ++ m.data).length ≤ kItemMax i then kept ++ m.data
  else kept

def acceptStatus (i : Fin 10) (m : Provision) (b : Bytes) : PanelProvStatus :=
  let kept := if m.offset = 0 then [] else b
  if m.offset.toNat > kept.length then .offsetMismatch
  else if m.offset.toNat < kept.length ∨ (kept ++ m.data).length ≤ kItemMax i then .ok
  else .formatInvalid

theorem provItem_eq (p : PanelProv) (i : Fin 10) (m : Provision) :
    (provItem p i m).1.active = true ∧ (provItem p i m).1.generation = m.generation ∧
      (provItem p i m).1.staged i = accept i m (p.openBytes m.generation i) ∧
      (∀ j, j ≠ i → (provItem p i m).1.staged j = p.openBytes m.generation j) ∧
      (provItem p i m).2 = (acceptStatus i m (p.openBytes m.generation i),
        ((provItem p i m).1.staged i).length) := by
  -- the session the chunk belongs to
  obtain ⟨q, hq, hqa, hqg, hqs⟩ : ∃ q : PanelProv,
      (if p.active = false ∨ m.generation ≠ p.generation then startSession m.generation
        else p) = q ∧ q.active = true ∧ q.generation = m.generation ∧
        ∀ j, p.openBytes m.generation j = q.staged j := by
    by_cases h : p.active = false ∨ m.generation ≠ p.generation
    · refine ⟨_, if_pos h, rfl, rfl, fun j => if_neg ?_⟩
      rintro ⟨ha, hg⟩
      exact h.elim (fun hf => by simp [ha] at hf) (fun hne => hne hg.symm)
    · rw [not_or, not_not, Bool.not_eq_false] at h
      exact ⟨p, if_neg (by simp [h]), h.1, h.2.symm, fun j => if_pos ⟨h.1, h.2.symm⟩⟩
  -- the item restarted, where the chunk does that
  obtain ⟨r, hr, hra, hrg, hri, hrj⟩ : ∃ r : PanelProv,
      (if m.offset = 0 then q.put i [] (Nat.zero_le _) else q) = r ∧ r.active = true ∧
        r.generation = m.generation ∧ (if m.offset = 0 then [] else q.staged i) = r.staged i ∧
        ∀ j, j ≠ i → r.staged j = q.staged j := by
    by_cases h : m.offset = 0
    · refine ⟨_, if_pos h, hqa, hqg, ?_, fun j hj => update_of_ne hj _ _⟩
      rw [if_pos h]
      exact (update_self i [] q.staged).symm
    · exact ⟨q, if_neg h, hqa, hqg, if_neg h, fun _ _ => rfl⟩
  simp only [hqs, accept, acceptStatus, hri]
  simp only [provItem, hq, hr]
  split
  · exact ⟨hra, hrg, (if_neg (by omega)).symm, hrj, rfl⟩
  split
  · next hlt => exact ⟨hra, hrg, (if_neg (by omega)).symm, hrj, by rw [if_pos (.inl hlt)]⟩
  next hge =>
  split
  · next hfit =>
    refine ⟨hra, hrg, ?_, fun j hj => ?_, ?_⟩
    · exact (update_self ..).trans (if_pos ⟨by omega, hfit⟩).symm
    · rw [← hrj j hj]
      exact update_of_ne hj ..
    · simp only [PanelProv.put, update_self, length_append, hge, false_or,
        if_pos (length_append ▸ hfit)]
  · next hfit =>
    refine ⟨hra, hrg, (if_neg fun h => hfit h.2).symm, hrj, ?_⟩
    rw [if_neg (not_or.2 ⟨hge, hfit⟩)]

theorem provCommit_spec (crypto : Option PanelProvCrypto)
    (hg : s.prov.active = true → s.prov.generation = m.generation) :
    ((provCommit crypto s m w).2 ≠ .ok ∧ (provCommit crypto s m w).1.prov = s.prov ∧
        (provCommit crypto s m w).1.store = s.store) ∨
      ((provCommit crypto s m w).2 = .ok ∧ s.prov.active = true ∧
        (provCommit crypto s m w).1.prov = panelProvInit ∧
        (provCommit crypto s m w).1.store.valid = true ∧
        (provCommit crypto s m w).1.store.items = ofFn s.prov.staged ∧
        decodeRecord
            ((provCommit crypto s m w).1.flash (provCommit crypto s m w).1.store.activeSlot) =
          some ⟨(provCommit crypto s m w).1.store.generation, ofFn s.prov.staged⟩) := by
  have hs : ¬ (s.prov.active = true ∧ m.generation ≠ s.prov.generation) := by
    rintro ⟨ha, hne⟩
    exact hne (hg ha).symm
  have hformat : PanelProvStatus.formatInvalid ≠ .ok := by decide
  have hinvalid : PanelProvStatus.commitInvalid ≠ .ok := by decide
  simp only [provCommit]
  split
  · exact .inl ⟨hformat, rfl, rfl⟩
  split
  · exact .inl ⟨hinvalid, rfl, rfl⟩
  next hact =>
  split
  · next hv => exact .inl ⟨hv, rfl, rfl⟩
  have hstores := panelProvStoreCommit_stores s.store s.flash s.prov.items w
  generalize panelProvStoreCommit s.store s.flash s.prov.items w = r at hstores ⊢
  obtain ⟨hok, hval, hitems, hflash⟩ | ⟨hne, hstore⟩ := hstores
  · exact .inr ⟨hok, by simpa using hact, if_pos hok, hval, hitems, hflash⟩
  · exact .inl ⟨hne, if_neg hne, hstore⟩

end SolariNet
