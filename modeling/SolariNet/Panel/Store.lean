/-
# The credential store in two flash slots

`panelProvStore.c`: a committed set of provisioning items is serialized into the slot that is
not active, read back and adopted; a boot elects the record with the newer generation of the
two slots.

What a flash write does is an input of the model (`WriteFate`): it is done, it fails and leaves
the slot as it was, or it is cut and leaves some other bytes.
-/
import Mathlib.Data.List.Forall2
import SolariNet.Panel.Protocol

namespace SolariNet

open Function List Lib

/-! ## Records -/

def panelProvSectorSize : Nat := 4096
def panelProvRecordMagic : UInt32 := 0x564F5250
def panelProvRecordVersion : UInt8 := 1
def panelProvRecordHdr : Nat := 30
def panelProvRecordCrc : Nat := 4

def panelProvRecordCap : Nat := panelProvSectorSize - panelProvRecordHdr - panelProvRecordCrc

/-- `kMax`: the largest length of each item; commit and wipe (8, 9) carry no data. -/
def kMax : List Nat := [32, 63, 253, 2, 2048, 4096, 2048, 0, 0, 253]

structure Items where
  vals : List Bytes
  count : vals.length = 10
  small : ∀ v ∈ vals, v.length < 65536

structure ProvRecord where
  generation : UInt32
  items : List Bytes

def panelProvCrc32Bit (crc : UInt32) : UInt32 :=
  (crc >>> 1) ^^^ (0xEDB88320 &&& (0 - (crc &&& 1)))

def panelProvCrc32 (data : Bytes) : UInt32 :=
  data.foldl (fun crc b => panelProvCrc32Bit^[8] (crc ^^^ b.toUInt32)) 0xFFFFFFFF ^^^ 0xFFFFFFFF

def decodeLens (raw : Bytes) : Nat → List Nat → Nat → Option (List Nat)
  | _, [], _ => some []
  | i, m :: ms, total =>
    let len := (readLe16 raw (10 + 2 * i)).toNat
    if len > m then none
    else if total + len > panelProvRecordCap then none
    else (decodeLens raw (i + 1) ms (total + len)).map (len :: ·)

def cutItems : List Nat → Bytes → List Bytes
  | [], _ => []
  | len :: lens, payload => payload.take len :: cutItems lens (payload.drop len)

def decodeRecord (raw : Bytes) : Option ProvRecord :=
  if readLe32 raw 0 ≠ panelProvRecordMagic ∨ raw.getD 4 0 ≠ panelProvRecordVersion ∨
      raw.getD 5 0 ≠ 0 then none
  else match decodeLens raw 0 kMax 0 with
    | none => none
    | some lens =>
      if panelProvCrc32 (raw.take (panelProvRecordHdr + lens.sum)) ≠
          readLe32 raw (panelProvRecordHdr + lens.sum) then none
      else some ⟨readLe32 raw 6, cutItems lens (raw.drop panelProvRecordHdr)⟩

def lenFields (vals : List Bytes) : Bytes :=
  vals.flatMap fun v => writeLe16 (UInt16.ofNat v.length)

def recordBody (generation : UInt32) (vals : List Bytes) : Bytes :=
  writeLe32 panelProvRecordMagic ++ [panelProvRecordVersion, 0] ++ writeLe32 generation ++
    lenFields vals ++ vals.flatten

/-- `encodeRecord`; `none` is its 0, the record does not fit. -/
def encodeRecord (generation : UInt32) (items : Items) : Option Bytes :=
  if (items.vals.map List.length).sum > panelProvRecordCap then none
  else some (recordBody generation items.vals ++
    writeLe32 (panelProvCrc32 (recordBody generation items.vals)))

theorem lenFields_cons (v : Bytes) (vals : List Bytes) :
    lenFields (v :: vals) = writeLe16 (UInt16.ofNat v.length) ++ lenFields vals := rfl

theorem length_lenFields (vals : List Bytes) : (lenFields vals).length = 2 * vals.length := by
  induction vals with
  | nil => rfl
  | cons v vals ih =>
    rw [lenFields_cons, length_append, length_writeLe16, length_cons]
    omega

variable {raw : Bytes} {slot : Fin 2} {f' : Flash} {items : Items} {vals : List Bytes}
  {store : PanelProvStore} {r : ProvRecord} {generation : UInt32} {w : WriteFate}

theorem decodeLens_written {ms : List Nat} {i total : Nat}
    (hpre : pre.length = 10 + 2 * i) (hsmall : ∀ v ∈ vals, v.length < 65536)
    (hcount : vals.length = ms.length)
    (hcap : total + (vals.map List.length).sum ≤ panelProvRecordCap) :
    decodeLens (pre ++ lenFields vals ++ rest) i ms total =
      if List.Forall₂ (fun v m => v.length ≤ m) vals ms then some (vals.map List.length)
      else none := by
  induction vals generalizing ms pre i total with
  | nil =>
    cases ms with
    | nil => simp [decodeLens]
    | cons m ms => simp at hcount
  | cons v vals ih =>
    cases ms with
    | nil => simp at hcount
    | cons m ms =>
      have hv := hsmall v mem_cons_self
      have hraw : pre ++ lenFields (v :: vals) ++ rest =
          pre ++ writeLe16 (UInt16.ofNat v.length) ++ (lenFields vals ++ rest) := by
        simp [lenFields_cons]
      have hlen : (readLe16 (pre ++ lenFields (v :: vals) ++ rest) (10 + 2 * i)).toNat =
          v.length := by
        rw [hraw, readLe16_append _ hpre, UInt16.toNat_ofNat', Nat.mod_eq_of_lt hv]
      simp only [map_cons, sum_cons] at hcap
      have hpre' : (pre ++ writeLe16 (UInt16.ofNat v.length)).length = 10 + 2 * (i + 1) := by
        rw [length_append, length_writeLe16]
        omega
      have hcount' : vals.length = ms.length := by simpa using hcount
      have hcap' : total + v.length + (vals.map List.length).sum ≤ panelProvRecordCap := by
        omega
      have htail := ih hpre' (fun w hw => hsmall w (mem_cons_of_mem v hw)) hcount' hcap'
      rw [decodeLens, hlen]
      by_cases hm : v.length > m
      · rw [if_pos hm, if_neg]
        intro h
        exact absurd (List.forall₂_cons.1 h).1 (by omega)
      have hle : v.length ≤ m := Nat.le_of_not_lt hm
      rw [if_neg hm, if_neg (by omega), hraw, ← append_assoc, htail]
      by_cases hf : List.Forall₂ (fun v m => v.length ≤ m) vals ms
      · rw [if_pos hf, if_pos (.cons hle hf)]
        rfl
      · rw [if_neg hf, if_neg (fun h => hf (List.forall₂_cons.1 h).2)]
        rfl

theorem cutItems_flatten (vals : List Bytes) (rest : Bytes) :
    cutItems (vals.map List.length) (vals.flatten ++ rest) = vals := by
  induction vals with
  | nil => rfl
  | cons v vals ih =>
    rw [map_cons, cutItems, flatten_cons, append_assoc, take_left, drop_left, ih]

theorem length_recordBody (h : vals.length = 10) :
    (recordBody generation vals).length = panelProvRecordHdr + (vals.map List.length).sum := by
  simp only [recordBody, length_append, length_writeLe32, length_lenFields, h,
    length_cons, length_nil, length_flatten, panelProvRecordHdr]

theorem recordBody_reads (generation : UInt32) (vals : List Bytes) (r : Bytes) :
    readLe32 (recordBody generation vals ++ r) 0 = panelProvRecordMagic ∧
      (recordBody generation vals ++ r).getD 4 0 = panelProvRecordVersion ∧
      (recordBody generation vals ++ r).getD 5 0 = 0 ∧
      readLe32 (recordBody generation vals ++ r) 6 = generation := by
  have hbody : recordBody generation vals ++ r = writeLe32 panelProvRecordMagic ++
      ([panelProvRecordVersion, 0] ++ (writeLe32 generation ++
        (lenFields vals ++ (vals.flatten ++ r)))) := by simp only [recordBody, append_assoc]
  rw [hbody]
  refine ⟨readLe32_append (a := []) _ rfl, ?_, ?_, ?_⟩
  · rw [getD_skip (by simp)]
    rfl
  · rw [getD_skip (by simp)]
    rfl
  · rw [readLe32_skip (by simp)]
    exact readLe32_append (a := []) _ rfl

/-- **Round trip.**  A sector that starts with an encoded record decodes to it, if every item is
within its bound, and is refused otherwise. -/
theorem decodeRecord_encodeRecord (h : encodeRecord generation items = some raw) (pad : Bytes) :
    decodeRecord (raw ++ pad) = if List.Forall₂ (fun v m => v.length ≤ m) items.vals kMax then
        some ⟨generation, items.vals⟩ else none := by
  unfold encodeRecord at h
  split at h
  · cases h
  next hcap =>
  cases h
  set vals := items.vals with hvals
  set body := recordBody generation vals with hbody
  set crc := writeLe32 (panelProvCrc32 body) with hcrc
  obtain ⟨hmagic, hver, hres, hgen⟩ := recordBody_reads generation vals (crc ++ pad)
  rw [append_assoc]
  have hsplit : body ++ (crc ++ pad) = (writeLe32 panelProvRecordMagic ++
      [panelProvRecordVersion, 0] ++ writeLe32 generation) ++ lenFields vals ++
        (vals.flatten ++ (crc ++ pad)) := by simp only [hbody, recordBody, append_assoc]
  have hdec : decodeLens (body ++ (crc ++ pad)) 0 kMax 0 =
      if List.Forall₂ (fun v m => v.length ≤ m) vals kMax then some (vals.map List.length)
      else none := by
    rw [hsplit]
    refine decodeLens_written (by simp) items.small ?_ (by omega)
    rw [items.count]
    rfl
  have hsize : body.length = panelProvRecordHdr + (vals.map List.length).sum :=
    length_recordBody items.count
  have hcheck : panelProvCrc32 ((body ++ (crc ++ pad)).take
      (panelProvRecordHdr + (vals.map List.length).sum)) =
        readLe32 (body ++ (crc ++ pad)) (panelProvRecordHdr + (vals.map List.length).sum) := by
    rw [take_left' hsize, ← append_assoc, readLe32_append _ hsize]
  have hpay : (body ++ (crc ++ pad)).drop panelProvRecordHdr = vals.flatten ++ (crc ++ pad) := by
    rw [hsplit]
    refine drop_left' ?_
    simp only [length_append, length_writeLe32, length_lenFields, hvals, items.count,
      length_cons, length_nil, panelProvRecordHdr]
  unfold decodeRecord
  rw [if_neg (by rw [hmagic, hver, hres]; simp), hdec]
  by_cases hf : List.Forall₂ (fun v m => v.length ≤ m) vals kMax
  · rw [if_pos hf, if_pos hf]
    show (if _ then _ else _) = _
    rw [if_neg (by rw [hcheck]; simp), hgen, hpay, cutItems_flatten]
  · rw [if_neg hf, if_neg hf]

/-! ## Flash -/

abbrev Flash : Type := Fin 2 → Bytes

instance neZeroSlots : NeZero 2 := ⟨by decide⟩

/-- What becomes of a slot write: it is done; it fails and leaves the slot as it was; it is cut
and leaves the bytes `left`, with either answer. -/
inductive WriteFate where
  | done
  | failed
  | cut (left : Bytes) (answer : Bool)
  deriving DecidableEq, Repr

def WriteFate.Torn : WriteFate → Prop
  | .cut left _ => decodeRecord left = none
  | _ => True

def sectorOf (data : Bytes) : Bytes :=
  data ++ replicate (panelProvSectorSize - data.length) 0xFF

def writeSlot (f : Flash) (slot : Fin 2) (data : Bytes) : WriteFate → Flash × Bool
  | .done => (update f slot (sectorOf data), true)
  | .failed => (f, false)
  | .cut left answer => (update f slot left, answer)

/-! ## The store -/

structure PanelProvStore where
  valid : Bool
  activeSlot : Fin 2
  generation : UInt32
  items : List Bytes
  deriving DecidableEq, Repr

def ProvRecord.adopt (r : ProvRecord) (slot : Fin 2) : PanelProvStore :=
  ⟨true, slot, r.generation, r.items⟩

def provStoreZero : PanelProvStore := ⟨false, 0, 0, replicate 10 []⟩

/-- The body of the loop of `panelProvStoreLoad`: serial-number arithmetic on the generations. -/
def loadSlot (f : Flash) (slot : Fin 2) (store : PanelProvStore) : PanelProvStore :=
  match decodeRecord (f slot) with
  | none => store
  | some r =>
    if store.valid = true ∧ (r.generation - store.generation).toInt32 ≤ 0 then store
    else r.adopt slot

def panelProvStoreLoad (f : Flash) : PanelProvStore := loadSlot f 1 (loadSlot f 0 provStoreZero)

def PanelProvStore.next (store : PanelProvStore) : UInt32 :=
  if store.valid then store.generation + 1 else 1

def PanelProvStore.target (store : PanelProvStore) : Fin 2 :=
  if store.valid then 1 - store.activeSlot else 0

def panelProvStoreCommit (store : PanelProvStore) (f : Flash) (items : Items) (w : WriteFate) :
    PanelProvStatus × PanelProvStore × Flash :=
  match encodeRecord store.next items with
  | none => (.storageFull, store, f)
  | some raw =>
    let written := writeSlot f store.target raw w
    if written.2 = false then (.flashIo, store, written.1)
    else
      let verify := written.1 store.target
      if verify.take raw.length ≠ raw then (.flashIo, store, written.1)
      else match decodeRecord verify with
        | none => (.flashIo, store, written.1)
        | some r =>
          if r.generation ≠ store.next then (.flashIo, store, written.1)
          else (.ok, r.adopt store.target, written.1)

def provBlank : Bytes := replicate (panelProvRecordHdr + panelProvRecordCrc) 0

def panelProvStoreWipe (f : Flash) (w0 w1 : WriteFate) : Bool × PanelProvStore × Flash :=
  let first := writeSlot f 0 provBlank w0
  let second := writeSlot first.1 1 provBlank w1
  (second.2 && first.2, provStoreZero, second.1)

/-! ## What a load elects -/

theorem load_eq (f : Flash) : panelProvStoreLoad f =
      match decodeRecord (f 0), decodeRecord (f 1) with
      | none, none => provStoreZero
      | some r, none => r.adopt 0
      | none, some r => r.adopt 1
      | some r, some r' =>
        if (r'.generation - r.generation).toInt32 ≤ 0 then r.adopt 0 else r'.adopt 1 := by
  unfold panelProvStoreLoad loadSlot
  cases decodeRecord (f 0) with
  | none =>
    cases decodeRecord (f 1) with
    | none | some r => rfl
  | some r =>
    cases decodeRecord (f 1) with
    | none => rfl
    | some r' => simp only [provStoreZero, Bool.false_eq_true, false_and, if_false,
        ProvRecord.adopt, true_and]

theorem load_cases (f : Flash) :
    (panelProvStoreLoad f = provStoreZero ∧ ∀ slot, decodeRecord (f slot) = none) ∨
      ∃ r slot, decodeRecord (f slot) = some r ∧ panelProvStoreLoad f = r.adopt slot := by
  rw [load_eq]
  cases h0 : decodeRecord (f 0) with
  | none =>
    cases h1 : decodeRecord (f 1) with
    | none =>
      refine .inl ⟨rfl, fun slot => ?_⟩
      match slot with
      | 0 => exact h0
      | 1 => exact h1
    | some r => exact .inr ⟨r, 1, h1, rfl⟩
  | some r0 =>
    cases h1 : decodeRecord (f 1) with
    | none => exact .inr ⟨r0, 0, h0, rfl⟩
    | some r1 =>
      by_cases hle : (r1.generation - r0.generation).toInt32 ≤ 0
      · exact .inr ⟨r0, 0, h0, if_pos hle⟩
      · exact .inr ⟨r1, 1, h1, if_neg hle⟩

variable {f : Flash}

theorem load_of_none (h : ∀ slot, decodeRecord (f slot) = none) :
    panelProvStoreLoad f = provStoreZero := by
  rw [load_eq, h, h]

variable {left : Bytes}

theorem load_update_none (hr : decodeRecord (f slot) = some r) (hl : decodeRecord left = none) :
    panelProvStoreLoad (update f (1 - slot) left) = r.adopt slot := by
  match slot with
  | 0 => rw [load_eq, update_of_ne (by decide), hr, show (1 - 0 : Fin 2) = 1 from rfl,
      update_self, hl]
  | 1 => rw [load_eq, show (1 - 1 : Fin 2) = 0 from rfl, update_self, hl,
      update_of_ne (by decide), hr]

theorem succ_newer (g : UInt32) : ¬ (g + 1 - g).toInt32 ≤ 0 := by
  rw [UInt32.add_comm, UInt32.add_sub_cancel]
  decide

theorem older_than_succ (g : UInt32) : (g - (g + 1)).toInt32 ≤ 0 := by
  have h : g - (g + 1) = 0 - 1 := by
    rw [UInt32.sub_eq_iff_eq_add, UInt32.add_comm g 1, ← UInt32.add_assoc,
      show (0 - 1 + 1 : UInt32) = 0 from rfl, UInt32.zero_add]
  rw [h]
  decide

theorem load_update_next (hr : decodeRecord (f slot) = some r)
    (hl : decodeRecord left = some r') (hg : r'.generation = r.generation + 1) :
    panelProvStoreLoad (update f (1 - slot) left) = r'.adopt (1 - slot) := by
  match slot with
  | 0 =>
    rw [load_eq, update_of_ne (by decide), hr, show (1 - 0 : Fin 2) = 1 from rfl, update_self, hl]
    exact if_neg (by rw [hg]; exact succ_newer _)
  | 1 =>
    rw [load_eq, show (1 - 1 : Fin 2) = 0 from rfl, update_self, hl, update_of_ne (by decide), hr]
    exact if_pos (by rw [hg]; exact older_than_succ _)

/-! ## What a commit and a wipe leave -/

theorem load_target_none (hl : decodeRecord left = none) :
    panelProvStoreLoad (update f (panelProvStoreLoad f).target left) = panelProvStoreLoad f := by
  obtain ⟨hz, hnone⟩ | ⟨r, slot, hr, hz⟩ := load_cases f
  · rw [hz]
    refine load_of_none fun slot => ?_
    by_cases hs : slot = provStoreZero.target
    · rw [hs, update_self, hl]
    · rw [update_of_ne hs, hnone]
  · rw [hz]
    exact load_update_none hr hl

theorem load_target_next (hl : decodeRecord left = some r)
    (hg : r.generation = (panelProvStoreLoad f).next) :
    panelProvStoreLoad (update f (panelProvStoreLoad f).target left) =
      r.adopt (panelProvStoreLoad f).target := by
  obtain ⟨hz, hnone⟩ | ⟨r', slot, hr, hz⟩ := load_cases f
  · rw [hz, load_eq, show provStoreZero.target = 0 from rfl, update_self, hl,
      update_of_ne (by decide), hnone]
  · rw [hz] at hg ⊢
    exact load_update_next hr hl hg

theorem panelProvStoreCommit_done (store : PanelProvStore) (f : Flash)
    (he : encodeRecord store.next items = some raw) :
    if List.Forall₂ (fun v m => v.length ≤ m) items.vals kMax then
      decodeRecord (sectorOf raw) = some ⟨store.next, items.vals⟩ ∧
        panelProvStoreCommit store f items .done =
          (.ok, ProvRecord.adopt ⟨store.next, items.vals⟩ store.target,
            update f store.target (sectorOf raw))
    else
      decodeRecord (sectorOf raw) = none ∧ panelProvStoreCommit store f items .done =
          (.flashIo, store, update f store.target (sectorOf raw)) := by
  have hround : decodeRecord (sectorOf raw) = _ := decodeRecord_encodeRecord he _
  have htake : (sectorOf raw).take raw.length = raw := take_left
  unfold panelProvStoreCommit
  simp only [he, writeSlot, update_self, htake, ne_eq]
  by_cases hf : List.Forall₂ (fun v m => v.length ≤ m) items.vals kMax
  · rw [if_pos hf] at hround ⊢
    rw [hround]
    simp
  · rw [if_neg hf] at hround ⊢
    rw [hround]
    exact ⟨rfl, rfl⟩

theorem panelProvStoreCommit_spec (f : Flash) (items : Items) (hw : w.Torn)
    (h : panelProvStoreCommit (panelProvStoreLoad f) f items w = (rc, store, f')) :
    panelProvStoreLoad f' = store ∧ (rc = .ok → store.valid = true ∧ store.items = items.vals) ∧
      (rc ≠ .ok → store = panelProvStoreLoad f) := by
  cases he : encodeRecord (panelProvStoreLoad f).next items with
  | none =>
    simp only [panelProvStoreCommit, he] at h
    cases h
    exact ⟨rfl, fun h => absurd h (by decide), fun _ => rfl⟩
  | some raw =>
    cases w with
    | failed =>
      simp only [panelProvStoreCommit, he] at h
      cases h
      exact ⟨rfl, fun h => absurd h (by decide), fun _ => rfl⟩
    | cut left answer =>
      -- whatever the answer, the slot does not decode and the store is kept
      have hw : decodeRecord left = none := hw
      have hload := load_target_none (f := f) hw
      simp only [panelProvStoreCommit, he, writeSlot, update_self, hw] at h
      split at h
      · cases h
        exact ⟨hload, fun h => absurd h (by decide), fun _ => rfl⟩
      split at h
      · cases h
        exact ⟨hload, fun h => absurd h (by decide), fun _ => rfl⟩
      · cases h
        exact ⟨hload, fun h => absurd h (by decide), fun _ => rfl⟩
    | done =>
      have hd := panelProvStoreCommit_done (panelProvStoreLoad f) f he
      by_cases hf : List.Forall₂ (fun v m => v.length ≤ m) items.vals kMax
      · rw [if_pos hf] at hd
        rw [hd.2] at h
        cases h
        exact ⟨load_target_next hd.1 rfl, fun _ => ⟨rfl, rfl⟩, fun h => absurd rfl h⟩
      · rw [if_neg hf] at hd
        rw [hd.2] at h
        cases h
        exact ⟨load_target_none hd.1, fun h => absurd h (by decide), fun _ => rfl⟩

theorem panelProvStoreCommit_stores (store : PanelProvStore) (f : Flash) (items : Items)
    (w : WriteFate) :
    let r := panelProvStoreCommit store f items w
    (r.1 = .ok ∧ r.2.1.valid = true ∧ r.2.1.items = items.vals ∧
        decodeRecord (r.2.2 r.2.1.activeSlot) = some ⟨r.2.1.generation, items.vals⟩) ∨
      (r.1 ≠ .ok ∧ r.2.1 = store) := by
  have hio : PanelProvStatus.flashIo ≠ .ok := by decide
  have hfull : PanelProvStatus.storageFull ≠ .ok := by decide
  unfold panelProvStoreCommit
  cases he : encodeRecord store.next items with
  | none => exact .inr ⟨hfull, rfl⟩
  | some raw =>
    dsimp only
    split
    · exact .inr ⟨hio, rfl⟩
    split
    · exact .inr ⟨hio, rfl⟩
    next htake =>
    -- what is read back starts with the encoded record
    have hsplit : (writeSlot f store.target raw w).1 store.target =
        raw ++ ((writeSlot f store.target raw w).1 store.target).drop raw.length := by
      conv_lhs => rw [← take_append_drop raw.length
        ((writeSlot f store.target raw w).1 store.target), not_not.1 htake]
    have hround := decodeRecord_encodeRecord he
      (((writeSlot f store.target raw w).1 store.target).drop raw.length)
    rw [← hsplit] at hround
    split
    · exact .inr ⟨hio, rfl⟩
    next r hr =>
    split
    · exact .inr ⟨hio, rfl⟩
    rw [hr] at hround
    split at hround
    · cases hround
      exact .inl ⟨rfl, rfl, rfl, hr⟩
    · cases hround

theorem decodeRecord_blank : decodeRecord (sectorOf provBlank) = none := by
  rw [decodeRecord, if_pos (.inl (by decide))]

theorem writeSlot_blank (f : Flash) (slot : Fin 2) (hw : w.Torn) :
    (decodeRecord ((writeSlot f slot provBlank w).1 slot) = none ∨
        (writeSlot f slot provBlank w).2 = false ∧ (writeSlot f slot provBlank w).1 slot = f slot) ∧
      ∀ other, other ≠ slot → (writeSlot f slot provBlank w).1 other = f other := by
  cases w with
  | done =>
    refine ⟨.inl ?_, fun other ho => update_of_ne ho _ _⟩
    simp only [writeSlot, update_self, decodeRecord_blank]
  | failed => exact ⟨.inr ⟨rfl, rfl⟩, fun _ _ => rfl⟩
  | cut left answer =>
    refine ⟨.inl ?_, fun other ho => update_of_ne ho _ _⟩
    simp only [writeSlot, update_self]
    exact hw

theorem panelProvStoreWipe_spec (f : Flash) (h0 : w0.Torn) (h1 : w1.Torn)
    {ok : Bool} (h : panelProvStoreWipe f w0 w1 = (ok, store, f')) :
    store = provStoreZero ∧ (ok = true ∨ (∀ slot, decodeRecord (f slot) = none) →
      ∀ slot, decodeRecord (f' slot) = none) := by
  cases h
  refine ⟨rfl, fun hor slot => ?_⟩
  obtain ⟨hs0, ho0⟩ := writeSlot_blank f 0 h0
  obtain ⟨hs1, ho1⟩ := writeSlot_blank (writeSlot f 0 provBlank w0).1 1 h1
  match slot with
  | 0 =>
    rw [ho1 0 (by decide)]
    rcases hs0 with hd | ⟨hfail, hkeep⟩
    · exact hd
    rcases hor with hok | hnone
    · simp [hfail] at hok
    · rw [hkeep, hnone]
  | 1 =>
    rcases hs1 with hd | ⟨hfail, hkeep⟩
    · exact hd
    rcases hor with hok | hnone
    · simp [hfail] at hok
    · rw [hkeep, ho0 1 (by decide), hnone]

end SolariNet
