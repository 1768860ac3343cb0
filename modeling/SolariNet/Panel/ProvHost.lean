/-
# The provisioning tool

`tools/panelProv.c`: the host sends every item in chunks and waits for the `PROVACK` of each
chunk, with three tries; it follows the watermark of the panel, and ends with a `COMMIT`.

The tool is a program over two operations: writing a `PROVISION` frame and listening until the
deadline, which yields the frames that came in.  The loop of `sendItem` has no bound in the
source, so it is modelled with one (`sendItemLoop`), and its single turn as a function of the
answer to its transaction (`sendItemNext`).
-/
import SolariNet.Lib.Prog
import SolariNet.Panel.Prov

namespace SolariNet

open Lib Lib.Prog

/-! ## Transactions -/

def ackTries : Nat := 3

inductive HostOp where
  | write (payload : Bytes)
  | listen

/-- `write`: whether it succeeded; `listen`: the frames as type and payload, or a read error. -/
def HostRes : HostOp → Type
  | .write _ => Bool
  | .listen => Option (List (UInt8 × Bytes))

abbrev HostM : Type → Type := Prog HostOp HostRes

def onFrame (itemId generation : UInt8) (f : UInt8 × Bytes) : Option ProvAck :=
  if f.1 ≠ PanelFt.provack then none
  else match panelDecodeProvAck f.2 with
    | none => none
    | some a => if a.itemId ≠ itemId ∨ a.generation ≠ generation then none else some a

def transactTries (itemId generation : UInt8) (payload : Bytes) : Nat → HostM (Option ProvAck)
  | 0 => pure none
  | n + 1 =>
    perform (.write payload) >>= fun (sent : Bool) =>
      if sent = false then pure none
      else perform .listen >>= fun (got : Option (List (UInt8 × Bytes))) =>
        match got with
        | none => pure none
        | some frames =>
          match frames.findSome? (onFrame itemId generation) with
          | some a => pure (some a)
          | none => transactTries itemId generation payload n

def transact (itemId generation : UInt8) (offset : Nat) (data : Bytes) : HostM (Option ProvAck) :=
  match panelEncodeProvision ⟨itemId, generation, UInt16.ofNat offset, data⟩ with
  | none => pure none
  | some payload => transactTries itemId generation payload ackTries

/-! ## One item -/

structure HostItem where
  itemId : UInt8
  name : String
  data : Bytes
  small : data.length < 65536

def HostItem.chunk (it : HostItem) (offset : Nat) : Bytes :=
  (it.data.drop offset).take panelProvChunk

/-- How a turn of the loop ends: `sendItem` returns, or it goes on at an offset. -/
inductive Turn where
  | done (success : Bool)
  | again (offset stalls : Nat)
  deriving DecidableEq, Repr

def HostItem.loopFoot (it : HostItem) (offset stalls : Nat) : Turn :=
  if offset < it.data.length then .again offset stalls else .done true

def sendItemNext (it : HostItem) (offset stalls : Nat) : Option ProvAck → Turn
  | none => .done false
  | some a =>
    if a.status = PanelProvStatus.offsetMismatch.code then
      if a.nextOffset.toNat ≥ offset ∨ stalls + 1 > ackTries then .done false
      else it.loopFoot a.nextOffset.toNat (stalls + 1)
    else if a.status ≠ PanelProvStatus.ok.code then .done false
    else if a.nextOffset.toNat ≤ offset ∨
        a.nextOffset.toNat > offset + (it.chunk offset).length then .done false
    else it.loopFoot a.nextOffset.toNat 0

/-- The loop of `sendItem`, for at most `n` turns; `none` when they are used up. -/
def sendItemLoop (it : HostItem) (generation : UInt8) : Nat → Nat → Nat → HostM (Option Bool)
  | 0, _, _ => pure none
  | n + 1, offset, stalls => do
      let a ← transact it.itemId generation offset (it.chunk offset)
      match sendItemNext it offset stalls a with
      | .done success => pure (some success)
      | .again offset' stalls' => sendItemLoop it generation n offset' stalls'

/-! ## The provisioning run -/

/-- The items of a configuration: no two with the same id, and all of them carry data. -/
structure ItemSet where
  items : List HostItem
  distinct : (items.map HostItem.itemId).Nodup
  known : ∀ it ∈ items, it.itemId ≠ PanelProvItem.commit ∧ it.itemId ≠ PanelProvItem.wipe

def sendItems (generation : UInt8) (turns : Nat) : List HostItem → HostM (Option Bool)
  | [] => pure (some true)
  | it :: its => do
      let r ← sendItemLoop it generation turns 0 0
      match r with
      | some true => sendItems generation turns its
      | r => pure r

/-- The provisioning path of `main`: a throwaway byte at generation `g`, the items and the commit
at generation `g + 1`. -/
def provisionRun (g : UInt8) (turns : Nat) (set : ItemSet) : HostM (Option Bool) := do
  let bump ← transact PanelProvItem.ssid g 0 [120]
  match bump with
  | none => pure (some false)
  | some a =>
    if a.status ≠ PanelProvStatus.ok.code then pure (some false)
    else do
      let r ← sendItems (g + 1) turns set.items
      match r with
      | some true => do
          let c ← transact PanelProvItem.commit (g + 1) 0 []
          match c with
          | none => pure (some false)
          | some a => pure (some (a.status == PanelProvStatus.ok.code))
      | r => pure r

/-! ## The loop against a sequence of answers -/

def Turn.result : Turn → Option Bool
  | .done success => some success
  | .again _ _ => none

def Turn.step (it : HostItem) (a : Option ProvAck) : Turn → Turn
  | .done success => .done success
  | .again offset stalls => sendItemNext it offset stalls a

def sendItemFrom (it : HostItem) (answer : Nat → Option ProvAck) (start : Turn) : Nat → Turn
  | 0 => start
  | n + 1 => (sendItemFrom it answer start n).step it (answer n)

def sendItemRun (it : HostItem) (answer : Nat → Option ProvAck) (n : Nat) : Turn :=
  sendItemFrom it answer (.again 0 0) n

def Acknowledges (itemId generation : UInt8) (a : Option ProvAck) : Prop :=
  ∀ k, a = some k → k.itemId = itemId ∧ k.generation = generation

theorem sendItemFrom_done (it : HostItem) (answer : Nat → Option ProvAck) (b : Bool) (n : Nat) :
    sendItemFrom it answer (.done b) n = .done b := by
  induction n with
  | zero => rfl
  | succ n ih => rw [sendItemFrom, ih, Turn.step]

theorem sendItemFrom_succ (it : HostItem) (answer : Nat → Option ProvAck) (start : Turn) (n : Nat) :
    sendItemFrom it answer start (n + 1) =
      sendItemFrom it (fun k => answer (k + 1)) (start.step it (answer 0)) n := by
  induction n with
  | zero => rfl
  | succ n ih => rw [sendItemFrom, ih, sendItemFrom]

variable {itemId generation : UInt8} {it : HostItem} {offset offset' stalls stalls' : Nat}
  {answer : Nat → Option ProvAck} {a : ProvAck}

theorem onFrame_acknowledges {f : UInt8 × Bytes} (h : onFrame itemId generation f = some a) :
    f.1 = PanelFt.provack ∧ panelDecodeProvAck f.2 = some a ∧
      a.itemId = itemId ∧ a.generation = generation := by
  obtain ⟨ht, h⟩ := Option.ite_none_left_eq_some.1 h
  split at h
  · cases h
  next k hk =>
  obtain ⟨hm, h⟩ := Option.ite_none_left_eq_some.1 h
  cases h
  rw [not_or, not_not, not_not] at hm
  exact ⟨not_not.1 ht, hk, hm.1, hm.2⟩

theorem transactTries_returns (itemId generation : UInt8) (payload : Bytes) (n : Nat) :
    (transactTries itemId generation payload n).Returns (Acknowledges itemId generation) := by
  induction n with
  | zero =>
    intro k hk
    cases hk
  | succ n ih =>
    intro sent
    cases sent with
    | false =>
      intro k hk
      cases hk
    | true =>
      intro got
      cases got with
      | none =>
        intro k hk
        cases hk
      | some frames =>
        show Returns _ (match frames.findSome? (onFrame itemId generation) with
          | some a => pure (some a)
          | none => transactTries itemId generation payload n)
        cases hf : frames.findSome? (onFrame itemId generation) with
        | none => exact ih
        | some a =>
          intro k hk
          cases hk
          obtain ⟨f, _, hon⟩ := List.exists_of_findSome?_eq_some hf
          exact (onFrame_acknowledges hon).2.2

theorem transact_returns (itemId generation : UInt8) (offset : Nat) (data : Bytes) :
    (transact itemId generation offset data).Returns (Acknowledges itemId generation) := by
  unfold transact
  split
  · intro k hk
    cases hk
  · exact transactTries_returns ..

theorem transactTries_runs_none (itemId generation : UInt8) (payload : Bytes) (n : Nat) :
    Runs (transactTries itemId generation payload (n + 1)) [⟨.write payload, false⟩] none :=
  Runs.call_iff.2 ⟨false, [], rfl, .ret none⟩

theorem onFrame_encode (hi : a.itemId = itemId) (hg : a.generation = generation) :
    onFrame itemId generation (PanelFt.provack, panelEncodeProvAck a) = some a := by
  unfold onFrame
  rw [if_neg (not_not.2 rfl), panelDecodeProvAck_encode]
  exact if_neg (by simp [hi, hg])

theorem transactTries_runs_some (payload : Bytes) (n : Nat) (hi : a.itemId = itemId)
    (hg : a.generation = generation) :
    Runs (transactTries itemId generation payload (n + 1))
      [⟨.write payload, true⟩, ⟨.listen, some [(PanelFt.provack, panelEncodeProvAck a)]⟩]
      (some a) := by
  refine Runs.call_iff.2 ⟨true, _, rfl, Runs.call_iff.2 ⟨_, _, rfl, ?_⟩⟩
  show Runs (match [(PanelFt.provack, panelEncodeProvAck a)].findSome?
      (onFrame itemId generation) with
    | some a => pure (some a)
    | none => transactTries itemId generation payload n) [] (some a)
  rw [List.findSome?_cons, onFrame_encode hi hg]
  exact .ret (some a)

theorem transact_answers (offset : Nat) (hd : data.length ≤ panelProvChunk)
    {a : Option ProvAck} (ha : Acknowledges itemId generation a) :
    ∃ t, Runs (transact itemId generation offset data) t a := by
  have hfits : ¬ panelProvHdrSize + data.length > panelMaxPayload := by
    unfold panelProvChunk at hd
    unfold panelProvHdrSize panelMaxPayload
    omega
  unfold transact panelEncodeProvision
  rw [if_neg hfits]
  cases a with
  | none => exact ⟨_, transactTries_runs_none ..⟩
  | some k =>
    obtain ⟨hi, hg⟩ := ha k rfl
    exact ⟨_, transactTries_runs_some _ _ hi hg⟩

theorem sendItemLoop_runs_iff (it : HostItem) (generation : UInt8) (n offset stalls : Nat)
    (r : Option Bool) :
    (∃ t, Runs (sendItemLoop it generation n offset stalls) t r) ↔
      ∃ answer, (∀ k, Acknowledges it.itemId generation (answer k)) ∧
        r = (sendItemFrom it answer (.again offset stalls) n).result := by
  induction n generalizing offset stalls r with
  | zero =>
    constructor
    · rintro ⟨t, h⟩
      obtain ⟨_, rfl⟩ := Runs.ret_iff.1 h
      exact ⟨fun _ => none, fun _ k hk => (nomatch hk), rfl⟩
    · rintro ⟨answer, _, rfl⟩
      exact ⟨[], .ret none⟩
  | succ n ih =>
    have hchunk : (it.chunk offset).length ≤ panelProvChunk := List.length_take_le ..
    constructor
    · rintro ⟨t, h⟩
      obtain ⟨t₁, t₂, a, _, hx, hrest⟩ := Runs.bind_iff.1 h
      have ha := (transact_returns ..).runs hx
      cases hn : sendItemNext it offset stalls a with
      | done b =>
        rw [hn] at hrest
        obtain ⟨_, rfl⟩ := Runs.ret_iff.1 hrest
        refine ⟨fun _ => a, fun _ => ha, ?_⟩
        rw [sendItemFrom_succ, Turn.step, hn, sendItemFrom_done]
        rfl
      | again offset' stalls' =>
        rw [hn] at hrest
        obtain ⟨answer, hans, rfl⟩ := (ih offset' stalls' r).1 ⟨t₂, hrest⟩
        refine ⟨fun | 0 => a | k + 1 => answer k, fun | 0 => ha | k + 1 => hans k, ?_⟩
        rw [sendItemFrom_succ, Turn.step, hn]
    · rintro ⟨answer, hans, rfl⟩
      obtain ⟨t₁, hx⟩ := transact_answers offset hchunk (hans 0)
      rw [sendItemFrom_succ, Turn.step]
      cases hn : sendItemNext it offset stalls (answer 0) with
      | done b =>
        refine ⟨t₁ ++ [], Runs.bind_iff.2 ⟨t₁, [], answer 0, rfl, hx, ?_⟩⟩
        rw [hn, sendItemFrom_done]
        exact .ret (some b)
      | again offset' stalls' =>
        obtain ⟨t₂, h₂⟩ := (ih offset' stalls' _).2
          ⟨fun k => answer (k + 1), fun k => hans (k + 1), rfl⟩
        refine ⟨t₁ ++ t₂, Runs.bind_iff.2 ⟨t₁, t₂, answer 0, rfl, hx, ?_⟩⟩
        rw [hn]
        exact h₂

/-! ## When the loop ends -/

def IsMismatch (a : Option ProvAck) : Prop :=
  ∃ k, a = some k ∧ k.status = PanelProvStatus.offsetMismatch.code

instance (a : Option ProvAck) : Decidable (IsMismatch a) :=
  inferInstanceAs (Decidable (∃ k ∈ a, k.status = _))

/-- The watermark of the answer before the `n`-th. -/
def watermark (answer : Nat → Option ProvAck) : Nat → Nat
  | 0 => 0
  | n + 1 => ((answer n).map fun a => a.nextOffset.toNat).getD 0

/-- How many answers right before the `n`-th are `OFFSET_MISMATCH`. -/
def mismatches (answer : Nat → Option ProvAck) : Nat → Nat
  | 0 => 0
  | n + 1 => if IsMismatch (answer n) then mismatches answer n + 1 else 0

/-- The `n`-th answer asks for more: it is `OK` and the watermark rises inside the chunk, or it is
`OFFSET_MISMATCH`, the third in a row at most, and the watermark falls. -/
def AsksOn (it : HostItem) (answer : Nat → Option ProvAck) (n : Nat) : Prop :=
  let mark := watermark answer n
  ∃ a, answer n = some a ∧ a.nextOffset.toNat < it.data.length ∧
    (a.status = PanelProvStatus.ok.code ∧ mark < a.nextOffset.toNat ∧
        a.nextOffset.toNat ≤ mark + (it.chunk mark).length ∨
      a.status = PanelProvStatus.offsetMismatch.code ∧ a.nextOffset.toNat < mark ∧
        mismatches answer n < ackTries)

theorem sendItemNext_cases (it : HostItem) (offset stalls : Nat)
    (hm : k.status ≠ PanelProvStatus.offsetMismatch.code) :
    sendItemNext it offset stalls (some k) = .done false ∨
      (k.status = PanelProvStatus.ok.code ∧ offset < k.nextOffset.toNat ∧
        sendItemNext it offset stalls (some k) = it.loopFoot k.nextOffset.toNat 0) := by
  rw [sendItemNext, if_neg hm]
  split
  · exact .inl rfl
  next hok =>
  split
  · exact .inl rfl
  next hrange =>
  rw [not_or, Nat.not_le] at hrange
  exact .inr ⟨not_not.1 hok, hrange.1, rfl⟩

theorem HostItem.loopFoot_cases (it : HostItem) (offset stalls : Nat) :
    offset < it.data.length ∧ it.loopFoot offset stalls = .again offset stalls ∨
      ¬ offset < it.data.length ∧ it.loopFoot offset stalls = .done true := by
  unfold HostItem.loopFoot
  split
  · next h => exact .inl ⟨h, rfl⟩
  · next h => exact .inr ⟨h, rfl⟩

/-- A turn of the loop, where the answers so far have left it. -/
theorem sendItemNext_asks (it : HostItem) (answer : Nat → Option ProvAck) (n : Nat) :
    let next := sendItemNext it (watermark answer n) (mismatches answer n) (answer n)
    AsksOn it answer n ∧ next = .again (watermark answer (n + 1)) (mismatches answer (n + 1)) ∨
      ¬ AsksOn it answer n ∧ ∃ b, next = .done b := by
  cases ha : answer n with
  | none => exact .inr ⟨fun ⟨a, h, _⟩ => (nomatch ha.symm.trans h), false, rfl⟩
  | some a =>
    have hasks : AsksOn it answer n ↔ a.nextOffset.toNat < it.data.length ∧ _ :=
      ⟨fun ⟨b, hb, h⟩ => Option.some.inj (ha.symm.trans hb) ▸ h, fun h => ⟨a, ha, h⟩⟩
    have hmark : watermark answer (n + 1) = a.nextOffset.toNat := by simp [watermark, ha]
    have hmis : IsMismatch (answer n) ↔ a.status = PanelProvStatus.offsetMismatch.code := by
      simp [IsMismatch, ha]
    simp only [sendItemNext, hasks, hmark, mismatches, hmis]
    have hfoot := it.loopFoot_cases a.nextOffset.toNat
    split
    · next hst =>
      have hok : a.status ≠ PanelProvStatus.ok.code := by rw [hst]; decide
      split
      · next hbad =>
        exact .inr ⟨fun h => h.2.elim (fun h => hok h.1) fun h => by omega, _, rfl⟩
      · next hgood =>
        rcases hfoot (mismatches answer n + 1) with ⟨hlt, h⟩ | ⟨hge, h⟩
        · exact .inl ⟨⟨hlt, .inr ⟨hst, by omega⟩⟩, h⟩
        · exact .inr ⟨fun h => hge h.1, _, h⟩
    next hst =>
    split
    · next hok => exact .inr ⟨fun h => h.2.elim (fun h => hok h.1) fun h => hst h.1, _, rfl⟩
    next hok =>
    split
    · next hbad => exact .inr ⟨fun h => h.2.elim (fun h => by omega) fun h => hst h.1, _, rfl⟩
    · next hgood =>
      rcases hfoot 0 with ⟨hlt, h⟩ | ⟨hge, h⟩
      · exact .inl ⟨⟨hlt, .inl ⟨not_not.1 hok, by omega⟩⟩, h⟩
      · exact .inr ⟨fun h => hge h.1, _, h⟩

theorem sendItemRun_again {n : Nat} (h : ∀ k < n, AsksOn it answer k) :
    sendItemRun it answer n = .again (watermark answer n) (mismatches answer n) := by
  induction n with
  | zero => rfl
  | succ n ih =>
    show (sendItemRun it answer n).step it (answer n) = _
    rw [ih fun k hk => h k (Nat.lt_succ_of_lt hk), Turn.step]
    rcases sendItemNext_asks it answer n with ⟨-, hnext⟩ | ⟨hno, -⟩
    · exact hnext
    · exact absurd (h n (Nat.lt_succ_self n)) hno

/-- `sendItem` returns at the first answer that does not ask for more. -/
theorem sendItem_ends_iff (it : HostItem) (answer : Nat → Option ProvAck) :
    (∃ n b, (sendItemRun it answer n).result = some b) ↔ ∃ n, ¬ AsksOn it answer n := by
  constructor
  · rintro ⟨n, b, h⟩
    by_contra hall
    rw [sendItemRun_again fun k _ => not_not.1 fun hk => hall ⟨k, hk⟩] at h
    cases h
  · intro hex
    classical
    have hrun := sendItemRun_again fun k hk => not_not.1 (Nat.find_min hex hk)
    rcases sendItemNext_asks it answer (Nat.find hex) with ⟨hyes, -⟩ | ⟨-, b, hb⟩
    · exact absurd hyes (Nat.find_spec hex)
    · refine ⟨Nat.find hex + 1, b, ?_⟩
      show ((sendItemRun it answer (Nat.find hex)).step it (answer (Nat.find hex))).result = some b
      rw [hrun, Turn.step, hb]
      rfl

/-- From where no `OFFSET_MISMATCH` comes, the watermark can only rise, and it stays in the item. -/
theorem asksOn_ends {N : Nat} (h : ∀ n, N ≤ n → ¬ IsMismatch (answer n)) :
    ∃ n, ¬ AsksOn it answer n := by
  by_contra hall
  have hasks (n : Nat) : AsksOn it answer n := not_not.1 fun hn => hall ⟨n, hn⟩
  have hrise (m : Nat) : m ≤ watermark answer (N + m) := by
    induction m with
    | zero => exact Nat.zero_le _
    | succ m ih =>
      obtain ⟨a, ha, -, ⟨-, hlt, -⟩ | ⟨hst, -⟩⟩ := hasks (N + m)
      · have hmark : watermark answer (N + (m + 1)) = a.nextOffset.toNat := by
          simp [watermark, ha]
        omega
      · exact absurd ⟨a, ha, hst⟩ (h (N + m) (Nat.le_add_right N m))
  obtain ⟨a, ha, hlt, -⟩ := hasks (N + it.data.length)
  have hmark : watermark answer (N + (it.data.length + 1)) = a.nextOffset.toNat := by
    simp [watermark, ha]
  have := hrise (it.data.length + 1)
  omega

end SolariNet
