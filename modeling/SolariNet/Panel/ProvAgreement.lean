/-
# Host and panel agree on what was provisioned

The tool of `Panel.ProvHost` and the handler of `Panel.Prov` over a serial line that may lose any
request and any acknowledgement, and may deliver an acknowledgement late, again or out of order.
The joint invariant ties the offset of the host to what the panel has staged: while the host
sends the chunk at `offset`, the panel holds the bytes before it or those with the chunk, and an
acknowledgement that would move the host on is on the line only in the second case.
-/
import SolariNet.Panel.ProvHost

namespace SolariNet

open List Lib Lib.Prog

/-! ## The line -/

structure Link where
  panel : PanelState
  acks : List Bytes

def Link.deliver (crypto : Option PanelProvCrypto) (s : Link) (payload : Bytes)
    (w0 w1 : WriteFate) : Link :=
  let r := panelProvHandle crypto s.panel payload false w0 w1
  ⟨r.1, r.2 :: s.acks⟩

/-- A request is lost or delivered, whatever `write` returns; what the host hears of `PROVACK`s
has been sent by the panel at some time. -/
def linkSem (crypto : Option PanelProvCrypto) : Sem HostOp HostRes Link
  | .write payload, s, _, s' => s' = s ∨ ∃ w0 w1, s' = s.deliver crypto payload w0 w1
  | .listen, s, got, s' => s' = s ∧ ∀ frames, got = some frames →
      ∀ f ∈ frames, f.1 = PanelFt.provack → f.2 ∈ s.acks

def Link.Sent (s : Link) (g : UInt8) (a : ProvAck) : Prop :=
  ∃ b ∈ s.acks, panelDecodeProvAck b = some a ∧ a.generation = g

/-! ## What a delivery adds -/

def ackOf (m : Provision) (status : PanelProvStatus) (next : Nat) : ProvAck :=
  ⟨m.itemId, status.code, m.generation, UInt16.ofNat next⟩

section deliver
variable {crypto : Option PanelProvCrypto} {s : Link} {m : Provision} {payload : Bytes}
  {w0 w1 : WriteFate}

section
variable (he : panelEncodeProvision m = some payload)
include he

theorem provAckOf_encode (status : PanelProvStatus)
    (next : Nat) : provAckOf payload status next = panelEncodeProvAck (ackOf m status next) := by
  obtain ⟨-, he⟩ := Option.ite_none_left_eq_some.1 he
  cases he
  rfl

theorem deliver_item (hw : m.itemId ≠ PanelProvItem.wipe) (hc : m.itemId ≠ PanelProvItem.commit) :
    s.deliver crypto payload w0 w1 = match itemIdx m.itemId with
      | none => ⟨s.panel, panelEncodeProvAck (ackOf m .formatInvalid 0) :: s.acks⟩
      | some i => ⟨⟨(provItem s.panel.prov i m).1, s.panel.store, s.panel.flash⟩,
          panelEncodeProvAck (ackOf m (provItem s.panel.prov i m).2.1
            (provItem s.panel.prov i m).2.2) :: s.acks⟩ := by
  simp only [Link.deliver, panelProvHandle,
    panelDecodeProvision_encode he, if_neg hw, if_neg hc, provAckOf_encode he]
  cases itemIdx m.itemId with
  | none | some i => rfl

theorem deliver_commit (hc : m.itemId = PanelProvItem.commit) : s.deliver crypto payload w0 w1 =
      ⟨(provCommit crypto s.panel m w0).1,
        panelEncodeProvAck (ackOf m (provCommit crypto s.panel m w0).2 0) :: s.acks⟩ := by
  have hw : m.itemId ≠ PanelProvItem.wipe := by
    rw [hc]
    decide
  simp only [Link.deliver, panelProvHandle, Bool.false_eq_true, if_false,
    panelDecodeProvision_encode he, if_neg hw, if_pos hc, provAckOf_encode he]

end

end deliver

variable {g itemId generation : UInt8} {crypto : Option PanelProvCrypto} {payload : Bytes}
  {s : Link} {its : List HostItem} {data : Bytes} {i : Fin 10} {J : Link → Prop}
  {done : List HostItem} {offset : Nat} {a : ProvAck} {m : Provision} {w0 w1 : WriteFate}

theorem sent_cons {acks : List Bytes}
    (h : Link.Sent ⟨p, panelEncodeProvAck k :: acks⟩ g a) :
    (a = k ∧ k.generation = g) ∨ ∀ q, Link.Sent ⟨q, acks⟩ g a := by
  obtain ⟨b, hb, hd, hg⟩ := h
  rcases mem_cons.1 hb with rfl | hb
  · rw [panelDecodeProvAck_encode] at hd
    cases hd
    exact .inl ⟨rfl, hg⟩
  · exact .inr fun q => ⟨b, hb, hd, hg⟩

theorem transactTries_safe (hJ : ∀ s w0 w1, J s → J (s.deliver crypto payload w0 w1)) (n : Nat)
    (hs : J s) :
    Safe (linkSem crypto) Eq (fun _ => True)
      (fun r s' => J s' ∧ ∀ a, r = some a → s'.Sent generation a ∧ a.itemId = itemId)
      (transactTries itemId generation payload n) s := by
  induction n generalizing s with
  | zero => exact ⟨hs, fun a h => (nomatch h)⟩
  | succ n ih =>
    rintro _ rfl _ sent s₁ hwrite
    have hs₁ : J s₁ := by
      rcases hwrite with rfl | ⟨w0, w1, rfl⟩
      · exact hs
      · exact hJ s w0 w1 hs
    refine ⟨trivial, ?_⟩
    cases sent with
    | false => exact ⟨hs₁, fun a h => (nomatch h)⟩
    | true =>
      rintro _ rfl _ got _ ⟨rfl, hheard⟩
      refine ⟨trivial, ?_⟩
      cases got with
      | none => exact ⟨hs₁, fun a h => (nomatch h)⟩
      | some frames =>
        dsimp only [Prog.bind]
        cases hf : frames.findSome? (onFrame itemId generation) with
        | none => exact ih hs₁
        | some k =>
          refine ⟨hs₁, fun a h => ?_⟩
          cases h
          obtain ⟨f, hmem, hon⟩ := List.exists_of_findSome?_eq_some hf
          obtain ⟨ht, hd, hi, hg⟩ := onFrame_acknowledges hon
          exact ⟨⟨f.2, hheard frames rfl f hmem ht, hd, hg⟩, hi⟩

theorem transact_safe (hJ : ∀ s payload w0 w1,
      panelEncodeProvision ⟨itemId, generation, UInt16.ofNat offset, data⟩ = some payload →
      J s → J (s.deliver crypto payload w0 w1)) (hs : J s) :
    Safe (linkSem crypto) Eq (fun _ => True)
      (fun r s' => J s' ∧ ∀ a, r = some a → s'.Sent generation a ∧ a.itemId = itemId)
      (transact itemId generation offset data) s := by
  unfold transact
  split
  · exact ⟨hs, fun a h => (nomatch h)⟩
  · next payload he => exact transactTries_safe (fun s w0 w1 => hJ s payload w0 w1 he) ackTries hs

/-! ## What the panel has staged -/

def PanelProv.Holds (p : PanelProv) (itemId : UInt8) (b : Bytes) : Prop :=
  ∃ i, itemIdx itemId = some i ∧ p.staged i = b

structure Open (g : UInt8) (done : List HostItem) (p : PanelProv) : Prop where
  active : p.active = true
  generation : p.generation = g
  held : ∀ it ∈ done, p.Holds it.itemId it.data

theorem itemIdx_inj {a b : UInt8} (ha : itemIdx a = some i) (hb : itemIdx b = some i) : a = b := by
  have hval : ∀ {c : UInt8}, itemIdx c = some i → c.toNat = i.val + 1 := by
    intro c hc
    unfold itemIdx at hc
    split at hc
    · next hr =>
      dsimp only at hc
      split at hc
      · cases hc
      cases hc
      show c.toNat = c.toNat - 1 + 1
      omega
    · cases hc
  exact UInt8.toNat_inj.1 ((hval ha).trans (hval hb).symm)

theorem Open.of_others (h : Open g done p) (hi : itemIdx itemId = some i)
    (hnew : ∀ it ∈ done, it.itemId ≠ itemId) (ha : q.active = true) (hg : q.generation = g)
    (hq : ∀ j, j ≠ i → q.staged j = p.staged j) : Open g done q := by
  refine ⟨ha, hg, fun it hit => ?_⟩
  obtain ⟨j, hj, hd⟩ := h.held it hit
  refine ⟨j, hj, ?_⟩
  rw [hq j, hd]
  rintro rfl
  exact hnew it hit (itemIdx_inj hj hi)

/-! ## The chunk at an offset -/

section item
variable (g : UInt8) (done : List HostItem) (it : HostItem) (offset : Nat)

def Before (p : PanelProv) : Prop :=
  (done = [] ∧ offset = 0) ∨ Open g done p ∧ (offset = 0 ∨ p.Holds it.itemId (it.data.take offset))

def After (p : PanelProv) : Prop :=
  Open g done p ∧ p.Holds it.itemId (it.data.take (offset + panelProvChunk))

def HostItem.request : Provision :=
  ⟨it.itemId, g, UInt16.ofNat offset, it.chunk offset⟩

def HostItem.mark : Nat := offset + (it.chunk offset).length

end item

section chunk
variable {g : UInt8} {done : List HostItem} {it : HostItem} {offset : Nat} {p : PanelProv}
  {i : Fin 10}

theorem HostItem.take_chunk (it : HostItem) (offset : Nat) :
    it.data.take offset ++ it.chunk offset = it.data.take (offset + panelProvChunk) := by
  unfold HostItem.chunk
  rw [take_add]

theorem HostItem.mark_eq (it : HostItem) (h : offset ≤ it.data.length) :
    it.mark offset = min (offset + panelProvChunk) it.data.length := by
  unfold HostItem.mark HostItem.chunk
  rw [length_take, length_drop]
  omega

theorem staged_chunk (hi : itemIdx it.itemId = some i)
    (h : Before g done it offset p ∨ After g done it offset p) :
    (if offset = 0 then [] else p.openBytes g i) = it.data.take offset ∨
      offset ≠ 0 ∧ After g done it offset p ∧
        p.openBytes g i = it.data.take (offset + panelProvChunk) := by
  by_cases h0 : offset = 0
  · rw [h0]
    exact .inl rfl
  have hheld (ho : Open g done p) {b : Bytes} (hb : p.Holds it.itemId b) : p.openBytes g i = b := by
    obtain ⟨j, hj, hst⟩ := hb
    cases hi.symm.trans hj
    exact (if_pos ⟨ho.active, ho.generation⟩).trans hst
  rw [if_neg h0]
  rcases h with (⟨-, hz⟩ | ⟨ho, hz | hb⟩) | hafter
  · exact absurd hz h0
  · exact absurd hz h0
  · exact .inl (hheld ho hb)
  · exact .inr ⟨h0, hafter, hheld hafter.1 hafter.2⟩

theorem chunk_step (hi : itemIdx it.itemId = some i) (hnew : ∀ d ∈ done, d.itemId ≠ it.itemId)
    (hoff : offset = 0 ∨ offset < it.data.length)
    (h : Before g done it offset p ∨ After g done it offset p) :
    (After g done it offset (provItem p i (it.request g offset)).1 ∧
        (provItem p i (it.request g offset)).2 = (.ok, it.mark offset)) ∨
      (Before g done it offset (provItem p i (it.request g offset)).1 ∧ ¬ After g done it offset p ∧
        (provItem p i (it.request g offset)).2.1 = .formatInvalid) := by
  obtain ⟨ha, hg, hst, hothers, hres⟩ := provItem_eq p i (it.request g offset)
  have hle : offset ≤ it.data.length := by omega
  have hnat : (UInt16.ofNat offset).toNat = offset := by
    rw [UInt16.toNat_ofNat', Nat.mod_eq_of_lt (Nat.lt_of_le_of_lt hle it.small)]
  have hzero : UInt16.ofNat offset = 0 ↔ offset = 0 := by
    rw [← UInt16.toNat_inj, hnat]
    rfl
  have hmark : (it.data.take (offset + panelProvChunk)).length = it.mark offset := by
    rw [length_take, it.mark_eq hle]
  have hopen : Open g done (provItem p i (it.request g offset)).1 := by
    have hof (ho : Open g done p) := ho.of_others hi hnew ha hg fun j hj =>
      (hothers j hj).trans (if_pos ⟨ho.active, ho.generation⟩)
    rcases h with (⟨rfl, -⟩ | ⟨ho, -⟩) | ⟨ho, -⟩
    · exact ⟨ha, hg, fun d hd => (nomatch hd)⟩
    · exact hof ho
    · exact hof ho
  simp only [accept, acceptStatus, HostItem.request, hnat, hzero] at hst hres
  rcases staged_chunk hi h with hkept | ⟨h0, hafter, hkept⟩
  · -- the chunk starts where the staged bytes end
    have hlen : (it.data.take offset).length = offset := by
      rw [length_take, Nat.min_eq_left hle]
    simp only [hkept, hlen, it.take_chunk, Nat.lt_irrefl, true_and, false_or] at hst hres
    by_cases hfit : (it.data.take (offset + panelProvChunk)).length ≤ kItemMax i
    · rw [if_pos hfit] at hst hres
      refine .inl ⟨⟨hopen, i, hi, hst⟩, ?_⟩
      rw [← hmark, ← hst]
      exact hres
    · rw [if_neg hfit] at hst hres
      refine .inr ⟨.inr ⟨hopen, .inr ⟨i, hi, hst⟩⟩, ?_, congrArg Prod.fst hres⟩
      rintro ⟨-, j, hj, hheld⟩
      cases hi.symm.trans hj
      exact hfit (hheld ▸ p.bounded i)
  · -- the chunk was accepted before: the panel repeats the watermark
    have hgt : offset < it.mark offset := by
      rw [it.mark_eq hle]
      unfold panelProvChunk
      omega
    simp only [if_neg h0, hkept, hmark, Nat.ne_of_lt hgt, Nat.lt_asymm hgt, hgt, false_and,
      if_false] at hst hres
    refine .inl ⟨⟨hopen, i, hi, hst⟩, ?_⟩
    rw [← hmark, ← hst]
    exact hres

end chunk

/-! ## One item -/

structure AtChunk (g : UInt8) (done : List HostItem) (it : HostItem) (offset : Nat) (s : Link) :
    Prop where
  staged : Before g done it offset s.panel.prov ∨ After g done it offset s.panel.prov
  known : ∀ a, s.Sent g a → a.itemId = it.itemId ∨ ∃ d ∈ done, a.itemId = d.itemId
  noMismatch : ∀ a, s.Sent g a → a.itemId = it.itemId →
    a.status ≠ PanelProvStatus.offsetMismatch.code
  ok : ∀ a, s.Sent g a → a.itemId = it.itemId → a.status = PanelProvStatus.ok.code →
    a.nextOffset.toNat ≤ offset ∨
      (a.nextOffset.toNat = it.mark offset ∧ After g done it offset s.panel.prov)

structure AtItems (g : UInt8) (done : List HostItem) (s : Link) : Prop where
  staged : done = [] ∨ Open g done s.panel.prov
  known : ∀ a, s.Sent g a → ∃ d ∈ done, a.itemId = d.itemId

section loop
variable {crypto : Option PanelProvCrypto} {g : UInt8} {done : List HostItem} {it : HostItem}
  {offset : Nat}

theorem AtItems.start (h : AtItems g done s) (hnew : ∀ d ∈ done, d.itemId ≠ it.itemId) :
    AtChunk g done it 0 s := by
  have hno : ∀ a, s.Sent g a → a.itemId ≠ it.itemId := by
    intro a ha hit
    obtain ⟨d, hd, hid⟩ := h.known a ha
    exact hnew d hd (hid.symm.trans hit)
  refine ⟨.inl (h.staged.imp (⟨·, rfl⟩) (⟨·, .inl rfl⟩)), fun a ha => .inr (h.known a ha), ?_, ?_⟩
  · exact fun a ha hit => absurd hit (hno a ha)
  · exact fun a ha hit => absurd hit (hno a ha)

theorem HostItem.mark_le (it : HostItem) (hoff : offset = 0 ∨ offset < it.data.length) :
    it.mark offset ≤ it.data.length := by
  rw [it.mark_eq (by omega)]
  exact Nat.min_le_right ..

theorem AtChunk.answer {next : Nat}
    (h : AtChunk g done it offset s)
    (hstaged : Before g done it offset p.prov ∨ After g done it offset p.prov)
    (hkeep : After g done it offset s.panel.prov → After g done it offset p.prov)
    (hmismatch : status ≠ .offsetMismatch)
    (hok : status = .ok → (UInt16.ofNat next).toNat = it.mark offset ∧
      After g done it offset p.prov) :
    AtChunk g done it offset
      ⟨p, panelEncodeProvAck (ackOf (it.request g offset) status next) :: s.acks⟩ := by
  refine ⟨hstaged, ?_, ?_, ?_⟩
  all_goals intro a ha
  all_goals rcases sent_cons ha with ⟨rfl, _⟩ | hold
  · exact .inl rfl
  · exact h.known a (hold _)
  · exact fun _ hcode => hmismatch (PanelProvStatus.code_inj hcode)
  · exact h.noMismatch a (hold _)
  · exact fun _ hcode => .inr (hok (PanelProvStatus.code_inj hcode))
  · exact fun hit hcode => (h.ok a (hold _) hit hcode).imp_right fun hm => ⟨hm.1, hkeep hm.2⟩

theorem AtChunk.deliver (h : AtChunk g done it offset s)
    (hdata : it.itemId ≠ PanelProvItem.commit ∧ it.itemId ≠ PanelProvItem.wipe)
    (hnew : ∀ d ∈ done, d.itemId ≠ it.itemId) (hoff : offset = 0 ∨ offset < it.data.length)
    (he : panelEncodeProvision (it.request g offset) = some payload) :
    AtChunk g done it offset (s.deliver crypto payload w0 w1) := by
  rw [deliver_item he hdata.2 hdata.1]
  cases hi : itemIdx (it.request g offset).itemId with
  | none =>
    -- no item of the panel: refused, and nothing changes
    exact h.answer h.staged id nofun nofun
  | some i =>
    dsimp only
    rcases chunk_step hi hnew hoff h.staged with ⟨hafter, hres⟩ | ⟨hbefore, hnot, hres⟩
    · have hnext : (UInt16.ofNat (it.mark offset)).toNat = it.mark offset := by
        rw [UInt16.toNat_ofNat', Nat.mod_eq_of_lt (Nat.lt_of_le_of_lt (it.mark_le hoff) it.small)]
      rw [hres]
      exact h.answer (.inr hafter) (fun _ => hafter) nofun fun _ => ⟨hnext, hafter⟩
    · rw [hres]
      exact h.answer (.inl hbefore) (fun ha => absurd ha hnot) nofun nofun

theorem AtChunk.next (h : AtChunk g done it offset s) (hafter : After g done it offset s.panel.prov)
    (hlt : it.mark offset < it.data.length) (hoff : offset = 0 ∨ offset < it.data.length) :
    AtChunk g done it (it.mark offset) s := by
  have hmark := it.mark_eq (show offset ≤ it.data.length by omega)
  obtain ⟨hopen, i, hi, hst⟩ := hafter
  refine ⟨.inl (.inr ⟨hopen, .inr ⟨i, hi, ?_⟩⟩), h.known, h.noMismatch, fun a ha hit hok => .inl ?_⟩
  · rw [hst, show offset + panelProvChunk = it.mark offset by omega]
  · rcases h.ok a ha hit hok with hle | ⟨heq, _⟩
    · exact Nat.le_trans hle (Nat.le_add_right ..)
    · exact Nat.le_of_eq heq

theorem AtChunk.finish (h : AtChunk g done it offset s)
    (hafter : After g done it offset s.panel.prov) (hge : it.data.length ≤ it.mark offset)
    (hoff : offset = 0 ∨ offset < it.data.length) : AtItems g (done ++ [it]) s := by
  have hmark := it.mark_eq (show offset ≤ it.data.length by omega)
  obtain ⟨hopen, i, hi, hst⟩ := hafter
  refine ⟨.inr ⟨hopen.active, hopen.generation, fun d hd => ?_⟩, fun a ha => ?_⟩
  · rcases mem_append.1 hd with hd | hd
    · exact hopen.held d hd
    · obtain rfl := mem_singleton.1 hd
      exact ⟨i, hi, hst.trans (take_of_length_le (by omega))⟩
  · rcases h.known a ha with hit | ⟨d, hd, hid⟩
    · exact ⟨it, mem_append_right _ (mem_singleton_self it), hit⟩
    · exact ⟨d, mem_append_left _ hd, hid⟩

theorem sendItemLoop_safe
    (hdata : it.itemId ≠ PanelProvItem.commit ∧ it.itemId ≠ PanelProvItem.wipe)
    (hnew : ∀ d ∈ done, d.itemId ≠ it.itemId) (n stalls : Nat)
    (hoff : offset = 0 ∨ offset < it.data.length) (hs : AtChunk g done it offset s) :
    Safe (linkSem crypto) Eq (fun _ => True)
      (fun r s' => r = some true → AtItems g (done ++ [it]) s')
      (sendItemLoop it g n offset stalls) s := by
  induction n generalizing offset stalls s with
  | zero => exact fun h => (nomatch h)
  | succ n ih =>
    refine (transact_safe (fun s payload w0 w1 he hs =>
      AtChunk.deliver hs hdata hnew hoff he) hs).seq ?_
    rintro a s' ⟨hs', hans⟩
    cases a with
    | none => exact fun h => (nomatch h)
    | some a =>
      obtain ⟨hsent, hit⟩ := hans a rfl
      rcases sendItemNext_cases it offset stalls (hs'.noMismatch a hsent hit) with
        hfail | ⟨hok, hlt, hfoot⟩
      · rw [hfail]
        exact fun h => (nomatch h)
      rcases hs'.ok a hsent hit hok with hle | ⟨hmark, hafter⟩
      · omega
      rw [hfoot, hmark, HostItem.loopFoot]
      by_cases hmore : it.mark offset < it.data.length
      · rw [if_pos hmore]
        exact ih 0 (.inr hmore) (hs'.next hafter hmore hoff)
      · rw [if_neg hmore]
        exact fun _ => hs'.finish hafter (Nat.not_lt.1 hmore) hoff

end loop

theorem sendItems_safe (turns : Nat) (hnodup : ((done ++ its).map HostItem.itemId).Nodup)
    (hdata : ∀ it ∈ its, it.itemId ≠ PanelProvItem.commit ∧ it.itemId ≠ PanelProvItem.wipe)
    (hs : AtItems g done s) :
    Safe (linkSem crypto) Eq (fun _ => True)
      (fun r s' => r = some true → AtItems g (done ++ its) s') (sendItems g turns its) s := by
  induction its generalizing done s with
  | nil =>
    intro _
    rw [append_nil]
    exact hs
  | cons it its ih =>
    have hnew : ∀ d ∈ done, d.itemId ≠ it.itemId := by
      intro d hd
      rw [map_append, nodup_append] at hnodup
      exact hnodup.2.2 _ (mem_map_of_mem hd) _ (mem_map_of_mem mem_cons_self)
    have happ : done ++ it :: its = done ++ [it] ++ its := by simp
    refine (sendItemLoop_safe (hdata it mem_cons_self) hnew turns 0 (.inl rfl)
      (hs.start hnew)).seq ?_
    intro r s' hr
    cases r with
    | none => exact fun h => (nomatch h)
    | some b =>
      cases b with
      | false => exact fun h => (nomatch h)
      | true =>
        rw [happ] at hnodup ⊢
        exact ih hnodup (fun d hd => hdata d (mem_cons_of_mem it hd)) (hr rfl)

/-! ## The commit -/

/-- The record in use holds exactly the bytes of every item, in memory and in flash. -/
def Stored (its : List HostItem) (s : PanelState) : Prop :=
  ∀ it ∈ its, ∃ i : Fin 10, itemIdx it.itemId = some i ∧ s.store.valid = true ∧
    s.store.items[i.val]? = some it.data ∧
    decodeRecord (s.flash s.store.activeSlot) = some ⟨s.store.generation, s.store.items⟩

def AtCommit (g : UInt8) (its : List HostItem) (s : Link) : Prop :=
  its = [] ∨ (Open g its s.panel.prov ∧ ∀ a, s.Sent g a → a.itemId = PanelProvItem.commit →
      a.status ≠ PanelProvStatus.ok.code) ∨
    (s.panel.prov.active = false ∧ Stored its s.panel)

theorem AtItems.commit (h : AtItems g its s)
    (hdata : ∀ it ∈ its, it.itemId ≠ PanelProvItem.commit ∧ it.itemId ≠ PanelProvItem.wipe) :
    AtCommit g its s := by
  refine h.staged.imp_right fun hopen => .inl ⟨hopen, fun a ha hc => ?_⟩
  obtain ⟨d, hd, hid⟩ := h.known a ha
  exact absurd (hid.symm.trans hc) (hdata d hd).1

theorem provCommit_inactive {s : PanelState} {w : WriteFate} (h : s.prov.active = false) :
    (provCommit crypto s m w).1 = s := by
  have hs : ¬ (s.prov.active = true ∧ m.generation ≠ s.prov.generation) := by simp [h]
  simp only [provCommit]
  split <;> rfl

theorem AtCommit.deliver (h : AtCommit g its s)
    (he : panelEncodeProvision ⟨PanelProvItem.commit, g, UInt16.ofNat 0, []⟩ = some payload) :
    AtCommit g its (s.deliver crypto payload w0 w1) := by
  rw [deliver_commit he rfl]
  refine h.imp_right ?_
  rintro (⟨hopen, hno⟩ | ⟨hidle, hst⟩)
  · have hspec := provCommit_spec crypto
      (m := ⟨PanelProvItem.commit, g, UInt16.ofNat 0, []⟩) (w := w0) fun _ => hopen.generation
    rcases hspec with ⟨hne, hprov, _⟩ | ⟨_, _, hprov, hval, hitems, hrec⟩
    · left
      refine ⟨?_, fun a ha hit => ?_⟩
      · rw [hprov]
        exact hopen
      rcases sent_cons ha with ⟨rfl, _⟩ | hold
      · intro hcode
        exact hne (PanelProvStatus.code_inj hcode)
      · exact hno a (hold _) hit
    · right
      refine ⟨?_, fun it hit => ?_⟩
      · rw [hprov]
        rfl
      obtain ⟨i, hi, hd⟩ := hopen.held it hit
      refine ⟨i, hi, hval, ?_, ?_⟩
      · rw [hitems, List.getElem?_ofFn, dif_pos i.isLt, ← hd]
      · rw [hrec, hitems]
  · right
    rw [provCommit_inactive hidle]
    exact ⟨hidle, hst⟩

theorem commit_safe (hs : AtCommit g its s) : Safe (linkSem crypto) Eq (fun _ => True)
      (fun r s' => ∀ a, r = some a → a.status = PanelProvStatus.ok.code → Stored its s'.panel)
      (transact PanelProvItem.commit g 0 []) s := by
  refine (transact_safe (fun s payload w0 w1 he hs => AtCommit.deliver hs he) hs).mono ?_
  rintro r s' ⟨hs', hans⟩ a ha hok
  obtain ⟨hsent, hit⟩ := hans a ha
  rcases hs' with rfl | ⟨_, hno⟩ | ⟨_, hst⟩
  · exact fun it h => (nomatch h)
  · exact absurd hok (hno a hsent hit)
  · exact hst

/-! ## The whole run -/

theorem deliver_other (he : panelEncodeProvision m = some payload)
    (hm : m.itemId = PanelProvItem.ssid) (hg : m.generation ≠ g) (h : ∀ a, ¬ s.Sent g a)
    (a : ProvAck) :
    ¬ (s.deliver crypto payload w0 w1).Sent g a := by
  rw [deliver_item he (by rw [hm]; decide) (by rw [hm]; decide)]
  intro ha
  split at ha
  all_goals
    rcases sent_cons ha with ⟨_, hgen⟩ | hold
    · exact hg hgen
    · exact h a (hold s.panel)

theorem succ_ne_self (g : UInt8) : g ≠ g + 1 := by
  intro h
  have hn := congrArg UInt8.toNat h
  rw [UInt8.toNat_add] at hn
  simp only [UInt8.toNat_ofNat] at hn
  omega

theorem provisionRun_safe (g : UInt8) (turns : Nat) (set : ItemSet) (hs : ∀ a, ¬ s.Sent (g + 1) a) :
    Safe (linkSem crypto) Eq (fun _ => True)
      (fun r s' => r = some true → Stored set.items s'.panel) (provisionRun g turns set) s := by
  refine (transact_safe (J := fun s => ∀ a, ¬ s.Sent (g + 1) a)
    (fun s payload w0 w1 he hs => deliver_other he rfl (succ_ne_self g) hs) hs).seq ?_
  rintro bump s₁ ⟨hs₁, _⟩
  cases bump with
  | none => exact fun h => (nomatch h)
  | some k =>
    dsimp only
    split
    · exact fun h => (nomatch h)
    have hstart : AtItems (g + 1) [] s₁ := ⟨.inl rfl, fun a ha => absurd ha (hs₁ a)⟩
    refine (sendItems_safe turns
      (show (([] ++ set.items).map HostItem.itemId).Nodup from set.distinct) set.known
      hstart).seq ?_
    intro r s₂ hr
    cases r with
    | none => exact fun h => (nomatch h)
    | some b =>
      cases b with
      | false => exact fun h => (nomatch h)
      | true =>
        refine (commit_safe ((hr rfl).commit set.known)).seq ?_
        intro c s₃ hc
        cases c with
        | none => exact fun h => (nomatch h)
        | some a =>
          intro h
          exact hc a rfl (by simpa using h)

/-- **Host and panel agree.** When no acknowledgement of the new generation was on the line, every
item was sent with success and the commit was answered `OK`, the record of the panel holds exactly
the bytes of each item.  `sendItem` returns exactly when some answer does not ask for more, and does
so whenever only finitely many are `OFFSET_MISMATCH`. -/
theorem provisioning_agrees (crypto : Option PanelProvCrypto) (g : UInt8) (turns : Nat)
    (set : ItemSet) (s s' : Link) (it : HostItem) (answer : Nat → Option ProvAck) :
    ((∀ a, ¬ s.Sent (g + 1) a) → Exec (linkSem crypto) (provisionRun g turns set) s (some true) s' →
      Stored set.items s'.panel) ∧
    ((∃ n b, (sendItemRun it answer n).result = some b) ↔ ∃ n, ¬ AsksOn it answer n) ∧
    ((∃ N, ∀ n, N ≤ n → ¬ IsMismatch (answer n)) →
      ∃ n b, (sendItemRun it answer n).result = some b) := by
  refine ⟨fun hs hx => ?_, sendItem_ends_iff it answer,
    fun ⟨_, h⟩ => (sendItem_ends_iff it answer).2 (asksOn_ends h)⟩
  exact ((provisionRun_safe g turns set hs).exec (fun _ => rfl) trivial hx).2 rfl

/-! ## Two runs -/

theorem transact_exec
    (he : panelEncodeProvision ⟨itemId, generation, UInt16.ofNat offset, data⟩ = some payload)
    (hw : linkSem crypto (.write payload) s true s₁) (ha : panelEncodeProvAck a ∈ s₁.acks)
    (hi : a.itemId = itemId) (hg : a.generation = generation) :
    Exec (linkSem crypto) (transact itemId generation offset data) s (some a) s₁ := by
  have hheard : linkSem crypto .listen s₁ (some [(PanelFt.provack, panelEncodeProvAck a)]) s₁ := by
    refine ⟨rfl, fun frames hf f hmem _ => ?_⟩
    cases hf
    obtain rfl := mem_singleton.1 hmem
    exact ha
  unfold transact
  rw [he]
  refine Exec.call_iff.2 ⟨true, s₁, hw, Exec.call_iff.2 ⟨_, s₁, hheard, ?_⟩⟩
  dsimp only [Prog.bind]
  rw [List.findSome?_cons, onFrame_encode hi hg]
  exact .ret _ _

def ssidItem : HostItem := ⟨PanelProvItem.ssid, "ssid", [110], by decide⟩

/-- A panel on which a session of generation 1 was interrupted before the network name, with an
acknowledgement of generation 0 still on the line. -/
def interrupted : Link where
  panel :=
    { prov :=
        { active := true
          generation := 1
          staged := ![[], [112, 112, 112, 112, 112, 112, 112, 112], [104], [1, 0], [1], [1], [1],
            [], [], []]
          bounded := by decide }
      store := provStoreZero
      flash := fun _ => [] }
  acks := [panelEncodeProvAck ⟨PanelProvItem.ssid, 0, 0, 1⟩]

def namePayload : Bytes := [1, 1] ++ writeLe16 0 ++ writeLe16 1 ++ [110]

def commitPayload : Bytes := [8, 1] ++ writeLe16 0 ++ writeLe16 0

theorem encode_commitPayload :
    panelEncodeProvision ⟨PanelProvItem.commit, 1, UInt16.ofNat 0, []⟩ = some commitPayload := by
  decide

def named : Link := interrupted.deliver acceptAll namePayload .done .done

def committed : Link := named.deliver acceptAll commitPayload .done .done

theorem committed_acks : panelEncodeProvAck ⟨PanelProvItem.commit, 0, 1, 0⟩ ∈ committed.acks := by
  decide +kernel

/-- The bump is lost and an old acknowledgement taken for its answer; the network name and the
commit arrive. -/
theorem provisioning_agrees_interrupted :
    ∃ s', Exec (linkSem acceptAll) (provisionRun 0 1 ⟨[ssidItem], by decide, by decide⟩) interrupted
        (some true) s' ∧ Stored [ssidItem] s'.panel := by
  have hfresh : ∀ a, ¬ interrupted.Sent (0 + 1) a := by
    rintro a ⟨b, hb, hd, hg⟩
    obtain rfl := mem_singleton.1 hb
    cases hd
    exact absurd hg (by decide)
  have hbump : Exec (linkSem acceptAll) (transact PanelProvItem.ssid 0 0 [120]) interrupted
      (some ⟨PanelProvItem.ssid, 0, 0, 1⟩) interrupted :=
    transact_exec (show _ = some ([1, 0] ++ writeLe16 0 ++ writeLe16 1 ++ [120]) by decide)
      (.inl rfl) mem_cons_self rfl rfl
  have hname : Exec (linkSem acceptAll) (transact PanelProvItem.ssid 1 0 [110]) interrupted
      (some ⟨PanelProvItem.ssid, 0, 1, 1⟩) named :=
    transact_exec (show _ = some namePayload by decide) (.inr ⟨.done, .done, rfl⟩) (by decide) rfl
      rfl
  have hcommit : Exec (linkSem acceptAll) (transact PanelProvItem.commit 1 0 []) named
      (some ⟨PanelProvItem.commit, 0, 1, 0⟩) committed :=
    transact_exec encode_commitPayload (.inr ⟨.done, .done, rfl⟩) committed_acks rfl rfl
  have hitems : Exec (linkSem acceptAll) (sendItems 1 1 [ssidItem]) interrupted (some true) named :=
    Exec.bind_iff.2 ⟨some true, named, Exec.bind_iff.2 ⟨_, named, hname, .ret _ _⟩, .ret _ _⟩
  have hrun : Exec (linkSem acceptAll)
      (provisionRun 0 1 ⟨[ssidItem], by decide, by decide⟩) interrupted (some true) committed :=
    Exec.bind_iff.2 ⟨_, interrupted, hbump, Exec.bind_iff.2 ⟨some true, named, hitems,
      Exec.bind_iff.2 ⟨_, committed, hcommit, .ret _ _⟩⟩⟩
  exact ⟨committed, hrun, (provisioning_agrees _ _ _ _ _ _ ssidItem fun _ => none).1 hfresh hrun⟩

def twoBytes : HostItem := ⟨PanelProvItem.ssid, "ssid", [97, 98], by decide⟩

/-- `OK` with one byte accepted and `OFFSET_MISMATCH` with none, in turn. -/
def alternating (n : Nat) : Option ProvAck :=
  some (if n % 2 = 0 then ⟨PanelProvItem.ssid, PanelProvStatus.ok.code, 1, 1⟩
    else ⟨PanelProvItem.ssid, PanelProvStatus.offsetMismatch.code, 1, 0⟩)

theorem alternating_turns (n : Nat) :
    (∃ stalls ≤ 1, sendItemRun twoBytes alternating (2 * n) = .again 0 stalls) ∧
      sendItemRun twoBytes alternating (2 * n + 1) = .again 1 0 := by
  have hodd : ∀ k stalls, sendItemRun twoBytes alternating (2 * k) = .again 0 stalls →
      sendItemRun twoBytes alternating (2 * k + 1) = .again 1 0 := by
    intro k stalls h
    show (sendItemRun twoBytes alternating (2 * k)).step twoBytes (alternating (2 * k)) = _
    rw [h, alternating, if_pos (by omega)]
    rfl
  induction n with
  | zero => exact ⟨⟨0, Nat.zero_le 1, rfl⟩, hodd 0 0 rfl⟩
  | succ n ih =>
    have heven : sendItemRun twoBytes alternating (2 * (n + 1)) = .again 0 1 := by
      show (sendItemRun twoBytes alternating (2 * n + 1)).step twoBytes
        (alternating (2 * n + 1)) = _
      rw [ih.2, alternating, if_neg (by omega)]
      rfl
    exact ⟨⟨1, Nat.le_refl 1, heven⟩, hodd (n + 1) 1 heven⟩

/-- A panel that accepts a byte and takes it back, over and over: the answers are well formed,
`sendItem` never returns, and the tool itself can be kept going for any number of turns. -/
theorem alternating_answers_livelock : (∀ k, Acknowledges twoBytes.itemId 1 (alternating k)) ∧
      (∀ n, (sendItemRun twoBytes alternating n).result = none) ∧
      ∀ n, ∃ t, Runs (sendItemLoop twoBytes 1 n 0 0) t none := by
  have hack : ∀ k, Acknowledges twoBytes.itemId 1 (alternating k) := by
    intro k a ha
    unfold alternating at ha
    split at ha
    all_goals
      cases ha
      exact ⟨rfl, rfl⟩
  have hgo : ∀ n, (sendItemRun twoBytes alternating n).result = none := by
    intro n
    obtain ⟨k, rfl | rfl⟩ : ∃ k, n = 2 * k ∨ n = 2 * k + 1 := ⟨n / 2, by omega⟩
    · obtain ⟨⟨_, _, h⟩, _⟩ := alternating_turns k
      rw [h]
      rfl
    · rw [(alternating_turns k).2]
      rfl
  exact ⟨hack, hgo, fun n => (sendItemLoop_runs_iff ..).2 ⟨alternating, hack, (hgo n).symm⟩⟩

end SolariNet
