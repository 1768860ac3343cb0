/-
# What a commit stores

`firmware/panelProv.c` over any sequence of frames.  The panel keeps no history, only a generation
and the accepted bytes of each item; here these are read off the frames that came, over USB, since
the session of that generation was last ended.
-/
import SolariNet.Panel.Prov

namespace SolariNet

open Lib

/-! ## Frames and sessions -/

/-- A `PROVISION` frame, its transport, and what becomes of the flash writes it causes. -/
structure ProvFrame where
  payload : Bytes
  onWifi : Bool
  w0 : WriteFate
  w1 : WriteFate

namespace ProvFrame

def handle (crypto : Option PanelProvCrypto) (f : ProvFrame) (s : PanelState) :
    PanelState × Bytes :=
  panelProvHandle crypto s f.payload f.onWifi f.w0 f.w1

def usb (f : ProvFrame) : Option Provision :=
  if f.onWifi then none else panelDecodeProvision f.payload

def chunk (i : Fin 10) (f : ProvFrame) : Option Provision :=
  f.usb.filter fun m => itemIdx m.itemId = some i

/-- The frame ends the session of a generation: a wipe, a commit answered OK, or a commit or a
chunk of a known item in another generation. -/
def ends (crypto : Option PanelProvCrypto) (s : PanelState) (generation : UInt8)
    (f : ProvFrame) : Bool :=
  f.usb.any fun m =>
    if m.itemId = PanelProvItem.wipe then m.data.length == 0 && m.offset == 0
    else if m.itemId = PanelProvItem.commit then
      m.generation != generation || (provCommit crypto s m f.w0).2 == .ok
    else (itemIdx m.itemId).isSome && m.generation != generation

end ProvFrame

def panelAfter (crypto : Option PanelProvCrypto) (s : PanelState) : List ProvFrame → PanelState
  | [] => s
  | f :: fs => (f.handle crypto (panelAfter crypto s fs)).1

def session (crypto : Option PanelProvCrypto) (s : PanelState) (generation : UInt8) :
    List ProvFrame → List ProvFrame
  | [] => []
  | f :: fs =>
    if f.ends crypto (panelAfter crypto s fs) generation then []
    else f :: session crypto s generation fs

def accepted (i : Fin 10) (fs : List ProvFrame) : Bytes :=
  (fs.filterMap (ProvFrame.chunk i)).foldr (accept i) []

/-! ## One frame -/

theorem itemIdx_wipe : itemIdx PanelProvItem.wipe = none := by decide

theorem itemIdx_commit : itemIdx PanelProvItem.commit = none := by decide

variable (crypto : Option PanelProvCrypto)

theorem provCommit_other
    (h : s.prov.active = true ∧ m.generation ≠ s.prov.generation) :
    (provCommit crypto s m w).1.prov = startSession m.generation ∧
      (provCommit crypto s m w).2 ≠ .ok := by
  have hempty : validateStaged (startSession m.generation) crypto ≠ .ok := by
    rw [show validateStaged (startSession m.generation) crypto = .commitInvalid from rfl]
    decide
  simp only [provCommit]
  split
  · exact ⟨rfl, fun h => by cases h⟩
  · exact ⟨rfl, hempty⟩

theorem openBytes_commit (s : PanelState) (m : Provision)
    (w : WriteFate) (g : UInt8) (i : Fin 10) :
    (provCommit crypto s m w).1.prov.openBytes g i =
      if m.generation ≠ g ∨ (provCommit crypto s m w).2 = .ok then []
      else s.prov.openBytes g i := by
  by_cases hother : s.prov.active = true ∧ m.generation ≠ s.prov.generation
  · obtain ⟨hprov, hstatus⟩ := provCommit_other crypto hother
    rw [hprov]
    by_cases hg : m.generation = g
    · rw [if_neg (by simp [hg, hstatus])]
      subst hg
      rw [PanelProv.openBytes, PanelProv.openBytes, if_pos ⟨rfl, rfl⟩,
        if_neg fun h => hother.2 h.2.symm]
      rfl
    · rw [if_pos (.inl hg)]
      exact if_neg fun h => hg h.2
  · have hsame : s.prov.active = true → s.prov.generation = m.generation := fun ha =>
      (not_not.1 fun hne => hother ⟨ha, hne⟩).symm
    obtain ⟨hne, hprov, -⟩ | ⟨hok, -, hprov, -⟩ := provCommit_spec crypto hsame
    · rw [hprov]
      by_cases hg : m.generation = g
      · rw [if_neg (by simp [hg, hne])]
      · rw [if_pos (.inl hg)]
        exact if_neg fun h => hg ((hsame h.1).symm.trans h.2)
    · rw [hprov, if_pos (.inr hok)]
      rfl

theorem ProvFrame.handle_none {f : ProvFrame}
    (h : f.usb = none) (s : PanelState) :
    (f.handle crypto s).1 = s ∧ ∃ status, (f.handle crypto s).2 = provAckOf f.payload status 0 := by
  unfold handle panelProvHandle
  split
  · exact ⟨rfl, _, rfl⟩
  next hwifi =>
  have hdecode : panelDecodeProvision f.payload = none := (if_neg hwifi).symm.trans h
  rw [hdecode]
  exact ⟨rfl, _, rfl⟩

theorem ProvFrame.handle_some {f : ProvFrame} {m : Provision}
    (h : f.usb = some m) (s : PanelState) :
    f.handle crypto s = if m.itemId = PanelProvItem.wipe then
        ((provWipe s m f.w0 f.w1).1, provAckOf f.payload (provWipe s m f.w0 f.w1).2 0)
      else if m.itemId = PanelProvItem.commit then
        ((provCommit crypto s m f.w0).1, provAckOf f.payload (provCommit crypto s m f.w0).2 0)
      else (itemIdx m.itemId).elim (s, provAckOf f.payload .formatInvalid 0) fun i =>
        (⟨(provItem s.prov i m).1, s.store, s.flash⟩,
          provAckOf f.payload (provItem s.prov i m).2.1 (provItem s.prov i m).2.2) := by
  have hwifi : ¬ f.onWifi = true := fun hw => by simp [usb, hw] at h
  have hdecode : panelDecodeProvision f.payload = some m := (if_neg hwifi).symm.trans h
  simp only [handle, panelProvHandle, if_neg hwifi, hdecode]
  cases itemIdx m.itemId <;> rfl

theorem openBytes_handle (s : PanelState) (f : ProvFrame)
    (g : UInt8) (i : Fin 10) :
    (f.handle crypto s).1.prov.openBytes g i = if f.ends crypto s g then []
      else (f.chunk i).elim (s.prov.openBytes g i) fun m => accept i m (s.prov.openBytes g i) := by
  rcases hm : f.usb with _ | m
  · simp [ProvFrame.ends, ProvFrame.chunk, hm, (ProvFrame.handle_none crypto hm s).1]
  rw [ProvFrame.handle_some crypto hm]
  simp only [ProvFrame.ends, ProvFrame.chunk, hm, Option.any_some, Option.filter_some]
  by_cases hwipe : m.itemId = PanelProvItem.wipe
  · have hidx : itemIdx m.itemId = none := by rw [hwipe, itemIdx_wipe]
    simp only [if_pos hwipe, hidx, provWipe]
    by_cases hbad : m.data.length ≠ 0 ∨ m.offset ≠ 0
    · rw [if_pos hbad, if_neg (by simpa [or_iff_not_imp_left] using hbad)]
      simp
    · rw [if_neg hbad]
      exact (if_pos (by simpa using hbad)).symm
  by_cases hcommit : m.itemId = PanelProvItem.commit
  · have hidx : itemIdx m.itemId = none := by rw [hcommit, itemIdx_commit]
    simp only [if_neg hwipe, if_pos hcommit, hidx, openBytes_commit]
    simp
  simp only [if_neg hwipe, if_neg hcommit]
  cases hidx : itemIdx m.itemId with
  | none => simp
  | some j =>
    obtain ⟨hact, hgen, hi, hj, -⟩ := provItem_eq s.prov j m
    by_cases hg : m.generation = g
    · subst hg
      rw [PanelProv.openBytes, if_pos ⟨hact, hgen⟩]
      by_cases hij : i = j
      · subst hij
        simp [hi]
      · simp [hj i hij, Ne.symm hij]
    · rw [PanelProv.openBytes, if_neg fun h => hg (hgen.symm.trans h.2)]
      simp [hg]

/-! ## Every history -/

section Histories

variable (crypto : Option PanelProvCrypto) (store : PanelProvStore) (flash : Flash)

def powerOn : PanelState := ⟨panelProvInit, store, flash⟩

theorem openBytes_after (g : UInt8) (i : Fin 10) (fs : List ProvFrame) :
    (panelAfter crypto (powerOn store flash) fs).prov.openBytes g i =
      accepted i (session crypto (powerOn store flash) g fs) := by
  induction fs with
  | nil => rfl
  | cons f fs ih =>
    rw [panelAfter, openBytes_handle, ih, session]
    split
    · rfl
    · cases hc : f.chunk i <;> simp [accepted, hc]

/-- A commit answered OK stores, for each item, the bytes accepted of it in the session of its own
generation; no item outgrows its bound; a frame over WiFi changes nothing. -/
theorem sessions_isolated (fs : List ProvFrame) (f : ProvFrame) :
    let before := panelAfter crypto (powerOn store flash) fs
    let after := (f.handle crypto before).1
    let answer := (f.handle crypto before).2
    (∀ m, f.usb = some m → m.itemId = PanelProvItem.commit → answer = provAckOf f.payload .ok 0 →
      let items := List.ofFn fun i =>
        accepted i (session crypto (powerOn store flash) m.generation fs)
      after.store.items = items ∧
        decodeRecord (after.flash after.store.activeSlot) = some ⟨after.store.generation, items⟩) ∧
    (∀ i, (after.prov.staged i).length ≤ kItemMax i) ∧
    (f.onWifi = true → after = before) ∧
    ∃ status next, answer = provAckOf f.payload status next ∧
      ∀ m i, f.usb = some m → itemIdx m.itemId = some i →
        status = .ok ∨ status = .offsetMismatch → next = (after.prov.staged i).length := by
  intro before after answer
  refine ⟨fun m hm hcommit hok => ?_, after.prov.bounded, fun hwifi => ?_, ?_⟩
  · have hhandle := ProvFrame.handle_some crypto hm before
    rw [if_neg (by rw [hcommit]; decide), if_pos hcommit] at hhandle
    have hstatus : (provCommit crypto before m f.w0).2 = .ok := by
      simp only [answer, hhandle] at hok
      have hack := congrArg panelDecodeProvAck hok
      exact PanelProvStatus.code_inj (congrArg ProvAck.status (Option.some.inj hack))
    have hsame : before.prov.active = true → before.prov.generation = m.generation := fun ha =>
      (not_not.1 fun hne => (provCommit_other crypto ⟨ha, hne⟩).2 hstatus).symm
    obtain ⟨hne, -⟩ | ⟨-, hact, -, -, hitems, hflash⟩ := provCommit_spec crypto hsame
    · exact absurd hstatus hne
    have hstaged : before.prov.staged = fun i =>
        accepted i (session crypto (powerOn store flash) m.generation fs) := by
      funext i
      rw [← openBytes_after]
      exact (if_pos ⟨hact, hsame hact⟩).symm
    rw [hstaged] at hitems hflash
    simp only [after, hhandle]
    exact ⟨hitems, hflash⟩
  · exact (ProvFrame.handle_none crypto (if_pos hwifi) before).1
  · cases hm : f.usb with
    | none =>
      obtain ⟨status, hanswer⟩ := (ProvFrame.handle_none crypto hm before).2
      exact ⟨status, 0, hanswer, nofun⟩
    | some m =>
      have hhandle := ProvFrame.handle_some crypto hm before
      cases hidx : itemIdx m.itemId with
      | none =>
        obtain ⟨status, hanswer⟩ : ∃ status, answer = provAckOf f.payload status 0 := by
          simp only [answer, hhandle, hidx]
          split
          · exact ⟨_, rfl⟩
          · split <;> exact ⟨_, rfl⟩
        refine ⟨status, 0, hanswer, fun m' i hm' hi => ?_⟩
        rw [← Option.some.inj hm', hidx] at hi
        cases hi
      | some i =>
        have hwipe : ¬ m.itemId = PanelProvItem.wipe := fun h => by
          rw [h] at hidx
          cases hidx
        have hcommit : ¬ m.itemId = PanelProvItem.commit := fun h => by
          rw [h] at hidx
          cases hidx
        rw [if_neg hwipe, if_neg hcommit, hidx] at hhandle
        refine ⟨_, _, congrArg Prod.snd hhandle, fun m' i' hm' hi _ => ?_⟩
        rw [← Option.some.inj hm', hidx] at hi
        obtain rfl := Option.some.inj hi
        simp only [after, hhandle]
        exact congrArg Prod.snd (provItem_eq before.prov i m).2.2.2.2

end Histories

/-! ### An earlier commit consumes the session

The same generation may be committed twice.  The second time an optional item that was not sent
again is stored empty, though nothing but the first commit came in between. -/

def itemFrame (itemId : UInt8) (data : Bytes) : ProvFrame :=
  ⟨[itemId, 1] ++ writeLe16 0 ++ writeLe16 (UInt16.ofNat data.length) ++ data, false, .done, .done⟩

def commitFrame : ProvFrame := itemFrame PanelProvItem.commit []

def requiredFrames : List ProvFrame :=
  [itemFrame 7 [1], itemFrame 6 [1], itemFrame 5 [1], itemFrame 4 [80, 0], itemFrame 3 [104],
    itemFrame 2 [112, 112, 112, 112, 112, 112, 112, 112], itemFrame 1 [110]]

def ntpFrame : ProvFrame := itemFrame 10 [116]

def twiceCommitted : List ProvFrame := requiredFrames ++ commitFrame :: ntpFrame :: requiredFrames

def blank : PanelState := powerOn provStoreZero fun _ => []

/-- Every frame came over USB in generation 1, the time server was accepted from offset 0, and the
commit that is answered OK stores it empty. -/
theorem earlier_commit_consumes_item :
    (∀ f ∈ twiceCommitted, f.onWifi = false ∧ ∃ m ∈ f.usb, m.generation = 1 ∧
      m.itemId ≠ PanelProvItem.wipe) ∧
    accepted 9 twiceCommitted = [116] ∧
    (commitFrame.handle acceptAll (panelAfter acceptAll blank twiceCommitted)).2 =
      provAckOf commitFrame.payload .ok 0 ∧
    (commitFrame.handle acceptAll
      (panelAfter acceptAll blank twiceCommitted)).1.store.items.getD 9 [0] = [] := by
  decide +kernel

end SolariNet
