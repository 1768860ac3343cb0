/-
# The credential store over whole histories

A history is any sequence of loads, commits, wipes and reboots over the two flash slots, with
any fate for every slot write.  After a reboot the store has to be loaded before it is used.

`panelProvStoreWipe` clears the store in memory even when a slot write has failed.  A commit
that follows without a load then starts again at generation 1 in slot 0, next to a record it
does not know of.  `stale` marks the histories in which the last wipe failed and nothing has
been loaded since.
-/
import SolariNet.Panel.Store

namespace SolariNet

open Function List

/-! ## Histories -/

structure StoreState where
  flash : Flash
  store : Option PanelProvStore

inductive StoreEvent where
  | reboot
  | load
  | commit (items : Items) (rc : PanelProvStatus)
  | wipe (ok : Bool)

inductive StoreStep : StoreState → StoreEvent → StoreState → Prop where
  | reboot (f : Flash) (store : Option PanelProvStore) : StoreStep ⟨f, store⟩ .reboot ⟨f, none⟩
  | load (f : Flash) (store : Option PanelProvStore) :
      StoreStep ⟨f, store⟩ .load ⟨f, some (panelProvStoreLoad f)⟩
  | commit {f f' : Flash} {store store' : PanelProvStore} {items : Items} {w : WriteFate}
      {rc : PanelProvStatus} (hw : w.Torn)
      (h : panelProvStoreCommit store f items w = (rc, store', f')) :
      StoreStep ⟨f, some store⟩ (.commit items rc) ⟨f', some store'⟩
  | wipe {f f' : Flash} {store store' : PanelProvStore} {w0 w1 : WriteFate} {ok : Bool}
      (h0 : w0.Torn) (h1 : w1.Torn) (h : panelProvStoreWipe f w0 w1 = (ok, store', f')) :
      StoreStep ⟨f, some store⟩ (.wipe ok) ⟨f', some store'⟩

inductive StoreRun (s₀ : StoreState) : List StoreEvent → StoreState → Prop where
  | nil : StoreRun s₀ [] s₀
  | snoc {h : List StoreEvent} {s s' : StoreState} {e : StoreEvent} (hr : StoreRun s₀ h s)
      (hs : StoreStep s e s') : StoreRun s₀ (h ++ [e]) s'

/-- How an event changes whether the store in memory may miss a record of the flash. -/
def staleAfter : Bool → StoreEvent → Bool
  | _, .load => false
  | _, .wipe ok => !ok
  | b, _ => b

def stale (h : List StoreEvent) : Bool := h.foldl staleAfter false

def Reloaded (h : List StoreEvent) : Prop :=
  ∀ a items rc b, h = a ++ .commit items rc :: b → stale a = false

variable {h : List StoreEvent}

theorem Reloaded.prior (hr : Reloaded (h ++ [e])) : Reloaded h := by
  intro a items rc b hh
  refine hr a items rc (b ++ [e]) ?_
  rw [hh, append_assoc, cons_append]

/-! ## What a load has to yield -/

inductive Expected where
  | unknown
  | nothing
  | exactly (items : List Bytes)

def expectedAfter : Expected → StoreEvent → Expected
  | _, .commit items .ok => .exactly items.vals
  | _, .wipe true => .nothing
  | .exactly _, .wipe false => .unknown
  | x, _ => x

def expected (h : List StoreEvent) : Expected := h.foldl expectedAfter .unknown

def Expected.Holds : Expected → PanelProvStore → Prop
  | .unknown, _ => True
  | .nothing, store => store.valid = false
  | .exactly items, store => store.valid = true ∧ store.items = items

theorem expectedAfter_commit_failed
    (h : rc ≠ .ok) : expectedAfter x (.commit items rc) = x := by
  cases rc with
  | ok => exact absurd rfl h
  | _ => cases x <;> rfl

theorem load_invalid_iff :
    (panelProvStoreLoad f).valid = false ↔ ∀ slot, decodeRecord (f slot) = none := by
  constructor
  · intro h
    obtain ⟨_, hnone⟩ | ⟨r, slot, _, hz⟩ := load_cases f
    · exact hnone
    · rw [hz] at h
      cases h
  · intro h
    rw [load_of_none h]
    rfl

/-- The invariant of a history: a load yields what is expected, and unless the history is stale
the store in memory is what a load yields. -/
def Durable (h : List StoreEvent) (s : StoreState) : Prop :=
  (expected h).Holds (panelProvStoreLoad s.flash) ∧
    ∀ store, s.store = some store → stale h = false → store = panelProvStoreLoad s.flash

theorem Durable.step (hd : Durable h s) (hs : StoreStep s e s')
    (hfresh : ∀ items rc, e = .commit items rc → stale h = false) : Durable (h ++ [e]) s' := by
  obtain ⟨hexp, hstore⟩ := hd
  simp only [Durable, expected, stale, foldl_append, foldl_cons] at *
  cases hs with
  | reboot f store => exact ⟨by simpa [expectedAfter] using hexp, fun _ h => by cases h⟩
  | load f store =>
    refine ⟨by simpa [expectedAfter] using hexp, ?_⟩
    rintro _ ⟨⟩ _
    rfl
  | @commit f f' store store' items w rc hw hc =>
    have hst : store = panelProvStoreLoad f := hstore store rfl (hfresh items rc rfl)
    subst hst
    obtain ⟨hload, hok, hfail⟩ := panelProvStoreCommit_spec f items hw hc
    refine ⟨?_, ?_⟩
    · rw [hload]
      by_cases hrc : rc = .ok
      · subst hrc
        exact hok rfl
      · rw [expectedAfter_commit_failed hrc, hfail hrc]
        exact hexp
    · rintro _ ⟨⟩ _
      exact hload.symm
  | @wipe f f' store store' w0 w1 ok h0 h1 hw =>
    obtain ⟨rfl, hnone⟩ := panelProvStoreWipe_spec f h0 h1 hw
    cases ok with
    | true =>
      have hz := hnone (.inl rfl)
      refine ⟨load_invalid_iff.2 hz, ?_⟩
      rintro _ ⟨⟩ _
      exact (load_of_none hz).symm
    | false =>
      refine ⟨?_, fun _ _ hfalse => absurd hfalse (by simp [staleAfter])⟩
      -- a failed wipe puts no record where there was none
      cases hx : h.foldl expectedAfter .unknown with
      | unknown | exactly items => trivial
      | nothing =>
        rw [hx] at hexp
        exact load_invalid_iff.2 (hnone (.inr (load_invalid_iff.1 hexp)))

theorem StoreRun.durable
    (hrun : StoreRun ⟨f, none⟩ h s) (hre : Reloaded h) : Durable h s := by
  induction hrun with
  | nil => exact ⟨trivial, fun _ h => by cases h⟩
  | @snoc h s s' e _ hs ih =>
    refine (ih hre.prior).step hs ?_
    rintro items rc rfl
    exact hre h items rc [] rfl

/-! ## Durability -/

def StoreEvent.Supersedes : StoreEvent → Prop
  | .commit _ rc => rc = .ok
  | .wipe _ => True
  | _ => False

theorem foldl_expected_exactly {items : List Bytes} {b : List StoreEvent}
    (hb : ∀ e ∈ b, ¬ e.Supersedes) : b.foldl expectedAfter (.exactly items) = .exactly items := by
  induction b with
  | nil => rfl
  | cons e b ih =>
    have he := hb e mem_cons_self
    have hstep : expectedAfter (.exactly items) e = .exactly items := by
      cases e with
      | reboot | load => rfl
      | commit its rc => exact expectedAfter_commit_failed he
      | wipe ok => exact absurd trivial he
    rw [foldl_cons, hstep]
    exact ih fun e' he' => hb e' (mem_cons_of_mem e he')

theorem foldl_expected_nothing {b : List StoreEvent}
    (hb : ∀ e ∈ b, ∀ items, e ≠ .commit items .ok) : b.foldl expectedAfter .nothing = .nothing := by
  induction b with
  | nil => rfl
  | cons e b ih =>
    have he := hb e mem_cons_self
    have hstep : expectedAfter .nothing e = .nothing := by
      cases e with
      | reboot | load => rfl
      | commit items rc =>
        refine expectedAfter_commit_failed ?_
        rintro rfl
        exact he items rfl
      | wipe ok => cases ok <;> rfl
    rw [foldl_cons, hstep]
    exact ih fun e' he' => hb e' (mem_cons_of_mem e he')

/-- **Durability**, in every history without a commit while stale: a load yields the items of the
last commit that returned OK; one that fails leaves a load as it was; after a wipe that returned
true a load finds nothing until the next commit. -/
theorem store_durable {f : Flash} {h : List StoreEvent} {s : StoreState}
    (hrun : StoreRun ⟨f, none⟩ h s) (hre : Reloaded h) :
    (∀ a items b, h = a ++ .commit items .ok :: b → (∀ e ∈ b, ¬ e.Supersedes) →
        (panelProvStoreLoad s.flash).valid = true ∧
          (panelProvStoreLoad s.flash).items = items.vals) ∧
      (∀ a items rc s₁, h = a ++ [.commit items rc] → StoreRun ⟨f, none⟩ a s₁ →
        StoreStep s₁ (.commit items rc) s → rc ≠ .ok →
          panelProvStoreLoad s.flash = panelProvStoreLoad s₁.flash) ∧
      (∀ a b, h = a ++ .wipe true :: b → (∀ e ∈ b, ∀ items, e ≠ .commit items .ok) →
        (panelProvStoreLoad s.flash).valid = false) := by
  have hd := (hrun.durable hre).1
  refine ⟨?_, ?_, ?_⟩
  · rintro a items b rfl hb
    rw [expected, foldl_append, foldl_cons] at hd
    rw [show expectedAfter _ (.commit items .ok) = .exactly items.vals from rfl,
      foldl_expected_exactly hb] at hd
    exact hd
  · rintro a items rc s₁ rfl hrun₁ hstep hrc
    cases hstep with
    | @commit f₁ f' store store' _ w _ hw hc =>
      have hst : store = panelProvStoreLoad f₁ :=
        (hrun₁.durable hre.prior).2 store rfl (hre a items rc [] rfl)
      subst hst
      obtain ⟨hload, _, hfail⟩ := panelProvStoreCommit_spec f₁ items hw hc
      exact hload.trans (hfail hrc)
  · rintro a b rfl hb
    rw [expected, foldl_append, foldl_cons] at hd
    rw [show expectedAfter _ (.wipe true) = .nothing from rfl, foldl_expected_nothing hb] at hd
    exact hd

/-! ## A history with a failed wipe -/

def ssidOnly (c : UInt8) : Items where
  vals := [c] :: replicate 9 []
  count := rfl
  small := by simp

theorem commit_ssidOnly (store : PanelProvStore) (f : Flash) (c : UInt8) :
    ∃ sector, decodeRecord sector = some ⟨store.next, (ssidOnly c).vals⟩ ∧
      panelProvStoreCommit store f (ssidOnly c) .done =
        (.ok, ProvRecord.adopt ⟨store.next, (ssidOnly c).vals⟩ store.target,
          update f store.target sector) := by
  have hfit : ¬ ((ssidOnly c).vals.map List.length).sum > panelProvRecordCap := by
    simp [ssidOnly, panelProvRecordCap, panelProvSectorSize, panelProvRecordHdr, panelProvRecordCrc]
  have he : encodeRecord store.next (ssidOnly c) = some _ := if_neg hfit
  have hd := panelProvStoreCommit_done store f he
  exact ⟨_, hd⟩

def erasedFlash : Flash := fun _ => []

theorem load_erasedFlash : panelProvStoreLoad erasedFlash = provStoreZero := by decide

theorem store_durable_first :
    ∃ s, StoreRun ⟨erasedFlash, none⟩ [.load, .commit (ssidOnly 65) .ok] s ∧
      Reloaded [.load, .commit (ssidOnly 65) .ok] ∧
      (panelProvStoreLoad s.flash).items = (ssidOnly 65).vals := by
  obtain ⟨sector, _, hc⟩ := commit_ssidOnly (panelProvStoreLoad erasedFlash) erasedFlash 65
  have hrun := StoreRun.snoc (.snoc .nil (.load erasedFlash none)) (.commit (w := .done) trivial hc)
  have hre : Reloaded [.load, .commit (ssidOnly 65) .ok] := by
    intro a items rc b h
    match a, h with
    | [], h => cases h
    | [_], h =>
      cases h
      rfl
    | _ :: _ :: a, h => simp at h
  exact ⟨_, hrun, hre, ((store_durable hrun hre).1 [.load] _ [] rfl (by simp)).2⟩

def twoRecords (x y : Bytes) : Flash := update (update erasedFlash 0 x) 1 y

/-- Two commits, a wipe whose second write fails, and a third commit: it returns OK, and the
next boot loads the items of the second one. -/
theorem commit_after_failed_wipe :
    ∃ s, StoreRun ⟨erasedFlash, none⟩ [.load, .commit (ssidOnly 65) .ok, .commit (ssidOnly 66) .ok,
        .wipe false, .commit (ssidOnly 67) .ok, .reboot] s ∧
      (panelProvStoreLoad s.flash).items = (ssidOnly 66).vals ∧
      (ssidOnly 66).vals ≠ (ssidOnly 67).vals := by
  obtain ⟨x, _, hx⟩ := commit_ssidOnly (panelProvStoreLoad erasedFlash) erasedFlash 65
  obtain ⟨y, hdy, hy⟩ := commit_ssidOnly
    (ProvRecord.adopt ⟨provStoreZero.next, (ssidOnly 65).vals⟩ provStoreZero.target)
    (update erasedFlash provStoreZero.target x) 66
  obtain ⟨z, hdz, hz⟩ := commit_ssidOnly provStoreZero
    (panelProvStoreWipe (twoRecords x y) .done .failed).2.2 67
  have hdone : WriteFate.done.Torn := trivial
  have hfailed : WriteFate.failed.Torn := trivial
  have hrun := StoreRun.snoc (.snoc (.snoc (.snoc (.snoc (.snoc .nil (.load erasedFlash none))
    (.commit hdone (load_erasedFlash ▸ hx))) (.commit hdone hy)) (.wipe hdone hfailed rfl))
    (.commit hdone hz)) (.reboot _ _)
  refine ⟨_, hrun, ?_, by decide⟩
  show (panelProvStoreLoad (update _ 0 z)).items = _
  -- slot 0 holds generation 1, slot 1 still holds generation 2
  have h1 : decodeRecord ((panelProvStoreWipe (twoRecords x y) .done .failed).2.2 1) =
      some ⟨2, (ssidOnly 66).vals⟩ := hdy
  rw [load_eq, update_self, hdz, update_of_ne (by decide), h1]
  rfl

end SolariNet
