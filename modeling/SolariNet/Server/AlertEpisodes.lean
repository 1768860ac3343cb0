/-
# Fired and cleared rows over whole runs

One rule instance, its samples one after the other, against the rows of `alertEvent`.  The
server may be restarted between any two statements (its slots are lost), a statement may
fail, and the other tables may change as long as the entity stays active.

The rows of the instance should tell episodes: a fired row, its cleared row, the next fired
row, and so on (`Episodes`, with the id of the fired row that is still open).
-/
import SolariNet.Lib.System
import SolariNet.Server.Alert

namespace SolariNet

open Function List Lib Lib.Prog

/-! ## Episodes -/

inductive Episodes : List AlertEventRow → Option Nat → Prop where
  | none : Episodes [] none
  | fired {L : List AlertEventRow} {f : AlertEventRow} (h : Episodes L none)
      (hk : f.eventKind = .fired) (hc : f.cleared = false) (hlt : ∀ e ∈ L, e.eventId < f.eventId) :
      Episodes (L ++ [f]) (some f.eventId)
  | cleared {L : List AlertEventRow} {c : AlertEventRow} {id : Nat} (h : Episodes L (some id))
      (hk : c.eventKind = .cleared) (ho : c.openedEventId = id)
      (hlt : ∀ e ∈ L, e.eventId < c.eventId) : Episodes (L ++ [c]) none

/-- What is claimed of the rows of an instance. -/
structure EpisodesOk (L : List AlertEventRow) : Prop where
  /-- a fired row has at most one cleared row -/
  once : ∀ c ∈ L, ∀ d ∈ L, c.eventKind = .cleared → d.eventKind = .cleared →
    c.openedEventId = d.openedEventId → c = d
  /-- a cleared row names an earlier fired row -/
  names : ∀ c ∈ L, c.eventKind = .cleared →
    ∃ f ∈ L, f.eventKind = .fired ∧ f.eventId = c.openedEventId ∧ f.eventId < c.eventId
  /-- before the next fired row comes a cleared row -/
  between : ∀ f ∈ L, ∀ g ∈ L, f.eventKind = .fired → g.eventKind = .fired →
    f.eventId < g.eventId → ∃ c ∈ L, c.eventKind = .cleared ∧ c.openedEventId = f.eventId ∧
      f.eventId < c.eventId ∧ c.eventId < g.eventId

variable {L : List AlertEventRow}

theorem mem_of_ne_last (h : e ∈ L ++ [l])
    (hk : e.eventKind ≠ l.eventKind) : e ∈ L := by
  rcases mem_append.1 h with h | h
  · exact h
  · exact absurd (congrArg AlertEventRow.eventKind (mem_singleton.1 h)) hk

namespace Episodes

variable {L : List AlertEventRow} {id : Nat}

theorem open_mem (h : Episodes L (some id)) : ∃ f ∈ L, f.eventKind = .fired ∧ f.eventId = id := by
  cases h with
  | @fired L f _ hk _ _ => exact ⟨f, mem_append_right _ mem_cons_self, hk, rfl⟩

variable {o : Option Nat}

theorem names (h : Episodes L o) : ∀ c ∈ L, c.eventKind = .cleared →
    ∃ f ∈ L, f.eventKind = .fired ∧ f.eventId = c.openedEventId ∧ f.eventId < c.eventId := by
  induction h with
  | none =>
    intro c hc
    exact absurd hc not_mem_nil
  | @fired L f _ hk _ _ ih =>
    intro c hc hkc
    have hc' := mem_of_ne_last hc (by rw [hkc, hk]; decide)
    obtain ⟨g, hg, h⟩ := ih c hc' hkc
    exact ⟨g, mem_append_left _ hg, h⟩
  | @cleared L c' id hL hk ho hlt ih =>
    intro c hc hkc
    rcases mem_append.1 hc with hc | hc
    · obtain ⟨g, hg, h⟩ := ih c hc hkc
      exact ⟨g, mem_append_left _ hg, h⟩
    -- the new cleared row names the row that was open
    rw [mem_singleton] at hc
    subst hc
    obtain ⟨f, hf, hkf, hid⟩ := hL.open_mem
    exact ⟨f, mem_append_left _ hf, hkf, hid.trans ho.symm, hlt f hf⟩

theorem opened_lt (h : Episodes L (some id)) :
    ∀ c ∈ L, c.eventKind = .cleared → c.openedEventId < id := by
  cases h with
  | @fired L f hL hk _ hlt =>
    intro c hc hkc
    have hc' := mem_of_ne_last hc (by rw [hkc, hk]; decide)
    obtain ⟨g, hg, -, hid, -⟩ := hL.names c hc' hkc
    rw [← hid]
    exact hlt g hg

section
variable (h : Episodes L o)
include h

theorem open_or_cleared : ∀ f ∈ L, f.eventKind = .fired →
    (o = some f.eventId ∧ ∀ g ∈ L, g.eventId ≤ f.eventId) ∨
      ∃ c ∈ L, c.eventKind = .cleared ∧ c.openedEventId = f.eventId ∧ f.eventId < c.eventId ∧
        ∀ g ∈ L, g.eventKind = .fired → f.eventId < g.eventId → c.eventId < g.eventId := by
  induction h with
  | none =>
    intro f hf
    exact absurd hf not_mem_nil
  | @fired L l _ _ _ hlt ih =>
    intro f hf hkf
    rcases mem_append.1 hf with hf | hf
    · rcases ih f hf hkf with ⟨h, -⟩ | ⟨c, hc, hkc, ho, hfc, hnext⟩
      · cases h
      · refine .inr ⟨c, mem_append_left _ hc, hkc, ho, hfc, forall_mem_append.2 ⟨hnext, ?_⟩⟩
        exact forall_mem_singleton.2 fun _ _ => hlt c hc
    · cases mem_singleton.1 hf
      exact .inl ⟨rfl, forall_mem_append.2
        ⟨fun g hg => (hlt g hg).le, forall_mem_singleton.2 (le_refl _)⟩⟩
  | @cleared L l id _ hk ho hlt ih =>
    have hold {e : AlertEventRow} (he : e ∈ L ++ [l]) (hke : e.eventKind = .fired) : e ∈ L :=
      mem_of_ne_last he (by rw [hke, hk]; decide)
    intro f hf hkf
    rcases ih f (hold hf hkf) hkf with ⟨h, hle⟩ | ⟨d, hd, hkd, hod, hfd, hnext⟩
    · cases h
      refine .inr ⟨l, mem_append_right _ mem_cons_self, hk, ho, hlt f (hold hf hkf), ?_⟩
      exact fun g hg hkg hfg => absurd hfg (not_lt.2 (hle g (hold hg hkg)))
    · exact .inr ⟨d, mem_append_left _ hd, hkd, hod, hfd, fun g hg hkg => hnext g (hold hg hkg) hkg⟩

theorem once : ∀ c ∈ L, ∀ d ∈ L, c.eventKind = .cleared →
    d.eventKind = .cleared → c.openedEventId = d.openedEventId → c = d := by
  induction h with
  | none =>
    intro c hc
    exact absurd hc not_mem_nil
  | @fired L f _ hk _ _ ih =>
    intro c hc d hd hkc hkd
    exact ih c (mem_of_ne_last hc (by rw [hkc, hk]; decide)) d
      (mem_of_ne_last hd (by rw [hkd, hk]; decide)) hkc hkd
  | @cleared L l id hL _ ho _ ih =>
    intro c hc d hd hkc hkd he
    rcases mem_append.1 hc with hcL | hcl
    · rcases mem_append.1 hd with hdL | hdl
      · exact ih c hcL d hdL hkc hkd he
      have hlt := hL.opened_lt c hcL hkc
      rw [he, mem_singleton.1 hdl, ho] at hlt
      exact absurd hlt (lt_irrefl _)
    · rcases mem_append.1 hd with hdL | hdl
      · have hlt := hL.opened_lt d hdL hkd
        rw [← he, mem_singleton.1 hcl, ho] at hlt
        exact absurd hlt (lt_irrefl _)
      · rw [mem_singleton.1 hcl, mem_singleton.1 hdl]

theorem between : ∀ f ∈ L, ∀ g ∈ L, f.eventKind = .fired →
    g.eventKind = .fired → f.eventId < g.eventId → ∃ c ∈ L, c.eventKind = .cleared ∧
      c.openedEventId = f.eventId ∧ f.eventId < c.eventId ∧ c.eventId < g.eventId := by
  intro f hf g hg hkf hkg hfg
  rcases h.open_or_cleared f hf hkf with ⟨-, hle⟩ | ⟨c, hc, hkc, ho, hfc, hnext⟩
  · exact absurd hfg (not_lt.2 (hle g hg))
  · exact ⟨c, hc, hkc, ho, hfc, hnext g hg hkg hfg⟩

theorem ok : EpisodesOk L := ⟨h.once, h.names, h.between⟩

theorem of_no_cleared (hn : ∀ e ∈ L, e.eventKind ≠ .cleared) :
    L = [] ∧ o = .none ∨ ∃ f, L = [f] ∧ o = some f.eventId ∧ f.eventKind = .fired ∧
      f.cleared = false := by
  cases h with
  | none => exact .inl ⟨rfl, rfl⟩
  | @fired L f hL hk hc _ =>
    cases hL with
    | none => exact .inr ⟨f, rfl, rfl, hk, hc⟩
    | @cleared L c id _ hkc _ _ =>
      refine absurd hkc (hn c ?_)
      exact mem_append_left _ (mem_append_right _ mem_cons_self)
  | @cleared L c id _ hkc _ _ =>
    exact absurd hkc (hn c (mem_append_right _ mem_cons_self))

end

end Episodes

/-! ## One rule instance -/

structure Instance where
  rule : AlertRule
  nodeId : UInt64
  targetId : CStr

namespace Instance

@[simps] def sample (k : Instance) (value : Rat) (urgent : Bool) (extraDetail : CStr) : Sample :=
  ⟨k.nodeId, k.rule, k.targetId, value, urgent, extraDetail⟩

def rows (k : Instance) (db : Db) : List AlertEventRow :=
  db.alertEvent.rows.filter fun e => e.isOf k.rule.ruleId k.nodeId k.targetId

def tier (k : Instance) (db : Db) : AlertTier :=
  if k.targetId = [] then serverDbNodeAlertTier db k.nodeId
  else serverDbProbeAlertTier db k.targetId

def Watched (k : Instance) (tiers : Int → Prop) (db : Db) : Prop :=
  (k.tier db).active = true ∧ tiers (k.tier db).tier

def NoneCleared (k : Instance) (db : Db) : Prop := ∀ e ∈ k.rows db, e.eventKind ≠ .cleared

end Instance

/-- A failed insertion has no effect; a slot is hydrated only where `hydrates` allows. -/
def Orderly (hydrates : Db → Prop) : (o : SrvOp) → Db → o.Res → Db → Prop
  | .writeAlertEvent _, db, (.error _ : Except Status Nat), db' => db' = db
  | .findOpenAlertEvent _ _ _, db, _, _ => hydrates db
  | _, _, _, _ => True

def alertSem (hydrates : Db → Prop) : Sem SrvOp SrvOp.Res Db :=
  fun o db r db' => dbSem o db r db' ∧ Orderly hydrates o db r db'

def sampleCall (t : AlertTable) (x : Sample) : SrvM AlertTable := do
  let r ← alertApply t x
  .ret r.2

/-- The samples of `k`, with restarts; other tables move while the entity stays watched. -/
def alertSystem (k : Instance) (tiers : Int → Prop) (hydrates : Db → Prop) :
    System Unit SrvOp SrvOp.Res Db AlertTable where
  sem _ := alertSem hydrates
  start _ t p := ∃ value urgent extraDetail, p = sampleCall t (k.sample value urgent extraDetail)
  env db db' := k.rows db' = k.rows db ∧ k.Watched tiers db'
  boot _ t := t = AlertTable.empty

def AlertStart (k : Instance) (tiers : Int → Prop) (db : Db) : Prop :=
  k.rows db = [] ∧ k.Watched tiers db

/-! ## What a slot knows -/

def Recorded (tier : Int) : Prop := 1 ≤ tier ∧ tier ≤ 4

theorem alertComposeSeverity_eq_none {severity : Option Severity} {tier : Int} :
    alertComposeSeverity severity tier = none ↔ ¬ Recorded tier := by
  unfold alertComposeSeverity Recorded
  split
  · simp; omega
  split
  · simp; omega
  split
  · simp; omega
  split
  · simp; omega
  · simp; omega

inductive SlotState (tiers : Int → Prop) (L : List AlertEventRow) : Bool → Bool → Nat → Prop where
  | unchecked (id : Nat) : SlotState tiers L false false id
  | closed (id : Nat) (h : Episodes L none) : SlotState tiers L true false id
  | opened {id : Nat} (hid : id ≠ 0) (h : Episodes L (some id)) : SlotState tiers L true true id
  | silent (h : Episodes L none) {tier : Int} (ht : tiers tier) (hr : ¬ Recorded tier) :
      SlotState tiers L true true 0

variable {tiers : Int → Prop} {id : Nat}

theorem SlotState.of_closed (h : SlotState tiers L true false id) : Episodes L none := by
  cases h with
  | closed _ h => exact h

theorem SlotState.of_fired {c : Bool} (h : SlotState tiers L c true id) :
    id ≠ 0 ∧ Episodes L (some id) ∨
      id = 0 ∧ Episodes L none ∧ ∃ tier, tiers tier ∧ ¬ Recorded tier := by
  cases h with
  | opened hid h => exact .inl ⟨hid, h⟩
  | silent h ht hr => exact .inr ⟨rfl, h, _, ht, hr⟩

def SlotOk (k : Instance) (tiers : Int → Prop) (L : List AlertEventRow) (s : AlertSlot) : Prop :=
  s.inUse = true → s.isOf k.rule.ruleId k.nodeId k.targetId = true ∧
    SlotState tiers L s.checkedOpen s.fired s.openedEventId

structure TableOk (k : Instance) (tiers : Int → Prop) (t : AlertTable) (db : Db) : Prop where
  single : ∀ i j, (t i).inUse = true → (t j).inUse = true → i = j
  slot : ∀ i, SlotOk k tiers (k.rows db) (t i)

def AlertInv (k : Instance) (tiers : Int → Prop) (db : Db) : Prop :=
  k.Watched tiers db ∧ ∃ o, Episodes (k.rows db) o

/-! ## Statements and the rows -/

section
variable {k : Instance} {tiers : Int → Prop} {db : Db} {s : AlertSlot} {t : AlertTable}
  {value : Rat} {urgent : Bool} {extra : CStr} {v : AlertEventValues}

theorem rows_write (hr : v.ruleId = k.rule.ruleId) (hn : v.nodeId = k.nodeId)
    (ht : v.targetId = k.targetId) :
    k.rows (serverDbWriteAlertEvent db v) = k.rows db ++ [alertEventRow v db.alertEvent.next] := by
  have hof : (alertEventRow v db.alertEvent.next).isOf k.rule.ruleId k.nodeId k.targetId =
      true := by
    simp [AlertEventRow.isOf, alertEventRow, hr, hn, ht]
  simp only [Instance.rows, serverDbWriteAlertEvent, Serial.push, filter_append,
    filter_cons, hof, if_true, filter_nil]

theorem rows_bounded : ∀ e ∈ k.rows db, 0 < e.eventId ∧ e.eventId < db.alertEvent.next :=
  fun e he => db.alertEvent.bounded e (mem_filter.1 he).1

theorem AlertInv.write (h : AlertInv k tiers db)
    (ho : Episodes (k.rows (serverDbWriteAlertEvent db v)) o) :
    AlertInv k tiers (serverDbWriteAlertEvent db v) := ⟨h.1, o, ho⟩

variable {db' : Db}

theorem writeAlertEvent_cases {hydrates : Db → Prop} {r : Except Status Nat}
    (h : alertSem hydrates (.writeAlertEvent v) db r db') :
    (∃ st, st ≠ .ok ∧ r = .error st ∧ db' = db) ∨
      r = .ok db.alertEvent.next ∧ db' = serverDbWriteAlertEvent db v := by
  obtain ⟨⟨rc, htxn, rfl⟩, hord⟩ := h
  by_cases hrc : rc = .ok
  · subst hrc
    refine .inr ⟨if_pos rfl, ?_⟩
    cases htxn with
    | refused h => cases h
    | committed h => cases h; rfl
  · rw [if_neg hrc] at hord ⊢
    exact .inl ⟨rc, hrc, rfl, hord⟩

theorem findOpen_state {id : Nat} (hE : ∃ o, Episodes (k.rows db) o)
    (hn : k.NoneCleared db)
    (h : serverDbFindOpenAlertEvent db k.rule.ruleId k.nodeId k.targetId = .ok id) :
    SlotState tiers (k.rows db) true (id ≠ 0) id := by
  have hfind : db.alertEvent.rows.find? (fun e => e.isOf k.rule.ruleId k.nodeId k.targetId ∧
      e.cleared = false ∧ e.eventKind = .fired) =
      (k.rows db).find? fun e => e.cleared = false ∧ e.eventKind = .fired := by
    simp [Instance.rows]
  unfold serverDbFindOpenAlertEvent at h
  rw [hfind] at h
  split at h
  · cases h
  obtain ⟨o, ho⟩ := hE
  rcases ho.of_no_cleared hn with ⟨hL, rfl⟩ | ⟨f, hL, rfl, hk, hc⟩
  · rw [hL] at h
    cases h
    exact .closed 0 ho
  have hmem : f ∈ k.rows db := by rw [hL]; exact mem_cons_self
  have hpos := (rows_bounded f hmem).1
  simp only [hL, List.find?_cons, hc, hk] at h
  cases h
  have hne : f.eventId ≠ 0 := Nat.pos_iff_ne_zero.1 hpos
  rw [decide_eq_true hne]
  exact .opened hne ho

/-! ## One sample -/

abbrev AlertSafe (k : Instance) (tiers : Int → Prop) {α : Type} (Q : α → Db → Prop) (p : SrvM α)
    (db : Db) : Prop :=
  Safe (alertSem k.NoneCleared) (fun db db' => k.rows db' = k.rows db) (AlertInv k tiers) Q p db

theorem safe_unchanged {β : Type} {Q : β → Db → Prop} {f : o.Res → SrvM β}
    (ho : ∀ db r db', dbSem o db r db' → db' = db)
    (h : ∀ db' r, k.rows db' = k.rows db → AlertInv k tiers db' →
      alertSem k.NoneCleared o db' r db' → AlertSafe k tiers Q (f r) db') :
    AlertSafe k tiers Q (srv o >>= f) db := by
  refine safe_perform_bind.2 ?_
  intro db₁ hR hI r db₂ hsem
  have heq := ho db₁ r db₂ hsem.1
  subst heq
  exact ⟨hI, h db₂ r hR hI hsem⟩

def SlotKnown (k : Instance) (tiers : Int → Prop) (s : AlertSlot) (db : Db) : Prop :=
  s.isOf k.rule.ruleId k.nodeId k.targetId = true ∧
    SlotState tiers (k.rows db) s.checkedOpen s.fired s.openedEventId

theorem SlotKnown.rows (h : SlotKnown k tiers s db) (hR : k.rows db' = k.rows db) :
    SlotKnown k tiers s db' := by
  refine ⟨h.1, ?_⟩
  rw [hR]
  exact h.2

theorem alertHydrate_safe (hs : SlotKnown k tiers s db) :
    AlertSafe k tiers (fun r db' => SlotKnown k tiers r.2 db' ∧
      (r.1 = .ok → r.2.checkedOpen = true))
      (alertHydrate s (k.sample value urgent extra)) db := by
  unfold alertHydrate
  cases hc : s.checkedOpen with
  | true => exact ⟨hs, fun _ => hc⟩
  | false =>
    have hf : s.fired = false := by
      have h := hs.2
      rw [hc] at h
      generalize s.fired = f at h
      cases h
      rfl
    refine safe_unchanged (fun _ _ _ h => h.2) ?_
    intro db' r hR hI hsem
    obtain ⟨⟨hq, -⟩, hn⟩ := hsem
    cases r with
    | error st =>
      refine safe_ret.2 ⟨⟨hs.1, ?_⟩, ?_⟩
      · rw [hf]
        exact .unchecked 0
      intro hst
      subst hst
      rcases hq with hq | hq
      · unfold serverDbFindOpenAlertEvent at hq
        split at hq
        · cases hq
        · split at hq <;> cases hq
      · cases hq
    | ok id =>
      refine safe_ret.2 ⟨⟨hs.1, ?_⟩, fun _ => rfl⟩
      rcases hq with hq | hq
      · exact findOpen_state hI.2 hn hq.symm
      · cases hq

variable {tier : AlertTier}

section
variable (hs : SlotKnown k tiers s db)
include hs

theorem alertOpen_safe (hc : s.checkedOpen = true) (ht : tiers tier.tier) (nowMs : UInt64) :
    AlertSafe k tiers (fun r db' => SlotKnown k tiers r.2 db')
      (alertOpen s (k.sample value urgent extra) tier nowMs) db := by
  unfold alertOpen
  simp only
  split
  · exact hs
  next hfired =>
  have hf : s.fired = false := Bool.eq_false_iff.2 hfired
  have hclosed : Episodes (k.rows db) none := by
    have h := hs.2
    rw [hc, hf] at h
    exact h.of_closed
  split
  · exact hs
  split
  · next hcomp =>
    refine safe_unchanged (fun _ _ _ h => h) ?_
    intro db' _ hR _ _
    refine safe_ret.2 ⟨hs.1, ?_⟩
    show SlotState tiers (k.rows db') s.checkedOpen true 0
    rw [hc, hR]
    exact .silent hclosed ht (alertComposeSeverity_eq_none.1 hcomp)
  · refine safe_perform_bind.2 ?_
    intro db₁ hR hI r db₂ hsem
    rcases writeAlertEvent_cases hsem with ⟨st, -, rfl, rfl⟩ | ⟨rfl, rfl⟩
    · refine ⟨hI, safe_ret.2 ⟨hs.1, ?_⟩⟩
      show SlotState tiers (k.rows db₂) s.checkedOpen s.fired 0
      rw [hc, hf, hR]
      exact .closed 0 hclosed
    -- the new row opens an episode
    have hopen : Episodes (k.rows (serverDbWriteAlertEvent db₁
        (firedValues (k.sample value urgent extra) tier))) (some db₁.alertEvent.next) := by
      rw [rows_write rfl rfl rfl, hR]
      exact .fired hclosed rfl rfl fun e he => (rows_bounded e (hR ▸ he)).2
    refine ⟨hI.write hopen, safe_unchanged (fun _ _ _ h => h) ?_⟩
    intro db' _ hR' _ _
    refine safe_ret.2 ⟨hs.1, ?_⟩
    show SlotState tiers (k.rows db') s.checkedOpen true db₁.alertEvent.next
    rw [hc, hR']
    exact .opened (Nat.pos_iff_ne_zero.1 db₁.alertEvent.next_pos) hopen

theorem alertWriteCleared_safe (hf : s.fired = true) (tier : AlertTier) :
    AlertSafe k tiers (fun rc db' => (rc = .ok → Episodes (k.rows db') none) ∧
        (rc ≠ .ok → SlotKnown k tiers s db'))
      (alertWriteCleared s (k.sample value urgent extra) tier) db := by
  have hstate := hs.2
  rw [hf] at hstate
  unfold alertWriteCleared
  rcases hstate.of_fired with ⟨hid, hopen⟩ | ⟨hid, hnone, -⟩
  · rw [if_neg hid]
    refine safe_unchanged (fun _ _ _ h => h.2) ?_
    intro db₁ r hR₁ _ hsem
    cases r with
    | error st =>
      refine safe_ret.2 ⟨fun hst => ?_, fun _ => hs.rows hR₁⟩
      subst hst
      rcases hsem.1.1 with hq | hq
      · unfold serverDbAlertEventDisposition at hq
        rw [if_neg hid] at hq
        split at hq <;> cases hq
      · cases hq
    | ok d =>
      obtain ⟨disposition, effectiveTier⟩ := d
      refine safe_perform_bind.2 ?_
      intro db₂ hR₂ hI r db₃ hsem
      have hR : k.rows db₂ = k.rows db := hR₂.trans hR₁
      rcases writeAlertEvent_cases hsem with ⟨st, hst, rfl, rfl⟩ | ⟨rfl, rfl⟩
      · exact ⟨hI, safe_ret.2 ⟨fun h => absurd h hst, fun _ => hs.rows hR⟩⟩
      have hdone : Episodes (k.rows (serverDbWriteAlertEvent db₂ (clearedValues
          (k.sample value urgent extra) tier s.openedEventId disposition effectiveTier))) none := by
        rw [rows_write rfl rfl rfl, hR]
        exact .cleared hopen rfl rfl fun e he => (rows_bounded e (hR ▸ he)).2
      exact ⟨hI.write hdone, safe_ret.2 ⟨fun _ => hdone, fun h => absurd rfl h⟩⟩
  · rw [if_pos hid]
    exact ⟨fun _ => hnone, fun h => absurd rfl h⟩

theorem alertClear_safe (hc : s.checkedOpen = true) (tier : AlertTier) :
    AlertSafe k tiers (fun r db' => SlotOk k tiers (k.rows db') r.2)
      (alertClear s (k.sample value urgent extra) tier) db := by
  -- a released slot is no longer in use, and otherwise releasing changes nothing
  have hrelease : ∀ {s : AlertSlot} {db : Db}, SlotKnown k tiers s db →
      SlotOk k tiers (k.rows db) (s.release k.rule) := by
    intro s db hs huse
    refine ⟨?_, hs.2⟩
    have hof := hs.1
    simp only [AlertSlot.isOf, Bool.and_eq_true] at hof huse ⊢
    exact ⟨⟨⟨huse, hof.1.1.2⟩, hof.1.2⟩, hof.2⟩
  unfold alertClear
  simp only
  split
  · exact hrelease hs
  next hfired =>
  have hf : s.fired = true := by simpa using hfired
  refine Safe.seq (alertWriteCleared_safe (s := { s with breachSinceMs := 0 }) hs hf tier) ?_
  intro rc db₁ hpost
  split
  · next hrc => exact fun _ => hpost.2 hrc
  next hrc =>
  rw [not_not] at hrc
  refine safe_unchanged (fun _ _ _ h => h) ?_
  intro db' _ hR _ _
  refine hrelease
    ⟨hs.1, ?_⟩
  rw [hc, hR]
  exact .closed 0 (hpost.1 hrc)

theorem alertApplySlot_safe (ht : tiers tier.tier) (nowMs : UInt64) :
    AlertSafe k tiers (fun r db' => SlotOk k tiers (k.rows db') r.2)
      (alertApplySlot s (k.sample value urgent extra) tier nowMs) db := by
  have hobs : SlotKnown k tiers (alertObserve s k.rule value).2 db := by
    unfold alertObserve
    split
    · exact hs
    · exact hs
  refine Safe.seq (alertHydrate_safe hobs) ?_
  intro r db₁ hpost
  obtain ⟨hknown, hok⟩ := hpost
  simp only
  split
  · exact fun _ => hknown
  next hrc =>
  rw [not_not] at hrc
  split
  · exact Safe.mono (alertOpen_safe hknown (hok hrc) ht nowMs) fun r db' h _ => h
  · exact alertClear_safe hknown (hok hrc) tier

end

theorem TableOk.rows (h : TableOk k tiers t db) (hR : k.rows db' = k.rows db) :
    TableOk k tiers t db' := by
  refine ⟨h.single, fun i => ?_⟩
  rw [hR]
  exact h.slot i

theorem tableOk_empty (db : Db) : TableOk k tiers AlertTable.empty db :=
  ⟨fun _ _ h => (nomatch h), fun _ h => (nomatch h)⟩

def firstSlot : Fin alertStateSlots := ⟨0, by decide⟩

def Instance.slot (k : Instance) : AlertSlot :=
  { inUse := true, ruleId := k.rule.ruleId, nodeId := k.nodeId, targetId := k.targetId }

theorem alertStateFind_unused (h : ∀ i, (t i).inUse = false) :
    alertStateFind t k.rule.ruleId k.nodeId k.targetId =
      (some firstSlot, Function.update t firstSlot k.slot) := by
  have hmine : Fin.find? (fun i => (t i).isOf k.rule.ruleId k.nodeId k.targetId) = none :=
    Fin.find?_eq_none_iff.2 fun i => by simp [AlertSlot.isOf, h i]
  have hfree : Fin.find? (fun i => !(t i).inUse) = some firstSlot :=
    Fin.find?_eq_some_iff.2 ⟨by rw [h]; rfl, fun j hj => absurd hj (Nat.not_lt_zero _)⟩
  unfold alertStateFind
  rw [hmine, hfree]
  rfl

theorem alertStateFind_ok (h : TableOk k tiers t db) :
    ∃ i t', alertStateFind t k.rule.ruleId k.nodeId k.targetId = (some i, t') ∧
      SlotKnown k tiers (t' i) db ∧ ∀ j, j ≠ i → (t' j).inUse = false := by
  cases hmine : Fin.find? fun i => (t i).isOf k.rule.ruleId k.nodeId k.targetId with
  | some i =>
    have hi := (Fin.find?_eq_some_iff.1 hmine).1
    have huse : (t i).inUse = true := by
      simp only [AlertSlot.isOf, Bool.and_eq_true] at hi
      exact hi.1.1.1
    refine ⟨i, t, by unfold alertStateFind; rw [hmine], h.slot i huse, fun j hj => ?_⟩
    exact Bool.eq_false_iff.2 fun hju => hj (h.single j i hju huse)
  | none =>
    have hfree : ∀ i, (t i).inUse = false := by
      intro i
      refine Bool.eq_false_iff.2 fun hi => ?_
      have hof := (h.slot i hi).1
      rw [Fin.find?_eq_none_iff.1 hmine i] at hof
      cases hof
    refine ⟨_, _, alertStateFind_unused hfree, ?_, fun j hj => ?_⟩
    · rw [update_self]
      exact ⟨by simp [AlertSlot.isOf, Instance.slot], .unchecked 0⟩
    · rw [update_of_ne hj]
      exact hfree j

theorem tableOk_update (hfree : ∀ j, j ≠ i → (t j).inUse = false)
    (hs : SlotOk k tiers (k.rows db) s) : TableOk k tiers (Function.update t i s) db := by
  have hused {j : Fin alertStateSlots} (hj : (Function.update t i s j).inUse = true) : j = i := by
    by_contra hne
    rw [update_of_ne hne, hfree j hne] at hj
    cases hj
  refine ⟨fun a b ha hb => (hused ha).trans (hused hb).symm, fun j hj => ?_⟩
  cases hused hj
  rw [update_self] at hj ⊢
  exact hs hj

theorem alertTierOf_safe {Q : Except Status AlertTier → Db → Prop}
    (h : ∀ db' r, k.rows db' = k.rows db → (∀ tier, r = .ok tier → tiers tier.tier) → Q r db') :
    AlertSafe k tiers Q (alertTierOf (k.sample value urgent extra)) db := by
  unfold alertTierOf
  -- the two queries answer alike
  by_cases htarget : k.targetId = []
  all_goals
    simp only [Instance.sample, htarget]
    intro db₁ hR hI r db₂ hsem
    obtain ⟨⟨hq, rfl⟩, -⟩ := hsem
    refine ⟨hI, h db₂ r hR fun tier hr => ?_⟩
    subst hr
    rcases hq with hq | hq
    · cases hq
      simpa [Instance.tier, htarget] using hI.1.2
    · cases hq

theorem alertApply_safe (h : TableOk k tiers t db) :
    AlertSafe k tiers (fun r db' => TableOk k tiers r.2 db')
      (alertApply t (k.sample value urgent extra)) db := by
  obtain ⟨i, t', hfind, hknown, hfree⟩ := alertStateFind_ok h
  refine safe_unchanged (fun _ _ _ h => h) ?_
  intro db₁ nowMs hR₁ _ _
  simp only [Instance.sample_rule, Instance.sample_nodeId, Instance.sample_targetId, hfind]
  have hkeep : ∀ {db'}, k.rows db' = k.rows db → TableOk k tiers t' db' := by
    intro db' hR
    have hu := tableOk_update hfree (fun _ => hknown.rows hR)
    rwa [update_eq_self] at hu
  refine Safe.bind (alertTierOf_safe ?_)
  intro db₂ r hR htier
  have hR₂ := hR.trans hR₁
  cases r with
  | error st => exact hkeep hR₂
  | ok tier =>
    simp only
    split
    · exact hkeep hR₂
    refine Safe.seq (alertApplySlot_safe (hknown.rows hR₂) (htier tier rfl) nowMs) ?_
    intro r db₃ hslot
    exact tableOk_update hfree hslot

theorem alert_invariant {c c' : Conf Unit SrvOp SrvOp.Res Db AlertTable}
    (hc : (alertSystem k tiers k.NoneCleared).Initial (AlertStart k tiers) c)
    (hs : (alertSystem k tiers k.NoneCleared).Steps c c') :
    AlertInv k tiers c'.shared ∧ ∀ i, (alertSystem k tiers k.NoneCleared).Holds (AlertInv k tiers)
      (fun _ db db' => k.rows db' = k.rows db) (fun _ t db => TableOk k tiers t db) c' i := by
  refine System.invariant ⟨?_, ?_, ?_, ?_⟩ ?_ ?_ ?_ ?_ ?_ hc hs
  · exact fun _ _ => rfl
  · exact fun _ _ _ _ h h' => h'.trans h
  · exact fun i j _ _ _ _ hij => absurd rfl hij
  · exact fun _ _ _ _ _ h => h.1
  · exact fun _ _ _ _ h hR _ => h.rows hR
  · rintro _ t _ db ⟨value, urgent, extra, rfl⟩ _ hA
    exact Safe.bind (alertApply_safe hA)
  · rintro db db' ⟨-, o, ho⟩ ⟨hR, hw⟩
    exact ⟨hw, o, hR ▸ ho⟩
  · rintro _ t db rfl _
    exact tableOk_empty db
  · rintro db ⟨hrows, hw⟩
    exact ⟨hw, none, hrows ▸ .none⟩

end

/-! ## A breach that is due -/

def Answered : (o : SrvOp) → o.Res → Prop
  | .nodeAlertTier _, r => ∃ tier, r = .ok tier
  | .probeAlertTier _, r => ∃ tier, r = .ok tier
  | .findOpenAlertEvent _ _ _, r => ∃ id, r = .ok id
  | .writeAlertEvent _, r => ∃ id, r = .ok id
  | _, _ => True

def answeredSem (hydrates : Db → Prop) : Sem SrvOp SrvOp.Res Db :=
  fun o db r db' => alertSem hydrates o db r db' ∧ Answered o r

def Instance.AllCleared (k : Instance) (db : Db) : Prop :=
  ∀ f ∈ k.rows db, f.eventKind = .fired →
    ∃ c ∈ k.rows db, c.eventKind = .cleared ∧ c.openedEventId = f.eventId

/-- A processed sample that breaches a rule without a delay, while no episode is open, writes
a fired row. -/
def FiresWhenDue (k : Instance) (hydrates : Db → Prop) (t : AlertTable) (db : Db) : Prop :=
  k.rule.op ≠ .transition → k.rule.forSeconds = 0 → k.AllCleared db →
    ∀ value urgent extra rc t' db', alertThresholdBreached k.rule.op value k.rule.threshold = true →
      Exec (answeredSem hydrates) (alertApply t (k.sample value urgent extra)) db (rc, t') db' →
      ∃ f, f.eventKind = .fired ∧ k.rows db' = k.rows db ++ [f]

section
variable {k : Instance} {tiers : Int → Prop} {hydrates : Db → Prop} {db db' : Db} {value : Rat}
  {s' : AlertSlot} {urgent : Bool} {extra : CStr} {rc : Status}

theorem alertTierOf_answered
    (h : Exec (answeredSem hydrates) (alertTierOf (k.sample value urgent extra)) db r db') :
    r = .ok (k.tier db) ∧ db' = db := by
  unfold alertTierOf at h
  by_cases htarget : k.targetId = []
  all_goals
    simp only [Instance.sample, htarget] at h
    simp only [Instance.tier, htarget]
    obtain ⟨a, db₁, hsem, hret⟩ := Exec.call_iff.1 h
    cases hret
    obtain ⟨⟨⟨hq, rfl⟩, -⟩, tier, htier⟩ := hsem
    refine ⟨?_, rfl⟩
    rcases hq with hq | hq
    · exact hq
    · rw [hq] at htier
      cases htier

theorem alertHydrate_answered
    (h : Exec (answeredSem hydrates) (alertHydrate s x) db (rc, s') db') : rc = .ok ∧ db' = db := by
  unfold alertHydrate at h
  split at h
  · obtain ⟨hr, rfl⟩ := Exec.ret_iff.1 h
    cases hr
    exact ⟨rfl, rfl⟩
  · obtain ⟨r, db₁, ⟨⟨⟨-, rfl⟩, -⟩, id, rfl⟩, hk⟩ := Exec.perform_bind_iff.1 h
    obtain ⟨hr, rfl⟩ := Exec.ret_iff.1 hk
    cases hr
    exact ⟨rfl, rfl⟩

theorem alertOpen_answered {nowMs : UInt64} (hf : s.fired = false)
    (hfor : k.rule.forSeconds = 0) (ht : Recorded tier.tier)
    (h : Exec (answeredSem hydrates) (alertOpen s (k.sample value urgent extra) tier nowMs) db
      (rc, s') db') : ∃ f, f.eventKind = .fired ∧ k.rows db' = k.rows db ++ [f] := by
  have hnow : ∀ s : AlertSlot, alertFireNow s k.rule nowMs urgent = true := by
    intro s
    simp [alertFireNow, hfor]
  unfold alertOpen at h
  rw [if_neg (by rw [AlertSlot.noteBreach, hf]; decide)] at h
  rw [if_neg (by rw [show (k.sample value urgent extra).rule = k.rule from rfl,
    show (k.sample value urgent extra).urgent = urgent from rfl, hnow]; decide)] at h
  split at h
  · next hcomp => exact absurd ht (alertComposeSeverity_eq_none.1 hcomp)
  obtain ⟨r, db₁, ⟨hsem, id, rfl⟩, hk⟩ := Exec.perform_bind_iff.1 h
  rcases writeAlertEvent_cases hsem with ⟨st, -, hr, -⟩ | ⟨-, rfl⟩
  · cases hr
  obtain ⟨_, db₂, hpub, hret⟩ := Exec.perform_bind_iff.1 hk
  cases hret
  have hdb : db' = _ := hpub.1.1
  rw [hdb]
  exact ⟨_, rfl, rows_write rfl rfl rfl⟩

theorem SlotState.not_fired {c f : Bool} {id : Nat} (h : SlotState tiers (k.rows db) c f id)
    (htiers : ∀ tier, tiers tier → Recorded tier) (hall : k.AllCleared db) : f = false := by
  cases f with
  | false => rfl
  | true =>
    rcases h.of_fired with ⟨-, hopen⟩ | ⟨-, -, tier, ht, hn⟩
    · obtain ⟨f, hf, hkf, hid⟩ := hopen.open_mem
      obtain ⟨c, hc, hkc, ho⟩ := hall f hf hkf
      have hlt := hopen.opened_lt c hc hkc
      rw [ho, hid] at hlt
      exact absurd hlt (lt_irrefl _)
    · exact absurd (htiers tier ht) hn

theorem alertApply_fires (htiers : ∀ tier, tiers tier → Recorded tier)
    (hT : TableOk k tiers t db) (hI : AlertInv k tiers db) : FiresWhenDue k k.NoneCleared t db := by
  intro hop hfor hall value urgent extra rc t' db' hbreach h
  obtain ⟨nowMs, db₁, hsem, hfind⟩ := Exec.perform_bind_iff.1 h
  have hdb : db₁ = db := hsem.1.1
  subst hdb
  obtain ⟨i, t₁, hfound, hknown, -⟩ := alertStateFind_ok hT
  simp only [Instance.sample_rule, Instance.sample_nodeId, Instance.sample_targetId,
    hfound] at hfind
  obtain ⟨r, db₂, htier, happly⟩ := Exec.bind_iff.1 hfind
  obtain ⟨rfl, rfl⟩ := alertTierOf_answered htier
  simp only at happly
  rw [if_neg (by rw [hI.1.1]; decide)] at happly
  obtain ⟨⟨rc', s'⟩, db₃, hslot, hret⟩ := Exec.bind_iff.1 happly
  cases hret
  -- the slot: hydrated if need be, then opened
  unfold alertApplySlot at hslot
  have hobs : alertObserve (t₁ i) (k.sample value urgent extra).rule
      (k.sample value urgent extra).value = (true, t₁ i) := by
    rw [← hbreach]
    exact if_neg hop
  rw [hobs] at hslot
  obtain ⟨⟨rc₁, s₁⟩, db₄, hhyd, hslot⟩ := Exec.bind_iff.1 hslot
  have hsafe := Safe.exec (R := fun db db' => k.rows db' = k.rows db) (fun _ => rfl)
    (alertHydrate_safe hknown) hI (hhyd.mono fun _ _ _ _ h => h.1)
  obtain ⟨rfl, rfl⟩ := alertHydrate_answered hhyd
  obtain ⟨-, hs₁, -⟩ := hsafe
  exact alertOpen_answered (hs₁.2.not_fired htiers hall) hfor (htiers _ hI.1.2) hslot

end

/-! ## The theorem -/

/-- **Episodes of a rule instance.** If a slot takes its state from the table only before anything
was cleared, fired and cleared rows alternate, each cleared row naming the fired row before it; and
in the tiers that keep rows, a breach that is due writes its fired row. -/
theorem alert_episodes (k : Instance) (tiers : Int → Prop)
    {c c' : Conf Unit SrvOp SrvOp.Res Db AlertTable}
    (hc : (alertSystem k tiers k.NoneCleared).Initial (AlertStart k tiers) c)
    (hs : (alertSystem k tiers k.NoneCleared).Steps c c') :
    EpisodesOk (k.rows c'.shared) ∧
      ∀ t, c'.procs () = .idle t → (∀ tier, tiers tier → Recorded tier) →
        FiresWhenDue k k.NoneCleared t c'.shared := by
  obtain ⟨hI, hL⟩ := alert_invariant hc hs
  refine ⟨?_, ?_⟩
  · obtain ⟨o, ho⟩ := hI.2
    exact ho.ok
  intro t hidle htiers
  have hT := hL ()
  simp only [System.Holds, hidle] at hT
  exact alertApply_fires htiers hT hI

/-! ### Runs of one instance -/

section
variable {k : Instance} {hydrates : Db → Prop} {db db' : Db}

def slotTable (s : AlertSlot) : AlertTable := Function.update AlertTable.empty firstSlot s

theorem alertStateFind_slotTable (hs : s.isOf k.rule.ruleId k.nodeId k.targetId = true) :
    alertStateFind (slotTable s) k.rule.ruleId k.nodeId k.targetId =
      (some firstSlot, slotTable s) := by
  have hmine : Fin.find? (fun i => (slotTable s i).isOf k.rule.ruleId k.nodeId k.targetId) =
      some firstSlot := by
    refine Fin.find?_eq_some_iff.2 ⟨?_, fun j hj => absurd hj (Nat.not_lt_zero _)⟩
    exact hs
  unfold alertStateFind
  rw [hmine]

theorem alertApply_exec (hk : k.targetId = []) (ha : (k.tier db).active = true)
    (hfind : alertStateFind t k.rule.ruleId k.nodeId k.targetId = (some firstSlot, slotTable s))
    (h : Exec (answeredSem hydrates) (alertApplySlot s (k.sample value false []) (k.tier db) 0) db
      (.ok, s') db') :
    Exec (answeredSem hydrates) (alertApply t (k.sample value false [])) db (.ok, slotTable s')
      db' := by
  refine Exec.perform_bind_iff.2 ⟨0, db, ⟨⟨rfl, trivial⟩, trivial⟩, ?_⟩
  rw [show alertStateFind t (k.sample value false []).rule.ruleId
    (k.sample value false []).nodeId (k.sample value false []).targetId = _ from hfind]
  have htier : k.tier db = serverDbNodeAlertTier db k.nodeId := if_pos hk
  refine Exec.bind_iff.2 ⟨.ok (k.tier db), db, ?_, ?_⟩
  · unfold alertTierOf
    rw [if_pos (show (k.sample value false []).targetId = [] from hk)]
    exact Exec.call_iff.2
      ⟨_, db, ⟨⟨⟨.inl (congrArg Except.ok htier), rfl⟩, trivial⟩, _, rfl⟩, .ret _ _⟩
  · simp only [ha]
    refine Exec.bind_iff.2 ⟨(.ok, s'), db', ?_, ?_⟩
    · rw [slotTable]
      exact h
    · rw [slotTable, update_idem]
      exact .ret _ _

theorem steps_sample
    (h : Exec (answeredSem hydrates) (alertApply t (k.sample value false [])) db (.ok, t') db') :
    (alertSystem k tiers hydrates).Steps ⟨db, fun _ => .idle t⟩ ⟨db', fun _ => .idle t'⟩ := by
  have hcall : Exec (alertSem hydrates) (sampleCall t (k.sample value false [])) db t' db' :=
    Exec.bind_iff.2 ⟨_, db', h.mono fun _ _ _ _ h => h.1, .ret _ _⟩
  have hs := System.steps_call (S := alertSystem k tiers hydrates) (i := ())
    (P := fun _ => .idle t) rfl ⟨value, false, [], rfl⟩
    (hcall.mono fun _ _ _ _ h => System.pausing_now h)
  exact hs

end

def loadRule : Instance := ⟨⟨1, .host, "cpu_load".toList, .gt, 0, 0, some .warn, true⟩, 7, []⟩

def loadDb (criticality : Int) : Db :=
  { Db.empty with
    node := ⟨[⟨7, .client, "host".toList, "host".toList, 0, .up, criticality, none⟩],
      nodup_singleton _⟩ }

def loadOpen (id : Nat) : AlertSlot :=
  { loadRule.slot with fired := true, checkedOpen := true, openedEventId := id }

def loadClosed : AlertSlot := { loadRule.slot with checkedOpen := true }

def loadFired : Db :=
  serverDbWriteAlertEvent (loadDb 2)
    (firedValues (loadRule.sample 1 false []) (loadRule.tier (loadDb 2)))

def loadCleared (db : Db) : Db :=
  serverDbWriteAlertEvent db
    (clearedValues (loadRule.sample 0 false []) (loadRule.tier db) 1 .publish 2)

section
variable {hydrates : Db → Prop}

theorem load_fires (h : hydrates (loadDb 2)) :
    Exec (answeredSem hydrates) (alertApply AlertTable.empty
      (loadRule.sample 1 false [])) (loadDb 2)
      (.ok, slotTable (loadOpen 1)) loadFired := by
  refine alertApply_exec rfl (by decide) (alertStateFind_unused fun _ => rfl) ?_
  refine Exec.bind_iff.2 ⟨(.ok, loadClosed), loadDb 2, ?_, ?_⟩
  · exact Exec.perform_bind_iff.2 ⟨.ok 0, loadDb 2, ⟨⟨⟨.inl rfl, rfl⟩, h⟩, 0, rfl⟩, .ret _ _⟩
  · refine Exec.perform_bind_iff.2
      ⟨.ok 1, loadFired, ⟨⟨⟨.ok, .committed rfl, rfl⟩, trivial⟩, 1, rfl⟩, ?_⟩
    exact Exec.perform_bind_iff.2 ⟨(), loadFired, ⟨⟨rfl, trivial⟩, trivial⟩, .ret _ _⟩

theorem load_fires_silently (h : hydrates (loadDb 0)) :
    Exec (answeredSem hydrates) (alertApply AlertTable.empty
      (loadRule.sample 1 false [])) (loadDb 0)
      (.ok, slotTable (loadOpen 0)) (loadDb 0) := by
  refine alertApply_exec rfl (by decide) (alertStateFind_unused fun _ => rfl) ?_
  refine Exec.bind_iff.2 ⟨(.ok, loadClosed), loadDb 0, ?_, ?_⟩
  · exact Exec.perform_bind_iff.2 ⟨.ok 0, loadDb 0, ⟨⟨⟨.inl rfl, rfl⟩, h⟩, 0, rfl⟩, .ret _ _⟩
  · exact Exec.perform_bind_iff.2 ⟨(), loadDb 0, ⟨⟨rfl, trivial⟩, trivial⟩, .ret _ _⟩

theorem load_clears (ha : (loadRule.tier db).active = true)
    (hd : serverDbAlertEventDisposition db 1 = .ok (.publish, 2))
    (hfind : alertStateFind t 1 7 [] = (some firstSlot, slotTable s))
    (hs : Exec (answeredSem hydrates) (alertHydrate s (loadRule.sample 0 false [])) db
      (.ok, loadOpen 1) db) :
    Exec (answeredSem hydrates) (alertApply t (loadRule.sample 0 false [])) db
      (.ok, slotTable loadClosed) (loadCleared db) := by
  refine alertApply_exec rfl ha hfind ?_
  refine Exec.bind_iff.2 ⟨(.ok, loadOpen 1), db, hs, ?_⟩
  refine Exec.bind_iff.2 ⟨.ok, loadCleared db, ?_, ?_⟩
  · refine Exec.perform_bind_iff.2
      ⟨.ok (.publish, 2), db, ⟨⟨⟨.inl hd.symm, rfl⟩, trivial⟩, trivial⟩, ?_⟩
    refine Exec.perform_bind_iff.2 ⟨.ok db.alertEvent.next, loadCleared db, ?_, .ret _ _⟩
    exact ⟨⟨⟨.ok, .committed rfl, rfl⟩, trivial⟩, _, rfl⟩
  · exact Exec.perform_bind_iff.2 ⟨(), loadCleared db, ⟨⟨rfl, trivial⟩, trivial⟩, .ret _ _⟩

theorem load_episode (h : hydrates (loadDb 2)) :
    (alertSystem loadRule Recorded hydrates).Steps ⟨loadDb 2, fun _ => .idle AlertTable.empty⟩
      ⟨loadCleared loadFired, fun _ => .idle (slotTable loadClosed)⟩ := by
  have hslot : Exec (answeredSem hydrates) (alertHydrate (loadOpen 1) (loadRule.sample 0 false []))
      loadFired (.ok, loadOpen 1) loadFired := .ret _ _
  exact (steps_sample (load_fires h)).trans (steps_sample (load_clears (by decide) rfl
    (alertStateFind_slotTable (k := loadRule) rfl) hslot))

theorem load_restart (h : hydrates (loadCleared loadFired)) (t : AlertTable) :
    (alertSystem loadRule Recorded hydrates).Steps ⟨loadCleared loadFired, fun _ => .idle t⟩
      ⟨loadCleared (loadCleared loadFired), fun _ => .idle (slotTable loadClosed)⟩ := by
  have hcrash := System.Step.crash (S := alertSystem loadRule Recorded hydrates)
    (s := loadCleared loadFired) (P := fun _ => .idle t) () rfl
  refine .head hcrash (steps_sample (load_clears (by decide) rfl
    (alertStateFind_unused (k := loadRule) fun _ => rfl) ?_))
  exact Exec.perform_bind_iff.2
    ⟨.ok 1, loadCleared loadFired, ⟨⟨⟨.inl rfl, rfl⟩, h⟩, 1, rfl⟩, .ret _ _⟩

theorem load_initial : (alertSystem loadRule Recorded hydrates).Initial
    (AlertStart loadRule Recorded)
    ⟨loadDb 2, fun _ => .idle AlertTable.empty⟩ :=
  ⟨⟨rfl, by decide, by decide, by decide⟩, fun _ => ⟨_, rfl, rfl⟩⟩

end

theorem alert_episodes_load :
    (loadRule.rows (loadCleared loadFired)).map (fun e => (e.eventId, e.openedEventId)) =
        [(1, 0), (2, 1)] ∧
      EpisodesOk (loadRule.rows (loadCleared loadFired)) ∧
      FiresWhenDue loadRule loadRule.NoneCleared (slotTable loadClosed)
        (loadCleared loadFired) := by
  have hnone : loadRule.NoneCleared (loadDb 2) := fun e he => nomatch he
  have h := alert_episodes loadRule Recorded load_initial (load_episode hnone)
  exact ⟨by decide, h.1, h.2 _ rfl fun _ h => h⟩

/-- After a restart a finished episode is taken for an open one, and is cleared again; and in
tier zero a breach that is due leaves no row. -/
theorem alert_episodes_limits :
    (∃ c c', (alertSystem loadRule Recorded fun _ => True).Initial
      (AlertStart loadRule Recorded) c ∧
      (alertSystem loadRule Recorded fun _ => True).Steps c c' ∧
      ¬ EpisodesOk (loadRule.rows c'.shared)) ∧
    ∃ c t, (alertSystem loadRule (· = 0) fun _ => True).Initial (AlertStart loadRule (· = 0)) c ∧
      c.procs () = .idle t ∧ ¬ FiresWhenDue loadRule (fun _ => True) t c.shared := by
  refine ⟨⟨_, _, load_initial, (load_episode trivial).trans (load_restart trivial _), ?_⟩, ?_⟩
  · -- two cleared rows of the same fired row
    intro h
    have heq := h.once (loadRule.rows (loadCleared (loadCleared loadFired)))[1] (by decide)
      (loadRule.rows (loadCleared (loadCleared loadFired)))[2] (by decide) rfl rfl rfl
    exact absurd (congrArg AlertEventRow.eventId heq) (by decide)
  · refine ⟨⟨loadDb 0, fun _ => .idle AlertTable.empty⟩, AlertTable.empty,
      ⟨⟨rfl, by decide, rfl⟩, fun _ => ⟨_, rfl, rfl⟩⟩, rfl, ?_⟩
    intro h
    obtain ⟨f, -, hrows⟩ := h (by decide) rfl (fun f hf => nomatch hf) 1 false [] _ _ _ rfl
      (load_fires_silently trivial)
    exact nomatch hrows

end SolariNet
