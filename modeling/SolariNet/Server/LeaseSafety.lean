/-
# Any number of servers on one lease row

Every server id is a process (`Lib.System`) that claims and releases, one call after
another, against the row of `Server.Lease`.  Statements are atomic; between any two of
them other servers may act, the database clock may advance, and a server may be restarted.
A statement that fails may have failed before or after it took effect.
-/
import SolariNet.Lib.System
import SolariNet.Server.Lease

namespace SolariNet

open List Lib Lib.Prog

/-! ## The system -/

inductive LeaseEvent where
  | upserted (self : UInt64) (ttl now : Int) (before after : Option LeaseRow)
  | readBack (self : UInt64) (now : Int) (row : Option LeaseRow)
  | released (self : UInt64) (now : Int) (before after : Option LeaseRow)
  | returned (self : UInt64) (won : Bool) (epoch : Nat)
  deriving DecidableEq, Repr

def LeaseEvent.self : LeaseEvent → UInt64
  | .upserted a _ _ _ _ | .readBack a _ _ | .released a _ _ _ | .returned a _ _ => a

structure LeaseState where
  now : Int
  row : Option LeaseRow
  log : List LeaseEvent

def LeaseState.note (s : LeaseState) (e : LeaseEvent) : LeaseState := { s with log := e :: s.log }

def leaseSem (i : UInt64) : Sem LeaseOp LeaseOp.Res LeaseState
  | .upsert self ttl, s, (rc : Status), s' =>
    (rc ≠ .ok ∧ s' = s) ∨
    ∃ q, leaseUpsert s.now ttl self s.row = some q ∧
      s' = { s with row := some q }.note (.upserted i ttl s.now s.row (some q))
  | .read, s, (r : Except Status (UInt64 × Nat)), s' =>
    (∃ st, st ≠ .ok ∧ r = .error st ∧ s' = s) ∨
    (r = .ok (leaseRead s.now s.row) ∧ s' = s.note (.readBack i s.now s.row))
  | .release self epoch, s, (rc : Status), s' =>
    (rc ≠ .ok ∧ s' = s) ∨
    s' = { s with row := leaseRelease s.now self epoch s.row }.note
      (.released i s.now s.row (leaseRelease s.now self epoch s.row))
  | .claimed won epoch, s, _, s' => s' = s.note (.returned i won epoch)

def claimCall (self : UInt64) (ttlSec : UInt32) : LeaseM Unit := do
  match ← serverDbLeaseClaim self ttlSec with
  | .error _ => .ret ()
  | .ok (won, epoch) => LeaseM.claimed won epoch

def releaseCall (self : UInt64) (epoch : Nat) : LeaseM Unit := do
  let _ ← serverDbLeaseRelease self epoch
  .ret ()

/-- The servers admitted by `ids`, each making calls for itself; the clock advances. -/
def leaseSystem (ids : UInt64 → Prop) : System UInt64 LeaseOp LeaseOp.Res LeaseState Unit where
  sem := leaseSem
  start i _ p := ids i ∧ ((∃ ttlSec, p = claimCall i ttlSec) ∨ ∃ epoch, p = releaseCall i epoch)
  env s s' := ∃ t, s.now ≤ t ∧ s' = { s with now := t }
  boot _ _ := True

/-! ## The laws -/

structure UpsertLaw (self : UInt64) (ttl now : Int) (before after : Option LeaseRow) : Prop where
  acquires : FreeAt before now → after = some ⟨some self, epochOf before + 1, now + 1000 * ttl⟩
  renews : HeldBy before now self → after = some ⟨some self, epochOf before, now + 1000 * ttl⟩
  leaves : ∀ r, before = some r → ¬ r.Expired now → r.leaseHolder ≠ some self → after = before

def lastUpsert (a : UInt64) : List LeaseEvent → Option (Option LeaseRow × Option LeaseRow)
  | [] => none
  | .upserted b _ _ before after :: log => if b = a then some (before, after) else lastUpsert a log
  | _ :: log => lastUpsert a log

def lastRead (a : UInt64) : List LeaseEvent → Option (Int × Option LeaseRow)
  | [] => none
  | .readBack b now row :: log => if b = a then some (now, row) else lastRead a log
  | _ :: log => lastRead a log

/-- The claim of `a` whose statements are the latest in `log` changed nothing, or it had
the lease after its upsert and no longer at its read-back. -/
def LossLaw (a : UInt64) (log : List LeaseEvent) : Prop :=
  ∃ before after now row, lastUpsert a log = some (before, after) ∧
    lastRead a log = some (now, row) ∧
    (after = before ∨ (∃ q, after = some q ∧ q.leaseHolder = some a) ∧ ¬ HeldBy row now a)

/-! ## The invariant -/

structure LeaseInv (s : LeaseState) : Prop where
  upserts : ∀ a ttl now before after, .upserted a ttl now before after ∈ s.log →
    UpsertLaw a ttl now before after
  reads : ∀ a now row, .readBack a now row ∈ s.log → RowLe row s.row
  unique : ∀ a b now now' row row', .readBack a now row ∈ s.log → .readBack b now' row' ∈ s.log →
    HeldBy row now a → HeldBy row' now' b → epochOf row = epochOf row' → a = b
  wins : ∀ a e, .returned a true e ∈ s.log →
    ∃ now row, .readBack a now row ∈ s.log ∧ HeldBy row now a ∧ epochOf row = e
  losses : ∀ newer a e older, s.log = newer ++ .returned a false e :: older → LossLaw a older

variable {c c' : Conf UInt64 LeaseOp LeaseOp.Res LeaseState Unit} {now ttl : Int} {e' : LeaseEvent}
  {q : LeaseRow} {s' : LeaseState} {log : List LeaseEvent} {row : Option LeaseRow} {ttlSec : UInt32}
  {a : UInt64}

theorem leaseUpsert_law {self : UInt64} (h : leaseUpsert now ttl self row = some q) :
    UpsertLaw self ttl now row (some q) where
  acquires hf := by rw [leaseUpsert_free h hf]
  renews hh := by rw [leaseUpsert_own h hh]
  leaves r hr hx hne := by
    subst hr
    rw [leaseUpsert_other h hx hne]

theorem holder_of_rowLe {row' : Option LeaseRow} {now' : Int} {b : UInt64} (hle : RowLe row row')
    (ha : HeldBy row now a) (hb : HeldBy row' now' b) (he : epochOf row = epochOf row') :
    a = b := by
  obtain ⟨r, rfl, hra, -⟩ := ha
  obtain ⟨q, rfl, hqb, -⟩ := hb
  obtain ⟨q', hq', h⟩ := hle r rfl
  cases hq'
  rcases h with hlt | ⟨-, hh⟩
  · exact absurd he (Nat.ne_of_lt hlt)
  · exact Option.some.inj (hra.symm.trans (hh.trans hqb))

theorem losses_cons
    (h : ∀ newer a e older, log = newer ++ .returned a false e :: older → LossLaw a older)
    (hhead : ∀ a e, e' = .returned a false e → LossLaw a log) :
    ∀ newer a e older, e' :: log = newer ++ .returned a false e :: older → LossLaw a older := by
  intro newer a e older heq
  cases newer with
  | nil =>
    obtain ⟨he, hl⟩ := List.cons.inj heq
    exact hl ▸ hhead a e he
  | cons x newer => exact h newer a e older (List.cons.inj heq).2

variable {s : LeaseState} {i : UInt64}

theorem LeaseInv.noteEvent (h : LeaseInv s) (hle : RowLe s.row row)
    (hread : ∀ a now r, e' = .readBack a now r → r = row)
    (hlaw : ∀ a ttl now before after, e' = .upserted a ttl now before after →
      UpsertLaw a ttl now before after) (hwin : ∀ a e, e' = .returned a true e →
      ∃ now row, .readBack a now row ∈ s.log ∧ HeldBy row now a ∧ epochOf row = e)
    (hloss : ∀ a e, e' = .returned a false e → LossLaw a s.log) :
    LeaseInv ({ s with row := row }.note e') where
  upserts a ttl now before after hmem := by
    rcases mem_cons.1 hmem with heq | hmem
    · exact hlaw a ttl now before after heq.symm
    · exact h.upserts a ttl now before after hmem
  reads a now r hmem := by
    rcases mem_cons.1 hmem with heq | hmem
    · rw [hread a now r heq.symm]
      exact RowLe.refl _
    · exact (h.reads a now r hmem).trans hle
  unique a b now now' r r' ha hb hha hhb he := by
    -- one of the two read-backs may be the new one: then the older row grew into it
    rcases mem_cons.1 ha with heqa | ha
    · rcases mem_cons.1 hb with heqb | hb
      · cases heqa.trans heqb.symm
        rfl
      · cases hread a now r heqa.symm
        exact (holder_of_rowLe ((h.reads b now' r' hb).trans hle) hhb hha he.symm).symm
    · rcases mem_cons.1 hb with heqb | hb
      · cases hread b now' r' heqb.symm
        exact holder_of_rowLe ((h.reads a now r ha).trans hle) hha hhb he
      · exact h.unique a b now now' r r' ha hb hha hhb he
  wins a e hmem := by
    obtain ⟨now, r, hr, hh⟩ : ∃ now row, .readBack a now row ∈ s.log ∧ HeldBy row now a ∧
        epochOf row = e := by
      rcases mem_cons.1 hmem with heq | hmem
      · exact hwin a e heq.symm
      · exact h.wins a e hmem
    exact ⟨now, r, mem_cons_of_mem _ hr, hh⟩
  losses := losses_cons h.losses hloss

/-! ## Steps -/

theorem leaseSem_moves {j : UInt64} (h : leaseSem j o s r s') :
    RowLe s.row s'.row ∧ ∃ new, s'.log = new ++ s.log ∧ ∀ e ∈ new, e.self = j := by
  have hsame : RowLe s.row s.row ∧ ∃ new, s.log = new ++ s.log ∧ ∀ e ∈ new, LeaseEvent.self e = j :=
    ⟨RowLe.refl _, [], rfl, fun e he => nomatch he⟩
  cases o with
  | upsert self ttl =>
    rcases h with ⟨-, rfl⟩ | ⟨q, hq, rfl⟩
    · exact hsame
    · exact ⟨leaseUpsert_rowLe hq, [_], rfl, by simp [LeaseEvent.self]⟩
  | read =>
    rcases h with ⟨st, -, -, rfl⟩ | ⟨-, rfl⟩
    · exact hsame
    · exact ⟨RowLe.refl _, [_], rfl, by simp [LeaseEvent.self]⟩
  | release self epoch =>
    rcases h with ⟨-, rfl⟩ | rfl
    · exact hsame
    · exact ⟨leaseRelease_rowLe _ _ _ _, [_], rfl, by simp [LeaseEvent.self]⟩
  | claimed won epoch =>
    cases h
    exact ⟨RowLe.refl _, [_], rfl, by simp [LeaseEvent.self]⟩

def LeaseRely (i : UInt64) (s s' : LeaseState) : Prop :=
  RowLe s.row s'.row ∧ ∃ new, s'.log = new ++ s.log ∧ ∀ e ∈ new, LeaseEvent.self e ≠ i

theorem leaseSystem_relies (ids : UInt64 → Prop) : (leaseSystem ids).Relies LeaseInv LeaseRely where
  refl i s := ⟨RowLe.refl _, [], rfl, fun e he => nomatch he⟩
  trans i s s' s'' h h' := by
    obtain ⟨hle, new, hlog, hne⟩ := h
    obtain ⟨hle', new', hlog', hne'⟩ := h'
    refine ⟨hle.trans hle', new' ++ new, by rw [hlog', hlog, append_assoc], ?_⟩
    exact forall_mem_append.2 ⟨hne', hne⟩
  other i j o s r s' hij _ _ h := by
    obtain ⟨hle, new, hlog, hself⟩ := leaseSem_moves h
    exact ⟨hle, new, hlog, fun e he => hself e he ▸ hij.symm⟩
  env i s s' _ _ h := by
    obtain ⟨t, -, rfl⟩ := h
    exact ⟨RowLe.refl _, [], rfl, fun e he => nomatch he⟩

theorem skip_append {β : Type} {f : List LeaseEvent → β} {new : List LeaseEvent}
    (hskip : ∀ e log, e.self ≠ a → f (e :: log) = f log) (h : ∀ e ∈ new, e.self ≠ a) :
    f (new ++ log) = f log := by
  induction new with
  | nil => rfl
  | cons e new ih =>
    exact (hskip e _ (h e mem_cons_self)).trans (ih fun x hx => h x (mem_cons_of_mem _ hx))

theorem lastUpsert_other (e : LeaseEvent) (log : List LeaseEvent) (he : e.self ≠ a) :
    lastUpsert a (e :: log) = lastUpsert a log := by
  cases e with
  | upserted => exact if_neg he
  | readBack | released | returned => rfl

theorem lastRead_other (e : LeaseEvent) (log : List LeaseEvent) (he : e.self ≠ a) :
    lastRead a (e :: log) = lastRead a log := by
  cases e with
  | readBack => exact if_neg he
  | upserted | released | returned => rfl

theorem upsert_step {rc : Status} (hI : LeaseInv s) (h : leaseSem i (.upsert i ttl) s rc s') :
    LeaseInv s' ∧ (rc = .ok → ∃ before after, lastUpsert i s'.log = some (before, after) ∧
      (after = before ∨ ∃ q, after = some q ∧ q.leaseHolder = some i)) := by
  rcases h with ⟨hrc, rfl⟩ | ⟨q, hq, rfl⟩
  · exact ⟨hI, fun h => absurd h hrc⟩
  refine ⟨hI.noteEvent (leaseUpsert_rowLe hq) (by simp) ?_ (by simp) (by simp), ?_⟩
  · intro a ttl' now before after heq
    cases heq
    exact leaseUpsert_law hq
  · intro _
    refine ⟨s.row, some q, by simp [LeaseState.note, lastUpsert], ?_⟩
    rcases leaseUpsert_changed hq with hsame | ⟨hh, -⟩
    · exact .inl hsame.symm
    · exact .inr ⟨q, rfl, hh⟩

def ClaimResult (i : UInt64) (res : Except Status (Bool × Nat)) (s : LeaseState) : Prop :=
  match res with
  | .error _ => True
  | .ok (won, epoch) =>
    (won = true → ∃ now row, .readBack i now row ∈ s.log ∧ HeldBy row now i ∧ epochOf row = epoch) ∧
    (won = false → LossLaw i s.log)

theorem epoch_leaseRead (now : Int) (row : Option LeaseRow) :
    (leaseRead now row).2 = epochOf row := by
  cases row <;> rfl

theorem ClaimResult.stable {res : Except Status (Bool × Nat)} (h : ClaimResult i res s)
    (hR : LeaseRely i s s') : ClaimResult i res s' := by
  obtain ⟨-, new, hlog, hne⟩ := hR
  cases res with
  | error st => trivial
  | ok r =>
    refine ⟨fun hw => ?_, fun hl => ?_⟩
    · obtain ⟨now, row, hmem, hh⟩ := h.1 hw
      exact ⟨now, row, hlog ▸ mem_append_right new hmem, hh⟩
    obtain ⟨before, after, now, row, hu, hr, hc⟩ := h.2 hl
    refine ⟨before, after, now, row, ?_, ?_, hc⟩
    · rw [hlog, skip_append lastUpsert_other hne, hu]
    · rw [hlog, skip_append lastRead_other hne, hr]

/-- **A claim, under interference.**  It reports a win it has read back, or a loss that
changed nothing it did not lose again. -/
theorem serverDbLeaseClaim_safe (hi : i ≠ 0) :
    Safe (leaseSem i) (LeaseRely i) LeaseInv (ClaimResult i) (serverDbLeaseClaim i ttlSec) s := by
  refine safe_perform_bind.2 ?_
  intro s₁ _ hI₁ rc s₂ hsem
  obtain ⟨hI₂, hupsert⟩ := upsert_step hI₁ hsem
  refine ⟨hI₂, ?_⟩
  split
  · trivial
  next hrc =>
  obtain ⟨before, after, hlast, hchg⟩ := hupsert (not_not.1 hrc)
  refine safe_perform_bind.2 ?_
  intro s₃ hR₃ hI₃ res s₄ hread
  obtain ⟨-, new, hlog, hne⟩ := hR₃
  rcases hread with ⟨st, -, rfl, rfl⟩ | ⟨rfl, rfl⟩
  · exact ⟨hI₃, trivial⟩
  refine ⟨hI₃.noteEvent (RowLe.refl _) ?_ (by simp) (by simp) (by simp), ?_⟩
  · rintro _ _ _ ⟨⟩
    rfl
  cases hv : leaseRead s₃.now s₃.row with
  | mk holder epoch =>
  have hself : holder = i ↔ HeldBy s₃.row s₃.now i := by
    rw [← leaseRead_eq_self hi, hv]
  refine ⟨fun hw => ?_, fun hl => ?_⟩
  · have hheld := hself.1 (by simpa using hw)
    exact ⟨s₃.now, s₃.row, mem_cons_self, hheld, by rw [← epoch_leaseRead s₃.now, hv]⟩
  have hnot : ¬ HeldBy s₃.row s₃.now i := by
    intro hh
    rw [hself.2 hh] at hl
    simp at hl
  refine ⟨before, after, s₃.now, s₃.row, ?_, ?_, ?_⟩
  · show lastUpsert i s₃.log = _
    rw [hlog, skip_append lastUpsert_other hne, hlast]
  · simp [LeaseState.note, lastRead]
  · exact hchg.imp_right fun h => ⟨h, hnot⟩

theorem claimCall_safe (hi : i ≠ 0) :
    Safe (leaseSem i) (LeaseRely i) LeaseInv (fun _ _ => True) (claimCall i ttlSec) s := by
  refine (serverDbLeaseClaim_safe hi).seq ?_
  intro res s₁ hres
  cases res with
  | error st => trivial
  | ok r =>
    obtain ⟨won, epoch⟩ := r
    intro s₂ hR hI _ s₃ hsem
    cases hsem
    have hres' := hres.stable hR
    refine ⟨hI.noteEvent (RowLe.refl _) (by simp) (by simp) ?_ ?_, trivial⟩
    · rintro _ _ ⟨⟩
      exact hres'.1 rfl
    · rintro _ _ ⟨⟩
      exact hres'.2 rfl

theorem releaseCall_safe {epoch : Nat} :
    Safe (leaseSem i) (LeaseRely i) LeaseInv (fun _ _ => True) (releaseCall i epoch) s := by
  unfold releaseCall serverDbLeaseRelease
  split
  · trivial
  intro s₁ _ hI rc s₂ hsem
  rcases hsem with ⟨-, rfl⟩ | rfl
  · exact ⟨hI, trivial⟩
  · exact ⟨hI.noteEvent (leaseRelease_rowLe _ _ _ _) (by simp) (by simp) (by simp)
      (by simp), trivial⟩

/-! ## Runs -/

theorem leaseInv_nil (now : Int) (row : Option LeaseRow) : LeaseInv ⟨now, row, []⟩ where
  upserts _ _ _ _ _ h := nomatch h
  reads _ _ _ h := nomatch h
  unique _ _ _ _ _ _ h := nomatch h
  wins _ _ h := nomatch h
  losses newer _ _ _ h := by cases newer <;> cases h

def LeaseState.Fresh (s : LeaseState) : Prop := s.log = []

variable {ids : UInt64 → Prop}

theorem leaseInv_of_steps (hids : ∀ i, ids i → i ≠ 0)
    (hc : (leaseSystem ids).Initial LeaseState.Fresh c) (hs : (leaseSystem ids).Steps c c') :
    LeaseInv c'.shared := by
  refine (System.invariant (A := fun _ _ _ => True) (leaseSystem_relies ids)
    (fun _ _ _ _ _ _ _ => trivial) ?_ ?_ (fun _ _ _ _ _ => trivial) ?_ hc hs).1
  · intro i m p s hp _ _
    obtain ⟨hi, ⟨ttlSec, rfl⟩ | ⟨epoch, rfl⟩⟩ := hp
    · exact claimCall_safe (hids i hi)
    · exact releaseCall_safe
  · intro s s' hI h
    obtain ⟨t, -, rfl⟩ := h
    exact { hI with }
  · intro s hs
    obtain ⟨now, row, log⟩ := s
    cases hs
    exact leaseInv_nil now row

theorem rowLe_of_steps (hs : (leaseSystem ids).Steps c c') : RowLe c.shared.row c'.shared.row := by
  induction hs with
  | refl => exact RowLe.refl _
  | tail _ hstep ih =>
    cases hstep with
    | start => exact ih
    | act i hi ho => exact ih.trans (leaseSem_moves ho).1
    | finish => exact ih
    | env h =>
      obtain ⟨t, -, rfl⟩ := h
      exact ih
    | crash => exact ih

/-- **Lease safety.**  Any number of servers with non-zero ids, any interleaving of their
claims and releases, from any row. -/
theorem lease_safety {ids : UInt64 → Prop} (hids : ∀ i, ids i → i ≠ 0)
    {c₀ c : Conf UInt64 LeaseOp LeaseOp.Res LeaseState Unit}
    (hc : (leaseSystem ids).Initial LeaseState.Fresh c₀) (hs : (leaseSystem ids).Steps c₀ c) :
    (∀ a b, HeldBy c.shared.row c.shared.now a → HeldBy c.shared.row c.shared.now b → a = b) ∧
    (∀ c', (leaseSystem ids).Steps c c' → epochOf c.shared.row ≤ epochOf c'.shared.row) ∧
    (∀ a ttl now before after, .upserted a ttl now before after ∈ c.shared.log →
      UpsertLaw a ttl now before after) ∧
    (∀ newer a e older, c.shared.log = newer ++ .returned a false e :: older → LossLaw a older) ∧
    (∀ a b e, .returned a true e ∈ c.shared.log → .returned b true e ∈ c.shared.log → a = b) := by
  have hI := leaseInv_of_steps hids hc hs
  refine ⟨fun a b => heldBy_unique, fun c' h => (rowLe_of_steps h).epoch_le, hI.upserts, hI.losses,
    ?_⟩
  intro a b e ha hb
  obtain ⟨now, row, hmem, hheld, he⟩ := hI.wins a e ha
  obtain ⟨now', row', hmem', hheld', he'⟩ := hI.wins b e hb
  exact hI.unique a b now now' row row' hmem hmem' hheld hheld' (he.trans he'.symm)

/-! ## Runs that show the limits -/

def idleServers (s : LeaseState) : Conf UInt64 LeaseOp LeaseOp.Res LeaseState Unit :=
  ⟨s, fun _ => .idle ()⟩

theorem idleServers_initial (ids : UInt64 → Prop) (h : s.Fresh) :
    (leaseSystem ids).Initial LeaseState.Fresh (idleServers s) :=
  ⟨h, fun _ => ⟨(), trivial, rfl⟩⟩

theorem claimCall_steps (ids : UInt64 → Prop) (hi : ids i) (ttlSec : UInt32) {t : Int}
    (hq : leaseUpsert s.now (leaseTtl ttlSec) i s.row = some q) (ht : s.now ≤ t) :
    (leaseSystem ids).Steps (idleServers s) (idleServers
      { now := t, row := some q,
        log := .returned i ((leaseRead t (some q)).1 == i) (leaseRead t (some q)).2 ::
          .readBack i t (some q) ::
          .upserted i (leaseTtl ttlSec) s.now s.row (some q) :: s.log }) := by
  have hrun : Exec ((leaseSystem ids).pausing i) (claimCall i ttlSec) s ()
      { now := t, row := some q,
        log := .returned i ((leaseRead t (some q)).1 == i) (leaseRead t (some q)).2 ::
          .readBack i t (some q) ::
          .upserted i (leaseTtl ttlSec) s.now s.row (some q) :: s.log } := by
    refine .call (r := Status.ok) (System.pausing_now (.inr ⟨q, hq, rfl⟩)) ?_
    refine .call ⟨_, .single ⟨t, ht, rfl⟩, .inr ⟨rfl, rfl⟩⟩ ?_
    exact .call (System.pausing_now rfl) (.ret _ _)
  have hstart : (leaseSystem ids).start i () (claimCall i ttlSec) := ⟨hi, .inl ⟨ttlSec, rfl⟩⟩
  have h := System.steps_call (P := fun _ => .idle ()) rfl hstart hrun
  rw [Function.update_eq_self] at h
  exact h

theorem lease_safety_contended : ∃ c, (leaseSystem (· ≠ 0)).Steps (idleServers ⟨0, none, []⟩) c ∧
    .returned 2 false 1 ∈ c.shared.log ∧ HeldBy c.shared.row c.shared.now 1 ∧
    ∀ b, HeldBy c.shared.row c.shared.now b → b = 1 := by
  have hs := (claimCall_steps (· ≠ 0) (by decide) 15 (s := ⟨0, none, []⟩)
    (q := ⟨some 1, 1, 15000⟩) (t := 0) rfl (by decide)).trans
    (claimCall_steps _ (i := 2) (by decide) 15 (q := ⟨some 1, 1, 15000⟩) (t := 9) (by decide)
      (by decide))
  have hheld : HeldBy (some ⟨some 1, 1, 15000⟩) 9 1 := ⟨_, rfl, rfl, by decide⟩
  refine ⟨_, hs, List.mem_cons_self, hheld, fun b hb => ?_⟩
  exact (lease_safety (fun _ h => h) (idleServers_initial _ (s := ⟨0, none, []⟩) rfl) hs).1
    b 1 hb hheld

/-- **Where lease safety ends.** Server 1 inserts the row and reads it back after it has expired: a
claim lost that put the row there. And a server with id 0 takes "no holder" for itself. -/
theorem lease_safety_limits : (∃ c, (leaseSystem (· ≠ 0)).Steps (idleServers ⟨0, none, []⟩) c ∧
      c.shared.log = [.returned 1 false 1, .readBack 1 20000 (some ⟨some 1, 1, 15000⟩),
        .upserted 1 15 0 none (some ⟨some 1, 1, 15000⟩)]) ∧
    (∃ c, (leaseSystem fun _ => True).Steps (idleServers ⟨0, none, []⟩) c ∧
      .returned 0 true 1 ∈ c.shared.log ∧ .returned 1 true 1 ∈ c.shared.log) := by
  constructor
  · exact ⟨_, claimCall_steps _ (by decide) 15 (q := ⟨some 1, 1, 15000⟩) (t := 20000) rfl
      (by decide), by decide⟩
  have hone := claimCall_steps (fun _ => True) trivial 15 (s := ⟨0, none, []⟩)
    (q := ⟨some 1, 1, 15000⟩) (t := 0) rfl (by decide)
  refine ⟨_, hone.trans (claimCall_steps _ (i := 0) trivial 15 (q := ⟨some 1, 1, 15000⟩)
    (t := 20000) (by decide) (by decide)), ?_, ?_⟩
  · decide
  · decide

end SolariNet
