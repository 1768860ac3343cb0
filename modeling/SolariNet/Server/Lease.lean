/-
# The lease row and its three statements

The election among servers is one row (`serverLease`, id 1) and one conditional upsert
(`serverDb.c`).  A statement is a function of the database clock and the row; the clock is
in milliseconds and may be any integer.

    upsert     insert the row, or renew / take over / leave it
    read       the unexpired holder and the epoch
    release    let the lease expire, for the holder of the exact epoch

The upsert's assignments are evaluated left to right: `leaseHolder` still sees the old
`expiresAt`, `expiresAt` sees the new `leaseHolder`.
-/
import SolariNet.Lib.Prog
import SolariNet.Wire.Basic

namespace SolariNet

open Lib

structure LeaseRow where
  leaseHolder : Option UInt64
  leaseEpoch : Nat
  expiresAt : Int
  deriving DecidableEq, Repr

/-- `expiresAt < UTC_TIMESTAMP(3)`. -/
def LeaseRow.Expired (r : LeaseRow) (now : Int) : Prop := r.expiresAt < now

instance (r : LeaseRow) (now : Int) : Decidable (r.Expired now) :=
  inferInstanceAs (Decidable (r.expiresAt < now))

def leaseTtl (ttlSec : UInt32) : Int := if ttlSec = 0 then 15 else ttlSec.toInt32.toInt

/-! ## Statements -/

def leaseUpdate (now ttl : Int) (self : UInt64) (r : LeaseRow) : Option LeaseRow :=
  let epoch := r.leaseEpoch + (if r.Expired now then 1 else 0)
  let holder := if r.leaseHolder = some self ∨ r.Expired now then some self else r.leaseHolder
  let expires := if holder = some self ∨ r.Expired now then now + 1000 * ttl else r.expiresAt
  if epoch < 2 ^ 64 then some ⟨holder, epoch, expires⟩ else none

/-- `SQL_UPSERT`. -/
def leaseUpsert (now ttl : Int) (self : UInt64) : Option LeaseRow → Option LeaseRow
  | none => some ⟨some self, 1, now + 1000 * ttl⟩
  | some r => leaseUpdate now ttl self r

def leaseRead (now : Int) : Option LeaseRow → UInt64 × Nat
  | none => (0, 0)
  | some r => (if r.Expired now then 0 else r.leaseHolder.getD 0, r.leaseEpoch)

def leaseRelease (now : Int) (self : UInt64) (epoch : Nat) : Option LeaseRow → Option LeaseRow
  | none => none
  | some r =>
    if r.leaseHolder = some self ∧ r.leaseEpoch = epoch ∧ now < r.expiresAt then
      some { r with expiresAt := now - 1000 }
    else some r

/-! ## Programs -/

/-- What a server asks of the database for the lease; `claimed` reports the result of a
claim to its caller. -/
inductive LeaseOp where
  | upsert (self : UInt64) (ttl : Int)
  | read
  | release (self : UInt64) (epoch : Nat)
  | claimed (won : Bool) (epoch : Nat)

abbrev LeaseOp.Res : LeaseOp → Type
  | .upsert _ _ | .release _ _ => Status
  | .read => Except Status (UInt64 × Nat)
  | .claimed _ _ => Unit

abbrev LeaseM : Type → Type := Prog LeaseOp LeaseOp.Res

namespace LeaseM

abbrev upsert (self : UInt64) (ttl : Int) : LeaseM Status := Prog.perform (LeaseOp.upsert self ttl)
abbrev read : LeaseM (Except Status (UInt64 × Nat)) := Prog.perform LeaseOp.read
abbrev release (self : UInt64) (epoch : Nat) : LeaseM Status :=
  Prog.perform (LeaseOp.release self epoch)
abbrev claimed (won : Bool) (epoch : Nat) : LeaseM Unit := Prog.perform (LeaseOp.claimed won epoch)

end LeaseM

def serverDbLeaseClaim (self : UInt64) (ttlSec : UInt32) : LeaseM (Except Status (Bool × Nat)) := do
  let rc ← LeaseM.upsert self (leaseTtl ttlSec)
  if rc ≠ .ok then .ret (.error rc)
  else
    match ← LeaseM.read with
    | .error st => .ret (.error st)
    | .ok (holder, epoch) => .ret (.ok (holder == self, epoch))

def serverDbLeaseRelease (self : UInt64) (epoch : Nat) : LeaseM Status :=
  if self = 0 ∨ epoch = 0 then .ret .errInvalidArg else LeaseM.release self epoch

/-! ## What the statements do -/

def HeldBy (row : Option LeaseRow) (now : Int) (a : UInt64) : Prop :=
  ∃ r, row = some r ∧ r.leaseHolder = some a ∧ ¬ r.Expired now

def FreeAt (row : Option LeaseRow) (now : Int) : Prop := ∀ r, row = some r → r.Expired now

def epochOf : Option LeaseRow → Nat
  | none => 0
  | some r => r.leaseEpoch

variable {row : Option LeaseRow} {now ttl : Int} {self : UInt64} {q : LeaseRow}

theorem heldBy_unique {a b : UInt64} (ha : HeldBy row now a) (hb : HeldBy row now b) : a = b := by
  obtain ⟨r, hr, har, -⟩ := ha
  obtain ⟨q, hq, hbq, -⟩ := hb
  rw [hr] at hq
  cases hq
  exact Option.some.inj (har.symm.trans hbq)

theorem leaseUpsert_free (h : leaseUpsert now ttl self row = some q) (hf : FreeAt row now) :
    q = ⟨some self, epochOf row + 1, now + 1000 * ttl⟩ := by
  cases row with
  | none =>
    cases h
    rfl
  | some r =>
    have hx := hf r rfl
    simp only [leaseUpsert, leaseUpdate, hx, or_true, if_true] at h
    split at h
    · cases h
      rfl
    · cases h

theorem leaseUpsert_own (h : leaseUpsert now ttl self row = some q) (hh : HeldBy row now self) :
    q = ⟨some self, epochOf row, now + 1000 * ttl⟩ := by
  obtain ⟨r, rfl, hr, hx⟩ := hh
  simp only [leaseUpsert, leaseUpdate, hr, hx, or_false, if_true, if_false] at h
  split at h
  · cases h
    rfl
  · cases h

theorem leaseUpsert_other (h : leaseUpsert now ttl self (some r) = some q)
    (hx : ¬ r.Expired now) (hne : r.leaseHolder ≠ some self) : q = r := by
  simp only [leaseUpsert, leaseUpdate, hx, hne, or_self, if_false] at h
  split at h
  · cases h
    rfl
  · cases h

theorem lease_cases (row : Option LeaseRow) (now : Int) (self : UInt64) :
    FreeAt row now ∨ HeldBy row now self ∨
      ∃ r, row = some r ∧ ¬ r.Expired now ∧ r.leaseHolder ≠ some self := by
  cases row with
  | none => exact .inl (fun r hr => nomatch hr)
  | some r =>
    by_cases hx : r.Expired now
    · exact .inl (fun q hq => Option.some.inj hq ▸ hx)
    by_cases hh : r.leaseHolder = some self
    · exact .inr (.inl ⟨r, rfl, hh, hx⟩)
    · exact .inr (.inr ⟨r, rfl, hx, hh⟩)

theorem leaseUpsert_changed (h : leaseUpsert now ttl self row = some q) :
    row = some q ∨ q.leaseHolder = some self ∧ q.expiresAt = now + 1000 * ttl := by
  rcases lease_cases row now self with hf | hh | ⟨r, rfl, hx, hne⟩
  · rw [leaseUpsert_free h hf]
    exact .inr ⟨rfl, rfl⟩
  · rw [leaseUpsert_own h hh]
    exact .inr ⟨rfl, rfl⟩
  · rw [leaseUpsert_other h hx hne]
    exact .inl rfl

def RowLe (row row' : Option LeaseRow) : Prop :=
  ∀ r, row = some r → ∃ r', row' = some r' ∧
    (r.leaseEpoch < r'.leaseEpoch ∨ r.leaseEpoch = r'.leaseEpoch ∧ r.leaseHolder = r'.leaseHolder)

theorem RowLe.refl (row : Option LeaseRow) : RowLe row row :=
  fun r hr => ⟨r, hr, .inr ⟨rfl, rfl⟩⟩

theorem RowLe.trans {a b c : Option LeaseRow} (hab : RowLe a b) (hbc : RowLe b c) : RowLe a c := by
  intro r hr
  obtain ⟨r', hr', h⟩ := hab r hr
  obtain ⟨r'', hr'', h'⟩ := hbc r' hr'
  refine ⟨r'', hr'', ?_⟩
  rcases h with h | ⟨he, hh⟩
  · rcases h' with h' | ⟨he', -⟩
    · exact .inl (lt_trans h h')
    · exact .inl (he' ▸ h)
  · rcases h' with h' | ⟨he', hh'⟩
    · exact .inl (he ▸ h')
    · exact .inr ⟨he.trans he', hh.trans hh'⟩

theorem RowLe.epoch_le {a b : Option LeaseRow} (h : RowLe a b) : epochOf a ≤ epochOf b := by
  cases a with
  | none => exact Nat.zero_le _
  | some r =>
    obtain ⟨r', hr', hle⟩ := h r rfl
    rw [hr']
    rcases hle with hlt | ⟨heq, -⟩
    · exact Nat.le_of_lt hlt
    · exact Nat.le_of_eq heq

theorem leaseUpsert_rowLe (h : leaseUpsert now ttl self row = some q) : RowLe row (some q) := by
  intro r hr
  refine ⟨q, rfl, ?_⟩
  rcases lease_cases row now self with hf | hh | ⟨r', hr', hx, hne⟩
  · subst hr
    rw [leaseUpsert_free h hf]
    exact .inl (Nat.lt_succ_self _)
  · have hq := leaseUpsert_own h hh
    obtain ⟨r', hr', hown, -⟩ := hh
    subst hr
    cases hr'
    subst hq
    exact .inr ⟨rfl, hown⟩
  · subst hr
    cases hr'
    rw [leaseUpsert_other h hx hne]
    exact .inr ⟨rfl, rfl⟩

theorem leaseRelease_rowLe (now : Int) (self : UInt64) (epoch : Nat) (row : Option LeaseRow) :
    RowLe row (leaseRelease now self epoch row) := by
  intro r hr
  subst hr
  simp only [leaseRelease]
  split
  · exact ⟨_, rfl, .inr ⟨rfl, rfl⟩⟩
  · exact ⟨_, rfl, .inr ⟨rfl, rfl⟩⟩

theorem leaseRead_eq_self {a : UInt64} (ha : a ≠ 0) :
    (leaseRead now row).1 = a ↔ HeldBy row now a := by
  cases row with
  | none =>
    refine ⟨fun h => absurd h.symm ha, ?_⟩
    intro h
    obtain ⟨r, hr, -⟩ := h
    cases hr
  | some r =>
    simp only [leaseRead]
    constructor
    · intro h
      split at h
      · exact absurd h.symm ha
      next hx =>
      refine ⟨r, rfl, ?_, hx⟩
      cases hh : r.leaseHolder with
      | none =>
        rw [hh] at h
        exact absurd h.symm ha
      | some b =>
        rw [hh] at h
        exact congrArg some h
    · intro h
      obtain ⟨r', hr', hh, hx⟩ := h
      cases hr'
      rw [if_neg hx, hh]
      rfl

end SolariNet
