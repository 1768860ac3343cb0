/-
# The functions the CRL programs share, in any setting

The functions of `Crl` that change no file are used by its three programs.  What they return is
proved once, for every setting in which the quiet operations keep an assertion; `V` is what a passed
signature check tells about the CRL.
-/
import SolariNet.Deploy.Crl

namespace SolariNet.Crl

open Lib

variable {σ α : Type}

abbrev Ends (S : Setting CrlOp CrlRes σ) (P : σ → Prop) (x : CrlM α) (Q : α → σ → Prop) : Prop :=
  S.Triple P x Q fun _ _ => True

def CrlOp.quiet : CrlOp → Bool
  | .start | .lock _ | .unlock _ | .replaceOutput _ | .replacePublic _ | .replaceActive _
  | .unlinkActive | .writeReceipt _ | .check (.restarted _) | .activated => false
  | _ => true

structure Quiet (S : Setting CrlOp CrlRes σ) (V : Bytes → Prop) : Prop where
  any {o : CrlOp} {P : σ → Prop} (hP : S.Stable P) (ho : o.quiet = true) :
    Ends S P (act o) fun _ => P
  verified {crl : Bytes} {P : σ → Prop} (hP : S.Stable P) :
    Ends S P (act (.check (.verifies crl))) fun r w => P w ∧ (r = true → V crl)

variable {S : Setting CrlOp CrlRes σ} {V : Bytes → Prop} {P : σ → Prop} {e : String} {ssl : X509}
  {crl : Bytes} {c : Prop}

theorem ends_require [Decidable c] {Q : Unit → σ → Prop} (h : ∀ w, P w → c → Q () w) :
    Ends S P (Call.require c e) Q :=
  .require h fun _ _ _ => trivial

variable {Q : α → σ → Prop}

theorem ends_keep [Decidable c] {f : Unit → CrlM α} (h : Ends S P (f ()) Q) :
    Ends S P (Call.require c e >>= f) Q :=
  .bind (ends_require fun _ h _ => h) fun _ => h

theorem ends_getOr {o : Option α} (h : ∀ w a, P w → o = some a → Q a w) :
    Ends S P (Call.getOr o e) Q :=
  .getOr h fun _ _ => trivial

theorem stable_and (hP : S.Stable P) : S.Stable fun w => P w ∧ c :=
  fun w w' h hR hI => ⟨hP w w' h.1 hR hI, h.2⟩

theorem ends_number {f : Nat → CrlM α}
    (hf : ∀ n, Ends S (fun w => P w ∧ ssl.number crl = some n) (f n) Q) :
    Ends S P (Call.getOr (ssl.number crl) e >>= f) Q :=
  .bind (ends_getOr fun _ _ hw hn => ⟨hw, hn⟩) hf

def Verified (ssl : X509) (crl : Bytes) (number : Nat) (read : List LedgerRow) : Prop :=
  ssl.number crl = some number ∧ ssl.serials crl ⊆ serialsOf read ∧ serialsOf read ⊆ ssl.serials crl

namespace Quiet

variable (hS : Quiet S V) (hP : S.Stable P)
include hS hP

theorem check {c : Check} (hc : (CrlOp.check c).quiet = true) {f : Unit → CrlM α}
    (h : Ends S P (f ()) Q) : Ends S P (check c e >>= f) Q :=
  .bind (.bind (hS.any hP hc) fun _ => ends_require fun _ h _ => h) fun _ => h

theorem verifies : Ends S P (Crl.check (.verifies crl) e) fun _ w => P w ∧ V crl :=
  .bind (hS.verified hP) fun _ => ends_require fun _ h hr => ⟨h.1, h.2 hr⟩

theorem readLedger {F : List LedgerRow → σ → Prop}
    (hsel : Ends S P (act .selectRevocations) fun rows w => P w ∧
      ∀ r read, rows = some r → readRows r = .ok read → F read w) :
    Ends S P readLedger fun read w => P w ∧ F read w := by
  refine hS.check hP rfl ?_
  refine .bind hsel fun rows => ?_
  refine .bind (Q := fun r w => P w ∧ ∀ read, readRows r = .ok read → F read w)
    (ends_getOr fun w r h hr => ⟨h.1, fun read hread => h.2 r read hr hread⟩) fun r => ?_
  cases hread : readRows r with
  | error e => exact .throw fun _ _ => trivial
  | ok read => exact .pure fun w h => ⟨h.1, h.2 read rfl⟩

theorem allocateNumber : Ends S P allocateNumber fun _ => P := by
  refine .bind (hS.any hP rfl) fun _ => ?_
  refine ends_keep ?_
  refine .bind (hS.any hP rfl) fun _ => ?_
  refine .bind (Q := fun _ => P) (ends_getOr fun _ _ hw _ => hw) fun _ => ?_
  refine ends_keep ?_
  exact .pure fun _ hw => hw

variable {n number : Nat} {A : Option Bytes → σ → Prop}

theorem verifyCandidate {read : List LedgerRow} {hours : Int} :
    Ends S P (verifyCandidate ssl crl number read hours) fun _ w =>
      P w ∧ V crl ∧ Verified ssl crl number read := by
  refine .bind (hS.verifies hP) fun _ => ?_
  refine ends_number fun n => ?_
  refine .bind (hS.any (stable_and (stable_and hP)) rfl) fun _ => ?_
  refine .bind (Q := fun _ w => (P w ∧ V crl) ∧ ssl.number crl = some number)
    (ends_require fun w h heq => heq ▸ h) fun _ => ?_
  refine .bind (Q := fun _ w => P w ∧ V crl ∧ Verified ssl crl number read)
    (ends_require fun w h hsets => ⟨h.1.1, h.1.2, h.2, hsets⟩) fun _ => ?_
  refine ends_keep ?_
  exact ends_require fun _ h _ => h

theorem crlInfo (fresh : Bool) :
    Ends S P (crlInfo ssl crl fresh) fun n w => P w ∧ V crl ∧ ssl.number crl = some n := by
  refine .bind (hS.verifies hP) fun _ => ?_
  refine ends_number fun n => ?_
  refine .bind (hS.any (stable_and (stable_and hP)) rfl) fun _ => ?_
  refine ends_keep ?_
  refine ends_keep ?_
  refine ends_keep ?_
  exact .pure fun _ h => ⟨h.1.1, h.1.2, h.2⟩

theorem validateCrl (args : ActivateArgs) (base : Bytes) :
    Ends S P (validateCrl ssl args crl base) fun n w => P w ∧ ssl.number crl = some n := by
  refine hS.check hP rfl ?_
  refine hS.check hP rfl ?_
  refine ends_number fun n => ?_
  refine .bind (hS.any (stable_and hP) rfl) fun _ => ?_
  refine ends_keep ?_
  refine ends_keep ?_
  refine ends_keep ?_
  exact .pure fun _ h => h

theorem checkActive {old : Option Bundle} {Q : Bool → σ → Prop}
    (hnone : (old.map (·.crls)).getD [] = [] → ∀ w, P w → Q false w)
    (hsome : ∀ prev m, (old.map (·.crls)).getD [] = [prev] → ssl.number prev = some m → m ≤ n →
      ∀ w, P w → Q (n = m) w) :
    Ends S P (checkActive ssl old crl n) Q := by
  unfold Crl.checkActive
  split
  · next h => exact .pure (hnone h)
  · next prev h =>
    refine hS.check hP rfl ?_
    refine ends_number fun m => ?_
    refine .bind (Q := fun _ => Q (n = m)) (ends_require fun w hw hnum => ?_) fun _ =>
      .pure fun _ h => h
    exact hsome prev m h hw.2 (Nat.le_of_not_lt fun hlt => hnum (.inl hlt)) w hw.1
  · exact .throw fun _ _ => trivial

omit hP

theorem checkOutput {Q : σ → Prop} (hA : ∀ r, S.Stable (A r)) (hread : Ends S P (act .readOutput) A)
    (hnone : ∀ w, A none w → Q w)
    (hsome : ∀ w old m, A (some old) w → ssl.number old = some m → m < number → Q w) :
    Ends S P (checkOutput ssl number) fun _ => Q := by
  refine .bind hread fun r => ?_
  cases r with
  | none => exact .pure hnone
  | some old =>
    refine hS.check (hA _) rfl ?_
    refine ends_number fun m => ?_
    exact ends_require fun w h hlt => hsome w old m h.1 h.2 hlt

theorem checkPublic {Q : σ → Prop} (hA : ∀ r, S.Stable (A r)) (hread : Ends S P (act .readPublic) A)
    (hnone : ∀ w, A none w → Q w)
    (hsome : ∀ w old m, A (some old) w → ssl.number old = some m → m ≤ n → Q w) :
    Ends S P (checkPublic ssl crl n) fun _ => Q := by
  refine .bind hread fun r => ?_
  cases r with
  | none => exact .pure hnone
  | some old =>
    refine .bind (hS.crlInfo (hA _) false) fun m => ?_
    refine .bind (Q := fun _ => Q) (ends_require fun w h hnum => ?_) fun _ => .pure fun _ h => h
    exact hsome w old m h.1 h.2.2 (Nat.le_of_not_lt fun hlt => hnum (.inl hlt))

end Quiet

end SolariNet.Crl
