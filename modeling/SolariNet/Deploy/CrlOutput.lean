/-
# What `generate` and `publish` expose

One run of either program over its two files, whatever they held and whatever the database, the
clock and OpenSSL answer; `passes` are the CRLs for which `openssl crl -verify` exits with zero.
-/
import SolariNet.Deploy.CrlCalls

namespace SolariNet.Crl

open Lib Lib.Prog

structure Exposed where
  output : Option Bytes
  served : Option Bytes

def CrlOp.replaces : CrlOp → Bool
  | .replaceOutput _ | .replacePublic _ => true
  | _ => false

def exposeSem (passes : Bytes → Prop) : Sem CrlOp CrlRes Exposed
  | .check (.verifies crl), w, r, w' => (r = true → passes crl) ∧ w' = w
  | .readOutput, w, r, w' => r = w.output ∧ w' = w
  | .readPublic, w, r, w' => r = w.served ∧ w' = w
  | .replaceOutput crl, w, r, w' => w' = if r = true then { w with output := some crl } else w
  | .replacePublic crl, w, r, w' => w' = if r = true then { w with served := some crl } else w
  | _, w, _, w' => w' = w

structure Exposes (genuine : Bytes → Prop) (w w' : Exposed) : Prop where
  output : w'.output = w.output ∨ ∃ crl, w'.output = some crl ∧ genuine crl
  served : w'.served = w.served ∨ ∃ crl, w'.served = some crl ∧ genuine crl

def exposeSetting (passes genuine : Bytes → Prop) (w : Exposed) : Setting CrlOp CrlRes Exposed :=
  ⟨exposeSem passes, Eq, Exposes genuine w⟩

section
variable {passes genuine : Bytes → Prop} {ssl : X509} {w : Exposed} {P : Exposed → Prop} {o : CrlOp}
  {crl : Bytes}

theorem exposeSem_keeps (ho : o.replaces = false)
    (h : exposeSem passes o w r w') : w' = w := by
  cases o with
  | check c =>
    cases c with
    | verifies crl => exact h.2
    | _ => exact h
  | readOutput | readPublic => exact h.2
  | replaceOutput | replacePublic => cases ho
  | _ => exact h

theorem stable_exposed : (exposeSetting passes genuine w).Stable P := by
  rintro _ _ h rfl _
  exact h

theorem exposes_op (ho : o.replaces = false) :
    Ends (exposeSetting passes genuine w) P (act o) fun _ => P := by
  refine .op stable_exposed fun s r s' hs hI h => ?_
  cases exposeSem_keeps ho h
  exact ⟨hI, hs⟩

theorem exposeQuiet (h : ∀ crl, passes crl → genuine crl) :
    Quiet (exposeSetting passes genuine w) genuine where
  any {o} _ _ ho := exposes_op <| by
    cases o with
    | replaceOutput | replacePublic => cases ho
    | _ => rfl
  verified _ := by
    refine .op stable_exposed fun s r s' hs hI hx => ?_
    obtain ⟨hpass, rfl⟩ := hx
    exact ⟨hI, hs, fun hr => h _ (hpass hr)⟩

theorem exposes_withLock {α : Type} {l : CrlLock} {body : CrlM α}
    (h : Ends (exposeSetting passes genuine w) P body fun _ _ => True) :
    Ends (exposeSetting passes genuine w) P (withLock l body) fun _ _ => True := by
  refine .bind (exposes_op rfl) fun _ => ends_keep ?_
  refine .after h (fun _ => stable_exposed) (fun _ => stable_exposed) ?_
  rintro s r s' hI rfl
  exact ⟨hI, fun _ _ => trivial, fun _ _ => trivial⟩

theorem exposes_replace (hg : genuine crl) (ho : o = .replaceOutput crl ∨ o = .replacePublic crl) :
    Ends (exposeSetting passes genuine w) P (act o) fun _ _ => True := by
  refine .op stable_exposed fun s r s' _ hI hs => ⟨?_, trivial⟩
  rcases ho with rfl | rfl
  all_goals
    obtain rfl := hs
    split
  · exact ⟨.inr ⟨crl, rfl, hg⟩, hI.served⟩
  · exact hI
  · exact ⟨hI.output, .inr ⟨crl, rfl, hg⟩⟩
  · exact hI

theorem exposes_publish (h : ∀ crl, passes crl → genuine crl) :
    Ends (exposeSetting passes genuine w) (fun _ => True) (publish ssl) fun _ _ => True := by
  have hq := exposeQuiet (w := w) h
  refine hq.check stable_exposed rfl ?_
  refine .bind (hq.any stable_exposed rfl) fun _ => ?_
  refine .bind (Q := fun _ _ => True) (ends_getOr fun _ _ _ _ => trivial) fun crl => ?_
  refine .bind (hq.crlInfo stable_exposed true) fun n => ?_
  refine exposes_withLock (.given (fun _ h => h.2.1) fun hg => ?_)
  refine .bind (hq.checkPublic (fun _ => stable_exposed) (hq.any stable_exposed rfl)
    (fun _ h => h) fun _ _ _ h _ _ => h) fun _ => ?_
  split
  · refine .bind (exposes_replace hg (.inr rfl)) fun _ => ?_
    refine ends_keep ?_
    refine hq.check stable_exposed rfl ?_
    exact .pure fun _ _ => trivial
  · exact .pure fun _ _ => trivial

theorem exposes_generate (h : ∀ crl, passes crl → genuine crl) (hours : Int) (permit : Bool) :
    Ends (exposeSetting passes genuine w) (fun _ => True) (generate ssl hours permit)
      fun _ _ => True := by
  have hq := exposeQuiet (w := w) h
  have hread : Ends (exposeSetting passes genuine w) (fun _ => True) readLedger fun _ _ => True :=
    (hq.readLedger (F := fun _ _ => True) stable_exposed
      ((hq.any stable_exposed rfl).post fun _ _ h => ⟨h, fun _ _ _ _ => trivial⟩)).post
        fun _ _ _ => trivial
  refine .bind (exposes_op rfl) fun _ => ends_keep ?_
  refine hq.check stable_exposed rfl ?_
  refine .bind hread fun read => ?_
  refine .bind (hq.any stable_exposed rfl) fun _ => ends_keep (exposes_withLock ?_)
  refine .bind (hq.allocateNumber stable_exposed) fun number => ?_
  refine .bind (hq.checkOutput (fun _ => stable_exposed) (hq.any stable_exposed rfl)
    (fun _ h => h) fun _ _ _ h _ _ => h) fun _ => ?_
  refine .bind (hq.any stable_exposed rfl) fun now => ?_
  cases crlIndex now read with
  | error e => exact .throw fun _ _ => trivial
  | ok index =>
    refine .bind (hq.any stable_exposed rfl) fun _ => ?_
    refine .bind (Q := fun _ _ => True) (ends_getOr fun _ _ _ _ => trivial) fun crl => ?_
    refine .bind (hq.verifyCandidate stable_exposed) fun _ => ?_
    refine .given (fun _ h => h.2.1) fun hg => .pre (P := fun _ => True) ?_ fun _ _ => trivial
    refine .bind hread fun _ => ends_keep ?_
    refine .bind (exposes_replace hg (.inl rfl)) fun _ => ends_keep ?_
    refine hq.check stable_exposed rfl ?_
    exact .bind (exposes_op rfl) fun _ => ends_require fun _ _ _ => trivial

end

def datedCrl : X509 := ⟨fun _ => some 1, fun _ => [], fun _ => 0, fun _ => 2 * hour⟩

theorem publish_serves {passes : Bytes → Prop} (h : passes crl) :
    Exec (exposeSem passes) (publish datedCrl).run ⟨some crl, none⟩ (.ok true)
      ⟨some crl, some crl⟩ := by
  refine .call (r := true) rfl (.call ⟨rfl, rfl⟩ ?_)
  refine .call (r := true) ⟨fun _ => h, rfl⟩ (.call (r := (0 : Int)) rfl ?_)
  refine .call (r := true) rfl (.call ⟨rfl, rfl⟩ ?_)
  refine .call (r := true) rfl (.call (r := true) rfl ?_)
  exact .call (r := ()) rfl (.ret _ _)

/-- **Only genuine CRLs are exposed**, whatever was in the files and however the run ends, exactly
when the exit code of `openssl crl -verify` is zero for genuine CRLs only. -/
theorem exposes_genuine_iff (passes genuine : Bytes → Prop) :
    (∀ ssl w w', (∀ hours permit r, Exec (exposeSem passes) (generate ssl hours permit).run w r w' →
        Exposes genuine w w') ∧
      ∀ r, Exec (exposeSem passes) (publish ssl).run w r w' → Exposes genuine w w') ↔
    ∀ crl, passes crl → genuine crl := by
  constructor
  · intro h crl hcrl
    rcases ((h datedCrl _ _).2 _ (publish_serves hcrl)).served with hold | ⟨c, hc, hg⟩
    · cases hold
    · cases hc
      exact hg
  · intro h ssl w w'
    have hw : Exposes genuine w w := ⟨.inl rfl, .inl rfl⟩
    refine ⟨fun hours permit r hx => ?_, fun r hx => ?_⟩
    · exact (Safe.exec (fun _ => rfl) (exposes_generate h hours permit w trivial) hw hx).1
    · exact (Safe.exec (fun _ => rfl) (exposes_publish h w trivial) hw hx).1

/-- Where every check exits with zero, a CRL that does not verify is served. -/
theorem forged_crl_served :
    Exec (exposeSem fun _ => True) (publish datedCrl).run ⟨some [0], none⟩ (.ok true)
        ⟨some [0], some [0]⟩ ∧
      ¬ Exposes (· = [1]) ⟨some [0], none⟩ ⟨some [0], some [0]⟩ := by
  refine ⟨publish_serves trivial, fun h => ?_⟩
  rcases h.served with hold | ⟨c, hc, hg⟩
  · cases hold
  · cases hc
    cases hg

end SolariNet.Crl
