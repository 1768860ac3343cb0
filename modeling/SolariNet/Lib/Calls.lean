/-
# Calls that can raise, among others

A call is a program (`Lib.Prog`) that returns a value or raises.  It runs in a setting: what its
operations do, what the others may do between two of them, and the invariant that all keep.
`S.Triple P x Q E` says that from `P` the call `x` keeps the invariant at every operation, and ends
in `Q` if it returns and in `E` if it raises.
-/
import SolariNet.Lib.Prog

namespace SolariNet.Lib

open Prog

variable {Op : Type} {Res : Op → Type} {ε σ α β : Type}

/-- A call: it returns, or raises an `ε`. -/
abbrev Call (Op : Type) (Res : Op → Type) (ε : Type) : Type → Type := ExceptT ε (Prog Op Res)

namespace Call

def op (o : Op) : Call Op Res ε (Res o) := ExceptT.mk (perform o >>= fun r => .ret (.ok r))

/-- The call, and then the operation, however the call ended. -/
def after (x : Call Op Res ε α) (o : Op) : Call Op Res ε α :=
  ExceptT.mk (x.run >>= fun r => perform o >>= fun _ => .ret r)

def require (c : Prop) [Decidable c] (e : ε) : Call Op Res ε Unit :=
  if c then pure () else throw e

def getOr (o : Option α) (e : ε) : Call Op Res ε α :=
  match o with
  | some a => pure a
  | none => throw e

end Call

/-- What a call runs in. -/
structure Setting (Op : Type) (Res : Op → Type) (σ : Type) where
  sem : Sem Op Res σ
  rely : σ → σ → Prop
  inv : σ → Prop

namespace Setting

/-- From `P` the call is safe, returns into `Q` and raises into `E`. -/
def Triple (S : Setting Op Res σ) (P : σ → Prop) (x : Call Op Res ε α) (Q : α → σ → Prop)
    (E : ε → σ → Prop) : Prop :=
  ∀ s, P s → Safe S.sem S.rely S.inv (fun r s => match r with
    | .ok a => Q a s
    | .error e => E e s) x.run s

def Stable (S : Setting Op Res σ) (P : σ → Prop) : Prop :=
  ∀ s s', P s → S.rely s s' → S.inv s' → P s'

variable {S : Setting Op Res σ} {P P' : σ → Prop} {Q Q' : α → σ → Prop} {E : ε → σ → Prop}
  {x : Call Op Res ε α}

theorem Triple.bind {f : α → Call Op Res ε β} {R : β → σ → Prop} (hx : S.Triple P x Q E)
    (hf : ∀ a, S.Triple (Q a) (f a) R E) : S.Triple P (x >>= f) R E := by
  intro s hs
  refine Safe.bind_run ((hx s hs).mono fun r s' hr => ?_)
  cases r with
  | error e => exact hr
  | ok a => exact hf a s' hr

theorem Triple.pure {a : α} (h : ∀ s, P s → Q a s) :
    S.Triple P (Pure.pure a : Call Op Res ε α) Q E :=
  fun s hs => h s hs

theorem Triple.throw (h : ∀ s, P s → E e s) :
    S.Triple P (MonadExcept.throw e : Call Op Res ε α) Q E :=
  fun s hs => h s hs

theorem Triple.pre (h : S.Triple P x Q E) (hP : ∀ s, P' s → P s) :
    S.Triple P' x Q E := fun s hs => h s (hP s hs)

/-- What the assertion says of things that do not change can be taken out of it. -/
theorem Triple.given {c : Prop} (hc : ∀ s, P s → c) (h : c → S.Triple P x Q E) :
    S.Triple P x Q E := fun s hs => h (hc s hs) s hs

theorem Triple.post (h : S.Triple P x Q E) (hQ : ∀ a s, Q a s → Q' a s) : S.Triple P x Q' E := by
  intro s hs
  refine (h s hs).mono fun r s' hr => ?_
  cases r with
  | error e => exact hr
  | ok a => exact hQ a s' hr

theorem Triple.raises {E' : ε → σ → Prop} (h : S.Triple P x Q E) (hE : ∀ e s, E e s → E' e s) :
    S.Triple P x Q E' := by
  intro s hs
  refine (h s hs).mono fun r s' hr => ?_
  cases r with
  | error e => exact hE e s' hr
  | ok a => exact hr

theorem Triple.op {Q : Res o → σ → Prop} (hP : S.Stable P)
    (h : ∀ s r s', P s → S.inv s → S.sem o s r s' → S.inv s' ∧ Q r s') :
    S.Triple P (Call.op o) Q E := by
  intro s hs
  refine safe_perform_bind.2 fun s₁ hR hI r s₂ ho => ?_
  exact h s₁ r s₂ (hP s s₁ hs hR hI) hI ho

theorem Triple.require {c : Prop} [Decidable c] {Q : Unit → σ → Prop}
    (h : ∀ s, P s → c → Q () s) (hE : ∀ s, P s → ¬ c → E e s) :
    S.Triple P (Call.require c e) Q E := by
  intro s hs
  unfold Call.require
  split
  · next hc => exact h s hs hc
  · next hc => exact hE s hs hc

theorem Triple.getOr {o : Option α} (h : ∀ s a, P s → o = some a → Q a s)
    (hE : ∀ s, P s → E e s) : S.Triple P (Call.getOr o e) Q E := by
  intro s hs
  cases o with
  | none => exact hE s hs
  | some a => exact h s a hs rfl

theorem Triple.tryCatch {f : ε → Call Op Res ε α} {F : ε → σ → Prop} (hx : S.Triple P x Q F)
    (hf : ∀ e, S.Triple (F e) (f e) Q E) : S.Triple P (MonadExcept.tryCatch x f) Q E := by
  intro s hs
  refine (hx s hs).seq fun r s' hr => ?_
  cases r with
  | error e => exact hf e s' hr
  | ok a => exact hr

/-- The operation after a call keeps what the call ended in. -/
theorem Triple.after {R : α → σ → Prop} {F : ε → σ → Prop} (hx : S.Triple P x R F)
    (hQ : ∀ a, S.Stable (R a)) (hE : ∀ e, S.Stable (F e))
    (h : ∀ s r s', S.inv s → S.sem o s r s' →
      S.inv s' ∧ (∀ a, R a s → Q a s') ∧ ∀ e, F e s → E e s') :
    S.Triple P (Call.after x o) Q E := by
  intro s hs
  refine (hx s hs).seq fun r s₁ hr => ?_
  refine safe_perform_bind.2 fun s₂ hR hI u s₃ ho => ?_
  obtain ⟨hI', hret, hraise⟩ := h s₂ u s₃ hI ho
  refine ⟨hI', ?_⟩
  cases r with
  | error e => exact hraise e (hE e s₁ s₂ hr hR hI)
  | ok a => exact hret a (hQ a s₁ s₂ hr hR hI)

end Setting

end SolariNet.Lib
