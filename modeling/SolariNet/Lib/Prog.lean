/-
# Programs that call an environment

A program is a tree: it either returns a value or performs one operation `o : Op`
and continues with the answer `r : Res o`.  The same program text can be run

    against a fixed list of answers                        (`Runs`)
    against a state that the operations read and write     (`Exec`)
    one operation at a time, with anything in between      (`Safe`, `Lib.System`)

The second part is the proof rule for the third reading.  `Safe sem R I Q p s` says
that `p`, started in `s`, keeps the invariant `I` at every operation and ends in `Q`,
when between any two of its operations the state may move along `R`.
-/
import Mathlib.Logic.Relation

namespace SolariNet.Lib

/-- Programs over operations `Op`, where `o : Op` is answered by a `Res o`. -/
inductive Prog (Op : Type) (Res : Op → Type) (α : Type) where
  | ret (a : α)
  | call (o : Op) (k : Res o → Prog Op Res α)

namespace Prog

variable {Op : Type} {Res : Op → Type} {σ α β γ : Type}

def bind : Prog Op Res α → (α → Prog Op Res β) → Prog Op Res β
  | .ret a, f => f a
  | .call o k, f => .call o fun r => (k r).bind f

instance : Monad (Prog Op Res) where
  pure := ret
  bind := bind

def perform (o : Op) : Prog Op Res (Res o) := .call o .ret

@[simp] theorem pure_eq (a : α) : (pure a : Prog Op Res α) = .ret a := rfl

@[simp] theorem ret_bind (a : α) (f : α → Prog Op Res β) : (.ret a >>= f) = f a := rfl

@[simp] theorem call_bind (o : Op) (k : Res o → Prog Op Res α) (f : α → Prog Op Res β) :
    (.call o k >>= f) = .call o fun r => k r >>= f := rfl

@[simp] theorem perform_bind (o : Op) (f : Res o → Prog Op Res β) :
    (perform o >>= f) = .call o f := rfl

/-! ## Runs against recorded answers -/

abbrev Event (Op : Type) (Res : Op → Type) : Type := (o : Op) × Res o

/-- `Runs p t a`: when its operations are answered as in `t`, the program performs
exactly those operations and returns `a`. -/
inductive Runs : Prog Op Res α → List (Event Op Res) → α → Prop where
  | ret (a : α) : Runs (.ret a) [] a
  | call {o : Op} {k : Res o → Prog Op Res α} {r : Res o} {t : List (Event Op Res)} {a : α}
      (h : Runs (k r) t a) : Runs (.call o k) (⟨o, r⟩ :: t) a

variable {a : α} {t : List (Event Op Res)} {o : Op} {p : Prog Op Res α} {f : α → Prog Op Res β}

theorem Runs.ret_iff {b : α} : Runs (.ret a) t b ↔ t = [] ∧ b = a := by
  constructor
  · rintro ⟨⟩
    exact ⟨rfl, rfl⟩
  · rintro ⟨rfl, rfl⟩
    exact .ret _

theorem Runs.call_iff {k : Res o → Prog Op Res α} :
    Runs (.call o k) t a ↔ ∃ r t', t = ⟨o, r⟩ :: t' ∧ Runs (k r) t' a := by
  constructor
  · rintro (_ | h)
    exact ⟨_, _, rfl, h⟩
  · rintro ⟨r, t', rfl, h⟩
    exact .call h

theorem Runs.bind_iff {b : β} :
    Runs (p >>= f) t b ↔ ∃ t₁ t₂ a, t = t₁ ++ t₂ ∧ Runs p t₁ a ∧ Runs (f a) t₂ b := by
  induction p generalizing t with
  | ret a =>
    simp only [Runs.ret_iff]
    constructor
    · intro h
      exact ⟨[], t, a, rfl, ⟨rfl, rfl⟩, h⟩
    · rintro ⟨_, t₂, _, rfl, ⟨rfl, rfl⟩, h⟩
      exact h
  | call o k ih =>
    simp only [call_bind, Runs.call_iff, ih]
    constructor
    · rintro ⟨r, _, rfl, t₁, t₂, a, rfl, h₁, h₂⟩
      exact ⟨⟨o, r⟩ :: t₁, t₂, a, rfl, ⟨r, t₁, rfl, h₁⟩, h₂⟩
    · rintro ⟨_, t₂, a, rfl, ⟨r, t₁, rfl, h₁⟩, h₂⟩
      exact ⟨r, t₁ ++ t₂, rfl, t₁, t₂, a, rfl, h₁, h₂⟩

/-- The rule for one operation followed by the rest of the program. -/
theorem Runs.perform_bind_iff {f : Res o → Prog Op Res β} {b : β} :
    Runs (perform o >>= f) t b ↔ ∃ r t', t = ⟨o, r⟩ :: t' ∧ Runs (f r) t' b :=
  Runs.call_iff

/-- Whatever the answers, a program comes to its end. -/
theorem exists_runs [∀ o, Inhabited (Res o)] (p : Prog Op Res α) : ∃ t a, Runs p t a := by
  induction p with
  | ret a => exact ⟨[], a, .ret a⟩
  | call o k ih =>
    obtain ⟨t, a, h⟩ := ih default
    exact ⟨⟨o, default⟩ :: t, a, .call h⟩

/-- The run in which every operation is answered by `g`. -/
def answered (g : (o : Op) → Res o) : Prog Op Res α → List (Event Op Res) × α
  | .ret a => ([], a)
  | .call o k => (⟨o, g o⟩ :: (answered g (k (g o))).1, (answered g (k (g o))).2)

theorem Runs.answered (g : (o : Op) → Res o) (p : Prog Op Res α) :
    Runs p (p.answered g).1 (p.answered g).2 := by
  induction p with
  | ret a => exact .ret a
  | call o k ih => exact .call (ih _)

/-! ## Runs over a state -/

/-- What the operations may do: `sem o s r s'` holds when `o`, performed in `s`, can
answer `r` and leave `s'`. -/
abbrev Sem (Op : Type) (Res : Op → Type) (σ : Type) : Type := (o : Op) → σ → Res o → σ → Prop

/-- `Exec sem p s a s'`: undisturbed, `p` can go from `s` to `s'` and return `a`. -/
inductive Exec (sem : Sem Op Res σ) : Prog Op Res α → σ → α → σ → Prop where
  | ret (a : α) (s : σ) : Exec sem (.ret a) s a s
  | call {o : Op} {k : Res o → Prog Op Res α} {s s' s'' : σ} {r : Res o} {a : α}
      (h : sem o s r s') (hk : Exec sem (k r) s' a s'') : Exec sem (.call o k) s a s''

section exec
variable {sem : Sem Op Res σ} {s s' : σ} {P : Op → Prop} {Q : α → Prop}

theorem Exec.ret_iff {b : α} : Exec sem (.ret a) s b s' ↔ b = a ∧ s' = s := by
  constructor
  · rintro ⟨⟩
    exact ⟨rfl, rfl⟩
  · rintro ⟨rfl, rfl⟩
    exact .ret _ _

theorem Exec.call_iff {k : Res o → Prog Op Res α} :
    Exec sem (.call o k) s a s'' ↔ ∃ r s', sem o s r s' ∧ Exec sem (k r) s' a s'' := by
  constructor
  · rintro (_ | ⟨h, hk⟩)
    exact ⟨_, _, h, hk⟩
  · rintro ⟨r, s', h, hk⟩
    exact .call h hk

theorem Exec.mono (hs : ∀ o s r s', sem o s r s' → sem' o s r s')
    (h : Exec sem p s a s') : Exec sem' p s a s' := by
  induction h with
  | ret a s => exact .ret a s
  | call ho _ ih => exact .call (hs _ _ _ _ ho) ih

theorem Exec.bind_iff {b : β} :
    Exec sem (p >>= f) s b s'' ↔ ∃ a s', Exec sem p s a s' ∧ Exec sem (f a) s' b s'' := by
  induction p generalizing s with
  | ret a =>
    simp only [Exec.ret_iff]
    constructor
    · intro h
      exact ⟨a, s, ⟨rfl, rfl⟩, h⟩
    · rintro ⟨_, _, ⟨rfl, rfl⟩, h⟩
      exact h
  | call o k ih =>
    simp only [call_bind, Exec.call_iff, ih]
    constructor
    · rintro ⟨r, s₁, ho, a, s₂, hk, hf⟩
      exact ⟨a, s₂, ⟨r, s₁, ho, hk⟩, hf⟩
    · rintro ⟨a, s₂, ⟨r, s₁, ho, hk⟩, hf⟩
      exact ⟨r, s₁, ho, a, s₂, hk, hf⟩

theorem Exec.perform_bind_iff {f : Res o → Prog Op Res β} {b : β} :
    Exec sem (perform o >>= f) s b s'' ↔ ∃ r s', sem o s r s' ∧ Exec sem (f r) s' b s'' :=
  Exec.call_iff

/-- The run in which `f` answers every operation. -/
def run (f : (o : Op) → σ → Res o × σ) : Prog Op Res α → σ → α × σ
  | .ret a, s => (a, s)
  | .call o k, s => (k (f o s).1).run f (f o s).2

theorem run_bind (f : (o : Op) → σ → Res o × σ) (p : Prog Op Res α) (g : α → Prog Op Res β)
    (s : σ) : (p >>= g).run f s = (g (p.run f s).1).run f (p.run f s).2 := by
  induction p generalizing s with
  | ret a => rfl
  | call o k ih => exact ih _ _

/-- The same run, stopped after `n` operations: what is left of the program, and the state. -/
def runN (f : (o : Op) → σ → Res o × σ) : Nat → Prog Op Res α → σ → Prog Op Res α × σ
  | 0, p, s => (p, s)
  | _ + 1, .ret a, s => (.ret a, s)
  | n + 1, .call o k, s => (k (f o s).1).runN f n (f o s).2

theorem Exec.of_run {f : (o : Op) → σ → Res o × σ} (hf : ∀ o s, sem o s (f o s).1 (f o s).2)
    (p : Prog Op Res α) (s : σ) : Exec sem p s (p.run f s).1 (p.run f s).2 := by
  induction p generalizing s with
  | ret a => exact .ret a s
  | call o k ih => exact .call (hf o s) (ih _ _)

/-- Every operation the program can come to satisfies `P`. -/
def Uses (P : Op → Prop) : Prog Op Res α → Prop
  | .ret _ => True
  | .call o k => P o ∧ ∀ r, (k r).Uses P

@[simp] theorem uses_ret (P : Op → Prop) (a : α) : (.ret a : Prog Op Res α).Uses P := trivial

theorem Uses.of_forall (hP : ∀ o, P o) (p : Prog Op Res α) : p.Uses P := by
  induction p with
  | ret a => trivial
  | call o k ih => exact ⟨hP o, ih⟩

theorem Uses.mono {P' : Op → Prop} (hP : ∀ o, P o → P' o) (h : p.Uses P) : p.Uses P' := by
  induction p with
  | ret a => trivial
  | call o k ih => exact ⟨hP o h.1, fun r => ih r (h.2 r)⟩

theorem Uses.bind (hp : p.Uses P) (hf : ∀ a, (f a).Uses P) : (p >>= f).Uses P := by
  induction p with
  | ret a => exact hf a
  | call o k ih => exact ⟨hp.1, fun r => ih r (hp.2 r)⟩

/-- Every value the program can return satisfies `Q`. -/
def Returns (Q : α → Prop) : Prog Op Res α → Prop
  | .ret a => Q a
  | .call _ k => ∀ r, (k r).Returns Q

theorem Returns.runs (h : p.Returns Q) (hr : Runs p t a) : Q a := by
  induction hr with
  | ret a => exact h
  | call _ ih => exact ih (h _)

theorem Returns.exec (h : p.Returns Q) (hx : Exec sem p s a s') : Q a := by
  induction hx with
  | ret a s => exact h
  | call _ _ ih => exact ih (h _)

theorem Returns.mono {Q' : α → Prop} (hQ : ∀ a, Q a → Q' a) (h : p.Returns Q) : p.Returns Q' := by
  induction p with
  | ret a => exact hQ a h
  | call o k ih => exact fun r => ih r (h r)

theorem Returns.of_forall (h : ∀ a, Q a) (p : Prog Op Res α) : p.Returns Q := by
  induction p with
  | ret a => exact h a
  | call o k ih => exact fun r => ih r

theorem Returns.bind {Q' : β → Prop} (hp : p.Returns Q) (hf : ∀ a, Q a → (f a).Returns Q') :
    (p >>= f).Returns Q' := by
  induction p with
  | ret a => exact hf a hp
  | call o k ih => exact fun r => ih r (hp r)

theorem Returns.perform_bind {Q : β → Prop} {f : Res o → Prog Op Res β}
    (hf : ∀ r, (f r).Returns Q) : (Prog.perform o >>= f).Returns Q := hf

/-- The rest of a program may rely on what the first part returns. -/
theorem Uses.bind_returns (hp : p.Uses P) (hr : p.Returns Q) (hf : ∀ a, Q a → (f a).Uses P) :
    (p >>= f).Uses P := by
  induction p with
  | ret a => exact hf a hr
  | call o k ih => exact ⟨hp.1, fun r => ih r (hp.2 r) (hr r)⟩

theorem Uses.perform (ho : P o) : (perform o : Prog Op Res (Res o)).Uses P := ⟨ho, fun _ => trivial⟩

theorem Uses.perform_bind {f : Res o → Prog Op Res β} (ho : P o) (hf : ∀ r, (f r).Uses P) :
    (Prog.perform o >>= f).Uses P := ⟨ho, hf⟩

/-- If the operations a program uses keep `J`, so does every run of the program. -/
theorem Exec.preserves {J : σ → Prop} (hJ : ∀ o s r s', P o → sem o s r s' → J s → J s')
    (hx : Exec sem p s a s') (hp : p.Uses P) (h : J s) : J s' := by
  induction hx with
  | ret a s => exact h
  | call ho _ ih => exact ih (hp.2 _) (hJ _ _ _ _ hp.1 ho h)

/-- The state that records every operation with its answer. -/
def recording : Sem Op Res (List (Event Op Res)) := fun o t r t' => t' = t ++ [⟨o, r⟩]

theorem Runs.exec (h : Runs p t a) (t₀ : List (Event Op Res)) :
    Exec recording p t₀ a (t₀ ++ t) := by
  induction h generalizing t₀ with
  | ret a =>
    rw [List.append_nil]
    exact .ret a t₀
  | @call o k r t a _ ih =>
    have h := ih (t₀ ++ [⟨o, r⟩])
    rw [List.append_assoc] at h
    exact .call rfl h

end exec

/-! ## Safety under interference -/

/-- `Safe sem R I Q p s`: whatever `R`-moves happen before each of its operations, `p`
started in `s` keeps the invariant `I` and returns into `Q`. -/
def Safe (sem : Sem Op Res σ) (R : σ → σ → Prop) (I : σ → Prop) (Q : α → σ → Prop) :
    Prog Op Res α → σ → Prop
  | .ret a, s => Q a s
  | .call o k, s => ∀ s', R s s' → I s' → ∀ r s'', sem o s' r s'' → I s'' ∧ Safe sem R I Q (k r) s''

section safe
variable {sem : Sem Op Res σ} {R : σ → σ → Prop} {I : σ → Prop} {Q : α → σ → Prop}

@[simp] theorem safe_ret : Safe sem R I Q (.ret a) s ↔ Q a s := Iff.rfl

theorem safe_perform_bind {Q : β → σ → Prop} {f : Res o → Prog Op Res β} :
    Safe sem R I Q (perform o >>= f) s ↔ ∀ s', R s s' → I s' → ∀ r s'', sem o s' r s'' →
      I s'' ∧ Safe sem R I Q (f r) s'' := Iff.rfl

theorem safe_perform {Q : Res o → σ → Prop} :
    Safe sem R I Q (perform o) s ↔ ∀ s', R s s' → I s' → ∀ r s'', sem o s' r s'' →
      I s'' ∧ Q r s'' := Iff.rfl

theorem Safe.mono {Q Q' : α → σ → Prop} (h : Safe sem R I Q p s) (hQ : ∀ a s', Q a s' → Q' a s') :
    Safe sem R I Q' p s := by
  induction p generalizing s with
  | ret a => exact hQ a s h
  | call o k ih =>
    intro s' hR hI r s'' ho
    obtain ⟨hI', hk⟩ := h s' hR hI r s'' ho
    exact ⟨hI', ih r hk⟩

theorem Safe.bind {Q : β → σ → Prop} (h : Safe sem R I (fun a => Safe sem R I Q (f a)) p s) :
    Safe sem R I Q (p >>= f) s := by
  induction p generalizing s with
  | ret a => exact h
  | call o k ih =>
    intro s' hR hI r s'' ho
    obtain ⟨hI', hk⟩ := h s' hR hI r s'' ho
    exact ⟨hI', ih r hk⟩

theorem Safe.seq {Q' : β → σ → Prop} (h : Safe sem R I Q p s)
    (hf : ∀ a s', Q a s' → Safe sem R I Q' (f a) s') : Safe sem R I Q' (p >>= f) s :=
  Safe.bind (h.mono hf)

/-- If the operations a program uses keep an assertion that others cannot break, the program
is safe and returns into it. -/
theorem Safe.of_uses {K : σ → Prop} (hK : ∀ s s', K s → R s s' → I s' → K s')
    (ho : ∀ o s r s', P o → I s → K s → sem o s r s' → I s' ∧ K s') (hp : p.Uses P) (h : K s) :
    Safe sem R I (fun _ => K) p s := by
  induction p generalizing s with
  | ret a => exact h
  | call o k ih =>
    intro s' hR hI r s'' hs
    obtain ⟨hI', hK'⟩ := ho o s' r s'' hp.1 hI (hK s s' h hR hI) hs
    exact ⟨hI', ih r (hp.2 r) hK'⟩

/-- What the operations of a safe program leave alone can be carried along. -/
theorem Safe.frame {K : σ → Prop} (hK : ∀ s s', K s → R s s' → K s')
    (ho : ∀ o s r s', P o → sem o s r s' → K s → K s') (h : Safe sem R I Q p s)
    (hp : p.Uses P) (hs : K s) : Safe sem R I (fun a s => Q a s ∧ K s) p s := by
  induction p generalizing s with
  | ret a => exact ⟨h, hs⟩
  | call o k ih =>
    intro s' hR hI r s'' hsem
    obtain ⟨hI', hk⟩ := h s' hR hI r s'' hsem
    exact ⟨hI', ih r hk (hp.2 r) (ho o s' r s'' hp.1 hsem (hK s s' hs hR))⟩

theorem Safe.returns {Q' : α → Prop} (h : Safe sem R I Q p s) (hr : p.Returns Q') :
    Safe sem R I (fun a s => Q a s ∧ Q' a) p s := by
  induction p generalizing s with
  | ret a => exact ⟨h, hr⟩
  | call o k ih =>
    intro s' hR hI r s'' ho
    obtain ⟨hI', hk⟩ := h s' hR hI r s'' ho
    exact ⟨hI', ih r hk (hr r)⟩

/-- The rule for programs that can raise: what was raised is returned at once. -/
theorem Safe.bind_run {ε : Type} {Q : Except ε β → σ → Prop} {x : ExceptT ε (Prog Op Res) α}
    {f : α → ExceptT ε (Prog Op Res) β}
    (h : Safe sem R I (fun r s => match r with
      | .error e => Q (.error e) s
      | .ok a => Safe sem R I Q (f a).run s) x.run s) : Safe sem R I Q (x >>= f).run s := by
  refine Safe.bind (h.mono fun r s hr => ?_)
  cases r with
  | error e | ok a => exact hr

theorem Safe.exec (hR : ∀ s, R s s) (h : Safe sem R I Q p s) (hI : I s)
    (hx : Exec sem p s a s') : I s' ∧ Q a s' := by
  induction hx with
  | ret a s => exact ⟨hI, h⟩
  | @call o k s s' s'' r a ho _ ih =>
    obtain ⟨hI', hk⟩ := h s (hR s) hI r s' ho
    exact ih hk hI'

/-- A safe program stays safe while others move, if its final assertion does. -/
theorem Safe.stable (hT : ∀ s s' s'', R s s' → R s' s'' → R s s'')
    (hQ : ∀ a s s', Q a s → R s s' → I s' → Q a s') (h : Safe sem R I Q p s) (hR : R s s')
    (hI : I s') : Safe sem R I Q p s' := by
  cases p with
  | ret a => exact hQ a s s' h hR hI
  | call o k =>
    intro s₁ hR₁ hI₁
    exact h s₁ (hT _ _ _ hR hR₁) hI₁

end safe

/-! ## Programs among others

When processes of different kinds share a system, the programs of each kind are embedded into
programs over the operations of all of them. -/

section embed
variable {Op' : Type} {Res' : Op' → Type}

/-- The program with its operations renamed by `f`; `back` reads the answers. -/
def embed (f : Op → Op') (back : (o : Op) → Res' (f o) → Res o) : Prog Op Res α → Prog Op' Res' α
  | .ret a => .ret a
  | .call o k => .call (f o) fun r => (k (back o r)).embed f back

theorem Safe.embed {R : σ → σ → Prop} {I : σ → Prop}
    {f : Op → Op'} {back : (o : Op) → Res' (f o) → Res o}
    (hsem : ∀ o s r s', sem' (f o) s r s' → sem o s (back o r) s') {Q : α → σ → Prop}
    (h : Safe sem R I Q p s) : Safe sem' R I Q (p.embed f back) s := by
  induction p generalizing s with
  | ret a => exact h
  | call o k ih =>
    intro s' hR hI r s'' ho
    obtain ⟨hI', hk⟩ := h s' hR hI (back o r) s'' (hsem o s' r s'' ho)
    exact ⟨hI', ih (back o r) hk⟩

end embed

end Prog

end SolariNet.Lib
