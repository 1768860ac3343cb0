/-
# Processes over a shared state

A system is a family of processes `i : ι` over one shared state `σ`.  A process is idle
with a private memory, or busy with a program (`Lib.Prog`) that returns its next memory.
A step of the system is one of

    start     an idle process begins one of the programs it may begin
    act       a busy process performs its next operation, atomically
    finish    a busy process that has returned becomes idle again
    env       the shared state moves on its own (a clock, a network, other programs)
    crash     a process is restarted: its program is gone, its memory is a fresh one

An invariant holds in every reachable state if the environment keeps it and every program a process
may begin is `Safe` under what the others can do (`System.invariant`).
-/
import Mathlib.Logic.Function.Basic
import SolariNet.Lib.Prog

namespace SolariNet.Lib

open Function Prog

theorem update_eq_iff {α β : Type} [DecidableEq α] {f : α → β} {a x : α} {b y : β} :
    update f a b x = y ↔ x = a ∧ b = y ∨ x ≠ a ∧ f x = y := by
  rw [update_apply, ite_eq_iff]

/-- A process between two of its operations. -/
inductive Proc (Op : Type) (Res : Op → Type) (M : Type) where
  | idle (m : M)
  | busy (p : Prog Op Res M)

/-- Processes `ι` with memory `M` over a shared state `σ`. -/
structure System (ι Op : Type) (Res : Op → Type) (σ M : Type) where
  /-- what an operation of a process can do -/
  sem : ι → Sem Op Res σ
  /-- the programs an idle process may begin -/
  start : ι → M → Prog Op Res M → Prop
  /-- moves of the shared state that no process makes -/
  env : σ → σ → Prop
  /-- the memory of a process that has just been started -/
  boot : ι → M → Prop

structure Conf (ι Op : Type) (Res : Op → Type) (σ M : Type) where
  shared : σ
  procs : ι → Proc Op Res M

namespace System

variable {ι Op : Type} {Res : Op → Type} {σ M : Type} [DecidableEq ι]

/-- One step of one process, or of the environment. -/
inductive Step (S : System ι Op Res σ M) : Conf ι Op Res σ M → Conf ι Op Res σ M → Prop where
  | start {s : σ} {P : ι → Proc Op Res M} (i : ι) {m : M} {p : Prog Op Res M}
      (hi : P i = .idle m) (hp : S.start i m p) :
      Step S ⟨s, P⟩ ⟨s, update P i (.busy p)⟩
  | act {s s' : σ} {P : ι → Proc Op Res M} (i : ι) {o : Op} {k : Res o → Prog Op Res M} {r : Res o}
      (hi : P i = .busy (.call o k)) (ho : S.sem i o s r s') :
      Step S ⟨s, P⟩ ⟨s', update P i (.busy (k r))⟩
  | finish {s : σ} {P : ι → Proc Op Res M} (i : ι) {m : M} (hi : P i = .busy (.ret m)) :
      Step S ⟨s, P⟩ ⟨s, update P i (.idle m)⟩
  | env {s s' : σ} {P : ι → Proc Op Res M} (h : S.env s s') : Step S ⟨s, P⟩ ⟨s', P⟩
  | crash {s : σ} {P : ι → Proc Op Res M} (i : ι) {m : M} (hm : S.boot i m) :
      Step S ⟨s, P⟩ ⟨s, update P i (.idle m)⟩

def Steps (S : System ι Op Res σ M) : Conf ι Op Res σ M → Conf ι Op Res σ M → Prop :=
  Relation.ReflTransGen S.Step

/-- Every process has just been started and the shared state satisfies `init`. -/
def Initial (S : System ι Op Res σ M) (init : σ → Prop) (c : Conf ι Op Res σ M) : Prop :=
  init c.shared ∧ ∀ i, ∃ m, S.boot i m ∧ c.procs i = .idle m

/-- With fewer moves of the environment there are fewer runs. -/
theorem Steps.of_env {S : System ι Op Res σ M} {E : σ → σ → Prop}
    (hE : ∀ s s', E s s' → S.env s s') {c c' : Conf ι Op Res σ M}
    (h : Steps { S with env := E } c c') : S.Steps c c' := by
  refine Relation.ReflTransGen.mono (fun c c' hs => ?_) c c' h
  cases hs with
  | start i hi hp => exact .start i hi hp
  | act i hi ho => exact .act i hi ho
  | finish i hi => exact .finish i hi
  | env h => exact .env (hE _ _ h)
  | crash i hm => exact .crash i hm

/-- What a process may rely on: any operation of another process, and the environment. -/
structure Relies (S : System ι Op Res σ M) (I : σ → Prop) (R : ι → σ → σ → Prop) : Prop where
  refl : ∀ i s, R i s s
  trans : ∀ i s s' s'', R i s s' → R i s' s'' → R i s s''
  other : ∀ i j o s r s', i ≠ j → I s → I s' → S.sem j o s r s' → R i s s'
  env : ∀ i s s', I s → I s' → S.env s s' → R i s s'

/-- The local part of the invariant of `invariant`. -/
def Holds (S : System ι Op Res σ M) (I : σ → Prop) (R : ι → σ → σ → Prop)
    (A : ι → M → σ → Prop) (c : Conf ι Op Res σ M) (i : ι) : Prop :=
  match c.procs i with
  | .idle m => A i m c.shared
  | .busy p => Safe (S.sem i) (R i) I (A i) p c.shared

variable {S : System ι Op Res σ M} {I : σ → Prop} {R : ι → σ → σ → Prop} {A : ι → M → σ → Prop}
  {s : σ} {P : ι → Proc Op Res M} {i : ι} {p : Prog Op Res M} {f : (o : Op) → σ → Res o × σ}
  {s' : σ}

omit [DecidableEq ι] in
theorem Holds.stable (hR : S.Relies I R) (hA : ∀ i m s s', A i m s → R i s s' → I s' → A i m s')
    (h : S.Holds I R A ⟨s, P⟩ i) (hs : R i s s') (hI : I s') :
    S.Holds I R A ⟨s', P⟩ i := by
  unfold Holds at h ⊢
  cases hp : P i with
  | idle m =>
    simp only [hp] at h ⊢
    exact hA i m s s' h hs hI
  | busy p =>
    simp only [hp] at h ⊢
    exact Safe.stable (hR.trans i) (hA i) h hs hI

theorem holds_update_idle : S.Holds I R A ⟨s, update P i (.idle m)⟩ i ↔ A i m s := by
  simp only [Holds, update_self]

theorem holds_update_busy :
    S.Holds I R A ⟨s, update P i (.busy p)⟩ i ↔ Safe (S.sem i) (R i) I (A i) p s := by
  simp only [Holds, update_self]

theorem holds_update (hi : S.Holds I R A ⟨s, update P i q⟩ i)
    (hj : ∀ j, j ≠ i → S.Holds I R A ⟨s, P⟩ j) (j : ι) : S.Holds I R A ⟨s, update P i q⟩ j := by
  by_cases hji : j = i
  · exact hji ▸ hi
  · simpa only [Holds, update_of_ne hji] using hj j hji

theorem step_invariant (hR : S.Relies I R)
    (hA : ∀ i m s s', A i m s → R i s s' → I s' → A i m s')
    (hstart : ∀ i m p s, S.start i m p → I s → A i m s → Safe (S.sem i) (R i) I (A i) p s)
    (henv : ∀ s s', I s → S.env s s' → I s')
    (hboot : ∀ i m s, S.boot i m → I s → A i m s)
    (hs : S.Step c c') (hI : I c.shared)
    (hL : ∀ i, S.Holds I R A c i) : I c'.shared ∧ ∀ i, S.Holds I R A c' i := by
  -- in every case the moving process is treated first, the others by stability
  cases hs with
  | @start s P i m p hi hp =>
    have hm := hL i
    simp only [Holds, hi] at hm
    exact ⟨hI, holds_update (holds_update_busy.2 (hstart i m p s hp hI hm)) fun j _ => hL j⟩
  | @act s s' P i o k r hi ho =>
    have hm := hL i
    simp only [Holds, hi] at hm
    obtain ⟨hI', hk⟩ := hm s (hR.refl i s) hI r s' ho
    exact ⟨hI', holds_update (holds_update_busy.2 hk) fun j hj =>
      (hL j).stable hR hA (hR.other j i o s r s' hj hI hI' ho) hI'⟩
  | @finish s P i m hi =>
    have hm := hL i
    simp only [Holds, hi] at hm
    exact ⟨hI, holds_update (holds_update_idle.2 hm) fun j _ => hL j⟩
  | @env s s' P h =>
    have hI' := henv s s' hI h
    exact ⟨hI', fun j => (hL j).stable hR hA (hR.env j s s' hI hI' h) hI'⟩
  | @crash s P i m hm =>
    exact ⟨hI, holds_update (holds_update_idle.2 (hboot i m s hm hI)) fun j _ => hL j⟩

/-- **Invariants of interleavings.**  `I` holds in every state reached from an initial one. -/
theorem invariant {init : σ → Prop} (hR : S.Relies I R)
    (hA : ∀ i m s s', A i m s → R i s s' → I s' → A i m s')
    (hstart : ∀ i m p s, S.start i m p → I s → A i m s → Safe (S.sem i) (R i) I (A i) p s)
    (henv : ∀ s s', I s → S.env s s' → I s')
    (hboot : ∀ i m s, S.boot i m → I s → A i m s) (hinit : ∀ s, init s → I s)
    (hc : S.Initial init c) (hs : S.Steps c c') :
    I c'.shared ∧ ∀ i, S.Holds I R A c' i := by
  induction hs with
  | refl =>
    have hI := hinit _ hc.1
    refine ⟨hI, fun i => ?_⟩
    obtain ⟨m, hb, hm⟩ := hc.2 i
    simp only [Holds, hm]
    exact hboot i m _ hb hI
  | tail _ hstep ih => exact step_invariant hR hA hstart henv hboot hstep ih.1 ih.2

/-! ## Building runs

A call of one process is a run of its program in which the environment may move before
every operation; the other processes, fixed by `P`, pause. -/

/-- An operation of process `i` after any moves of the environment. -/
def pausing (S : System ι Op Res σ M) (i : ι) : Sem Op Res σ :=
  fun o s r s' => ∃ s₁, Relation.ReflTransGen S.env s s₁ ∧ S.sem i o s₁ r s'

omit [DecidableEq ι] in
theorem pausing_now (h : S.sem i o s r s') :
    S.pausing i o s r s' := ⟨s, .refl, h⟩

theorem steps_env (h : Relation.ReflTransGen S.env s s') : S.Steps ⟨s, P⟩ ⟨s', P⟩ := by
  induction h with
  | refl => exact .refl
  | tail _ he ih => exact ih.tail (.env he)

theorem steps_busy (h : Exec (S.pausing i) p s m s') (P : ι → Proc Op Res M) :
    S.Steps ⟨s, update P i (.busy p)⟩ ⟨s', update P i (.idle m)⟩ := by
  induction h with
  | ret m s =>
    have hf := Step.finish (S := S) (s := s) i (update_self i (Proc.busy (.ret m)) P)
    rw [update_idem] at hf
    exact .single hf
  | @call o k s s' s'' r m ho _ ih =>
    obtain ⟨s₁, he, ho⟩ := ho
    have ha := Step.act (S := S) i (update_self i (Proc.busy (.call o k)) P) ho
    rw [update_idem] at ha
    exact (steps_env he).trans (.head ha ih)

theorem steps_call (hi : P i = .idle m) (hp : S.start i m p)
    (h : Exec (S.pausing i) p s m' s') : S.Steps ⟨s, P⟩ ⟨s', update P i (.idle m')⟩ :=
  .head (.start i hi hp) (steps_busy h P)

variable (hf : ∀ o s, S.sem i o s (f o s).1 (f o s).2)
include hf

theorem steps_run (hi : P i = .idle m) (hp : S.start i m p) :
    S.Steps ⟨s, P⟩ ⟨(p.run f s).2, update P i (.idle (p.run f s).1)⟩ :=
  steps_call hi hp (.of_run (fun o s => pausing_now (hf o s)) p s)

theorem steps_nextN (hi : P i = .busy p) (n : Nat) :
    S.Steps ⟨s, P⟩ ⟨(p.runN f n s).2, update P i (.busy (p.runN f n s).1)⟩ := by
  induction n generalizing p s P with
  | zero =>
    rw [runN, ← hi, update_eq_self]
    exact .refl
  | succ n ih =>
    cases p with
    | ret m =>
      rw [runN, ← hi, update_eq_self]
      exact .refl
    | call o k =>
      have hrest := ih (s := (f o s).2) (update_self i (.busy (k (f o s).1)) P)
      rw [update_idem] at hrest
      exact .head (.act i hi (hf o s)) hrest

theorem steps_runN (hi : P i = .idle m) (hp : S.start i m p) (n : Nat) :
    S.Steps ⟨s, P⟩ ⟨(p.runN f n s).2, update P i (.busy (p.runN f n s).1)⟩ := by
  have hrest := steps_nextN hf (s := s) (update_self i (Proc.busy p) P) n
  rw [update_idem] at hrest
  exact .head (.start i hi hp) hrest

theorem steps_rest (hi : P i = .busy p) :
    S.Steps ⟨s, P⟩ ⟨(p.run f s).2, update P i (.idle (p.run f s).1)⟩ := by
  have h := steps_busy (.of_run (fun o s => pausing_now (hf o s)) p s) P
  rw [← hi, update_eq_self] at h
  exact h

end System

end SolariNet.Lib
