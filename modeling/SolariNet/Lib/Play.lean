/-
# Scripted runs of a system

A script says which process begins what and how far it gets before another one goes on.  With
answers fixed for every operation, a script computes the configuration it leads to, and that
configuration is reached (`steps_play`).

    begins i g     process `i`, idle with memory `m`, begins the program `g m`
    acts i n       process `i` performs its next `n` operations
    ends i         process `i` performs the rest of its program and becomes idle

Answers that are right only in some states are played with a flag (`checked`, `steps_checked`).
-/
import SolariNet.Lib.System

namespace SolariNet.Lib

open Prog

variable {ι Op : Type} {Res : Op → Type} {σ M : Type}

inductive Cue (ι Op : Type) (Res : Op → Type) (M : Type) where
  | begins (i : ι) (g : M → Option (Prog Op Res M))
  | acts (i : ι) (n : Nat)
  | ends (i : ι)

namespace System

variable [DecidableEq ι]

/-- The configuration after one line, if it can be played. -/
def cue (f : ι → (o : Op) → σ → Res o × σ) (c : Conf ι Op Res σ M) :
    Cue ι Op Res M → Option (Conf ι Op Res σ M)
  | .begins i g =>
    match c.procs i with
    | .idle m => (g m).map fun p => ⟨c.shared, Function.update c.procs i (.busy p)⟩
    | .busy _ => none
  | .acts i n =>
    match c.procs i with
    | .idle _ => none
    | .busy p =>
      some ⟨(p.runN (f i) n c.shared).2,
        Function.update c.procs i (.busy (p.runN (f i) n c.shared).1)⟩
  | .ends i =>
    match c.procs i with
    | .idle _ => none
    | .busy p =>
      some ⟨(p.run (f i) c.shared).2, Function.update c.procs i (.idle (p.run (f i) c.shared).1)⟩

def play (f : ι → (o : Op) → σ → Res o × σ) :
    List (Cue ι Op Res M) → Conf ι Op Res σ M → Option (Conf ι Op Res σ M)
  | [], c => some c
  | q :: qs, c => (cue f c q).bind (play f qs)

/-- The programs a script begins are among those its process may begin. -/
def Cue.Legal (S : System ι Op Res σ M) : Cue ι Op Res M → Prop
  | .begins i g => ∀ m p, g m = some p → S.start i m p
  | _ => True

variable {S : System ι Op Res σ M}

omit [DecidableEq ι] in
theorem Cue.legal_begins {i : ι}
    (h : ∀ m, S.start i m p) : Cue.Legal S (.begins i fun _ => some p) := by
  rintro m _ ⟨⟩
  exact h m

variable {S : System ι Op Res σ M} {f : ι → (o : Op) → σ → Res o × σ}

omit [DecidableEq ι] in
@[simp] theorem Cue.legal_acts (i : ι) (n : Nat) : Cue.Legal S (.acts i n) := trivial

omit [DecidableEq ι] in
@[simp] theorem Cue.legal_ends (i : ι) : Cue.Legal S (.ends i) := trivial

variable (hf : ∀ i o s, S.sem i o s (f i o s).1 (f i o s).2)
include hf

theorem steps_cue (hq : Cue.Legal S q)
    (h : cue f c q = some c') : S.Steps c c' := by
  cases q with
  | begins i g =>
    cases hm : c.procs i with
    | idle m =>
      simp only [cue, hm] at h
      obtain ⟨p, hp, rfl⟩ := Option.map_eq_some_iff.1 h
      exact .single (.start i hm (hq m p hp))
    | busy p =>
      simp only [cue, hm] at h
      cases h
  | acts i n =>
    cases hp : c.procs i with
    | idle m =>
      simp only [cue, hp] at h
      cases h
    | busy p =>
      simp only [cue, hp] at h
      cases h
      exact steps_nextN (hf i) hp n
  | ends i =>
    cases hp : c.procs i with
    | idle m =>
      simp only [cue, hp] at h
      cases h
    | busy p =>
      simp only [cue, hp] at h
      cases h
      exact steps_rest (hf i) hp

/-- **Scripts are runs.** -/
theorem steps_play {qs : List (Cue ι Op Res M)} (hqs : ∀ q ∈ qs, Cue.Legal S q)
    (h : play f qs c = some c') : S.Steps c c' := by
  induction qs generalizing c with
  | nil =>
    cases h
    exact .refl
  | cons q qs ih =>
    obtain ⟨c₁, h₁, h₂⟩ := Option.bind_eq_some_iff.1 h
    exact (steps_cue hf (hqs q List.mem_cons_self) h₁).trans
      (ih (fun q hq => hqs q (List.mem_cons_of_mem _ hq)) h₂)

omit hf

/-! ## Answers that are right where they are used

Answers need not be right in every state: `ok` says where they are, and a flag next to the state
tells whether every operation that was played was one of those. -/

/-- The system with the flag, in which an operation that is not `ok` is unconstrained. -/
def checked (S : System ι Op Res σ M) (ok : ι → Op → σ → Bool) : System ι Op Res (σ × Bool) M where
  sem i o s r s' := s'.2 = (s.2 && ok i o s.1) ∧ (ok i o s.1 = true → S.sem i o s.1 r s'.1)
  start := S.start
  env s s' := s'.2 = s.2 ∧ S.env s.1 s'.1
  boot := S.boot

def flagged (f : ι → (o : Op) → σ → Res o × σ) (ok : ι → Op → σ → Bool) (i : ι) (o : Op)
    (s : σ × Bool) : Res o × (σ × Bool) :=
  ((f i o s.1).1, (f i o s.1).2, s.2 && ok i o s.1)

omit [DecidableEq ι] in
theorem flagged_sem {ok : ι → Op → σ → Bool}
    (hf : ∀ i o s, ok i o s = true → S.sem i o s (f i o s).1 (f i o s).2) (i : ι) (o : Op)
    (s : σ × Bool) : (S.checked ok).sem i o s (flagged f ok i o s).1 (flagged f ok i o s).2 :=
  ⟨rfl, hf i o s.1⟩

def plain (c : Conf ι Op Res (σ × Bool) M) : Conf ι Op Res σ M := ⟨c.shared.1, c.procs⟩

/-- A run in which the flag stays up is one of the system. -/
theorem steps_checked {ok : ι → Op → σ → Bool}
    {c c' : Conf ι Op Res (σ × Bool) M} (hs : (S.checked ok).Steps c c')
    (hflag : c'.shared.2 = true) : S.Steps (plain c) (plain c') := by
  induction hs with
  | refl => exact .refl
  | tail _ hstep ih =>
    cases hstep with
    | start i hi hp => exact (ih hflag).tail (.start i hi hp)
    | act i hi ho =>
      obtain ⟨hf, hsem⟩ := ho
      rw [hf] at hflag
      obtain ⟨hbefore, hok⟩ := Bool.and_eq_true_iff.1 hflag
      exact (ih hbefore).tail (.act i hi (hsem hok))
    | finish i hi => exact (ih hflag).tail (.finish i hi)
    | env h => exact (ih (h.1.symm.trans hflag)).tail (.env h.2)
    | crash i hm => exact (ih hflag).tail (.crash i hm)

end System

end SolariNet.Lib
