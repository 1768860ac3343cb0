/-
# Locks that live as long as who holds them

Sessions `ι` take locks `L`: files under `flock`, named locks of a database.  A lock is held until
its session gives it back or ends; a session that has ended does nothing more.  So the death of a
process at any point is one move of the environment, which also frees what the process held
(`stop`).
-/
import Mathlib.Order.Basic
import SolariNet.Lib.Calls

namespace SolariNet.Lib

open Function

/-- Who holds what, and which sessions have ended. -/
structure Sessions (ι L : Type) where
  holder : L → Option ι
  ended : List ι

namespace Sessions

variable {ι L : Type} [DecidableEq ι] [DecidableEq L]

def fresh : Sessions ι L := ⟨fun _ => none, []⟩

omit [DecidableEq ι] [DecidableEq L] in
def Holds (s : Sessions ι L) (i : ι) (l : L) : Prop := i ∉ s.ended ∧ s.holder l = some i

def acquire (s : Sessions ι L) (i : ι) (l : L) : Sessions ι L :=
  { s with holder := Function.update s.holder l (some i) }

/-- Session `i` gives `l` back, if it has it. -/
def release (s : Sessions ι L) (i : ι) (l : L) : Sessions ι L :=
  { s with holder := Function.update s.holder l (if s.holder l = some i then none else s.holder l) }

omit [DecidableEq L] in
def stop (s : Sessions ι L) (i : ι) : Sessions ι L where
  holder l := if s.holder l = some i then none else s.holder l
  ended := i :: s.ended

omit [DecidableEq ι] [DecidableEq L] in
structure Keeps (i : ι) (s s' : Sessions ι L) : Prop where
  ended : s.ended ⊆ s'.ended
  held : ∀ l, i ∉ s'.ended → s.holder l = some i → s'.holder l = some i

section
omit [DecidableEq ι] [DecidableEq L]
variable {i : ι} {s s' s'' : Sessions ι L}

theorem Keeps.refl (i : ι) (s : Sessions ι L) : Keeps i s s :=
  ⟨List.Subset.refl _, fun _ _ h => h⟩

theorem Keeps.trans (h : Keeps i s s') (h' : Keeps i s' s'') : Keeps i s s'' where
  ended := List.Subset.trans h.ended h'.ended
  held l hi hl := h'.held l hi (h.held l (fun he => hi (h'.ended he)) hl)

end

variable {i j : ι} {s : Sessions ι L} {l : L}

section
omit [DecidableEq ι]

theorem acquire_holds (hi : i ∉ s.ended) : (s.acquire i l).Holds i l :=
  ⟨hi, by simp only [acquire, update_self]⟩

theorem keeps_acquire (hl : s.holder l = none) : Keeps j s (s.acquire i l) := by
  refine ⟨List.Subset.refl _, fun k _ hk => ?_⟩
  have hkl : k ≠ l := by
    rintro rfl
    rw [hl] at hk
    cases hk
  simpa only [acquire, update_of_ne hkl] using hk

end

theorem keeps_release (hij : j ≠ i) : Keeps j s (s.release i l) := by
  refine ⟨List.Subset.refl _, fun k _ hk => ?_⟩
  by_cases hkl : k = l
  · subst hkl
    have hne : s.holder k ≠ some i := by
      rw [hk]
      exact fun h => hij (Option.some.inj h)
    simpa only [release, update_self, if_neg hne] using hk
  · simpa only [release, update_of_ne hkl] using hk

theorem release_acquire (hl : s.holder l = none) : (s.acquire i l).release i l = s := by
  have hholder : Function.update (Function.update s.holder l (some i)) l none = s.holder := by
    rw [update_idem, ← hl, update_eq_self]
  simp only [acquire, release, update_self, if_true, hholder]

omit [DecidableEq L] in
theorem keeps_stop : Keeps j s (s.stop i) := by
  refine ⟨List.subset_cons_self _ _, fun k hj hk => ?_⟩
  have hne : s.holder k ≠ some i := by
    rw [hk]
    rintro h
    cases h
    exact hj List.mem_cons_self
  simpa only [stop, if_neg hne] using hk

/-! ## What a session knows -/

section
omit [DecidableEq ι] [DecidableEq L]
variable {Op : Type} {Res : Op → Type} {σ ε : Type} {S : Setting Op Res σ}
  {sessions : σ → Sessions ι L} {F : σ → Prop}

/-- `F` holds as long as session `i` lives. -/
def Alive (sessions : σ → Sessions ι L) (i : ι) (F : σ → Prop) (s : σ) : Prop :=
  i ∉ (sessions s).ended → F s

/-- What a living session keeps is stable as long as it lives. -/
theorem stable_alive (hkeeps : ∀ s s', S.rely s s' → Keeps i (sessions s) (sessions s'))
    (hF : ∀ s s', i ∉ (sessions s').ended → S.rely s s' → S.inv s' → F s → F s') :
    S.Stable (Alive sessions i F) := by
  intro s s' h hR hI hi
  exact hF s s' hi hR hI (h fun he => hi ((hkeeps s s' hR).ended he))

variable {E : ε → σ → Prop}

theorem triple_alive {Q : Res o → σ → Prop} (hP : S.Stable (Alive sessions i F))
    (hlive : ∀ s r s', S.sem o s r s' → i ∉ (sessions s).ended)
    (h : ∀ s r s', F s → S.inv s → S.sem o s r s' → S.inv s' ∧ Q r s') :
    S.Triple (Alive sessions i F) (Call.op o) (fun r => Alive sessions i (Q r)) E := by
  refine .op hP fun s r s' hs hI ho => ?_
  obtain ⟨hI', hQ⟩ := h s r s' (hs (hlive s r s' ho)) hI ho
  exact ⟨hI', fun _ => hQ⟩

theorem triple_dead {α : Type} {x : Call Op Res ε α} {Q : α → σ → Prop}
    (hkeeps : ∀ s s', S.rely s s' → Keeps i (sessions s) (sessions s'))
    (hlive : ∀ o s r s', S.sem o s r s' → i ∉ (sessions s).ended) :
    S.Triple (Alive sessions i fun _ => False) x (fun a => Alive sessions i (Q a))
      fun e => Alive sessions i (E e) := by
  intro s hs
  have hdead : i ∈ (sessions s).ended := by
    by_contra hi
    exact hs hi
  cases x.run with
  | ret r =>
    cases r with
    | ok a | error e => exact fun hi => absurd hdead hi
  | call o k =>
    intro s' hR _ r s'' ho
    exact absurd ((hkeeps s s' hR).ended hdead) (hlive o s' r s'' ho)

theorem triple_given {α : Type} {x : Call Op Res ε α} {Q : α → σ → Prop}
    {c : Prop} (hkeeps : ∀ s s', S.rely s s' → Keeps i (sessions s) (sessions s'))
    (hlive : ∀ o s r s', S.sem o s r s' → i ∉ (sessions s).ended)
    (h : c → S.Triple (Alive sessions i F) x (fun a => Alive sessions i (Q a))
      fun e => Alive sessions i (E e)) :
    S.Triple (Alive sessions i fun s => F s ∧ c) x (fun a => Alive sessions i (Q a))
      fun e => Alive sessions i (E e) := by
  by_cases hc : c
  · exact (h hc).pre fun s hs hi => (hs hi).1
  · exact (triple_dead hkeeps hlive).pre fun s hs hi => hc (hs hi).2

end

end Sessions

end SolariNet.Lib
