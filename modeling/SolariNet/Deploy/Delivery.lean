/-
# Acknowledge only after apply

`deploy/sorsync/delivery.py`: `consume_after_apply` collects deliveries and, after a pause or when
enough have come, applies the target once for all of them; only when the apply has returned `True`
are they acknowledged.  The apply runs in a worker while the owner of the connection keeps it
alive, so its operations and the heartbeats interleave.

The apply function is any program over operations of its own.
-/
import Mathlib.Data.List.Infix
import SolariNet.Lib.Prog

namespace SolariNet

open List Lib Lib.Prog

/-! ## The program -/

inductive ApplyResult where
  | returned (isTrue : Bool)
  | raised
  deriving DecidableEq, Repr

inductive ConsumeItem where
  | delivery (tag : Nat)
  | inactive
  | closed
  | raised
  deriving DecidableEq, Repr

structure DeliveryCfg where
  maxPending : Nat
  reconcile : Nat
  heartbeats : Bool

inductive DeliveryOp (Op : Type) where
  | qos (prefetch : Nat)
  | consume
  | isRunning
  | monotonic
  | ack (tag : Nat)
  | begin
  | app (o : Op)
  | finish (r : ApplyResult)
  /-- so many turns of the waiting loop pass before the apply function goes on -/
  | wait
  | maintain

def DeliveryRes {Op : Type} (Res : Op → Type) : DeliveryOp Op → Type
  | .qos _ => Bool
  | .consume => ConsumeItem
  | .isRunning => Bool
  | .monotonic => Nat
  | .ack _ => Bool
  | .begin => Unit
  | .app o => Res o
  | .finish _ => Unit
  | .wait => Nat
  | .maintain => Bool

section program
variable {Op : Type} {Res : Op → Type} {α : Type}

abbrev DeliveryM (Res : Op → Type) : Type → Type := Prog (DeliveryOp Op) (DeliveryRes Res)

def inline : Prog Op Res α → DeliveryM Res α
  | .ret a => .ret a
  | .call o k => .call (.app o) fun (r : Res o) => inline (k r)

/-- Turns of the waiting loop.  The connection is not touched again once it has failed. -/
def beats : Nat → Bool → DeliveryM Res Bool
  | 0, broken => pure broken
  | _ + 1, true => pure true
  | n + 1, false => perform DeliveryOp.maintain >>= fun (ok : Bool) => beats n (!ok)

/-- The apply function in the worker, with heartbeats before each of its operations and before its
result is taken. -/
def withHeartbeats : Prog Op Res α → Bool → DeliveryM Res (α × Bool)
  | .ret a, broken =>
    perform DeliveryOp.wait >>= fun (n : Nat) => beats n broken >>= fun broken => pure (a, broken)
  | .call o k, broken =>
    perform DeliveryOp.wait >>= fun (n : Nat) => beats n broken >>= fun broken =>
      .call (.app o) fun (r : Res o) => withHeartbeats (k r) broken

def applyWithHeartbeats (cfg : DeliveryCfg) (applyFn : Prog Op Res ApplyResult) :
    DeliveryM Res (ApplyResult × Bool) :=
  if cfg.heartbeats then withHeartbeats applyFn false
  else inline applyFn >>= fun r => pure (r, false)

def ackAll : List Nat → DeliveryM Res Bool
  | [] => pure true
  | tag :: tags => perform (DeliveryOp.ack tag) >>= fun (ok : Bool) =>
    if ok = false then pure false else ackAll tags

def flush (cfg : DeliveryCfg) (applyFn : Prog Op Res ApplyResult) (pending : List Nat) :
    DeliveryM Res (Option Nat) :=
  perform DeliveryOp.begin >>= fun (_ : Unit) =>
    applyWithHeartbeats cfg applyFn >>= fun r =>
      perform (DeliveryOp.finish r.1) >>= fun (_ : Unit) =>
        if r.1 ≠ .returned true ∨ r.2 = true then pure none
        else ackAll pending >>= fun ok =>
          if ok = false then pure none
          else perform DeliveryOp.monotonic >>= fun (now : Nat) => pure (some now)

/-- How `consume_after_apply` ends; `going` when the number of turns is used up. -/
inductive ConsumeEnd where
  | stopped
  | raised
  | going
  deriving DecidableEq, Repr

def reconcileDue (cfg : DeliveryCfg) (lastSuccess : Nat) : DeliveryM Res Bool :=
  if cfg.reconcile = 0 then pure false
  else perform DeliveryOp.monotonic >>= fun (now : Nat) =>
    pure (decide (now - lastSuccess ≥ cfg.reconcile))

def consumeLoop (cfg : DeliveryCfg) (applyFn : Prog Op Res ApplyResult) :
    Nat → List Nat → Nat → DeliveryM Res ConsumeEnd
  | 0, _, _ => pure .going
  | n + 1, pending, lastSuccess =>
    perform DeliveryOp.consume >>= fun (item : ConsumeItem) =>
      match item with
      | .closed => pure .stopped
      | .raised => pure .raised
      | .delivery tag =>
        perform DeliveryOp.isRunning >>= fun (running : Bool) =>
          if running = false then pure .stopped
          else reconcileDue cfg lastSuccess >>= fun _ =>
            if (pending ++ [tag]).length ≥ cfg.maxPending then
              flush cfg applyFn (pending ++ [tag]) >>= fun r =>
                match r with
                | none => pure .raised
                | some now => consumeLoop cfg applyFn n [] now
            else consumeLoop cfg applyFn n (pending ++ [tag]) lastSuccess
      | .inactive =>
        perform DeliveryOp.isRunning >>= fun (running : Bool) =>
          if running = false then pure .stopped
          else reconcileDue cfg lastSuccess >>= fun due =>
            if pending ≠ [] ∨ due = true then
              flush cfg applyFn pending >>= fun r =>
                match r with
                | none => pure .raised
                | some now => consumeLoop cfg applyFn n [] now
            else consumeLoop cfg applyFn n pending lastSuccess

def consumeAfterApply (cfg : DeliveryCfg) (applyFn : Prog Op Res ApplyResult) (n : Nat) :
    DeliveryM Res ConsumeEnd :=
  if cfg.maxPending < 1 then pure .raised
  else perform (DeliveryOp.qos cfg.maxPending) >>= fun (ok : Bool) =>
    if ok = false then pure .raised
    else flush cfg applyFn [] >>= fun r =>
      match r with
      | none => pure .raised
      | some now => consumeLoop cfg applyFn n [] now

/-! ## Traces -/

abbrev Trace (Res : Op → Type) : Type := List (Event (DeliveryOp Op) (DeliveryRes Res))

def delivered (t : Trace Res) : List Nat :=
  t.filterMap fun
    | ⟨.consume, .delivery tag⟩ => some tag
    | _ => none

def acked (t : Trace Res) : List Nat :=
  t.filterMap fun
    | ⟨.ack tag, _⟩ => some tag
    | _ => none

def applied (t : Trace Res) : List (Event Op Res) :=
  t.filterMap fun
    | ⟨.app o, r⟩ => some ⟨o, r⟩
    | _ => none

def NoFailedApply (t : Trace Res) : Prop :=
  ∀ e ∈ t, ∀ r, e.1 = .finish r → r = .returned true

structure Acknowledged (applyFn : Prog Op Res ApplyResult) (t : Trace Res) (tag : Nat) : Prop where
  /-- an apply that began after the delivery has returned `True` -/
  applied : ∃ before during after,
    t = before ++ ⟨.begin, ()⟩ :: during ++ ⟨.finish (.returned true), ()⟩ :: after ∧
      tag ∈ delivered before ∧ Runs applyFn (applied during) (.returned true)
  /-- it is the first delivery that is not acknowledged yet -/
  next : acked t ++ [tag] <+: delivered t
  /-- no apply has failed -/
  sound : NoFailedApply t

def Good (applyFn : Prog Op Res ApplyResult) (t : Trace Res) : Prop :=
  ∀ a tag ok b, t = a ++ ⟨.ack tag, ok⟩ :: b → Acknowledged applyFn a tag

end program

section lemmas
variable {Op : Type} {Res : Op → Type} {α : Type} {applyFn : Prog Op Res ApplyResult}
  {t t' : Trace Res}

theorem delivered_append (t t' : Trace Res) : delivered (t ++ t') = delivered t ++ delivered t' :=
  filterMap_append

theorem acked_append (t t' : Trace Res) : acked (t ++ t') = acked t ++ acked t' :=
  filterMap_append

theorem applied_append (t t' : Trace Res) : applied (t ++ t') = applied t ++ applied t' :=
  filterMap_append

theorem NoFailedApply.append (h : NoFailedApply t) (h' : NoFailedApply t') :
    NoFailedApply (t ++ t') := fun e he => (mem_append.1 he).elim (h e) (h' e)

theorem good_nil : Good applyFn ([] : Trace Res) := by
  intro a tag ok b h
  simp at h

variable {o : DeliveryOp Op}

theorem Good.snoc (h : Good applyFn t)
    (ho : ∀ tag, o = .ack tag → Acknowledged applyFn t tag) : Good applyFn (t ++ [⟨o, r⟩]) := by
  intro a tag ok b heq
  rcases eq_nil_or_concat b with rfl | ⟨b, e, rfl⟩
  · obtain ⟨rfl, he⟩ := append_inj' heq rfl
    exact ho tag (congrArg Sigma.fst (List.cons.inj he).1)
  have heq' : t ++ [⟨o, r⟩] = (a ++ ⟨.ack tag, ok⟩ :: b) ++ [e] := by
    rw [heq, concat_eq_append, append_assoc, cons_append]
  exact h a tag ok b (append_inj' heq' rfl).1

def Quiet : DeliveryOp Op → Prop
  | .app _ => True
  | .wait => True
  | .maintain => True
  | .begin => True
  | .monotonic => True
  | .isRunning => True
  | .qos _ => True
  | _ => False

structure QuietTrace (t : Trace Res) : Prop where
  delivered : delivered t = []
  acked : acked t = []
  sound : NoFailedApply t

theorem QuietTrace.nil : QuietTrace ([] : Trace Res) := ⟨rfl, rfl, fun _ h => (nomatch h)⟩

theorem QuietTrace.append (h : QuietTrace t) (h' : QuietTrace t') : QuietTrace (t ++ t') := by
  refine ⟨?_, ?_, h.sound.append h'.sound⟩
  · rw [delivered_append, h.delivered, h'.delivered, append_nil]
  · rw [acked_append, h.acked, h'.acked, append_nil]

theorem quietTrace_singleton (ho : Quiet o) (r : DeliveryRes Res o) :
    QuietTrace ([⟨o, r⟩] : Trace Res) := by
  cases o with
  | consume | ack tag | finish r => exact ho.elim
  | _ =>
    refine ⟨rfl, rfl, fun e he r' hr => ?_⟩
    obtain rfl := mem_singleton.1 he
    cases hr

theorem Good.quiet (h : Good applyFn t) (ho : Quiet o) (r : DeliveryRes Res o) :
    Good applyFn (t ++ [⟨o, r⟩]) := by
  refine h.snoc fun tag htag => ?_
  rw [htag] at ho
  exact ho.elim

end lemmas

/-! ## The apply function inside the consumer -/

section apply
variable {Op : Type} {Res : Op → Type} {α : Type} {applyFn : Prog Op Res ApplyResult}
  {t : Trace Res}

/-- The trace has grown by a quiet stretch with these operations of the apply function. -/
def Grown (t : Trace Res) (ops : List (Event Op Res)) (t' : Trace Res) : Prop :=
  ∃ during, t' = t ++ during ∧ QuietTrace during ∧ applied during = ops

theorem Grown.refl (t : Trace Res) : Grown t [] t := ⟨[], (append_nil t).symm, .nil, rfl⟩

variable {ops : List (Event Op Res)}

theorem Grown.trans {ops' : List (Event Op Res)} (h : Grown t ops t')
    (h' : Grown t' ops' t'') : Grown t (ops ++ ops') t'' := by
  obtain ⟨d, rfl, hq, rfl⟩ := h
  obtain ⟨d', rfl, hq', rfl⟩ := h'
  exact ⟨d ++ d', append_assoc .., hq.append hq', applied_append d d'⟩

theorem grown_wait (t : Trace Res) (n : Nat) : Grown t [] (t ++ [⟨.wait, n⟩]) :=
  ⟨_, rfl, quietTrace_singleton (o := .wait) trivial n, rfl⟩

theorem grown_maintain (t : Trace Res) (ok : Bool) : Grown t [] (t ++ [⟨.maintain, ok⟩]) :=
  ⟨_, rfl, quietTrace_singleton (o := .maintain) trivial ok, rfl⟩

theorem grown_app (t : Trace Res) (o : Op) (r : Res o) : Grown t [⟨o, r⟩] (t ++ [⟨.app o, r⟩]) :=
  ⟨_, rfl, quietTrace_singleton (o := .app o) trivial r, rfl⟩

theorem beats_safe (n : Nat) (broken : Bool) (ht : Good applyFn t) :
    Safe recording Eq (Good applyFn) (fun _ t' => Good applyFn t' ∧ Grown t [] t')
      (beats n broken) t := by
  induction n generalizing broken t with
  | zero => exact ⟨ht, .refl t⟩
  | succ n ih =>
    cases broken with
    | true => exact ⟨ht, .refl t⟩
    | false =>
      rintro _ rfl _ ok _ rfl
      have hm := ht.quiet (o := .maintain) trivial ok
      refine ⟨hm, (ih (!ok) hm).mono ?_⟩
      rintro _ t' ⟨hgood, hgrown⟩
      exact ⟨hgood, (grown_maintain t ok).trans hgrown⟩

theorem pause_safe {β : Type} {f : Bool → DeliveryM Res β} {Q : β → Trace Res → Prop}
    (broken : Bool) (ht : Good applyFn t)
    (hf : ∀ b t', Good applyFn t' → Grown t [] t' → Safe recording Eq (Good applyFn) Q (f b) t') :
    Safe recording Eq (Good applyFn) Q
      (perform DeliveryOp.wait >>= fun (n : Nat) => beats n broken >>= f) t := by
  rintro _ rfl _ n _ rfl
  have hw := ht.quiet (o := .wait) trivial n
  refine ⟨hw, (beats_safe n broken hw).seq ?_⟩
  rintro b t' ⟨hgood, hgrown⟩
  exact hf b t' hgood ((grown_wait t n).trans hgrown)

theorem withHeartbeats_safe (p : Prog Op Res α) (broken : Bool) (ht : Good applyFn t) :
    Safe recording Eq (Good applyFn)
      (fun r t' => Good applyFn t' ∧ ∃ ops, Grown t ops t' ∧ Runs p ops r.1)
      (withHeartbeats p broken) t := by
  induction p generalizing broken t with
  | ret a =>
    refine pause_safe broken ht fun b t' hgood hgrown => ?_
    exact ⟨hgood, [], hgrown, .ret a⟩
  | call o k ih =>
    refine pause_safe broken ht fun b t₁ hgood hgrown => ?_
    rintro _ rfl _ r _ rfl
    have ha := hgood.quiet (o := .app o) trivial r
    refine ⟨ha, (ih r b ha).mono ?_⟩
    rintro x t' ⟨hgood', ops, hgrown', hrun⟩
    exact ⟨hgood', _, (hgrown.trans (grown_app t₁ o r)).trans hgrown', .call hrun⟩

theorem inline_safe (p : Prog Op Res α) (ht : Good applyFn t) : Safe recording Eq (Good applyFn)
      (fun r t' => Good applyFn t' ∧ ∃ ops, Grown t ops t' ∧ Runs p ops r) (inline p) t := by
  induction p generalizing t with
  | ret a => exact ⟨ht, [], .refl t, .ret a⟩
  | call o k ih =>
    rintro _ rfl _ r _ rfl
    have ha := ht.quiet (o := .app o) trivial r
    refine ⟨ha, (ih r ha).mono ?_⟩
    rintro x t' ⟨hgood, ops, hgrown, hrun⟩
    exact ⟨hgood, _, (grown_app t o r).trans hgrown, .call hrun⟩

theorem applyWithHeartbeats_safe (cfg : DeliveryCfg) (ht : Good applyFn t) :
    Safe recording Eq (Good applyFn)
      (fun r t' => Good applyFn t' ∧ ∃ ops, Grown t ops t' ∧ Runs applyFn ops r.1)
      (applyWithHeartbeats cfg applyFn) t := by
  unfold applyWithHeartbeats
  split
  · exact withHeartbeats_safe applyFn false ht
  · exact (inline_safe applyFn ht).seq fun _ _ h => h

end apply

/-! ## The loop -/

section loop
variable {Op : Type} {Res : Op → Type} {applyFn : Prog Op Res ApplyResult} {t t' : Trace Res}
  {pending : List Nat}

structure AtLoop (applyFn : Prog Op Res ApplyResult) (pending : List Nat) (t : Trace Res) :
    Prop where
  good : Good applyFn t
  balance : delivered t = acked t ++ pending
  sound : NoFailedApply t

theorem AtLoop.quiet (h : AtLoop applyFn pending t) (ho : Quiet o) (r : DeliveryRes Res o) :
    AtLoop applyFn pending (t ++ [⟨o, r⟩]) := by
  have hq := quietTrace_singleton ho r
  refine ⟨h.good.quiet ho r, ?_, h.sound.append hq.sound⟩
  rw [delivered_append, acked_append, hq.delivered, hq.acked, append_nil, append_nil]
  exact h.balance

structure Flushing (applyFn : Prog Op Res ApplyResult) (pending : List Nat) (t : Trace Res) : Prop
    extends AtLoop applyFn pending t where
  applied : ∃ before during after,
    t = before ++ ⟨.begin, ()⟩ :: during ++ ⟨.finish (.returned true), ()⟩ :: after ∧
      (∀ tag ∈ pending, tag ∈ delivered before) ∧ Runs applyFn (applied during) (.returned true)

theorem Flushing.ack {tag : Nat} (h : Flushing applyFn (tag :: pending) t) (ok : Bool) :
    Flushing applyFn pending (t ++ [⟨.ack tag, ok⟩]) := by
  obtain ⟨before, during, after, heq, hcov, hrun⟩ := h.applied
  have hack : Acknowledged applyFn t tag := by
    refine ⟨⟨before, during, after, heq, hcov tag mem_cons_self, hrun⟩, ?_, h.sound⟩
    rw [h.balance]
    exact ⟨pending, by rw [append_assoc]; rfl⟩
  refine ⟨⟨h.good.snoc fun tag' htag => ?_, ?_, ?_⟩, before, during, after ++ [⟨.ack tag, ok⟩], ?_,
    fun tag' h' => hcov tag' (mem_cons_of_mem tag h'), hrun⟩
  · cases htag
    exact hack
  · rw [delivered_append, acked_append, h.balance]
    show acked t ++ tag :: pending ++ [] = acked t ++ [tag] ++ pending
    rw [append_nil, append_assoc]
    rfl
  · refine h.sound.append fun e he r hr => ?_
    obtain rfl := mem_singleton.1 he
    cases hr
  · rw [heq]
    simp only [append_assoc, cons_append]

theorem ackAll_safe (h : Flushing applyFn pending t) :
    Safe recording Eq (Good applyFn) (fun ok t' => ok = true → AtLoop applyFn [] t')
      (ackAll pending) t := by
  induction pending generalizing t with
  | nil => exact fun _ => h.toAtLoop
  | cons tag pending ih =>
    rintro _ rfl _ ok _ rfl
    have hack := h.ack ok
    refine ⟨hack.good, ?_⟩
    cases ok with
    | false => exact fun h => (nomatch h)
    | true => exact ih hack

theorem AtLoop.finish (h : AtLoop applyFn pending t) (hgrown : Grown (t ++ [⟨.begin, ()⟩]) ops t')
    (hgood : Good applyFn t') (hrun : Runs applyFn ops (.returned true)) :
    Flushing applyFn pending (t' ++ [⟨.finish (.returned true), ()⟩]) := by
  obtain ⟨during, rfl, hq, rfl⟩ := hgrown
  refine ⟨⟨hgood.snoc fun tag htag => (nomatch htag), ?_, ?_⟩, t, during, [], ?_, ?_, hrun⟩
  · simp only [delivered_append, acked_append, hq.delivered, hq.acked]
    show delivered t ++ [] ++ [] ++ [] = acked t ++ [] ++ [] ++ [] ++ pending
    simp only [append_nil]
    exact h.balance
  · refine (NoFailedApply.append (h.quiet (o := .begin) trivial ()).sound hq.sound).append ?_
    intro e he r hr
    obtain rfl := mem_singleton.1 he
    cases hr
    rfl
  · simp only [append_assoc, cons_append, nil_append]
  · intro tag htag
    rw [h.balance]
    exact mem_append_right _ htag

theorem flush_safe (cfg : DeliveryCfg) (h : AtLoop applyFn pending t) :
    Safe recording Eq (Good applyFn) (fun r t' => ∀ now, r = some now → AtLoop applyFn [] t')
      (flush cfg applyFn pending) t := by
  rintro _ rfl _ ⟨⟩ _ rfl
  have hb := (h.quiet (o := .begin) trivial ()).good
  refine ⟨hb, (applyWithHeartbeats_safe cfg hb).seq ?_⟩
  rintro ⟨res, broken⟩ t₁ ⟨hgood, ops, hgrown, hrun⟩
  rintro _ rfl _ ⟨⟩ _ rfl
  refine ⟨hgood.snoc fun tag htag => (nomatch htag), ?_⟩
  by_cases hres : res ≠ .returned true ∨ broken = true
  · rw [if_pos hres]
    exact fun now hnow => (nomatch hnow)
  rw [if_neg hres]
  rw [not_or, not_not] at hres
  obtain ⟨rfl, _⟩ := hres
  refine (ackAll_safe (h.finish hgrown hgood hrun)).seq ?_
  intro ok t₂ hok
  cases ok with
  | false => exact fun now hnow => (nomatch hnow)
  | true =>
    rintro _ rfl _ now _ rfl
    have hm := (hok rfl).quiet (o := .monotonic) trivial now
    exact ⟨hm.good, fun _ _ => hm⟩

theorem reconcileDue_safe (cfg : DeliveryCfg) (lastSuccess : Nat) (h : AtLoop applyFn pending t) :
    Safe recording Eq (Good applyFn) (fun _ => AtLoop applyFn pending)
      (reconcileDue cfg lastSuccess) t := by
  unfold reconcileDue
  split
  · exact h
  rintro _ rfl _ now _ rfl
  have hm := h.quiet (o := .monotonic) trivial now
  exact ⟨hm.good, hm⟩

theorem AtLoop.consume (h : AtLoop applyFn pending t) (item : ConsumeItem) :
    AtLoop applyFn (pending ++ delivered ([⟨.consume, item⟩] : Trace Res))
      (t ++ [⟨.consume, item⟩]) := by
  refine ⟨h.good.snoc fun tag htag => (nomatch htag), ?_, h.sound.append fun e he r hr => ?_⟩
  · rw [delivered_append, acked_append, h.balance]
    show acked t ++ pending ++ _ = acked t ++ [] ++ (pending ++ _)
    rw [append_nil, append_assoc]
  · obtain rfl := mem_singleton.1 he
    cases hr

theorem consumeLoop_safe (cfg : DeliveryCfg) (n : Nat) (lastSuccess : Nat)
    (h : AtLoop applyFn pending t) :
    Safe recording Eq (Good applyFn) (fun _ _ => True)
      (consumeLoop cfg applyFn n pending lastSuccess) t := by
  induction n generalizing pending lastSuccess t with
  | zero => trivial
  | succ n ih =>
    rintro _ rfl _ item _ rfl
    -- behind the answer, a turn flushes what is pending or keeps it
    have hturn {pending : List Nat} {t : Trace Res} (hat : AtLoop applyFn pending t)
        (go : Bool → Prop) [DecidablePred go] : Safe recording Eq (Good applyFn) (fun _ _ => True)
          (perform DeliveryOp.isRunning >>= fun (running : Bool) =>
            if running = false then pure ConsumeEnd.stopped
            else reconcileDue cfg lastSuccess >>= fun due =>
              if go due then
                flush cfg applyFn pending >>= fun r =>
                  match r with
                  | none => pure .raised
                  | some now => consumeLoop cfg applyFn n [] now
              else consumeLoop cfg applyFn n pending lastSuccess) t := by
      rintro _ rfl _ running _ rfl
      have hrun := hat.quiet (o := .isRunning) trivial running
      refine ⟨hrun.good, ?_⟩
      cases running with
      | false => trivial
      | true =>
        refine (reconcileDue_safe cfg lastSuccess hrun).seq ?_
        intro due t' hdue
        by_cases hgo : go due
        · rw [if_pos hgo]
          refine (flush_safe cfg hdue).seq ?_
          intro r t' hr
          cases r with
          | none => trivial
          | some now => exact ih now (hr now rfl)
        · rw [if_neg hgo]
          exact ih lastSuccess hdue
    cases item with
    | closed | raised => exact ⟨h.good.snoc fun tag htag => (nomatch htag), trivial⟩
    | delivery tag =>
      have hrec := h.consume (.delivery tag)
      exact ⟨hrec.good, hturn hrec _⟩
    | inactive =>
      have hpause := h.consume .inactive
      rw [show pending ++ delivered _ = pending from append_nil _] at hpause
      exact ⟨hpause.good, hturn hpause _⟩

theorem consumeAfterApply_good {n : Nat}
    (h : Runs (consumeAfterApply cfg applyFn n) t e) : Good applyFn t := by
  have hstart : AtLoop applyFn [] ([] : Trace Res) := ⟨good_nil, rfl, fun _ h => (nomatch h)⟩
  have hsafe : Safe recording Eq (Good applyFn) (fun _ _ => True)
      (consumeAfterApply cfg applyFn n) [] := by
    unfold consumeAfterApply
    split
    · trivial
    rintro _ rfl _ ok _ rfl
    have hq := hstart.quiet (o := .qos cfg.maxPending) trivial ok
    refine ⟨hq.good, ?_⟩
    cases ok with
    | false => trivial
    | true =>
      refine (flush_safe cfg hq).seq ?_
      intro r t' hr
      cases r with
      | none => trivial
      | some now => exact consumeLoop_safe cfg n now (hr now rfl)
  exact (hsafe.exec (fun _ => rfl) hstart.good (h.exec [])).1

theorem Good.acked_prefix (h : Good applyFn t) : acked t <+: delivered t := by
  induction t using reverseRecOn with
  | nil => exact prefix_rfl
  | append_singleton t e ih =>
    have ht : Good applyFn t := by
      rintro a tag ok b rfl
      exact h a tag ok (b ++ [e]) (by rw [append_assoc, cons_append])
    rw [acked_append, delivered_append]
    have hkeep : acked t <+: delivered t ++ delivered [e] := (ih ht).trans (prefix_append ..)
    obtain ⟨o, r⟩ := e
    cases o with
    | ack tag => exact (h t tag r [] rfl).next.trans (prefix_append ..)
    | _ =>
      show acked t ++ [] <+: _
      rw [append_nil]
      exact hkeep

theorem Good.acked_after_failure (h : Good applyFn t) {a b : Trace Res} {r : ApplyResult}
    (ht : t = a ++ ⟨.finish r, ()⟩ :: b) (hr : r ≠ .returned true) : acked b = [] := by
  cases hb : acked b with
  | nil => rfl
  | cons tag tags =>
    have hmem : tag ∈ acked b := hb ▸ mem_cons_self
    obtain ⟨⟨o, ok⟩, he, htag⟩ := mem_filterMap.1 hmem
    cases o with
    | ack tag' =>
      obtain ⟨b₁, b₂, rfl⟩ := append_of_mem he
      have hack := h (a ++ ⟨.finish r, ()⟩ :: b₁) tag' ok b₂ (by rw [ht, append_assoc, cons_append])
      exact absurd (hack.sound ⟨.finish r, ()⟩ (mem_append_right _ mem_cons_self) r rfl) hr
    | _ => cases htag

end loop

end SolariNet
