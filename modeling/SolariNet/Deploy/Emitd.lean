/-
# The outbox emitter

`deploy/sorsync/sor_emitd.py`: rows of `sor_outbox` are published in batches above a checkpoint
that is kept in the database.  Any number of emitters run at once; each remembers the checkpoint
it has reached, and on any error it reconnects and reads the durable one again.

One turn of the inner loop of `run`, or one attempt to connect, is a program (`emitTurn`) over the
statements and the broker.  The transactions that append to the outbox are moves of the
environment: they get the ids of their rows when they insert them and show them when they commit.
-/
import SolariNet.Lib.Feed
import SolariNet.Lib.System

namespace SolariNet

open Lib Lib.Prog

/-! ## The program -/

inductive OutboxAction where
  | insert
  | update
  | delete
  deriving DecidableEq, Repr

def OutboxAction.name : OutboxAction → String
  | .insert => "insert"
  | .update => "update"
  | .delete => "delete"

structure OutboxRow where
  tableName : String
  rowId : Option Nat
  action : OutboxAction
  ts : Int

structure EmitCfg where
  exchange : String
  batch : Nat
  optional : List String

structure EmitMessage where
  exchange : String
  routingKey : String
  outboxId : Nat
  table : String
  rowId : Option Nat
  action : OutboxAction
  ts : Int
  mandatory : Bool

def emitMessage (cfg : EmitCfg) (r : FeedRow Nat OutboxRow) : EmitMessage where
  exchange := cfg.exchange
  routingKey := "sor." ++ r.data.tableName ++ "." ++ r.data.action.name
  outboxId := r.id
  table := r.data.tableName
  rowId := r.data.rowId
  action := r.data.action
  ts := r.data.ts
  mandatory := !cfg.optional.contains r.data.tableName

inductive EmitOp where
  | getCheckpoint
  | select (cp batch : Nat)
  | publish (m : EmitMessage)
  | setCheckpoint (v : Nat)
  | heartbeat

def EmitRes : EmitOp → Type
  | .getCheckpoint => Option Nat
  | .select _ _ => Option (List (FeedRow Nat OutboxRow))
  | .publish _ => Bool
  | .setCheckpoint _ => Bool
  | .heartbeat => Bool

abbrev EmitM : Type → Type := Prog EmitOp EmitRes

def publishRows (cfg : EmitCfg) : List (FeedRow Nat OutboxRow) → Nat → EmitM (Option Nat)
  | [], confirmed => pure (some confirmed)
  | r :: rows, _ =>
    perform (EmitOp.publish (emitMessage cfg r)) >>= fun (ok : Bool) =>
      if ok = false then pure none else publishRows cfg rows r.id

def publishBatch (cfg : EmitCfg) (rows : List (FeedRow Nat OutboxRow)) (checkpoint : Nat) :
    EmitM (Option Nat) := do
  let confirmed ← publishRows cfg rows checkpoint
  match confirmed with
  | none => pure none
  | some v =>
    if rows.isEmpty then pure (some v)
    else perform (EmitOp.setCheckpoint v) >>= fun (ok : Bool) =>
      pure (if ok = false then none else some v)

def emitRows (cfg : EmitCfg) (cp : Nat) (rows : List (FeedRow Nat OutboxRow)) :
    EmitM (Option Nat) :=
  if rows.isEmpty then
    perform EmitOp.heartbeat >>= fun (ok : Bool) => pure (if ok = false then none else some cp)
  else publishBatch cfg rows cp

/-- One turn: without a connection (`none`) the emitter connects, with one it polls.  An exception
ends in `none`. -/
def emitTurn (cfg : EmitCfg) : Option Nat → EmitM (Option Nat)
  | none => perform EmitOp.getCheckpoint
  | some cp =>
    perform (EmitOp.select cp cfg.batch) >>= fun (rows : Option (List (FeedRow Nat OutboxRow))) =>
      match rows with
      | none => pure none
      | some rows => emitRows cfg cp rows

/-! ## Emitters over one database -/

structure Outbox where
  tail : Tail Nat OutboxRow
  checkpoint : Option Nat

def Outbox.durable (s : Outbox) : Nat := s.checkpoint.getD 0

/-- `INSERT … ON DUPLICATE KEY UPDATE v=GREATEST(v,VALUES(v))`. -/
def Outbox.advance (s : Outbox) (v : Nat) : Outbox :=
  { s with checkpoint := some (match s.checkpoint with | none => v | some c => max c v) }

/-- A publish that raises has not been confirmed; a statement that raises may have been done. -/
def emitSem : Sem EmitOp EmitRes Outbox
  | .getCheckpoint, s, r, s' => s' = s ∧ (r = none ∨ r = some s.durable)
  | .select cp n, s, r, s' => (r = none ∧ s' = s) ∨ (r = some (s.tail.feed.select cp n) ∧
        s' = { s with tail := s.tail.read (s.tail.feed.select cp n) })
  | .publish m, s, ok, s' => (ok = false ∧ s' = s) ∨
      (ok = true ∧ s' = { s with tail := s.tail.settle m.outboxId })
  | .setCheckpoint v, s, ok, s' => (ok = false ∧ s' = s) ∨ s' = s.advance v
  | .heartbeat, s, _, s' => s' = s

/-- Emitters `ι`, with the transactions that write the outbox; `ok` says which commits there are. -/
def emitSystem {ι : Type} (cfg : ι → EmitCfg) (ok : Tail Nat OutboxRow → Nat → Prop) :
    System ι EmitOp EmitRes Outbox (Option Nat) where
  sem := fun _ => emitSem
  start := fun i m p => p = emitTurn (cfg i) m
  env := fun s s' => Tail.Moves ok s.tail s'.tail ∧ s'.checkpoint = s.checkpoint
  boot := fun _ m => m = none

def Outbox.Unread (s : Outbox) : Prop :=
  s.tail.selected = [] ∧ s.tail.settled = [] ∧ s.durable = 0

/-! ## Coverage of the durable checkpoint -/

def EmitInv (s : Outbox) : Prop := Tail.Covers [] s.durable s.tail

def Reached (m : Option Nat) (s : Outbox) : Prop := ∀ cp, m = some cp → Tail.Covers [] cp s.tail

def EmitRely (s s' : Outbox) : Prop := Tail.Advances s.tail s'.tail

theorem durable_advance (s : Outbox) (v : Nat) :
    (s.advance v).durable = s.durable ∨ (s.advance v).durable = v := by
  unfold Outbox.durable Outbox.advance
  cases s.checkpoint with
  | none => exact .inr rfl
  | some c =>
    rcases Nat.le_total c v with h | h
    · exact .inr (Nat.max_eq_right h)
    · exact .inl (Nat.max_eq_left h)

theorem emitSem_advances (h : emitSem o s r s') :
    EmitRely s s' := by
  cases o with
  | getCheckpoint =>
    obtain ⟨rfl, _⟩ := h
    exact Tail.Advances.refl _
  | select cp n =>
    rcases h with ⟨_, rfl⟩ | ⟨_, rfl⟩
    · exact Tail.Advances.refl _
    · exact Tail.advances_read ..
  | publish m =>
    rcases h with ⟨_, rfl⟩ | ⟨_, rfl⟩
    · exact Tail.Advances.refl _
    · exact Tail.advances_settle ..
  | setCheckpoint v =>
    rcases h with ⟨_, rfl⟩ | rfl
    · exact Tail.Advances.refl _
    · exact Tail.Advances.refl _
  | heartbeat =>
    cases h
    exact Tail.Advances.refl _

variable {s : Outbox}

theorem publishRows_safe (cfg : EmitCfg) {rows : List (FeedRow Nat OutboxRow)} {v w : Nat}
    (hlast : (rows.getLast?.map FeedRow.id).getD w = v)
    (hs : Tail.Covers (rows.map FeedRow.id) v s.tail) :
    Safe emitSem EmitRely EmitInv
      (fun r s' => ∀ c, r = some c → c = v ∧ Tail.Covers [] v s'.tail)
      (publishRows cfg rows w) s := by
  induction rows generalizing w s with
  | nil =>
    intro c hc
    cases hc
    exact ⟨hlast, hs⟩
  | cons r rows ih =>
    intro s₁ hadv hinv ok s₂ hpub
    have hs₁ := hs.advance hadv
    rcases hpub with ⟨rfl, rfl⟩ | ⟨rfl, rfl⟩
    · exact ⟨hinv, fun c hc => (nomatch hc)⟩
    refine ⟨hinv.advance (Tail.advances_settle ..), ih ?_ hs₁.settle⟩
    rw [← hlast, List.getLast?_cons]
    cases rows.getLast? <;> rfl

theorem publishBatch_safe (cfg : EmitCfg) {rows : List (FeedRow Nat OutboxRow)}
    (hlast : rows.getLast? = some last) (cp : Nat)
    (hs : Tail.Covers (rows.map FeedRow.id) last.id s.tail) :
    Safe emitSem EmitRely EmitInv Reached (publishBatch cfg rows cp) s := by
  refine (publishRows_safe cfg (by rw [hlast]; rfl) hs).seq ?_
  intro r s₁ hr
  cases r with
  | none => exact fun cp h => (nomatch h)
  | some c =>
    obtain ⟨rfl, hc⟩ := hr c rfl
    have hne : rows.isEmpty = false := by
      cases rows with
      | nil => cases hlast
      | cons => rfl
    rw [hne]
    intro s₂ hadv hinv ok s₃ hset
    have hc₂ := hc.advance hadv
    rcases hset with ⟨rfl, rfl⟩ | rfl
    · exact ⟨hinv, fun cp h => (nomatch h)⟩
    refine ⟨?_, fun cp h => ?_⟩
    · unfold EmitInv
      rcases durable_advance s₂ last.id with he | he
      · rw [he]
        exact hinv
      · rw [he]
        exact hc₂
    · cases ok with
      | false => cases h
      | true =>
        cases h
        exact hc₂

theorem emitRows_safe (cfg : EmitCfg) {cp n : Nat} (hs : Tail.Covers [] cp s.tail) :
    Safe emitSem EmitRely EmitInv Reached (emitRows cfg cp (s.tail.feed.select cp n))
      { s with tail := s.tail.read (s.tail.feed.select cp n) } := by
  unfold emitRows
  cases hl : (s.tail.feed.select cp n).getLast? with
  | none =>
    rw [List.getLast?_eq_none_iff.1 hl]
    intro s₁ hadv hinv ok s₂ hbeat
    cases hbeat
    refine ⟨hinv, fun c hc => ?_⟩
    cases ok with
    | false => cases hc
    | true =>
      cases hc
      exact (hs.advance (Tail.advances_read ..)).advance hadv
  | some last =>
    have hmem := List.mem_of_getLast? hl
    have hne : ¬ (s.tail.feed.select cp n).isEmpty = true := by
      rw [List.isEmpty_iff]
      exact List.ne_nil_of_mem hmem
    rw [if_neg hne]
    exact publishBatch_safe cfg hl cp (Tail.covers_read hs hmem)

theorem emitTurn_safe (cfg : EmitCfg) (m : Option Nat) (hs : Reached m s) :
    Safe emitSem EmitRely EmitInv Reached (emitTurn cfg m) s := by
  cases m with
  | none =>
    rintro s₁ _ hinv r _ ⟨rfl, hr⟩
    refine ⟨hinv, fun cp hcp => ?_⟩
    rcases hr with rfl | rfl
    · cases hcp
    · cases hcp
      exact hinv
  | some cp =>
    intro s₁ hadv hinv r s₂ hsel
    rcases hsel with ⟨rfl, rfl⟩ | ⟨rfl, rfl⟩
    · exact ⟨hinv, fun cp h => (nomatch h)⟩
    · exact ⟨hinv.advance (Tail.advances_read ..), emitRows_safe cfg ((hs cp rfl).advance hadv)⟩

/-- **The outbox is complete.** If no transaction commits a row at or below an id that was read,
every visible row up to the durable checkpoint has been confirmed, and a poll from there misses
none. -/
theorem outbox_complete {ι : Type} [DecidableEq ι] (cfg : ι → EmitCfg)
    {c c' : Conf ι EmitOp EmitRes Outbox (Option Nat)}
    (hc : (emitSystem cfg Tail.InOrder).Initial Outbox.Unread c)
    (hs : (emitSystem cfg Tail.InOrder).Steps c c') :
    ∀ r ∈ c'.shared.tail.feed.visible, (r.id ≤ c'.shared.durable → r.id ∈ c'.shared.tail.settled) ∧
      (c'.shared.durable < r.id → ∀ n, r ∈ c'.shared.tail.feed.select c'.shared.durable n ∨
        ((c'.shared.tail.feed.select c'.shared.durable n).length = n ∧
          ∀ a ∈ c'.shared.tail.feed.select c'.shared.durable n, a.id < r.id)) := by
  have hrely : (emitSystem cfg Tail.InOrder).Relies EmitInv fun _ => EmitRely :=
    { refl := fun _ s => Tail.Advances.refl s.tail
      trans := fun _ _ _ _ => Tail.Advances.trans
      other := fun _ _ _ _ _ _ _ _ _ => emitSem_advances
      env := fun _ _ _ _ _ h => h.1.advances fun _ _ h => h }
  have hinv : EmitInv c'.shared := by
    refine (System.invariant (A := fun _ => Reached) hrely ?_ ?_ ?_ ?_ ?_ hc hs).1
    · exact fun _ m s s' hm hadv _ cp hcp => (hm cp hcp).advance hadv
    · rintro i m p s rfl _ hm
      exact emitTurn_safe (cfg i) m hm
    · rintro s s' hinv ⟨hmove, hcp⟩
      have hd : s'.durable = s.durable := congrArg (Option.getD · 0) hcp
      unfold EmitInv
      rw [hd]
      exact Tail.Covers.advance hinv (hmove.advances fun _ _ h => h)
    · rintro i m s rfl _ cp hcp
      cases hcp
    · rintro s ⟨_, _, h0⟩
      unfold EmitInv
      rw [h0]
      exact Tail.covers_zero s.tail
  intro r hr
  refine ⟨fun hle => ?_, fun hlt n => Feed.select_complete n hr hlt⟩
  exact (hinv.settled r hr hle).resolve_right (fun h => nomatch h)

/-! ## Two transactions and one emitter -/

def entityChange (rowId : Nat) : OutboxRow := ⟨"entities", some rowId, .update, 0⟩

def emitDefaults : EmitCfg := ⟨"sor.events", 500, []⟩

def outboxAt (feed : Feed Nat OutboxRow) (ids : List Nat) (checkpoint : Option Nat) : Outbox :=
  ⟨⟨feed, ids, ids⟩, checkpoint⟩

abbrev oneEmitter (ok : Tail Nat OutboxRow → Nat → Prop) :=
  emitSystem (fun _ : Unit => emitDefaults) ok

section runs
variable {ok : Tail Nat OutboxRow → Nat → Prop} {ids : List Nat} {last : Option Nat} {cp : Nat}

theorem emitter_steps {m m' : Option Nat}
    (h : Exec emitSem (emitTurn emitDefaults m) s m' s') :
    (oneEmitter ok).Steps ⟨s, fun _ => .idle m⟩ ⟨s', fun _ => .idle m'⟩ :=
  System.steps_call (i := ()) rfl rfl (h.mono fun _ _ _ _ => System.pausing_now)

theorem writer_step {m : Option Nat} (h : Tail.Moves ok ⟨feed, ids, ids⟩ ⟨feed', ids, ids⟩) :
    (oneEmitter ok).Steps ⟨outboxAt feed ids last, fun _ => .idle m⟩
      ⟨outboxAt feed' ids last, fun _ => .idle m⟩ :=
  .single (.env ⟨h, rfl⟩)

theorem emitter_connects : (oneEmitter ok).Steps ⟨outboxAt feed ids none, fun _ => .idle none⟩
    ⟨outboxAt feed ids none, fun _ => .idle (some 0)⟩ :=
  emitter_steps (.call ⟨rfl, .inr rfl⟩ (.ret _ _))

theorem emitter_publishes (h : feed.select cp emitDefaults.batch = [r]) :
    (oneEmitter ok).Steps ⟨outboxAt feed ids last, fun _ => .idle (some cp)⟩
      ⟨(outboxAt feed (r.id :: ids) last).advance r.id, fun _ => .idle (some r.id)⟩ := by
  have hrow : Exec emitSem (emitRows emitDefaults cp [r]) ⟨⟨feed, r.id :: ids, ids⟩, last⟩
      (some r.id) ((outboxAt feed (r.id :: ids) last).advance r.id) :=
    Exec.call_iff.2 ⟨true, _, .inr ⟨rfl, rfl⟩, Exec.call_iff.2 ⟨true, _, .inr rfl, .ret _ _⟩⟩
  have hread : Tail.read ⟨feed, ids, ids⟩ (feed.select cp emitDefaults.batch) =
      ⟨feed, r.id :: ids, ids⟩ := by rw [h]; rfl
  exact emitter_steps (Exec.call_iff.2
    ⟨some [r], _, .inr ⟨congrArg some h.symm, rfl⟩, hread ▸ hrow⟩)

end runs

/-- The emitter publishes a row, and a second one that is committed after it. -/
theorem outbox_complete_two : ∃ c', (oneEmitter Tail.InOrder).Steps
        ⟨outboxAt .empty [] none, fun _ => .idle none⟩ c' ∧
      c'.shared.durable = 2 ∧ 1 ∈ c'.shared.tail.settled := by
  have hrun : (oneEmitter Tail.InOrder).Steps ⟨outboxAt .empty [] none, fun _ => .idle none⟩ _ :=
    ((((((writer_step (.insert _ 1 (entityChange 7))).trans
      (writer_step (.commit _ 1 fun r _ _ v hv => (nomatch hv)))).trans emitter_connects).trans
      (emitter_publishes (r := ⟨1, none, entityChange 7⟩) rfl)).trans
      (writer_step (.insert _ 2 (entityChange 8)))).trans
      (writer_step (.commit _ 2 (by unfold Tail.InOrder; decide)))).trans
      (emitter_publishes (r := ⟨2, none, entityChange 8⟩) rfl)
  exact ⟨_, hrun, rfl, (outbox_complete (fun _ : Unit => emitDefaults)
    ⟨⟨rfl, rfl, rfl⟩, fun _ => ⟨none, rfl, rfl⟩⟩ hrun ⟨1, none, entityChange 7⟩
    List.mem_cons_self).1 (Nat.le_succ 1)⟩

/-- Transaction 1 inserts before transaction 2 and commits after it, with a poll in between: no poll
will select its row. -/
theorem late_commit_passed_over :
    ∃ c c', (oneEmitter fun _ _ => True).Initial Outbox.Unread c ∧
      (oneEmitter fun _ _ => True).Steps c c' ∧
      ∃ r ∈ c'.shared.tail.feed.visible, r.id ≤ c'.shared.durable ∧ r.id ∉ c'.shared.tail.settled ∧
        ∀ n, r ∉ c'.shared.tail.feed.select c'.shared.durable n := by
  have hrun : (oneEmitter fun _ _ => True).Steps
      ⟨outboxAt .empty [] none, fun _ => .idle none⟩ _ :=
    (((((writer_step (.insert _ 1 (entityChange 7))).trans
      (writer_step (.insert _ 2 (entityChange 8)))).trans
      (writer_step (.commit _ 2 trivial))).trans emitter_connects).trans
      (emitter_publishes (r := ⟨2, none, entityChange 8⟩) rfl)).trans
      (writer_step (.commit _ 1 trivial))
  refine ⟨_, _, ⟨⟨rfl, rfl, rfl⟩, fun _ => ⟨none, rfl, rfl⟩⟩, hrun, ⟨1, none, entityChange 7⟩,
    List.mem_cons_self, by decide, by decide, fun n hmem => ?_⟩
  exact absurd (Feed.mem_select hmem).2 (by decide)

end SolariNet
