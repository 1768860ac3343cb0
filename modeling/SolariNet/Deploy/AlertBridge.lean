/-
# Alerts to the message queue

`deploy/alertbridge/alertbridge.py`: the rows of `alertEvent` above a checkpoint are published one
by one; behind each confirmed (or suppressed) row the new checkpoint is saved to a state file
before the next one is looked at.  The same file keeps the nodes the dead-man's switch has
announced as silent, so the switch saves the checkpoint too.

One attempt to connect or one turn of the inner loop of `run` is a program (`bridgeTurn`); the
transactions that insert alert rows are moves of the environment.
-/
import Mathlib.Data.List.Infix
import SolariNet.Lib.Feed
import SolariNet.Lib.System

namespace SolariNet

open List Lib Lib.Prog

/-! ## Outcomes -/

inductive AlertKind where
  | fired
  | cleared
  | audit
  deriving DecidableEq, Repr

inductive Outcome where
  | publish
  | suppress
  deriving DecidableEq, Repr

structure BridgeRow where
  nodeId : Option Nat
  targetId : Option (List Char)
  eventKind : Option AlertKind
  disposition : Option Outcome

def BridgeRow.asRead (r : BridgeRow) (columns : Bool) : BridgeRow :=
  if columns then r else { r with eventKind := none, disposition := none }

structure Maint where
  nodes : List Nat
  ips : List (List Char)
  fleet : Bool

/-- The address of a window in a target id of the form `<monNode>:<ip>:<port>`. -/
def targetsIp (t ip : List Char) : Bool :=
  decide ((':' :: ip ++ [':']) <:+: t) || (':' :: ip).isSuffixOf t || t == ip

def maintSuppressed (nodeId : Option Nat) (target : Option (List Char)) (maint : Maint) : Bool :=
  maint.fleet || (nodeId.any fun n => maint.nodes.contains n) ||
    (target.any fun t => !t.isEmpty && maint.ips.any (targetsIp t))

def resolveOutcome (row : BridgeRow) (maint : Maint) : Outcome :=
  if row.eventKind = some .audit then .suppress
  else if row.disposition = some .suppress then .suppress
  else if maintSuppressed row.nodeId row.targetId maint then .suppress
  else .publish

/-! ## The program -/

structure BridgeState where
  checkpoint : Nat
  silent : List (Nat × String)

def BridgeState.fresh : BridgeState := ⟨0, []⟩

def BridgeState.at (st : BridgeState) (eid : Nat) : BridgeState := { st with checkpoint := eid }

structure BridgeCfg where
  batch : Nat
  threshold : Nat
  deadman : Bool

structure NodeAge where
  nodeId : Nat
  fqdn : String
  age : Nat

inductive SaveSite where
  | suppressed (eid : Nat)
  | delivered
  | deadman

inductive BridgeOp where
  | loadState
  | maintenance
  | columns
  | select (cp batch : Nat)
  | publish (r : FeedRow Nat BridgeRow)
  | save (st : BridgeState) (site : SaveSite)
  | nodeAges
  | announce (nodeId : Nat) (crit : Bool)
  | heartbeat

def BridgeRes : BridgeOp → Type
  | .loadState => Option BridgeState
  | .maintenance => Maint
  | .columns => Bool
  | .select _ _ => Option (List (FeedRow Nat BridgeRow))
  | .publish _ => Bool
  | .save _ _ => Bool
  | .nodeAges => Option (List NodeAge)
  | .announce _ _ => Bool
  | .heartbeat => Bool

abbrev BridgeM : Type → Type := Prog BridgeOp BridgeRes

/-- The loop of `bridge_alerts`.  A row that cannot be delivered or saved ends it; the checkpoint
in memory is then the persisted one. -/
def bridgeAlerts (columns : Bool) (maint : Maint) :
    List (FeedRow Nat BridgeRow) → BridgeState → BridgeM BridgeState
  | [], st => pure st
  | r :: rows, st =>
    match resolveOutcome (r.data.asRead columns) maint with
    | .suppress =>
      perform (BridgeOp.save (st.at r.id) (.suppressed r.id)) >>= fun (ok : Bool) =>
          if ok = false then pure st else bridgeAlerts columns maint rows (st.at r.id)
    | .publish =>
      perform (BridgeOp.publish r) >>= fun (confirmed : Bool) =>
        if confirmed = false then pure st
        else perform (BridgeOp.save (st.at r.id) .delivered) >>= fun (ok : Bool) =>
          if ok = false then pure st else bridgeAlerts columns maint rows (st.at r.id)

def BridgeState.isSilent (st : BridgeState) (nodeId : Nat) : Bool :=
  st.silent.any (·.1 == nodeId)

def BridgeState.disarm (st : BridgeState) (nodeId : Nat) : BridgeState :=
  { st with silent := st.silent.filter (·.1 != nodeId) }

def BridgeState.arm (st : BridgeState) (nodeId : Nat) (fqdn : String) : BridgeState :=
  { st with silent := st.silent ++ [(nodeId, fqdn)] }

def deadMansSwitch (threshold : Nat) (maint : Maint) :
    List NodeAge → BridgeState → BridgeM BridgeState
  | [], st => pure st
  | n :: ages, st =>
    if maintSuppressed (some n.nodeId) none maint then
      if st.isSilent n.nodeId then
        -- the result of this save is not looked at
        perform (BridgeOp.save (st.disarm n.nodeId) .deadman) >>= fun (_ : Bool) =>
          deadMansSwitch threshold maint ages (st.disarm n.nodeId)
      else deadMansSwitch threshold maint ages st
    else if n.age > threshold then
      if st.isSilent n.nodeId then deadMansSwitch threshold maint ages st
      else perform (BridgeOp.announce n.nodeId true) >>= fun (confirmed : Bool) =>
        if confirmed = false then deadMansSwitch threshold maint ages st
        else perform (BridgeOp.save (st.arm n.nodeId n.fqdn) .deadman) >>= fun (ok : Bool) =>
          if ok = false then pure st
          else deadMansSwitch threshold maint ages (st.arm n.nodeId n.fqdn)
    else if st.isSilent n.nodeId then
      perform (BridgeOp.announce n.nodeId false) >>= fun (confirmed : Bool) =>
        if confirmed = false then deadMansSwitch threshold maint ages st
        else perform (BridgeOp.save (st.disarm n.nodeId) .deadman) >>= fun (ok : Bool) =>
          if ok = false then pure st
          else deadMansSwitch threshold maint ages (st.disarm n.nodeId)
    else deadMansSwitch threshold maint ages st

/-- `dead_mans_switch`, if it is on; `none` when `node_ages` raises. -/
def deadMansTurn (cfg : BridgeCfg) (maint : Maint) (st : BridgeState) :
    BridgeM (Option BridgeState) :=
  if cfg.deadman = false then pure (some st)
  else perform BridgeOp.nodeAges >>= fun (ages : Option (List NodeAge)) =>
    match ages with
    | none => pure none
    | some ages => deadMansSwitch cfg.threshold maint ages st >>= fun st => pure (some st)

def bridgeBeat : Option BridgeState → BridgeM (Option BridgeState)
  | none => pure none
  | some st => perform BridgeOp.heartbeat >>= fun (ok : Bool) =>
    pure (if ok = false then none else some st)

def bridgeCycle (cfg : BridgeCfg) (st : BridgeState) : BridgeM (Option BridgeState) :=
  perform BridgeOp.maintenance >>= fun (maint : Maint) =>
    perform BridgeOp.columns >>= fun (columns : Bool) =>
      perform (BridgeOp.select st.checkpoint cfg.batch) >>=
        fun (rows : Option (List (FeedRow Nat BridgeRow))) =>
          match rows with
          | none => pure none
          | some rows =>
            bridgeAlerts columns maint rows st >>= fun st =>
              deadMansTurn cfg maint st >>= bridgeBeat

/-- Without a connection (`none`) the bridge connects and loads its state, with one it takes a
turn.  An exception ends in `none`. -/
def bridgeTurn (cfg : BridgeCfg) : Option BridgeState → BridgeM (Option BridgeState)
  | none => perform BridgeOp.loadState
  | some st => bridgeCycle cfg st

/-! ## The bridge and its surroundings -/

inductive BridgeEvent where
  | loaded
  | unreadable
  | confirmed (eid : Nat)
  | suppressed (eid : Nat) (columns : Bool) (maint : Maint)
  | saved
  | saveFailed

/-- `columns` and `maint` are what the two queries of the turn were answered. -/
structure Bridge where
  tail : Tail Nat BridgeRow
  columns : Bool
  maint : Maint
  file : Option BridgeState
  log : List BridgeEvent

def Bridge.durable (s : Bridge) : Nat := (s.file.getD .fresh).checkpoint

def Bridge.note (s : Bridge) (e : BridgeEvent) : Bridge := { s with log := e :: s.log }

def Bridge.confirm (s : Bridge) (eid : Nat) : Bridge :=
  { s with tail := s.tail.settle eid, log := .confirmed eid :: s.log }

def Bridge.write (s : Bridge) (st : BridgeState) : SaveSite → Bridge
  | .suppressed eid =>
    { s with
      tail := s.tail.settle eid, file := some st
      log := .suppressed eid s.columns s.maint :: s.log }
  | .delivered | .deadman => { s with file := some st, log := .saved :: s.log }

def bridgeSem : Sem BridgeOp BridgeRes Bridge
  | .loadState, s, r, s' => (r = none ∧ s' = s) ∨
      (r = some (s.file.getD .fresh) ∧ s' = s.note .loaded) ∨
      (r = some .fresh ∧ s' = s.note .unreadable)
  | .select cp n, s, r, s' => (r = none ∧ s' = s) ∨ (r = some (s.tail.feed.select cp n) ∧
        s' = { s with tail := s.tail.read (s.tail.feed.select cp n) })
  | .publish r, s, ok, s' => (ok = false ∧ s' = s) ∨ (ok = true ∧ s' = s.confirm r.id)
  | .save st site, s, ok, s' => (ok = false ∧ s' = s.note .saveFailed) ∨
      (ok = true ∧ s' = s.write st site)
  | .maintenance, s, r, s' => s' = { s with maint := r }
  | .columns, s, r, s' => s' = { s with columns := r }
  | .nodeAges, s, _, s' => s' = s
  | .announce _ _, s, _, s' => s' = s
  | .heartbeat, s, _, s' => s' = s

/-- The bridge, with the transactions that write the alert table; `ok` says which commits there
are. -/
def bridgeSystem (cfg : BridgeCfg) (ok : Tail Nat BridgeRow → Nat → Prop) :
    System Unit BridgeOp BridgeRes Bridge (Option BridgeState) where
  sem := fun _ => bridgeSem
  start := fun _ m p => p = bridgeTurn cfg m
  env := fun s s' => Tail.Moves ok s.tail s'.tail ∧ s' = { s with tail := s'.tail }
  boot := fun _ m => m = none

def Bridge.Untouched (s : Bridge) : Prop :=
  s.tail.selected = [] ∧ s.tail.settled = [] ∧ s.file = none ∧ s.log = []

/-- The confirmations that are not directly followed by a restart. -/
def exposed : List BridgeEvent → List Nat
  | [] => []
  | .loaded :: .confirmed _ :: log => exposed log
  | .confirmed eid :: log => eid :: exposed log
  | _ :: log => exposed log

/-- Every save succeeded, and the state file could be read at every start. -/
def NoFailure (log : List BridgeEvent) : Prop :=
  BridgeEvent.saveFailed ∉ log ∧ BridgeEvent.unreadable ∉ log

/-! ## The invariant -/

/-- A settled row was confirmed, or it was resolved to `suppress` in some turn. -/
def Settled (s : Bridge) (eid : Nat) : Prop :=
  .confirmed eid ∈ s.log ∨ ∃ r ∈ s.tail.feed.visible, r.id = eid ∧ ∃ columns maint,
    .suppressed eid columns maint ∈ s.log ∧ resolveOutcome (r.data.asRead columns) maint = .suppress

/-- `P` stands for the assumption that rows are committed in order. -/
structure BridgeInv (P : Prop) (s : Bridge) : Prop where
  covered : P → s.tail.Covers [] s.durable
  settled : ∀ eid ∈ s.tail.settled, Settled s eid
  once : NoFailure s.log → (exposed s.log).Nodup
  bounded : NoFailure s.log →
    ∀ eid ∈ exposed s.log, eid ≤ s.durable ∨ s.log.head? = some (.confirmed eid)

structure BridgeRely (P : Prop) (s s' : Bridge) : Prop where
  grows : s.tail.Grows s'.tail
  advances : P → s.tail.Advances s'.tail
  rest : s' = { s with tail := s'.tail }

structure Synced (P : Prop) (st : BridgeState) (s : Bridge) : Prop where
  covered : P → s.tail.Covers [] st.checkpoint
  durable : NoFailure s.log → st.checkpoint = s.durable
  calm : ∀ eid, s.log.head? ≠ some (.confirmed eid)

def Connected (P : Prop) (m : Option BridgeState) (s : Bridge) : Prop :=
  ∀ st, m = some st → Synced P st s

abbrev BridgeSafe (P : Prop) {α : Type} (Q : α → Bridge → Prop) : BridgeM α → Bridge → Prop :=
  Safe bridgeSem (BridgeRely P) (BridgeInv P) Q

variable {P : Prop} {s s' : Bridge} {st : BridgeState} {log : List BridgeEvent} {eid : Nat}

theorem NoFailure.tail (h : NoFailure (e :: log)) : NoFailure log :=
  ⟨fun hm => h.1 (mem_cons_of_mem e hm), fun hm => h.2 (mem_cons_of_mem e hm)⟩

theorem Settled.mono (h : Settled s eid) (hlog : s.log ⊆ s'.log)
    (hrows : s.tail.feed.visible ⊆ s'.tail.feed.visible) : Settled s' eid := by
  rcases h with h | ⟨r, hr, hid, columns, maint, hs, ho⟩
  · exact .inl (hlog h)
  · exact .inr ⟨r, hrows hr, hid, columns, maint, hlog hs, ho⟩

theorem Settled.later (h : Settled s eid) (e : BridgeEvent) :
    Settled (s.note e) eid := h.mono (subset_cons_self ..) fun _ hr => hr

theorem Synced.rely (h : Synced P st s) (hr : BridgeRely P s s') : Synced P st s' := by
  have hcov := fun hp => (h.covered hp).advance (hr.advances hp)
  rw [hr.rest]
  exact ⟨hcov, h.durable, h.calm⟩

theorem Synced.asked (h : Synced P st s) (columns : Bool) (maint : Maint) :
    Synced P st { s with columns := columns, maint := maint } :=
  ⟨h.covered, h.durable, h.calm⟩

theorem BridgeInv.asked (h : BridgeInv P s) (columns : Bool) (maint : Maint) :
    BridgeInv P { s with columns := columns, maint := maint } :=
  ⟨h.covered, h.settled, h.once, h.bounded⟩

theorem BridgeInv.confirm (h : BridgeInv P s) {eid : Nat}
    (hcalm : ∀ e, s.log.head? ≠ some (.confirmed e))
    (hnew : NoFailure s.log → s.durable < eid) : BridgeInv P (s.confirm eid) := by
  refine ⟨fun hp => (h.covered hp).advance (Tail.advances_settle ..), ?_, ?_, ?_⟩
  · exact forall_mem_cons.2 ⟨.inl mem_cons_self, fun e he => (h.settled e he).later _⟩
  · intro hno
    refine nodup_cons.2 ⟨fun hmem => ?_, h.once hno.tail⟩
    rcases h.bounded hno.tail eid hmem with hle | hhead
    · exact absurd (hnew hno.tail) (Nat.not_lt.2 hle)
    · exact hcalm eid hhead
  · exact fun hno => forall_mem_cons.2 ⟨.inr rfl, fun e he =>
      .inl ((h.bounded hno.tail e he).resolve_right (hcalm e))⟩

theorem BridgeInv.moves {ok : Tail Nat BridgeRow → Nat → Prop}
    (h : BridgeInv (∀ s t, ok s t → s.InOrder t) s) (hmove : Tail.Moves ok s.tail s'.tail)
    (hrest : s' = { s with tail := s'.tail }) : BridgeInv (∀ s t, ok s t → s.InOrder t) s' := by
  generalize s'.tail = tail at hmove hrest
  subst hrest
  refine ⟨fun hp => (h.covered hp).advance (hmove.advances hp), fun eid he => ?_, h.once, h.bounded⟩
  rw [hmove.settled_eq] at he
  exact (h.settled eid he).mono (fun _ he => he) hmove.grows.kept

section write
variable {site : SaveSite}

theorem exposed_write (site : SaveSite) : exposed (s.write st site).log = exposed s.log := by
  cases site <;> rfl

theorem log_write (s : Bridge) (st : BridgeState) (site : SaveSite) :
    ∃ e, (s.write st site).log = e :: s.log ∧
    e ≠ .saveFailed ∧ e ≠ .unreadable ∧ ∀ eid, e ≠ .confirmed eid := by
  cases site <;> exact ⟨_, rfl, by simp, by simp, by simp⟩

theorem durable_write (site : SaveSite) : (s.write st site).durable = st.checkpoint := by
  cases site <;> rfl

theorem noFailure_write : NoFailure (s.write st site).log ↔ NoFailure s.log := by
  obtain ⟨e, he, hf, hu, _⟩ := log_write s st site
  rw [he]
  simp only [NoFailure, mem_cons, not_or]
  exact ⟨fun h => ⟨h.1.2, h.2.2⟩, fun h => ⟨⟨hf.symm, h.1⟩, hu.symm, h.2⟩⟩

theorem BridgeInv.write (h : BridgeInv P s)
    (hcov : P → (s.write st site).tail.Covers [] st.checkpoint)
    (hset : ∀ eid ∈ (s.write st site).tail.settled, Settled (s.write st site) eid)
    (hge : NoFailure s.log → s.durable ≤ st.checkpoint)
    (hhead : ∀ e, s.log.head? = some (.confirmed e) → e ≤ st.checkpoint) :
    BridgeInv P (s.write st site) := by
  refine ⟨?_, hset, ?_, ?_⟩
  · rw [durable_write]
    exact hcov
  · rw [exposed_write, noFailure_write]
    exact h.once
  rw [exposed_write, noFailure_write, durable_write]
  intro hno e he
  rcases h.bounded hno e he with hle | hc
  · exact .inl (Nat.le_trans hle (hge hno))
  · exact .inl (hhead e hc)

end write

theorem BridgeInv.failure (h : BridgeInv P s)
    (hno : ¬ NoFailure (s.note e).log) : BridgeInv P (s.note e) :=
  ⟨h.covered, fun eid he => (h.settled eid he).later e, fun h => absurd h hno,
    fun h => absurd h hno⟩

theorem BridgeInv.saveFailed (h : BridgeInv P s) : BridgeInv P (s.note .saveFailed) :=
  h.failure fun h => h.1 mem_cons_self

theorem Synced.saveFailed (hcov : P → s.tail.Covers [] st.checkpoint) :
    Synced P st (s.note .saveFailed) :=
  ⟨hcov, fun h => absurd mem_cons_self h.1, fun _ h => (nomatch h)⟩

theorem Synced.write (hcov : P → (s.write st site).tail.Covers [] st.checkpoint) :
    Synced P st (s.write st site) := by
  obtain ⟨e, he, _, _, hc⟩ := log_write s st site
  refine ⟨hcov, fun _ => (durable_write site).symm, fun eid h => ?_⟩
  rw [he] at h
  exact hc eid (Option.some.inj h)

theorem Synced.loaded (hcov : P → s.tail.Covers [] st.checkpoint)
    (hst : st.checkpoint = s.durable) : Synced P st (s.note .loaded) :=
  ⟨hcov, fun _ => hst, fun _ h => (nomatch h)⟩

theorem exposed_loaded (h : ∀ eid, log.head? ≠ some (.confirmed eid)) :
    exposed (.loaded :: log) = exposed log := by
  cases log with
  | nil => rfl
  | cons e log =>
    cases e with
    | confirmed eid => exact absurd rfl (h eid)
    | _ => rfl

theorem BridgeInv.loaded (h : BridgeInv P s) : BridgeInv P (s.note .loaded) := by
  have hset : ∀ eid ∈ s.tail.settled, Settled (s.note .loaded) eid := fun eid he =>
    (h.settled eid he).later _
  by_cases hc : ∃ eid, s.log.head? = some (.confirmed eid)
  · obtain ⟨eid, hc⟩ := hc
    obtain ⟨rest, hl⟩ := List.head?_eq_some_iff.1 hc
    have hexp : exposed (s.note .loaded).log = exposed rest := by
      show exposed (.loaded :: s.log) = exposed rest
      rw [hl, exposed]
    have honce : NoFailure s.log → (eid :: exposed rest).Nodup := by
      have := h.once
      rwa [hl, exposed, ← hl] at this
    refine ⟨h.covered, hset, fun hno => ?_, fun hno e he => .inl ?_⟩
    · rw [hexp]
      exact (nodup_cons.1 (honce hno.tail)).2
    rw [hexp] at he
    have hmem : e ∈ exposed s.log := by
      rw [hl]
      exact mem_cons_of_mem eid he
    rcases h.bounded hno.tail e hmem with hle | hhead
    · exact hle
    rw [hc] at hhead
    cases hhead
    exact absurd he (nodup_cons.1 (honce hno.tail)).1
  · have hcalm : ∀ eid, s.log.head? ≠ some (.confirmed eid) := fun eid h => hc ⟨eid, h⟩
    have hexp : exposed (s.note .loaded).log = exposed s.log := exposed_loaded hcalm
    refine ⟨h.covered, hset, fun hno => ?_, fun hno e he => .inl ?_⟩
    · rw [hexp]
      exact h.once hno.tail
    · rw [hexp] at he
      exact (h.bounded hno.tail e he).resolve_right (hcalm e)

theorem Synced.unreadable : Synced P .fresh (s.note .unreadable) :=
  ⟨fun _ => Tail.covers_zero _, fun h => absurd mem_cons_self h.2, fun _ h => (nomatch h)⟩

/-! ## The loop over the rows -/

structure InBatch (P : Prop) (columns : Bool) (maint : Maint) (st : BridgeState)
    (rows : List (FeedRow Nat BridgeRow)) (s : Bridge) : Prop where
  synced : Synced P st s
  asked : s.columns = columns ∧ s.maint = maint
  ordered : rows.Pairwise fun a b => a.id < b.id
  seen : ∀ r ∈ rows, r ∈ s.tail.feed.visible ∧ r.id ∈ s.tail.selected ∧ st.checkpoint < r.id
  covers : P → ∃ last, s.tail.Covers (rows.map FeedRow.id) last ∧ ∀ r ∈ rows, r.id ≤ last

section batch
variable {columns : Bool} {maint : Maint} {r : FeedRow Nat BridgeRow}
  {rows : List (FeedRow Nat BridgeRow)}

theorem InBatch.rely (h : InBatch P columns maint st rows s) (hr : BridgeRely P s s') :
    InBatch P columns maint st rows s' := by
  refine ⟨h.synced.rely hr, ?_, h.ordered, fun a ha => ?_, fun hp => ?_⟩
  · rw [hr.rest]
    exact h.asked
  · obtain ⟨hv, hs, hc⟩ := h.seen a ha
    exact ⟨hr.grows.kept hv, hr.grows.selected hs, hc⟩
  · obtain ⟨last, hcov, hle⟩ := h.covers hp
    exact ⟨last, hcov.advance (hr.advances hp), hle⟩

theorem InBatch.covers_head (h : InBatch P columns maint st (r :: rows) s) (hp : P) :
    (s.tail.settle r.id).Covers [] r.id := by
  obtain ⟨last, hcov, hle⟩ := h.covers hp
  refine hcov.settle.restrict (h.seen r mem_cons_self).2.1 (hle r mem_cons_self) ?_
  intro i hi
  obtain ⟨a, ha, rfl⟩ := mem_map.1 hi
  exact (pairwise_cons.1 h.ordered).1 a ha

theorem InBatch.next (h : InBatch P columns maint st (r :: rows) s)
    (hgrows : (s.tail.settle r.id).Grows s'.tail) (hadv : P → (s.tail.settle r.id).Advances s'.tail)
    (hasked : s'.columns = s.columns ∧ s'.maint = s.maint) (hs : Synced P (st.at r.id) s') :
    InBatch P columns maint (st.at r.id) rows s' := by
  obtain ⟨hfirst, hord⟩ := pairwise_cons.1 h.ordered
  refine ⟨hs, ⟨hasked.1.trans h.asked.1, hasked.2.trans h.asked.2⟩, hord, fun a ha => ?_,
    fun hp => ?_⟩
  · obtain ⟨hv, hsel, _⟩ := h.seen a (mem_cons_of_mem r ha)
    exact ⟨hgrows.kept hv, hgrows.selected hsel, hfirst a ha⟩
  · obtain ⟨last, hcov, hle⟩ := h.covers hp
    exact ⟨last, hcov.settle.advance (hadv hp), fun a ha => hle a (mem_cons_of_mem r ha)⟩

theorem Synced.read (h : Synced P st s) (hasked : s.columns = columns ∧ s.maint = maint) (n : Nat) :
    InBatch P columns maint st (s.tail.feed.select st.checkpoint n)
      { s with tail := s.tail.read (s.tail.feed.select st.checkpoint n) } := by
  have hadv := Tail.advances_read s.tail (s.tail.feed.select st.checkpoint n)
  refine ⟨⟨fun hp => (h.covered hp).advance hadv, h.durable, h.calm⟩, hasked,
    s.tail.feed.ordered_select .., fun r hr => ?_, fun hp => ?_⟩
  · obtain ⟨hv, hlt⟩ := Feed.mem_select hr
    exact ⟨hv, mem_append_left _ (mem_map_of_mem hr), hlt⟩
  cases hl : (s.tail.feed.select st.checkpoint n).getLast? with
  | none =>
    have hnil := List.getLast?_eq_none_iff.1 hl
    rw [hnil] at hadv ⊢
    exact ⟨st.checkpoint, (h.covered hp).advance hadv, by simp⟩
  | some last =>
    exact ⟨last.id, Tail.covers_read (h.covered hp) (List.mem_of_getLast? hl),
      fun r hr => Feed.le_last_select hl hr⟩

theorem bridgeAlerts_safe
    (hs : InBatch P columns maint st rows s) :
    BridgeSafe P (Synced P) (bridgeAlerts columns maint rows st) s := by
  induction rows generalizing st s with
  | nil => exact hs.synced
  | cons r rows ih =>
    unfold bridgeAlerts
    cases ho : resolveOutcome (r.data.asRead columns) maint with
    | suppress =>
      intro s₁ hr₁ hinv₁ ok s₂ hsave
      have h₁ := hs.rely hr₁
      rcases hsave with ⟨rfl, rfl⟩ | ⟨rfl, rfl⟩
      · exact ⟨hinv₁.saveFailed, Synced.saveFailed h₁.synced.covered⟩
      have hcov : P → (s₁.tail.settle r.id).Covers [] r.id := h₁.covers_head
      refine ⟨hinv₁.write hcov ?_ ?_ ?_,
        ih (h₁.next (.refl _) (fun _ => .refl _) ⟨rfl, rfl⟩ (Synced.write hcov))⟩
      · rw [← h₁.asked.1, ← h₁.asked.2] at ho
        exact forall_mem_cons.2
          ⟨.inr ⟨r, (h₁.seen r mem_cons_self).1, rfl, _, _, mem_cons_self, ho⟩,
            fun eid he => (hinv₁.settled eid he).later _⟩
      · intro hno
        rw [← h₁.synced.durable hno]
        exact Nat.le_of_lt (h₁.seen r mem_cons_self).2.2
      · exact fun e he => absurd he (h₁.synced.calm e)
    | publish =>
      intro s₁ hr₁ hinv₁ confirmed s₂ hpub
      have h₁ := hs.rely hr₁
      rcases hpub with ⟨rfl, rfl⟩ | ⟨rfl, rfl⟩
      · exact ⟨hinv₁, h₁.synced⟩
      have hlt : NoFailure s₁.log → s₁.durable < r.id := by
        intro hno
        rw [← h₁.synced.durable hno]
        exact (h₁.seen r mem_cons_self).2.2
      refine ⟨hinv₁.confirm h₁.synced.calm hlt, ?_⟩
      intro s₃ hr₃ hinv₃ ok s₄ hsave
      rcases hsave with ⟨rfl, rfl⟩ | ⟨rfl, rfl⟩
      · refine ⟨hinv₃.saveFailed, Synced.saveFailed fun hp => ?_⟩
        exact ((h₁.synced.covered hp).advance (Tail.advances_settle ..)).advance (hr₃.advances hp)
      have hcov : P → s₃.tail.Covers [] r.id := fun hp =>
        (h₁.covers_head hp).advance (hr₃.advances hp)
      refine ⟨hinv₃.write hcov ?_ ?_ ?_, ih (h₁.next hr₃.grows hr₃.advances ?_ (Synced.write hcov))⟩
      · exact fun eid he => (hinv₃.settled eid he).later _
      · rw [hr₃.rest]
        exact fun hno => Nat.le_of_lt (hlt hno.tail)
      · intro e he
        rw [hr₃.rest] at he
        cases he
        exact Nat.le_refl _
      · rw [hr₃.rest]
        exact ⟨rfl, rfl⟩

end batch

/-! ## The dead-man's switch -/

section deadman
variable {st' : BridgeState}

theorem Synced.save (h : Synced P st s) (hcp : st'.checkpoint = st.checkpoint) {ok : Bool}
    (hinv : BridgeInv P s) (hs : bridgeSem (.save st' .deadman) s ok s') :
    BridgeInv P s' ∧ Synced P st' s' ∧ (ok = false → Synced P st s') := by
  have hcov : P → s.tail.Covers [] st'.checkpoint := by
    rw [hcp]
    exact h.covered
  rcases hs with ⟨rfl, rfl⟩ | ⟨rfl, rfl⟩
  · exact ⟨hinv.saveFailed, Synced.saveFailed hcov, fun _ => Synced.saveFailed h.covered⟩
  refine ⟨hinv.write hcov ?_ ?_ ?_, Synced.write hcov, fun hok => (nomatch hok)⟩
  · exact fun eid he => (hinv.settled eid he).later _
  · intro hno
    rw [hcp, h.durable hno]
  · exact fun e he => absurd he (h.calm e)

theorem announce_safe {nodeId : Nat} {crit : Bool}
    (hcp : st'.checkpoint = st.checkpoint) (hs : Synced P st s)
    (hskip : ∀ s, Synced P st s → BridgeSafe P (Synced P) p s)
    (hnext : ∀ s, Synced P st' s → BridgeSafe P (Synced P) p' s) :
    BridgeSafe P (Synced P)
      (perform (BridgeOp.announce nodeId crit) >>= fun (confirmed : Bool) =>
        if confirmed = false then p
        else perform (BridgeOp.save st' .deadman) >>= fun (ok : Bool) =>
          if ok = false then pure st else p') s := by
  intro s₁ hr₁ hinv₁ confirmed s₂ hann
  cases hann
  refine ⟨hinv₁, ?_⟩
  cases confirmed with
  | false => exact hskip s₁ (hs.rely hr₁)
  | true =>
    intro s₃ hr₃ hinv₃ ok s₄ hsave
    obtain ⟨hinv₄, hnew, hold⟩ := ((hs.rely hr₁).rely hr₃).save hcp hinv₃ hsave
    refine ⟨hinv₄, ?_⟩
    cases ok with
    | false => exact hold rfl
    | true => exact hnext s₄ hnew

theorem deadMansSwitch_safe (threshold : Nat) (maint : Maint) {ages : List NodeAge}
    (hs : Synced P st s) : BridgeSafe P (Synced P) (deadMansSwitch threshold maint ages st) s := by
  induction ages generalizing st s with
  | nil => exact hs
  | cons n ages ih =>
    unfold deadMansSwitch
    split
    · split
      · intro s₁ hr₁ hinv₁ ok s₂ hsave
        have hcp : (st.disarm n.nodeId).checkpoint = st.checkpoint := rfl
        obtain ⟨hinv₂, hnew, _⟩ := (hs.rely hr₁).save hcp hinv₁ hsave
        exact ⟨hinv₂, ih hnew⟩
      · exact ih hs
    · split
      · split
        · exact ih hs
        · exact announce_safe rfl hs (fun _ => ih) fun _ => ih
      · split
        · exact announce_safe rfl hs (fun _ => ih) fun _ => ih
        · exact ih hs

theorem deadMansTurn_safe (cfg : BridgeCfg) (maint : Maint) (hs : Synced P st s) :
    BridgeSafe P (Connected P) (deadMansTurn cfg maint st) s := by
  unfold deadMansTurn
  split
  · intro st' h
    cases h
    exact hs
  intro s₁ hr₁ hinv₁ ages s₂ hages
  cases hages
  refine ⟨hinv₁, ?_⟩
  cases ages with
  | none => exact fun st' h => (nomatch h)
  | some ages =>
    refine (deadMansSwitch_safe cfg.threshold maint (hs.rely hr₁)).seq ?_
    intro st' s₃ h st'' heq
    cases heq
    exact h

theorem bridgeBeat_safe {m : Option BridgeState} (hs : Connected P m s) :
    BridgeSafe P (Connected P) (bridgeBeat m) s := by
  cases m with
  | none => exact hs
  | some st =>
    intro s₁ hr₁ hinv₁ ok s₂ hbeat
    cases hbeat
    refine ⟨hinv₁, fun st' h => ?_⟩
    cases ok with
    | false => cases h
    | true =>
      cases h
      exact (hs st rfl).rely hr₁

end deadman

/-! ## Runs -/

theorem bridgeTurn_safe (cfg : BridgeCfg) {m : Option BridgeState} (hs : Connected P m s) :
    BridgeSafe P (Connected P) (bridgeTurn cfg m) s := by
  cases m with
  | none =>
    intro s₁ _ hinv₁ r s₂ hload
    rcases hload with ⟨rfl, rfl⟩ | ⟨rfl, rfl⟩ | ⟨rfl, rfl⟩
    · exact ⟨hinv₁, fun st h => (nomatch h)⟩
    · refine ⟨hinv₁.loaded, fun st h => ?_⟩
      cases h
      exact Synced.loaded hinv₁.covered rfl
    · refine ⟨hinv₁.failure fun h => h.2 mem_cons_self, fun st h => ?_⟩
      cases h
      exact Synced.unreadable
  | some st =>
    rintro s₁ hr₁ hinv₁ maint _ rfl
    refine ⟨hinv₁.asked _ _, ?_⟩
    rintro s₂ hr₂ hinv₂ columns _ rfl
    refine ⟨hinv₂.asked _ _, ?_⟩
    intro s₃ hr₃ hinv₃ rows s₄ hsel
    have h₃ := ((((hs st rfl).rely hr₁).asked _ _ |>.rely hr₂).asked _ _).rely hr₃
    have hasked : s₃.columns = columns ∧ s₃.maint = maint :=
      ⟨congrArg Bridge.columns hr₃.rest,
        (congrArg Bridge.maint hr₃.rest).trans (congrArg Bridge.maint hr₂.rest)⟩
    rcases hsel with ⟨rfl, rfl⟩ | ⟨rfl, rfl⟩
    · exact ⟨hinv₃, fun st h => (nomatch h)⟩
    refine ⟨⟨fun hp => (hinv₃.covered hp).advance (Tail.advances_read ..), hinv₃.settled,
      hinv₃.once, hinv₃.bounded⟩, ?_⟩
    refine (bridgeAlerts_safe (h₃.read hasked cfg.batch)).seq ?_
    intro st' s₅ h₅
    exact (deadMansTurn_safe cfg maint h₅).seq fun m s h => bridgeBeat_safe h

/-- **No alert is silently skipped.** If rows are committed above every id the bridge has read, each
visible row up to the durable checkpoint was confirmed or suppressed; and if every save succeeded,
confirmations not cut off by a restart are of different rows. -/
theorem bridge_settles (cfg : BridgeCfg) (ok : Tail Nat BridgeRow → Nat → Prop)
    {c c' : Conf Unit BridgeOp BridgeRes Bridge (Option BridgeState)}
    (hc : (bridgeSystem cfg ok).Initial Bridge.Untouched c)
    (hs : (bridgeSystem cfg ok).Steps c c') :
    ((∀ s t, ok s t → s.InOrder t) → ∀ r ∈ c'.shared.tail.feed.visible,
      r.id ≤ c'.shared.durable → .confirmed r.id ∈ c'.shared.log ∨ ∃ columns maint,
        .suppressed r.id columns maint ∈ c'.shared.log ∧
          resolveOutcome (r.data.asRead columns) maint = .suppress) ∧
    (NoFailure c'.shared.log → (exposed c'.shared.log).Nodup) := by
  have hrely : (bridgeSystem cfg ok).Relies (BridgeInv (∀ s t, ok s t → s.InOrder t))
      fun _ => BridgeRely (∀ s t, ok s t → s.InOrder t) :=
    { refl := fun _ s => ⟨.refl _, fun _ => .refl _, rfl⟩
      trans := fun _ s s' s'' h h' => ⟨h.grows.trans h'.grows,
        fun hp => (h.advances hp).trans (h'.advances hp), by rw [h'.rest, h.rest]⟩
      -- there is no other process
      other := fun _ _ _ _ _ _ hne => absurd rfl hne
      env := fun _ s s' _ _ h => ⟨h.1.grows, fun hp => h.1.advances hp, h.2⟩ }
  have hinv : BridgeInv (∀ s t, ok s t → s.InOrder t) c'.shared := by
    refine (System.invariant (A := fun _ => Connected (∀ s t, ok s t → s.InOrder t)) hrely
      ?_ ?_ ?_ ?_ ?_ hc hs).1
    · exact fun _ m s s' hm hr _ st hst => (hm st hst).rely hr
    · rintro _ m p s rfl _ hm
      exact bridgeTurn_safe cfg hm
    · exact fun s s' h henv => h.moves henv.1 henv.2
    · rintro _ m s rfl _ st hst
      cases hst
    rintro s ⟨_, hset, hfile, hlog⟩
    have hd : s.durable = 0 := by
      unfold Bridge.durable
      rw [hfile]
      rfl
    exact ⟨fun _ => hd ▸ Tail.covers_zero _, by simp [hset], by simp [hlog, exposed],
      by simp [hlog, exposed]⟩
  refine ⟨fun hok r hr hle => ?_, hinv.once⟩
  have hsettled := ((hinv.covered hok).settled r hr hle).resolve_right (fun h => nomatch h)
  rcases hinv.settled r.id hsettled with h | ⟨a, ha, hid, h⟩
  · exact .inl h
  · rw [Feed.eq_of_id ha hr hid] at h
    exact .inr h

/-! ## One bridge and two transactions -/

def nodeAlert (nodeId : Nat) : BridgeRow := ⟨some nodeId, none, some .fired, some .publish⟩

def bridgeDefaults : BridgeCfg := ⟨500, 120, false⟩

def noMaint : Maint := ⟨[], [], false⟩

def bridgeAt (feed : Feed Nat BridgeRow) (ids : List Nat) (file : Option BridgeState)
    (log : List BridgeEvent) : Bridge :=
  ⟨⟨feed, ids, ids⟩, true, noMaint, file, log⟩

section runs
variable {ok : Tail Nat BridgeRow → Nat → Prop} {feed : Feed Nat BridgeRow} {ids : List Nat}
  {file m : Option BridgeState} {st : BridgeState} {log : List BridgeEvent}

theorem bridge_steps {s s' : Bridge} {m' : Option BridgeState}
    (h : Exec bridgeSem (bridgeTurn bridgeDefaults m) s m' s') :
    (bridgeSystem bridgeDefaults ok).Steps ⟨s, fun _ => .idle m⟩ ⟨s', fun _ => .idle m'⟩ :=
  System.steps_call (i := ()) rfl rfl (h.mono fun _ _ _ _ => System.pausing_now)

theorem alert_step
    (h : Tail.Moves ok ⟨feed, ids, ids⟩ ⟨feed', ids, ids⟩) :
    (bridgeSystem bridgeDefaults ok).Steps ⟨bridgeAt feed ids file log, fun _ => .idle m⟩
      ⟨bridgeAt feed' ids file log, fun _ => .idle m⟩ :=
  .single (.env ⟨h, rfl⟩)

theorem bridge_loads : (bridgeSystem bridgeDefaults ok).Steps
    ⟨bridgeAt feed [] none [], fun _ => .idle none⟩
    ⟨bridgeAt feed [] none [.loaded], fun _ => .idle (some .fresh)⟩ :=
  bridge_steps (.call (.inr (.inl ⟨rfl, rfl⟩)) (.ret _ _))

theorem bridge_publishes (h : feed.select st.checkpoint bridgeDefaults.batch = [r])
    (hout : resolveOutcome (r.data.asRead true) noMaint = .publish) :
    (bridgeSystem bridgeDefaults ok).Steps ⟨bridgeAt feed ids file log, fun _ => .idle (some st)⟩
      ⟨bridgeAt feed (r.id :: ids) (some (st.at r.id)) (.saved :: .confirmed r.id :: log),
        fun _ => .idle (some (st.at r.id))⟩ := by
  have hrow : Exec bridgeSem (bridgeAlerts true noMaint [r] st)
      { bridgeAt feed ids file log with tail := ⟨feed, r.id :: ids, ids⟩ } (st.at r.id)
      (bridgeAt feed (r.id :: ids) (some (st.at r.id)) (.saved :: .confirmed r.id :: log)) := by
    unfold bridgeAlerts
    rw [hout]
    exact Exec.call_iff.2 ⟨true, _, .inr ⟨rfl, rfl⟩, Exec.call_iff.2 ⟨true, _, .inr ⟨rfl, rfl⟩,
      .ret _ _⟩⟩
  refine bridge_steps (Exec.call_iff.2 ⟨noMaint, _, rfl, Exec.call_iff.2 ⟨true, _, rfl,
    Exec.call_iff.2 ⟨some [r], _, .inr ⟨congrArg some h.symm, rfl⟩, ?_⟩⟩⟩)
  refine (Exec.bind_iff (p := bridgeAlerts true noMaint [r] st)).2
    ⟨_, _, ?_, Exec.call_iff.2 ⟨true, _, rfl, .ret _ _⟩⟩
  have hread : Tail.read ⟨feed, ids, ids⟩ (feed.select st.checkpoint bridgeDefaults.batch) =
      ⟨feed, r.id :: ids, ids⟩ := by rw [h]; rfl
  exact hread ▸ hrow

end runs

/-- The bridge publishes a row, and a second one that is committed after it. -/
theorem bridge_settles_two : ∃ c', (bridgeSystem bridgeDefaults Tail.InOrder).Steps
        ⟨bridgeAt .empty [] none [], fun _ => .idle none⟩ c' ∧
      c'.shared.durable = 2 ∧ exposed c'.shared.log = [2, 1] ∧ (exposed c'.shared.log).Nodup ∧
      (.confirmed 1 ∈ c'.shared.log ∨ ∃ columns maint, .suppressed 1 columns maint ∈ c'.shared.log ∧
          resolveOutcome ((nodeAlert 7).asRead columns) maint = .suppress) := by
  have hrun : (bridgeSystem bridgeDefaults Tail.InOrder).Steps
      ⟨bridgeAt .empty [] none [], fun _ => .idle none⟩ _ :=
    ((((((alert_step (.insert _ 1 (nodeAlert 7))).trans
      (alert_step (.commit _ 1 fun r _ _ v hv => (nomatch hv)))).trans bridge_loads).trans
      (bridge_publishes (r := ⟨1, none, nodeAlert 7⟩) rfl rfl)).trans
      (alert_step (.insert _ 2 (nodeAlert 8)))).trans
      (alert_step (.commit _ 2 (by unfold Tail.InOrder; decide)))).trans
      (bridge_publishes (r := ⟨2, none, nodeAlert 8⟩) rfl rfl)
  have hmain := bridge_settles bridgeDefaults Tail.InOrder
    ⟨⟨rfl, rfl, rfl, rfl⟩, fun _ => ⟨none, rfl, rfl⟩⟩ hrun
  refine ⟨_, hrun, rfl, rfl, hmain.2 (by simp [NoFailure, bridgeAt]), ?_⟩
  exact hmain.1 (fun _ _ h => h) ⟨1, none, nodeAlert 7⟩ mem_cons_self (Nat.le_succ 1)

/-- Transaction 1 inserts its alert before transaction 2 and commits after it, with a turn of the
bridge in between: no turn will select it. -/
theorem late_alert_skipped :
    ∃ c c', (bridgeSystem bridgeDefaults fun _ _ => True).Initial Bridge.Untouched c ∧
      (bridgeSystem bridgeDefaults fun _ _ => True).Steps c c' ∧
      ∃ r ∈ c'.shared.tail.feed.visible, r.id ≤ c'.shared.durable ∧
        resolveOutcome r.data noMaint = .publish ∧ .confirmed r.id ∉ c'.shared.log ∧
        (∀ columns maint, .suppressed r.id columns maint ∉ c'.shared.log) ∧
        ∀ n, r ∉ c'.shared.tail.feed.select c'.shared.durable n := by
  have hrun : (bridgeSystem bridgeDefaults fun _ _ => True).Steps
      ⟨bridgeAt .empty [] none [], fun _ => .idle none⟩ _ :=
    (((((alert_step (.insert _ 1 (nodeAlert 7))).trans
      (alert_step (.insert _ 2 (nodeAlert 8)))).trans
      (alert_step (.commit _ 2 trivial))).trans bridge_loads).trans
      (bridge_publishes (r := ⟨2, none, nodeAlert 8⟩) rfl rfl)).trans
      (alert_step (.commit _ 1 trivial))
  refine ⟨_, _, ⟨⟨rfl, rfl, rfl, rfl⟩, fun _ => ⟨none, rfl, rfl⟩⟩, hrun, ⟨1, none, nodeAlert 7⟩,
    mem_cons_self, Nat.le_succ 1, rfl, by simp [bridgeAt], by simp [bridgeAt], fun n hmem => ?_⟩
  exact absurd (Feed.mem_select hmem).2 (show ¬ 2 < 1 by decide)

end SolariNet
