/-
# Many requesters, many consumers

Any number of processes share `ctlRequest`.  Each handles lines of socket peers and polls the
queue (`QueueStart`), one statement at a time, and may be restarted between any two of them.  A
statement is atomic; when `mayFail` allows it, it can be reported as failed, executed or not.

The state (`QueueWorld`) is the table together with what has happened to it.
-/
import SolariNet.Ctl.Replay
import SolariNet.Lib.System

namespace SolariNet

open List Lib Lib.Prog CtlRequests

variable {ι : Type}

inductive CtlEvent where
  | dispatched (d : Dispatch)
  | replied (origin : Origin) (reply : Bytes)
  deriving DecidableEq

def CtlEvent.origin : CtlEvent → Origin
  | .dispatched d => d.origin
  | .replied origin _ => origin

structure QueueWorld (ι : Type) where
  requests : CtlRequests
  claims : List (ι × Nat)
  replays : List (ι × Nat)
  submits : List Submission
  trace : List (ι × CtlEvent)

def QueueWorld.empty : QueueWorld ι := ⟨.empty, [], [], [], []⟩

def queueSem (mayFail : Prop) (i : ι) : (o : CtlOp) → QueueWorld ι → o.Res → QueueWorld ι → Prop
  | .isActive, w, _, w' => w' = w
  | .insertRequest verb argsWire requestedBy key, w, r, w' =>
    match w.requests.insert verb argsWire requestedBy key with
    | none => w' = w ∧ (r = .duplicate ∨ mayFail ∧ r = .failed)
    | some t =>
      w' = { w with requests := t } ∧
          (r = .inserted w.requests.serial.next ∨ mayFail ∧ r = .failed) ∨
        mayFail ∧ w' = w ∧ r = .failed
  | .selectByKey requestedBy key, w, r, w' =>
    w' = w ∧ (r = .ok (w.requests.findKey requestedBy key) ∨ mayFail ∧ r = .error ())
  | .selectById id, w, r, w' =>
    w' = w ∧ (r = .ok (w.requests.findId id) ∨ mayFail ∧ r = .error ())
  | .claimOldest claimedBy, w, r, w' =>
    match w.requests.claimOldest claimedBy with
    | none => w' = w ∧ (r = .ok none ∨ mayFail ∧ r = .error ())
    | some (id, t) =>
      w' = { w with requests := t, claims := w.claims ++ [(i, id)] } ∧
          (r = .ok (some id) ∨ mayFail ∧ r = .error ()) ∨
        mayFail ∧ w' = w ∧ r = .error ()
  | .completeRequest id ok text, w, r, w' =>
    match w.requests.complete id ok text with
    | none => w' = w ∧ (r = .ok false ∨ mayFail ∧ r = .error ())
    | some t =>
      w' = { w with requests := t } ∧ (r = .ok true ∨ mayFail ∧ r = .error ()) ∨
        mayFail ∧ w' = w ∧ r = .error ()
  | .submitted s, w, _, w' => w' = { w with submits := w.submits ++ [s] }
  | .replaying id, w, _, w' => w' = { w with replays := w.replays ++ [(i, id)] }
  | .dispatching d, w, _, w' => w' = { w with trace := w.trace ++ [(i, .dispatched d)] }
  | .handle d, w, reply, w' => w' = { w with trace := w.trace ++ [(i, .replied d.origin reply)] }

inductive QueueStart : CtlM Unit → Prop where
  | line (peer : PeerClass) (line : Bytes) :
      QueueStart (ctlHandleLine (.peer peer) line >>= fun _ => .ret ())
  | poll : QueueStart (serverCtlQueuePoll >>= fun _ => .ret ())

def queueSystem (ι : Type) (mayFail : Prop) : System ι CtlOp CtlOp.Res (QueueWorld ι) Unit where
  sem := queueSem mayFail
  start _ _ p := QueueStart p
  env _ _ := False
  boot _ _ := True

/-! ## What one operation can do -/

/-- A claim of the row `id`: it was pending, no pending row has a smaller id, and it is pending no
longer. -/
structure ClaimsOldest (t t' : CtlRequests) (id : Nat) : Prop where
  pending : ∃ r ∈ t.rows, r.id = id ∧ r.state = .pending
  oldest : ∀ r ∈ t.rows, r.state = .pending → id ≤ r.id
  taken : ∀ r ∈ t'.rows, r.id = id → r.state ≠ .pending

def CtlOp.Logs : CtlOp → CtlEvent → Prop
  | .dispatching d, e => e = .dispatched d
  | .handle d, e => ∃ reply, e = .replied d.origin reply
  | _, _ => False

inductive QueueChange (i : ι) (o : CtlOp) (w w' : QueueWorld ι) : Prop where
  | same (h : w' = w)
  | insert {t : CtlRequests} {verb argsWire requestedBy : Bytes} {key : Option Bytes}
      (ho : o = .insertRequest verb argsWire requestedBy key)
      (ht : w.requests.insert verb argsWire requestedBy key = some t)
      (h : w' = { w with requests := t })
  | settle {t : CtlRequests} (hm : RowsMove w.requests t) (hf : RowsFrom w.requests t)
      (h : w' = { w with requests := t })
  | claim {t : CtlRequests} {id : Nat} (hm : RowsMove w.requests t) (hf : RowsFrom w.requests t)
      (hc : ClaimsOldest w.requests t id)
      (h : w' = { w with requests := t, claims := w.claims ++ [(i, id)] })
  | submit (s : Submission) (ho : o = .submitted s)
      (h : w' = { w with submits := w.submits ++ [s] })
  | replay (id : Nat) (ho : o = .replaying id)
      (h : w' = { w with replays := w.replays ++ [(i, id)] })
  | event (e : CtlEvent) (ho : o.Logs e) (h : w' = { w with trace := w.trace ++ [(i, e)] })

variable {i j : ι} {o : CtlOp} {w w' : QueueWorld ι} {t t' : CtlRequests} {mayFail : Prop}
  {id : Nat}

theorem queueSem_change (h : queueSem mayFail i o w r w') : QueueChange i o w w' := by
  cases o with
  | isActive => exact .same h
  | insertRequest verb argsWire requestedBy key =>
    simp only [queueSem] at h
    split at h
    · exact .same h.1
    next t ht =>
    rcases h with ⟨h, -⟩ | ⟨-, h, -⟩
    · exact .insert rfl ht h
    · exact .same h
  | selectByKey requestedBy key | selectById id => exact .same h.1
  | claimOldest claimedBy =>
    simp only [queueSem] at h
    split at h
    · exact .same h.1
    next id t ht =>
    obtain ⟨hp, ho, htaken, hm, hf⟩ := claimOldest_eq_some ht
    rcases h with ⟨h, -⟩ | ⟨-, h, -⟩
    · exact .claim hm hf ⟨hp, ho, htaken⟩ h
    · exact .same h
  | completeRequest id ok text =>
    simp only [queueSem] at h
    split at h
    · exact .same h.1
    next t ht =>
    obtain ⟨hm, hf⟩ := complete_eq_some ht
    rcases h with ⟨h, -⟩ | ⟨-, h, -⟩
    · exact .settle hm hf h
    · exact .same h
  | submitted s => exact .submit s rfl h
  | replaying id => exact .replay id rfl h
  | dispatching d => exact .event _ rfl h
  | handle d => exact .event _ ⟨r, rfl⟩ h

theorem QueueChange.moves (h : QueueChange i o w w') : RowsMove w.requests w'.requests := by
  cases h with
  | insert _ ht h => exact h ▸ moves_insert ht
  | settle hm _ h | claim hm _ _ h => exact h ▸ hm
  | same h | submit _ _ h | replay _ _ h | event _ _ h => exact h ▸ .refl _

/-! ## Submissions -/

def RowsKept (t t' : CtlRequests) : Prop := ∀ r ∈ t.rows, ∃ r' ∈ t'.rows, SameRequest r r'

theorem CtlRequests.RowsMove.kept (h : RowsMove t t') : RowsKept t t' := by
  intro r hr
  obtain ⟨r', hr', hm⟩ := h r hr
  exact ⟨r', hr', hm.same⟩

theorem RowsKept.trans (h : RowsKept t t') (h' : RowsKept t' t'') :
    RowsKept t t'' := by
  intro r hr
  obtain ⟨r', hr', hs⟩ := h r hr
  obtain ⟨r'', hr'', hs'⟩ := h' r' hr'
  exact ⟨r'', hr'', hs.trans hs'⟩

/-- The outcome of a keyed submission: the row of the key decides. -/
def AnsweredByKey (mayFail : Prop) (t : CtlRequests) (s : Submission) : Prop :=
  ∀ k, idemKey s.requestedBy s.key = some k → (mayFail ∧ s.result = .error .errDb) ∨
    ∃ r ∈ t.rows, r.idem = some k ∧
      s.result = if r.verb = s.verb ∧ r.argsWire = s.argsWire then .ok r.id
        else .error .errInvalidArg

structure Queueable (verb argsWire requestedBy : Bytes) : Prop extends
    Replayable verb argsWire requestedBy where
  not_enroll : verb ≠ txt "ENROLL_TOKEN"

/-- An id that was returned names a row with the verb and the arguments of the submission. -/
structure Submitted (mayFail : Prop) (t : CtlRequests) (s : Submission) : Prop where
  queueable : Queueable s.verb s.argsWire s.requestedBy
  byKey : AnsweredByKey mayFail t s
  accepted : ∀ id, s.result = .ok id →
    ∃ r ∈ t.rows, r.id = id ∧ r.verb = s.verb ∧ r.argsWire = s.argsWire

theorem Submitted.kept (h : Submitted mayFail t s) (ht : RowsKept t t') :
    Submitted mayFail t' s := by
  refine ⟨h.queueable, fun k hk => ?_, fun id hid => ?_⟩
  · refine (h.byKey k hk).imp_right fun ⟨r, hr, hidem, hres⟩ => ?_
    obtain ⟨r', hr', hs⟩ := ht r hr
    refine ⟨r', hr', hs.idem.trans hidem, ?_⟩
    rw [hs.verb, hs.argsWire, hs.id]
    exact hres
  · obtain ⟨r, hr, hrid, hverb, hargs⟩ := h.accepted id hid
    obtain ⟨r', hr', hs⟩ := ht r hr
    exact ⟨r', hr', hs.id.trans hrid, hs.verb.trans hverb, hs.argsWire.trans hargs⟩

/-! ## The trace of a replay -/

def CtlRequestRow.columns (r : CtlRequestRow) : ClaimedRequest :=
  ⟨r.id, r.verb, r.argsWire, r.requestedBy⟩

theorem CtlRequests.SameRequest.columns (h : SameRequest r r') :
    r'.columns = r.columns := by
  unfold CtlRequestRow.columns
  rw [h.id, h.verb, h.argsWire, h.requestedBy]

def ClaimedRequest.dispatch (q : ClaimedRequest) : Option Dispatch :=
  lineDispatch (.queue q.reqId) (replayLine q.verb q.opEnc q.argsWire)

def ClaimedRequest.confirmation (q : ClaimedRequest) (reply : Bytes) : Option Dispatch :=
  match inlineConfirmation q.argsWire (dropNewline reply) with
  | none => none
  | some (token, node, scope) =>
    lineDispatch (.queue q.reqId) (confirmLine q.opEnc node scope token)

/-- What the replay of a request has left in the trace, at any time. -/
inductive RowTrace (q : ClaimedRequest) : List CtlEvent → Prop where
  | nothing : RowTrace q []
  | dispatched {d : Dispatch} (hd : q.dispatch = some d) : RowTrace q [.dispatched d]
  | replied {d : Dispatch} (hd : q.dispatch = some d) (reply : Bytes) :
      RowTrace q [.dispatched d, .replied (.queue q.reqId) reply]
  | confirming {d d' : Dispatch} {reply : Bytes} (hd : q.dispatch = some d)
      (hverb : q.verb = txt "DECOMMISSION") (hd' : q.confirmation reply = some d') :
      RowTrace q [.dispatched d, .replied (.queue q.reqId) reply, .dispatched d']
  | confirmed {d d' : Dispatch} {reply : Bytes} (hd : q.dispatch = some d)
      (hverb : q.verb = txt "DECOMMISSION") (hd' : q.confirmation reply = some d')
      (reply' : Bytes) :
      RowTrace q [.dispatched d, .replied (.queue q.reqId) reply, .dispatched d',
        .replied (.queue q.reqId) reply']

def QueueWorld.eventsOf (w : QueueWorld ι) (id : Nat) : List CtlEvent :=
  (w.trace.map Prod.snd).filter fun e => e.origin = .queue id

/-! ## The invariant -/

/-- A request is claimed and replayed at most once, and its row fits what was traced. -/
structure QueueInv (mayFail : Prop) (w : QueueWorld ι) : Prop where
  claimed : ∀ p ∈ w.claims, ∃ r ∈ w.requests.rows, r.id = p.2 ∧ r.state ≠ .pending
  claims_nodup : (w.claims.map Prod.snd).Nodup
  replays_claimed : ∀ p ∈ w.replays, p ∈ w.claims
  replays_nodup : (w.replays.map Prod.snd).Nodup
  queueable : ∀ r ∈ w.requests.rows, Queueable r.verb r.argsWire r.requestedBy
  submitted : ∀ s ∈ w.submits, Submitted mayFail w.requests s
  owned : ∀ p ∈ w.trace, ∀ id, p.2.origin = .queue id → (p.1, id) ∈ w.replays
  traced : ∀ r ∈ w.requests.rows, RowTrace r.columns (w.eventsOf r.id)

theorem QueueInv.initial (mayFail : Prop) : QueueInv mayFail (QueueWorld.empty : QueueWorld ι) where
  claimed := by rintro p ⟨⟩
  claims_nodup := nodup_nil
  replays_claimed := by rintro p ⟨⟩
  replays_nodup := nodup_nil
  queueable := by rintro r ⟨⟩
  submitted := by rintro s ⟨⟩
  owned := by rintro p ⟨⟩
  traced := by rintro r ⟨⟩

def Mine (i : ι) (id : Nat) (w : QueueWorld ι) : Prop :=
  (i, id) ∈ w.claims ∧ id ∉ w.replays.map Prod.snd

def EventAllowed (i : ι) (e : CtlEvent) (w : QueueWorld ι) : Prop :=
  ∀ id, e.origin = .queue id → (i, id) ∈ w.replays ∧
    ∀ r ∈ w.requests.rows, r.id = id → RowTrace r.columns (w.eventsOf id ++ [e])

def OpAllowed (mayFail : Prop) (i : ι) (w : QueueWorld ι) : CtlOp → Prop
  | .insertRequest verb argsWire requestedBy _ => Queueable verb argsWire requestedBy
  | .submitted s => Submitted mayFail w.requests s
  | .replaying id => Mine i id w
  | .dispatching d => EventAllowed i (.dispatched d) w
  | .handle d => ∀ reply, EventAllowed i (.replied d.origin reply) w
  | _ => True

section
variable (h : QueueInv mayFail w)
include h

theorem QueueInv.claimed_move (hm : RowsMove w.requests t) :
    ∀ p ∈ w.claims, ∃ r ∈ t.rows, r.id = p.2 ∧ r.state ≠ .pending := by
  intro p hp
  obtain ⟨r, hr, hid, hs⟩ := h.claimed p hp
  obtain ⟨r', hr', hmove⟩ := hm r hr
  exact ⟨r', hr', hmove.same.id.trans hid, hmove.pending hs⟩

theorem QueueInv.row_of_event {p : ι × CtlEvent} (hp : p ∈ w.trace) (hid : p.2.origin = .queue id) :
    ∃ r ∈ w.requests.rows, r.id = id := by
  obtain ⟨r, hr, hrid, -⟩ := h.claimed _ (h.replays_claimed _ (h.owned p hp id hid))
  exact ⟨r, hr, hrid⟩

theorem QueueInv.insert
    {key : Option Bytes} (hq : Queueable verb argsWire requestedBy)
    (ht : w.requests.insert verb argsWire requestedBy key = some t) :
    QueueInv mayFail { w with requests := t } where
  claimed := h.claimed_move (moves_insert ht)
  claims_nodup := h.claims_nodup
  replays_claimed := h.replays_claimed
  replays_nodup := h.replays_nodup
  queueable r hr := by
    rcases (insert_eq_some ht r).1 hr with hr | rfl
    · exact h.queueable r hr
    · exact hq
  submitted s hs := (h.submitted s hs).kept (moves_insert ht).kept
  owned := h.owned
  traced r hr := by
    rcases (insert_eq_some ht r).1 hr with hr | rfl
    · exact h.traced r hr
    -- no event has the id that was free
    have hnone : w.eventsOf w.requests.serial.next = [] := by
      refine filter_eq_nil_iff.2 fun e he hid => ?_
      obtain ⟨p, hp, rfl⟩ := mem_map.1 he
      obtain ⟨q, hq, hqid⟩ := h.row_of_event hp (of_decide_eq_true hid)
      exact Nat.lt_irrefl _ (hqid ▸ (w.requests.serial.bounded q hq).2)
    exact (congrArg (RowTrace _) hnone).mpr .nothing

theorem QueueInv.update (hm : RowsMove w.requests t)
    (hf : RowsFrom w.requests t) : QueueInv mayFail { w with requests := t } where
  claimed := h.claimed_move hm
  claims_nodup := h.claims_nodup
  replays_claimed := h.replays_claimed
  replays_nodup := h.replays_nodup
  queueable r' hr' := by
    obtain ⟨r, hr, hs⟩ := hf r' hr'
    rw [hs.verb, hs.argsWire, hs.requestedBy]
    exact h.queueable r hr
  submitted s hs := (h.submitted s hs).kept hm.kept
  owned := h.owned
  traced r' hr' := by
    obtain ⟨r, hr, hs⟩ := hf r' hr'
    rw [hs.columns, hs.id]
    exact h.traced r hr

theorem QueueInv.unclaimed (hc : ClaimsOldest w.requests t id) : id ∉ w.claims.map Prod.snd := by
  intro hmem
  obtain ⟨p, hp, rfl⟩ := mem_map.1 hmem
  obtain ⟨r, hr, hid, hs⟩ := h.claimed p hp
  obtain ⟨r', hr', hid', hs'⟩ := hc.pending
  cases Serial.eq_of_id hr hr' (hid.trans hid'.symm)
  exact hs hs'

theorem QueueInv.claim (hm : RowsMove w.requests t) (hf : RowsFrom w.requests t)
    (hc : ClaimsOldest w.requests t id) :
    QueueInv mayFail { w with requests := t, claims := w.claims ++ [(i, id)] } :=
  { h.update hm hf with
    claimed := by
      refine forall_mem_append.2 ⟨h.claimed_move hm, forall_mem_singleton.2 ?_⟩
      obtain ⟨r, hr, hid, -⟩ := hc.pending
      obtain ⟨r', hr', hmove⟩ := hm r hr
      have hid' := hmove.same.id.trans hid
      exact ⟨r', hr', hid', hc.taken r' hr' hid'⟩
    claims_nodup := by
      rw [map_append, nodup_append']
      refine ⟨h.claims_nodup, nodup_singleton _, ?_⟩
      simpa using h.unclaimed hc
    replays_claimed := fun p hp => mem_append_left _ (h.replays_claimed p hp) }

theorem QueueInv.submit
    (hs : Submitted mayFail w.requests s) :
    QueueInv mayFail { w with submits := w.submits ++ [s] } :=
  { h with
    submitted := forall_mem_append.2 ⟨h.submitted, forall_mem_singleton.2 hs⟩ }

theorem QueueInv.replay (hm : Mine i id w) :
    QueueInv mayFail { w with replays := w.replays ++ [(i, id)] } :=
  { h with
    replays_claimed := forall_mem_append.2 ⟨h.replays_claimed, forall_mem_singleton.2 hm.1⟩
    replays_nodup := by
      rw [map_append, nodup_append']
      exact ⟨h.replays_nodup, nodup_singleton _, by simpa using hm.2⟩
    owned := fun p hp id hid => mem_append_left _ (h.owned p hp id hid) }

end

theorem eventsOf_event (w : QueueWorld ι) (i : ι) (e : CtlEvent) (id : Nat) :
    QueueWorld.eventsOf { w with trace := w.trace ++ [(i, e)] } id =
      if e.origin = .queue id then w.eventsOf id ++ [e] else w.eventsOf id := by
  unfold QueueWorld.eventsOf
  split
  · next h => simp [h]
  · next h => simp [h]

theorem QueueInv.event (h : QueueInv mayFail w) (he : EventAllowed i e w) :
    QueueInv mayFail { w with trace := w.trace ++ [(i, e)] } :=
  { h with
    owned := forall_mem_append.2 ⟨h.owned, forall_mem_singleton.2 fun id hid => (he id hid).1⟩
    traced := by
      intro r hr
      rw [eventsOf_event]
      split
      · next hid => exact (he r.id hid).2 r hr rfl
      · exact h.traced r hr }

theorem QueueInv.step (h : QueueInv mayFail w) (hs : queueSem mayFail i o w r w')
    (ho : OpAllowed mayFail i w o) : QueueInv mayFail w' := by
  cases queueSem_change hs with
  | same hw => exact hw ▸ h
  | insert hop ht hw => subst hop; exact hw ▸ h.insert ho ht
  | settle hm hf hw => exact hw ▸ h.update hm hf
  | claim hm hf hc hw => exact hw ▸ h.claim hm hf hc
  | submit s hop hw => subst hop; exact hw ▸ h.submit ho
  | replay id hop hw => subst hop; exact hw ▸ h.replay ho
  | event e hop hw =>
    have he : EventAllowed i e w := by
      cases o with
      | dispatching d => exact hop ▸ ho
      | handle d =>
        obtain ⟨reply, rfl⟩ := hop
        exact ho reply
      | _ => exact hop.elim
    exact hw ▸ h.event he

/-! ## What the others leave alone -/

/-- What process `i` can rely on: rows keep their columns, and what it has claimed stays its own. -/
structure QueueRely (i : ι) (w w' : QueueWorld ι) : Prop where
  rows : RowsKept w.requests w'.requests
  claims : ∀ p ∈ w.claims, p ∈ w'.claims
  replays : ∀ p ∈ w.replays, p ∈ w'.replays
  unreplayed : ∀ id, (i, id) ∈ w.claims → id ∉ w.replays.map Prod.snd → id ∉ w'.replays.map Prod.snd
  events : ∀ id, (i, id) ∈ w.claims → w'.eventsOf id = w.eventsOf id

theorem QueueRely.refl (i : ι) (w : QueueWorld ι) : QueueRely i w w :=
  ⟨(RowsMove.refl _).kept, fun _ h => h, fun _ h => h, fun _ _ h => h, fun _ _ => rfl⟩

theorem QueueRely.trans (h : QueueRely i w w') (h' : QueueRely i w' w'') :
    QueueRely i w w'' where
  rows := h.rows.trans h'.rows
  claims p hp := h'.claims p (h.claims p hp)
  replays p hp := h'.replays p (h.replays p hp)
  unreplayed id hid hr := h'.unreplayed id (h.claims _ hid) (h.unreplayed id hid hr)
  events id hid := (h'.events id (h.claims _ hid)).trans (h.events id hid)

def CtlOp.isSilent : CtlOp → Bool
  | .replaying _ | .dispatching _ | .handle _ => false
  | _ => true

theorem QueueRely.of_quiet (hrows : RowsKept w.requests w'.requests)
    (hclaims : ∀ p ∈ w.claims, p ∈ w'.claims) (hreplays : w'.replays = w.replays)
    (htrace : w'.trace = w.trace) : QueueRely i w w' where
  rows := hrows
  claims := hclaims
  replays _ hp := hreplays ▸ hp
  unreplayed _ _ hr := hreplays ▸ hr
  events id _ := by rw [QueueWorld.eventsOf, QueueWorld.eventsOf, htrace]

theorem QueueChange.silent (ho : o.isSilent = true) (h : QueueChange j o w w') :
    QueueRely i w w' := by
  have hrows := h.moves.kept
  cases h with
  | same h | insert _ _ h | settle _ _ h | submit _ _ h =>
    subst h
    exact .of_quiet hrows (fun _ h => h) rfl rfl
  | claim _ _ _ h =>
    subst h
    exact .of_quiet hrows (fun _ h => mem_append_left _ h) rfl rfl
  | replay id hop h => subst hop; cases ho
  | event e hop h => cases o <;> first | exact hop.elim | cases ho

theorem QueueChange.rely (hij : i ≠ j) (hI : QueueInv mayFail w) (hI' : QueueInv mayFail w')
    (h : QueueChange j o w w') : QueueRely i w w' := by
  -- a row is claimed once, so what `i` has claimed is not replayed by `j`
  have hmine : ∀ id, (i, id) ∈ w.claims → (j, id) ∉ w.claims := by
    intro id hi hj
    have heq := inj_on_of_nodup_map hI.claims_nodup hi hj rfl
    exact hij (congrArg Prod.fst heq)
  have hrows := h.moves.kept
  cases h with
  | same h | insert _ _ h | settle _ _ h | submit _ _ h =>
    subst h
    exact .of_quiet hrows (fun _ h => h) rfl rfl
  | claim _ _ _ h =>
    subst h
    exact .of_quiet hrows (fun _ h => mem_append_left _ h) rfl rfl
  | replay id' _ h =>
    subst h
    refine ⟨hrows, fun _ h => h, fun _ h => mem_append_left _ h, fun id hid hr => ?_,
      fun _ _ => rfl⟩
    rw [map_append, mem_append, not_or]
    refine ⟨hr, fun hmem => ?_⟩
    obtain rfl : id = id' := by simpa using hmem
    exact hmine id hid (hI'.replays_claimed _ (mem_append_right _ mem_cons_self))
  | event e _ h =>
    subst h
    refine ⟨hrows, fun _ h => h, fun _ h => h, fun _ _ h => h, fun id hid => ?_⟩
    rw [eventsOf_event, if_neg]
    intro he
    have howned := hI'.owned (j, e) (mem_append_right _ mem_cons_self) id he
    exact hmine id hid (hI.replays_claimed _ howned)

/-! ## Runs that can be computed -/

def queueAnswer (i : ι) (reply : Bytes) : (o : CtlOp) → QueueWorld ι → o.Res × QueueWorld ι
  | .isActive, w => (true, w)
  | .insertRequest verb argsWire requestedBy key, w =>
    match w.requests.insert verb argsWire requestedBy key with
    | none => (.duplicate, w)
    | some t => (.inserted w.requests.serial.next, { w with requests := t })
  | .selectByKey requestedBy key, w => (.ok (w.requests.findKey requestedBy key), w)
  | .selectById id, w => (.ok (w.requests.findId id), w)
  | .claimOldest claimedBy, w =>
    match w.requests.claimOldest claimedBy with
    | none => (.ok none, w)
    | some (id, t) => (.ok (some id), { w with requests := t, claims := w.claims ++ [(i, id)] })
  | .completeRequest id ok text, w =>
    match w.requests.complete id ok text with
    | none => (.ok false, w)
    | some t => (.ok true, { w with requests := t })
  | .submitted s, w => ((), { w with submits := w.submits ++ [s] })
  | .replaying id, w => ((), { w with replays := w.replays ++ [(i, id)] })
  | .dispatching d, w => ((), { w with trace := w.trace ++ [(i, .dispatched d)] })
  | .handle d, w => (reply, { w with trace := w.trace ++ [(i, .replied d.origin reply)] })

theorem queueAnswer_sem (mayFail : Prop) (i : ι) (reply : Bytes) (o : CtlOp) (w : QueueWorld ι) :
    queueSem mayFail i o w (queueAnswer i reply o w).1 (queueAnswer i reply o w).2 := by
  cases o with
  | insertRequest verb argsWire requestedBy key
  | claimOldest claimedBy | completeRequest id ok text =>
    simp only [queueSem, queueAnswer]
    split
    · exact ⟨rfl, .inl rfl⟩
    · exact .inl ⟨rfl, .inl rfl⟩
  | selectByKey requestedBy key | selectById id => exact ⟨rfl, .inl rfl⟩
  | isActive | submitted s | replaying id | dispatching d | handle d => exact rfl

theorem call_steps [DecidableEq ι] (mayFail : Prop) {p : CtlM α} (i : ι) (reply : Bytes)
    (hp : (queueSystem ι mayFail).start i () (p >>= fun _ => pure ())) (w : QueueWorld ι) :
    (queueSystem ι mayFail).Steps ⟨w, fun _ => .idle ()⟩
      ⟨(p.run (queueAnswer i reply) w).2, fun _ => .idle ()⟩ := by
  have h := System.steps_run (S := queueSystem ι mayFail) (s := w) (P := fun _ => .idle ())
    (queueAnswer_sem mayFail i reply) rfl hp
  rw [run_bind, Function.update_eq_self] at h
  exact h

def lineThenPoll (peer : PeerClass) (line reply : Bytes) : QueueWorld Unit :=
  (serverCtlQueuePoll.run (queueAnswer () reply)
    ((ctlHandleLine (.peer peer) line).run (queueAnswer () reply) .empty).2).2

theorem lineThenPoll_steps (mayFail : Prop) (peer : PeerClass) (line reply : Bytes) :
    (queueSystem Unit mayFail).Steps ⟨.empty, fun _ => .idle ()⟩
      ⟨lineThenPoll peer line reply, fun _ => .idle ()⟩ :=
  (call_steps mayFail () reply (.line peer line) _).trans (call_steps mayFail () reply .poll _)

end SolariNet
