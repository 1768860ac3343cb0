/-
# Claimed once, replayed once, answered by key

The programs of `QueueSystem` under interference.  A claim leaves its process the only one that
will replay the row; the replay adds to the trace what the line of the row dispatches; a submission
under a key is answered from the row of the key.
-/
import SolariNet.Ctl.QueueSystem

namespace SolariNet

open List Lib Lib.Prog CtlRequests

variable {ι : Type}

/-! ## Rows over a run -/

def RequestState.rank : RequestState → Nat
  | .pending => 0
  | .claimed => 1
  | .done | .failed => 2

/-- A row later in a run: the same request, not further back, and unchanged once it is done or
failed. -/
structure Later (r r' : CtlRequestRow) : Prop where
  same : SameRequest r r'
  forward : r.state.rank ≤ r'.state.rank
  settled : r.state.rank = 2 → r'.state = r.state ∧ r'.result = r.result ∧ r'.error = r.error

theorem Later.refl (r : CtlRequestRow) : Later r r := ⟨.refl r, le_rfl, fun _ => ⟨rfl, rfl, rfl⟩⟩

variable {r r' : CtlRequestRow}

theorem Later.trans (h : Later r r') (h' : Later r' r'') : Later r r'' := by
  refine ⟨h.same.trans h'.same, h.forward.trans h'.forward, fun hr => ?_⟩
  obtain ⟨hs, hres, herr⟩ := h.settled hr
  obtain ⟨hs', hres', herr'⟩ := h'.settled (hs ▸ hr)
  exact ⟨hs'.trans hs, hres'.trans hres, herr'.trans herr⟩

theorem CtlRequests.Moves.later (h : Moves r r') : Later r r' := by
  cases h with
  | stays h => exact h ▸ .refl r
  | claimed h hr hr' =>
    refine ⟨h, ?_, fun hrank => ?_⟩
    · rw [hr, hr']; decide
    · rw [hr] at hrank; cases hrank
  | settled h hr hr' =>
    refine ⟨h, ?_, fun hrank => ?_⟩
    · rcases hr' with hr' | hr' <;> rw [hr, hr'] <;> decide
    · rw [hr] at hrank; cases hrank

/-! ## Programs -/

section
variable {mayFail : Prop} {i : ι}

abbrev QueueSafe (mayFail : Prop) (i : ι) {α : Type} (Q : α → QueueWorld ι → Prop) (p : CtlM α)
    (w : QueueWorld ι) : Prop :=
  Safe (queueSem mayFail i) (QueueRely i) (QueueInv mayFail) Q p w

theorem complete_safe (reqId : Nat) (ok : Bool) (text : Bytes) (w : QueueWorld ι) :
    QueueSafe mayFail i (fun _ _ => True) (serverDbCtlRequestComplete reqId ok text) w := by
  unfold serverDbCtlRequestComplete
  split
  · trivial
  · refine safe_perform_bind.2 fun w₁ _ hI r w₂ hs => ⟨hI.step hs trivial, ?_⟩
    split <;> trivial

/-! ### Submitting -/

variable {argsWire requestedBy : Bytes} {key : Option Bytes} {origin : Origin} {w : QueueWorld ι}
  {q : ClaimedRequest} {l : List CtlEvent} {line verb : Bytes} {e : CtlEvent} {d : Dispatch}

theorem submitted_by_row {q : CtlRequestRow} (hq : q ∈ w.requests.rows)
    (hidem : q.idem = idemKey requestedBy key) (hcols : Queueable verb argsWire requestedBy)
    (hargs : argsWire.length ≤ 16383) :
    QueueSafe mayFail i
      (fun st w => Submitted mayFail w.requests ⟨origin, verb, argsWire, requestedBy, key, st⟩)
      (if 31 < q.verb.length ∨ 16383 < q.argsWire.length then .ret (.error .errInvalidArg)
        else if q.verb ≠ verb ∨ q.argsWire ≠ argsWire then .ret (.error .errInvalidArg)
        else if q.id = 0 then .ret (.error .errDb)
        else .ret (.ok q.id)) w := by
  have hid : q.id ≠ 0 := Nat.pos_iff_ne_zero.1 (w.requests.serial.bounded q hq).1
  have hverb := hcols.verb_length
  by_cases heq : q.verb = verb ∧ q.argsWire = argsWire
  · obtain ⟨rfl, rfl⟩ := heq
    rw [if_neg (by omega), if_neg (by simp), if_neg hid]
    refine ⟨hcols, fun k hk => .inr ⟨q, hq, hidem.trans hk, (if_pos ⟨rfl, rfl⟩).symm⟩, ?_⟩
    rintro id ⟨⟩
    exact ⟨q, hq, rfl, rfl, rfl⟩
  · rw [if_pos (not_and_or.1 heq), ite_self]
    refine ⟨hcols, fun k hk => .inr ⟨q, hq, hidem.trans hk, (if_neg heq).symm⟩, ?_⟩
    rintro id ⟨⟩

theorem Submitted.of_failed (hcols : Queueable verb argsWire requestedBy)
    (hfail : mayFail) :
    Submitted mayFail t ⟨origin, verb, argsWire, requestedBy, key, .error .errDb⟩ :=
  ⟨hcols, fun _ _ => .inl ⟨hfail, rfl⟩, by rintro id ⟨⟩⟩

theorem submit_safe (hcols : Queueable verb argsWire requestedBy) (hargs : argsWire.length ≤ 16383)
    (hkey : key ≠ some []) (origin : Origin) (w : QueueWorld ι) :
    QueueSafe mayFail i
      (fun st w => Submitted mayFail w.requests ⟨origin, verb, argsWire, requestedBy, key, st⟩)
      (serverDbCtlRequestSubmit verb argsWire requestedBy key) w := by
  have hfilter : (key.filter fun k => !k.isEmpty) = key := by
    cases key with
    | none => rfl
    | some k => simpa using hkey
  unfold serverDbCtlRequestSubmit
  rw [if_neg (by simp [hcols.verb_ne, hcols.by_ne]), hfilter]
  refine safe_perform_bind.2 fun w₁ _ hI₁ ans w₂ hs => ⟨hI₁.step hs hcols, ?_⟩
  simp only [queueSem] at hs
  split at hs
  · next hnone =>
    obtain ⟨row, hrow, k, hk, hidem⟩ := insert_eq_none hnone
    obtain ⟨rfl, rfl | ⟨hfail, rfl⟩⟩ := hs
    · -- the row in the way is still there when it is looked up
      cases key with
      | none => cases hk
      | some key =>
        refine safe_perform_bind.2 fun w₃ hR hI₃ found w₄ hs => ⟨hI₃.step hs trivial, ?_⟩
        obtain ⟨rfl, rfl | ⟨hfail, rfl⟩⟩ := hs
        · obtain ⟨row', hrow', hsame⟩ := hR.rows row hrow
          cases hq : w₄.requests.findKey requestedBy key with
          | none =>
            have hkey' := hsame.idem.trans (hidem.trans hk.symm)
            exact absurd hkey' (findKey_eq_none hq row' hrow')
          | some q =>
            obtain ⟨hmem, hqidem⟩ := findKey_eq_some hq
            exact submitted_by_row hmem hqidem hcols hargs
        · exact .of_failed hcols hfail
    · exact .of_failed hcols hfail
  · next t ht =>
    rcases hs with ⟨rfl, rfl | ⟨hfail, rfl⟩⟩ | ⟨hfail, -, rfl⟩
    · have hnew := (insert_eq_some ht _).2 (.inr rfl)
      refine ⟨hcols, fun k hk => .inr ⟨_, hnew, hk, (if_pos ⟨rfl, rfl⟩).symm⟩, ?_⟩
      rintro id ⟨⟩
      exact ⟨_, hnew, rfl, rfl, rfl⟩
    · exact .of_failed hcols hfail
    · exact .of_failed hcols hfail

theorem enqueue_safe {inner operator : Bytes} (hcols : Queueable inner argsWire operator)
    (hargs : argsWire.length ≤ 16383) (hkey : key ≠ some []) (origin : Origin) (w : QueueWorld ι) :
    QueueSafe mayFail i (fun _ _ => True) (enqueue origin inner argsWire operator key) w := by
  refine (submit_safe hcols hargs hkey origin w).seq fun st w₁ hst => ?_
  refine safe_perform_bind.2 fun w₂ hR hI _ w₃ hs => ⟨hI.step hs (hst.kept hR.rows), ?_⟩
  split <;> trivial

theorem argOrEmpty_spec (args key : Bytes) {cap : Nat} (hcap : 0 < cap) :
    (argOrEmpty args key cap).length < cap ∧ ∀ c ∈ argOrEmpty args key cap, c ≠ 0 := by
  unfold argOrEmpty
  split
  · exact ⟨hcap, by rintro c ⟨⟩⟩
  · next h => exact ⟨ctlArgStr_length h, ctlArgStr_bytes h⟩

theorem requestSubmit_safe (origin : Origin) (args : Bytes) (w : QueueWorld ι) :
    QueueSafe mayFail i (fun _ _ => True) (requestSubmit origin args) w := by
  obtain ⟨hverb, hverb'⟩ := argOrEmpty_spec args (txt "verb") (show 0 < 32 by decide)
  obtain ⟨hop, hop'⟩ := argOrEmpty_spec args (txt "op") (show 0 < 64 by decide)
  obtain ⟨hargs, hargs'⟩ := argOrEmpty_spec args (txt "args") (show 0 < ctlReqCap by decide)
  unfold requestSubmit
  simp only
  split
  · trivial
  next hinner =>
  split
  · trivial
  split
  · trivial
  next henroll =>
  split
  · trivial
  next hoperator =>
  split
  · trivial
  rw [List.isEmpty_iff] at hinner hoperator
  have hcols : Queueable (argOrEmpty args (txt "verb") 32) (argOrEmpty args (txt "args") ctlReqCap)
      (argOrEmpty args (txt "op") 64) :=
    ⟨⟨hinner, Nat.le_of_lt_succ hverb, hverb', hargs', hoperator, Nat.le_of_lt_succ hop, hop'⟩,
      henroll⟩
  refine enqueue_safe hcols (Nat.le_of_lt_succ hargs) ?_ origin w
  split
  · exact Option.some_ne_none _ ∘ Eq.symm
  next hidem =>
  rw [List.isEmpty_iff] at hidem
  exact fun h => hidem (Option.some.inj h)

theorem submit_silent (verb argsWire requestedBy : Bytes) (key : Option Bytes) :
    (serverDbCtlRequestSubmit verb argsWire requestedBy key).Uses fun o => o.isSilent = true := by
  unfold serverDbCtlRequestSubmit
  split
  · trivial
  refine .perform_bind rfl fun r => ?_
  split
  · trivial
  · trivial
  split
  · trivial
  refine .perform_bind rfl fun r => ?_
  split
  · trivial
  · trivial
  split
  · trivial
  split
  · trivial
  split <;> trivial

theorem requestSubmit_silent (origin : Origin) (args : Bytes) :
    (requestSubmit origin args).Uses fun o => o.isSilent = true := by
  unfold requestSubmit
  simp only
  split
  · trivial
  split
  · trivial
  split
  · trivial
  split
  · trivial
  split
  · trivial
  · refine .bind (submit_silent _ _ _ _) fun st => .perform_bind rfl fun _ => ?_
    split <;> trivial

/-! ### Handling a line -/

structure Replaying (i : ι) (q : ClaimedRequest) (l : List CtlEvent) (w : QueueWorld ι) : Prop where
  claimed : (i, q.reqId) ∈ w.claims
  replays : (i, q.reqId) ∈ w.replays
  events : w.eventsOf q.reqId = l
  row : ∃ r ∈ w.requests.rows, r.columns = q

variable {w' : QueueWorld ι}

theorem Replaying.stable (h : Replaying i q l w) (hR : QueueRely i w w') : Replaying i q l w' := by
  obtain ⟨r, hr, rfl⟩ := h.row
  obtain ⟨r', hr', hs⟩ := hR.rows r hr
  exact ⟨hR.claims _ h.claimed, hR.replays _ h.replays, (hR.events _ h.claimed).trans h.events,
    r', hr', hs.columns⟩

def Standing (i : ι) (origin : Origin) (q : ClaimedRequest) (l : List CtlEvent)
    (w : QueueWorld ι) : Prop :=
  ∀ id, origin = .queue id → id = q.reqId ∧ Replaying i q l w

section
variable (h : Standing i origin q l w)
include h

theorem Standing.stable (hR : QueueRely i w w') :
    Standing i origin q l w' := fun id hid => ⟨(h id hid).1, (h id hid).2.stable hR⟩

theorem Standing.allowed (he : e.origin = origin)
    (hl : ∀ id, origin = .queue id → RowTrace q (l ++ [e])) : EventAllowed i e w := by
  intro id hid
  obtain ⟨rfl, hrep⟩ := h id (he ▸ hid)
  refine ⟨hrep.replays, fun r hr hrid => ?_⟩
  obtain ⟨r', hr', hcols⟩ := hrep.row
  have hid' : r'.id = q.reqId := congrArg ClaimedRequest.reqId hcols
  rw [Serial.eq_of_id hr hr' (hrid.trans hid'.symm), hcols, hrep.events]
  exact hl _ (he ▸ hid)

theorem Standing.event (he : e.origin = origin) :
    Standing i origin q (l ++ [e]) { w with trace := w.trace ++ [(i, e)] } := by
  intro id hid
  obtain ⟨rfl, hrep⟩ := h id hid
  refine ⟨rfl, hrep.claimed, hrep.replays, ?_, hrep.row⟩
  rw [eventsOf_event, if_pos (he.trans hid), hrep.events]

end

inductive LineOutcome (origin : Origin) (line : Bytes) (l : List CtlEvent) (reply : Bytes) :
    List CtlEvent → Prop where
  | refused (h : ∀ argsWire, inlineConfirmation argsWire (dropNewline reply) = none) :
      LineOutcome origin line l reply l
  | answered {d : Dispatch} (hd : lineDispatch origin line = some d)
      (hverb : d.verb = txt "PING" ∨ d.verb = txt "REQUEST_SUBMIT") :
      LineOutcome origin line l reply (l ++ [.dispatched d])
  | handled {d : Dispatch} (hd : lineDispatch origin line = some d) :
      LineOutcome origin line l reply (l ++ [.dispatched d] ++ [.replied origin reply])

theorem inlineConfirmation_replyErr (code : Status) (message : String) (argsWire : Bytes) :
    inlineConfirmation argsWire (dropNewline (ctlReplyErr code message)) = none := by
  have hreply : dropNewline (ctlReplyErr code message) =
      txt "ERR -" ++ (decimal code.code ++ 0x20 :: txt message) := by
    unfold dropNewline ctlReplyErr
    rw [if_pos List.getLast?_concat, dropLast_concat, append_assoc]
  unfold inlineConfirmation
  rw [hreply, if_pos]
  rw [take_append_of_le_length (by decide)]
  decide

theorem lineDispatch_origin (h : lineDispatch origin line = some d) : d.origin = origin := by
  unfold lineDispatch at h
  split at h
  · cases h
  split at h
  · cases h
    rfl
  · cases h

theorem ctlDispatch_safe (hd : lineDispatch origin line = some d) (hs : Standing i origin q l w)
    (hl : ∀ id, origin = .queue id → RowTrace q (l ++ [.dispatched d]) ∧
      ∀ reply, RowTrace q (l ++ [.dispatched d] ++ [.replied origin reply])) :
    QueueSafe mayFail i
      (fun reply w => ∃ l', Standing i origin q l' w ∧ LineOutcome origin line l reply l')
      (ctlDispatch d) w := by
  have horigin := lineDispatch_origin hd
  refine safe_perform_bind.2 fun w₁ hR hI _ w₂ hsem => ?_
  have hs₁ := hs.stable hR
  have hallowed : EventAllowed i (.dispatched d) w₁ := hs₁.allowed horigin fun id h => (hl id h).1
  refine ⟨hI.step hsem hallowed, ?_⟩
  have hs₂ : Standing i origin q (l ++ [.dispatched d]) w₂ := hsem ▸ hs₁.event horigin
  split
  · next hverb => exact ⟨_, hs₂, .answered hd (.inl hverb)⟩
  split
  · next hverb =>
    refine ((requestSubmit_safe d.origin d.args w₂).frame
      (K := Standing i origin q (l ++ [.dispatched d])) (fun _ _ h hR => h.stable hR)
      (fun o _ _ _ ho hsem h => h.stable ((queueSem_change hsem).silent ho))
      (requestSubmit_silent _ _) hs₂).mono ?_
    rintro reply w₃ ⟨-, hs₃⟩
    exact ⟨_, hs₃, .answered hd (.inr hverb)⟩
  · refine safe_perform.2 fun w₃ hR hI₃ reply w₄ hsem => ?_
    have hs₃ := hs₂.stable hR
    have hreply : ∀ reply, EventAllowed i (.replied d.origin reply) w₃ := by
      intro reply
      rw [horigin]
      exact hs₃.allowed rfl fun id h => (hl id h).2 reply
    refine ⟨hI₃.step hsem hreply, ?_⟩
    refine ⟨_, ?_, .handled hd⟩
    subst hsem
    rw [horigin]
    exact hs₃.event rfl

theorem ctlHandleLine_safe (hs : Standing i origin q l w)
    (hl : ∀ d, lineDispatch origin line = some d → ∀ id, origin = .queue id →
      RowTrace q (l ++ [.dispatched d]) ∧
        ∀ reply, RowTrace q (l ++ [.dispatched d] ++ [.replied origin reply])) :
    QueueSafe mayFail i
      (fun reply w => ∃ l', Standing i origin q l' w ∧ LineOutcome origin line l reply l')
      (ctlHandleLine origin line) w := by
  have hrefused : ∀ {w} code message, Standing i origin q l w → ∃ l', Standing i origin q l' w ∧
      LineOutcome origin line l (ctlReplyErr code message) l' := fun code message hs =>
    ⟨l, hs, .refused (inlineConfirmation_replyErr code message)⟩
  unfold ctlHandleLine
  simp only
  split
  · exact hrefused _ _ hs
  split
  · exact hrefused _ _ hs
  next verb args hsplit =>
  split
  · exact hrefused _ _ hs
  next hmay =>
  refine safe_perform_bind.2 fun w₁ hR hI active w₂ hsem => ⟨hI.step hsem trivial, ?_⟩
  have hs₂ : Standing i origin q l w₂ := (show w₂ = w₁ from hsem) ▸ hs.stable hR
  split
  · exact hrefused _ _ hs₂
  split
  · exact hrefused _ _ hs₂
  next op hrbac =>
  have hd : lineDispatch origin line = some ⟨origin, verb, handlerOperator verb args, args⟩ := by
    unfold lineDispatch
    rw [hsplit]
    simp only [hrbac]
    rw [if_pos]
    rw [Bool.and_eq_true]
    exact ⟨by simpa using hmay, rfl⟩
  exact ctlDispatch_safe hd hs₂ (hl _ hd)

theorem ctlHandleLine_peer_safe (peer : PeerClass) (line : Bytes) (w : QueueWorld ι) :
    QueueSafe mayFail i (fun _ _ => True) (ctlHandleLine (.peer peer) line) w :=
  (ctlHandleLine_safe (q := ⟨0, [], [], []⟩) (l := []) (by rintro id ⟨⟩)
    (by rintro d - id ⟨⟩)).mono fun _ _ _ => trivial

/-! ### Polling -/

theorem Mine.stable {id : Nat} (h : Mine i id w) (hR : QueueRely i w w') :
    Mine i id w' := ⟨hR.claims _ h.1, hR.unreplayed id h.1 h.2⟩

theorem claim_safe (claimedBy : Bytes) (verbCap argsCap : Nat) (w : QueueWorld ι) :
    QueueSafe mayFail i
      (fun r w => ∀ q, r = .ok q → Mine i q.reqId w ∧ ∃ r ∈ w.requests.rows, r.columns = q)
      (serverDbCtlRequestClaim claimedBy verbCap argsCap 128) w := by
  refine safe_perform_bind.2 fun w₁ _ hI₁ ans w₂ hs => ⟨hI₁.step hs trivial, ?_⟩
  simp only [queueSem] at hs
  split at hs
  · obtain ⟨-, rfl | ⟨-, rfl⟩⟩ := hs <;> rintro q ⟨⟩
  next id t ht =>
  obtain ⟨hp, ho, htaken, -⟩ := claimOldest_eq_some ht
  rcases hs with ⟨rfl, rfl | ⟨-, rfl⟩⟩ | ⟨-, -, rfl⟩
  · have hmine : Mine i id { w₁ with requests := t, claims := w₁.claims ++ [(i, id)] } := by
      refine ⟨mem_append_right _ mem_cons_self, fun hmem => ?_⟩
      obtain ⟨p, hp', rfl⟩ := mem_map.1 hmem
      exact hI₁.unclaimed ⟨hp, ho, htaken⟩ (mem_map_of_mem (hI₁.replays_claimed p hp'))
    refine safe_perform_bind.2 fun w₃ hR hI₃ found w₄ hs => ⟨hI₃.step hs trivial, ?_⟩
    obtain ⟨rfl, rfl | ⟨-, rfl⟩⟩ := hs
    · cases hrow : w₄.requests.findId id with
      | none => rintro q ⟨⟩
      | some row =>
        obtain ⟨hmem, hid⟩ := findId_eq_some hrow
        simp only
        split
        · refine (complete_safe _ _ _ w₄).seq fun _ w₅ _ => ?_
          rintro q ⟨⟩
        -- the requester fits the buffer it is copied into
        have hby : row.requestedBy.take 127 = row.requestedBy :=
          take_of_length_le (by have := (hI₃.queueable row hmem).by_length; omega)
        rintro q ⟨⟩
        exact ⟨hid ▸ hmine.stable hR, row, hmem, by rw [hby]; rfl⟩
    · rintro q ⟨⟩
  · rintro q ⟨⟩
  · rintro q ⟨⟩

theorem opEnc_eq (h : Replayable q.verb q.argsWire q.requestedBy) :
    q.opEnc = pctEncode isBare q.requestedBy := ctlPctEncode_requester h.by_length

theorem confirmInline_safe (hq : Replayable q.verb q.argsWire q.requestedBy)
    (hs : Standing i (.queue q.reqId) q l w)
    (hout : LineOutcome (.queue q.reqId) (replayLine q.verb q.opEnc q.argsWire) [] reply l) :
    QueueSafe mayFail i (fun _ _ => True) (confirmInline q q.opEnc reply) w := by
  unfold confirmInline
  split
  case isFalse => trivial
  next hcond =>
  split
  · trivial
  next token node scope hconf =>
  simp only
  split
  · trivial
  -- the reply that carries the token is the one in the trace
  cases hout with
  | refused hnone =>
    rw [hnone] at hconf
    cases hconf
  | @answered d hd hverb =>
    rw [opEnc_eq hq] at hd
    have hd' := (lineDispatch_replay hq (by rw [hcond.1]; decide +kernel) hd).2.1
    rw [hd', hcond.1] at hverb
    exact absurd hverb (by decide)
  | @handled d hd =>
    refine (ctlHandleLine_safe hs fun d' hd' id _ => ?_).mono fun _ _ _ => trivial
    have hconfirm : q.confirmation reply = some d' := by
      unfold ClaimedRequest.confirmation
      rw [hconf]
      exact hd'
    exact ⟨.confirming hd hcond.1 hconfirm, fun reply' => .confirmed hd hcond.1 hconfirm reply'⟩

theorem replayRequest_safe (h : Mine i q.reqId w) (hrow : ∃ r ∈ w.requests.rows, r.columns = q) :
    QueueSafe mayFail i (fun _ _ => True) (replayRequest q) w := by
  refine safe_perform_bind.2 fun w₁ hR hI _ w₂ hsem => ?_
  have hmine := h.stable hR
  refine ⟨hI.step hsem hmine, ?_⟩
  obtain ⟨r, hr, hcols⟩ := hrow
  obtain ⟨r', hr', hsame⟩ := hR.rows r hr
  have hcols' : r'.columns = q := hsame.columns.trans hcols
  have hq : Replayable q.verb q.argsWire q.requestedBy := by
    subst hcols'
    exact (hI.queueable r' hr').toReplayable
  have hnone : w₁.eventsOf q.reqId = [] := by
    refine filter_eq_nil_iff.2 fun e he hid => ?_
    obtain ⟨p, hp, rfl⟩ := mem_map.1 he
    exact hmine.2 (mem_map_of_mem (hI.owned p hp _ (of_decide_eq_true hid)))
  have hs : Standing i (.queue q.reqId) q [] w₂ := by
    subst hsem
    rintro id ⟨⟩
    exact ⟨rfl, hmine.1, mem_append_right _ mem_cons_self, hnone, r', hr', hcols'⟩
  refine (ctlHandleLine_safe hs fun d hd id _ => ?_).seq ?_
  · exact ⟨.dispatched hd, fun reply => .replied hd reply⟩
  · rintro reply w₃ ⟨l, hs₃, hout⟩
    exact confirmInline_safe hq hs₃ hout

theorem serverCtlQueuePoll_safe (w : QueueWorld ι) :
    QueueSafe mayFail i (fun _ _ => True) serverCtlQueuePoll w := by
  refine (claim_safe _ _ _ w).seq fun r w₁ hr => ?_
  cases r with
  | error st => trivial
  | ok q =>
    obtain ⟨hmine, hrow⟩ := hr q rfl
    simp only
    split
    · exact (complete_safe _ _ _ w₁).seq fun _ _ _ => trivial
    · refine (replayRequest_safe hmine hrow).seq fun reply w₂ _ => ?_
      exact (complete_safe _ _ _ w₂).seq fun _ _ _ => trivial

theorem queueStart_safe (hp : QueueStart p) (w : QueueWorld ι) :
    QueueSafe mayFail i (fun _ _ => True) p w := by
  cases hp with
  | line peer line => exact (ctlHandleLine_peer_safe _ _ w).seq fun _ _ _ => trivial
  | poll => exact (serverCtlQueuePoll_safe w).seq fun _ _ _ => trivial

end

/-! ## The system -/

section
variable [DecidableEq ι] {mayFail : Prop}

omit [DecidableEq ι] in
theorem queueSystem_relies : (queueSystem ι mayFail).Relies (QueueInv mayFail) QueueRely where
  refl := QueueRely.refl
  trans _ _ _ _ := QueueRely.trans
  other _ _ _ _ _ _ hij hI hI' h := (queueSem_change h).rely hij hI hI'
  env _ _ _ _ _ h := h.elim

variable {c c' : Conf ι CtlOp CtlOp.Res (QueueWorld ι) Unit}

theorem queueSystem_invariant (hc : (queueSystem ι mayFail).Initial (· = .empty) c)
    (hs : (queueSystem ι mayFail).Steps c c') : QueueInv mayFail c'.shared :=
  (System.invariant (A := fun _ _ _ => True) queueSystem_relies (fun _ _ _ _ _ _ _ => trivial)
    (fun _ _ _ w hp _ _ => queueStart_safe hp w) (fun _ _ _ h => h.elim)
    (fun _ _ _ _ _ => trivial) (fun _ h => h ▸ QueueInv.initial mayFail) hc hs).1

section
variable (h : (queueSystem ι mayFail).Step c c')
include h

theorem queueStep_change : c'.shared = c.shared ∨ ∃ i o, QueueChange i o c.shared c'.shared := by
  cases h with
  | start i hi hp => exact .inl rfl
  | act i hi ho => exact .inr ⟨i, _, queueSem_change ho⟩
  | finish i hi => exact .inl rfl
  | env h => exact h.elim
  | crash i hm => exact .inl rfl

theorem queueStep_moves : RowsMove c.shared.requests c'.shared.requests := by
  rcases queueStep_change h with h | ⟨i, o, h⟩
  · exact h ▸ .refl _
  · exact h.moves

theorem queueStep_claims : ∀ p ∈ c'.shared.claims, p ∈ c.shared.claims ∨
      ClaimsOldest c.shared.requests c'.shared.requests p.2 := by
  intro p hp
  rcases queueStep_change h with h | ⟨i, o, h⟩
  · exact .inl (h ▸ hp)
  cases h with
  | claim _ _ hc h =>
    rw [h] at hp ⊢
    rcases mem_append.1 hp with hp | hp
    · exact .inl hp
    · rw [mem_singleton.1 hp]
      exact .inr hc
  | same h | insert _ _ h | settle _ _ h | submit _ _ h | replay _ _ h | event _ _ h =>
    rw [h] at hp
    exact .inl hp

end

theorem queueSteps_later (h : (queueSystem ι mayFail).Steps c c') :
    ∀ r ∈ c.shared.requests.rows, ∃ r' ∈ c'.shared.requests.rows, Later r r' := by
  intro r hr
  induction h with
  | refl => exact ⟨r, hr, .refl r⟩
  | tail _ hstep ih =>
    obtain ⟨r', hr', hl⟩ := ih
    obtain ⟨r'', hr'', hm⟩ := queueStep_moves hstep r' hr'
    exact ⟨r'', hr'', hl.trans hm.later⟩

/-- **The queue.** Along every run: a row is claimed and replayed once, oldest first; rows only move
forward; an idempotency key names one row, which answers every submission under it. -/
theorem queue_serializes {c c' : Conf ι CtlOp CtlOp.Res (QueueWorld ι) Unit}
    (hc : (queueSystem ι mayFail).Initial (· = .empty) c)
    (hs : (queueSystem ι mayFail).Steps c c') :
    (c'.shared.claims.map Prod.snd).Nodup ∧ (c'.shared.replays.map Prod.snd).Nodup ∧
      (∀ p ∈ c'.shared.replays, p ∈ c'.shared.claims) ∧
      (∀ c'', (queueSystem ι mayFail).Step c' c'' →
        RowsMove c'.shared.requests c''.shared.requests ∧
          ∀ p ∈ c''.shared.claims, p ∈ c'.shared.claims ∨
            ClaimsOldest c'.shared.requests c''.shared.requests p.2) ∧
      (∀ c'', (queueSystem ι mayFail).Steps c' c'' → ∀ r ∈ c'.shared.requests.rows,
        ∃ r' ∈ c''.shared.requests.rows, Later r r') ∧
      (∀ r ∈ c'.shared.requests.rows, ∀ q ∈ c'.shared.requests.rows, ∀ k, r.idem = some k →
        q.idem = some k → r = q) ∧
      ∀ s ∈ c'.shared.submits, AnsweredByKey mayFail c'.shared.requests s := by
  have hI := queueSystem_invariant hc hs
  refine ⟨hI.claims_nodup, hI.replays_nodup, hI.replays_claimed, fun c'' h => ?_,
    fun c'' h => queueSteps_later h, c'.shared.requests.unique, fun s hs =>
      (hI.submitted s hs).byKey⟩
  exact ⟨queueStep_moves h, queueStep_claims h⟩

/-- Two processes submit under one key, and both poll. -/
theorem queue_serializes_contended : ∃ c', (queueSystem Bool False).Steps
      ⟨.empty, fun _ => .idle ()⟩ c' ∧
    (c'.shared.replays = [(true, 1)] ∧ c'.shared.submits.length = 2) ∧
    (c'.shared.replays.map Prod.snd).Nodup ∧
    ∀ s ∈ c'.shared.submits, AnsweredByKey False c'.shared.requests s := by
  let line : Bytes := txt "REQUEST_SUBMIT verb=RETIRE op=ann idem=a1 args=node%3D7"
  let ok : Bytes := txt "OK\n"
  have hP := (((call_steps False false ok (.line .dashboard line) .empty).trans
    (call_steps False true ok (.line .dashboard line) _)).trans
    (call_steps False true ok .poll _)).trans (call_steps False false ok .poll _)
  have hq := queue_serializes ⟨rfl, fun _ => ⟨(), trivial, rfl⟩⟩ hP
  exact ⟨_, hP, by decide +kernel, hq.2.1, hq.2.2.2.2.2.2⟩

end

end SolariNet
