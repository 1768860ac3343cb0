/-
# What was authorized and what is dispatched

A request is classified when it is submitted, by its verb as it was decoded.  It is dispatched
after its columns were put together into a line and taken apart again.  `BoundTo` says that the
second is what the first allowed: the same verb, the operator of the submission, no enrollment
token, and no confirmation but one that an earlier reply to the same row has issued.
-/
import SolariNet.Ctl.QueueSafety

namespace SolariNet

open Lib Lib.Prog CtlRequests

structure BoundTo (s : Submission) (a : List CtlEvent) (d : Dispatch) : Prop where
  verb : d.verb = s.verb
  operator : ∀ o, d.operator = some o → o = s.requestedBy
  not_enroll : d.verb ≠ txt "ENROLL_TOKEN"
  confirm : d.verb = txt "DECOMMISSION" → ∀ t, confirmSeen d.args = some t →
    ∃ origin reply, .replied origin reply ∈ a ∧
      ctlArgU64 ((dropNewline reply).drop 3) (txt "confirm") = .ok t

/-- The verb is one word; an operator that is read is the row's own and fits its buffer; the
arguments of a decommission hold no confirmation once they are trimmed. -/
structure KeepsBinding (s : Submission) (r : CtlRequestRow) : Prop where
  word : ∀ c ∈ s.verb, isBlank c = false
  operator : VerbReadsOperator s.verb →
    r.requestedBy = s.requestedBy ∧ (pctEncode isBare r.requestedBy).length < 64
  confirm : s.verb = txt "DECOMMISSION" → confirmSeen (ctlTrimLine s.argsWire) = none

/-! ## The dispatches of a row -/

theorem RowTrace.dispatch_cases {l a b : List CtlEvent}
    (h : RowTrace q l) (hl : l = a ++ .dispatched d :: b) :
    (a = [] ∧ q.dispatch = some d) ∨
      q.verb = txt "DECOMMISSION" ∧ ∃ d₁ reply,
        a = [.dispatched d₁, .replied (.queue q.reqId) reply] ∧ q.confirmation reply = some d := by
  rcases a with _ | ⟨x, _ | ⟨y, _ | ⟨z, a⟩⟩⟩
  · cases h with
    | nothing => cases hl
    | dispatched hd | replied hd | confirming hd | confirmed hd =>
      cases hl
      exact .inl ⟨rfl, hd⟩
  · cases h <;> cases hl
  · cases h with
    | confirming hd hverb hd' | confirmed hd hverb hd' =>
      cases hl
      exact .inr ⟨hverb, _, _, rfl, hd'⟩
    | _ => cases hl
  · cases a <;> cases h <;> simp at hl

theorem inlineConfirmation_eq_some {token node scope : Nat}
    (h : inlineConfirmation argsWire reply = some (token, node, scope)) :
    ctlArgU64 (reply.drop 3) (txt "confirm") = .ok token := by
  unfold inlineConfirmation at h
  split at h
  · cases h
  split at h
  · next htoken _ _ =>
    split at h
    · cases h
    · cases h
      exact htoken
  · cases h

section
variable {s : Submission} {r : CtlRequestRow}

theorem boundTo_dispatch_iff (hr : Queueable r.verb r.argsWire r.requestedBy)
    (hs : Queueable s.verb s.argsWire s.requestedBy) (hverb : r.verb = s.verb)
    (hargs : r.argsWire = s.argsWire) (hd : r.columns.dispatch = some d) :
    BoundTo s [] d ↔ KeepsBinding s r := by
  have henc : r.columns.opEnc = pctEncode isBare r.requestedBy :=
    ctlPctEncode_requester hr.by_length
  have hd' := hd
  rw [ClaimedRequest.dispatch, henc] at hd'
  -- what the dispatch holds, once the verb is one word
  have hread := fun hword : ∀ c ∈ r.verb, isBlank c = false =>
    lineDispatch_replay hr.toReplayable hword hd'
  rw [hverb, hargs] at hread
  constructor
  · intro h
    have hword : ∀ c ∈ s.verb, isBlank c = false := h.verb ▸ not_isBlank_of_dispatch hd
    obtain ⟨-, -, hop, hconf⟩ := hread hword
    refine ⟨hword, fun hreads => ?_, fun hdecom => ?_⟩
    · rw [if_pos hreads] at hop
      have hseen := h.operator _ hop
      unfold seenOperator at hseen
      split at hseen
      · next hfit => exact ⟨hseen, hfit⟩
      · exact absurd hseen.symm hs.by_ne
    · rw [Option.eq_none_iff_forall_ne_some]
      intro t ht
      obtain ⟨origin, reply, hmem, -⟩ := h.confirm (h.verb.trans hdecom) t (hconf.trans ht)
      cases hmem
  · intro h
    obtain ⟨-, hdverb, hop, hconf⟩ := hread h.word
    refine ⟨hdverb, fun o ho => ?_, hdverb ▸ hs.not_enroll, fun hdecom t ht => ?_⟩
    · rw [hop] at ho
      split at ho
      · next hreads =>
        obtain ⟨hby, hfit⟩ := h.operator hreads
        rw [seenOperator, if_pos hfit, hby] at ho
        exact (Option.some.inj ho).symm
      · cases ho
    · rw [hconf, h.confirm (hdverb ▸ hdecom)] at ht
      cases ht

theorem boundTo_confirmation (hr : Queueable r.verb r.argsWire r.requestedBy)
    (hverb : r.verb = s.verb) (hdecom : r.verb = txt "DECOMMISSION") (h : KeepsBinding s r)
    {a : List CtlEvent} (ha : .replied (.queue r.id) reply ∈ a)
    (hd : r.columns.confirmation reply = some d) : BoundTo s a d := by
  have henc : r.columns.opEnc = pctEncode isBare r.requestedBy :=
    ctlPctEncode_requester hr.by_length
  unfold ClaimedRequest.confirmation at hd
  split at hd
  · cases hd
  next token node scope htoken =>
  rw [henc] at hd
  obtain ⟨-, hdverb, hop, hconf⟩ := lineDispatch_confirm hr.toReplayable hd
  have hsverb : s.verb = txt "DECOMMISSION" := hverb.symm.trans hdecom
  refine ⟨hdverb.trans hsverb.symm, fun o ho => ?_, by rw [hdverb]; decide, fun _ t ht => ?_⟩
  · have hreads : VerbReadsOperator s.verb := by rw [hsverb]; decide
    obtain ⟨hby, hfit⟩ := h.operator hreads
    rw [hop, seenOperator, if_pos hfit, hby] at ho
    exact (Option.some.inj ho).symm
  · rw [hconf t ht]
    exact ⟨_, reply, ha, inlineConfirmation_eq_some htoken⟩

end

section
variable {ι : Type} [DecidableEq ι] {mayFail : Prop}

/-- **Queued actions.** In every state reached, all dispatches of an answered submission's row are
what it was allowed to ask for, exactly when the submission keeps the binding. -/
theorem queued_dispatch_bound {c c' : Conf ι CtlOp CtlOp.Res (QueueWorld ι) Unit}
    (hc : (queueSystem ι mayFail).Initial (· = .empty) c)
    (hs : (queueSystem ι mayFail).Steps c c') {s : Submission} (hsub : s ∈ c'.shared.submits)
    {r : CtlRequestRow} (hr : r ∈ c'.shared.requests.rows) (hres : s.result = .ok r.id)
    (hdispatched : c'.shared.eventsOf r.id ≠ []) :
    (∀ a d b, c'.shared.eventsOf r.id = a ++ .dispatched d :: b → BoundTo s a d) ↔
      KeepsBinding s r := by
  have hI := queueSystem_invariant hc hs
  have hsubmitted := hI.submitted s hsub
  obtain ⟨r', hr', hid, hverb, hargs⟩ := hsubmitted.accepted r.id hres
  cases Serial.eq_of_id hr' hr hid
  have hiff := fun d => boundTo_dispatch_iff (d := d) (hI.queueable r hr) hsubmitted.queueable
    hverb hargs
  have htrace := hI.traced r hr
  constructor
  · intro h
    obtain ⟨d, l, hl, hd⟩ : ∃ d l, c'.shared.eventsOf r.id = .dispatched d :: l ∧
        r.columns.dispatch = some d := by
      generalize c'.shared.eventsOf r.id = events at htrace hdispatched
      cases htrace with
      | nothing => exact absurd rfl hdispatched
      | dispatched hd | replied hd | confirming hd | confirmed hd => exact ⟨_, _, rfl, hd⟩
    exact (hiff d hd).1 (h [] d l hl)
  · intro h a d b hl
    rcases htrace.dispatch_cases hl with ⟨rfl, hd⟩ | ⟨hdecom, d₁, reply, rfl, hd⟩
    · exact (hiff d hd).2 h
    · refine boundTo_confirmation (hI.queueable r hr) hverb hdecom h ?_ hd
      exact List.mem_cons_of_mem _ List.mem_cons_self

def retireRun : QueueWorld Unit :=
  lineThenPoll .dashboard (txt "REQUEST_SUBMIT verb=RETIRE op=ann args=node%3D7") (txt "OK\n")

def retireSubmission : Submission :=
  ⟨.peer .dashboard, txt "RETIRE", txt "node=7", txt "ann", none, .ok 1⟩

def retireRow : CtlRequestRow :=
  ⟨1, txt "RETIRE", txt "node=7", txt "ann", none, .done, 1, some (txt "solariServer"),
    some (txt "OK"), none⟩

theorem queued_dispatch_bound_retire :
    retireSubmission ∈ retireRun.submits ∧ retireRow ∈ retireRun.requests.rows ∧
      retireRun.eventsOf 1 ≠ [] ∧ KeepsBinding retireSubmission retireRow ∧
      ∀ a d b, retireRun.eventsOf 1 = a ++ .dispatched d :: b → BoundTo retireSubmission a d := by
  have hP : (queueSystem Unit False).Steps ⟨.empty, fun _ => .idle ()⟩
    ⟨retireRun, fun _ => .idle ()⟩ := lineThenPoll_steps _ _ _ _
  obtain ⟨hsub, hrow, hevents⟩ : retireSubmission ∈ retireRun.submits ∧
      retireRow ∈ retireRun.requests.rows ∧ retireRun.eventsOf 1 ≠ [] := by decide +kernel
  have hkeeps : KeepsBinding retireSubmission retireRow :=
    ⟨by decide +kernel, fun _ => ⟨rfl, by decide +kernel⟩, fun h => absurd h (by decide +kernel)⟩
  exact ⟨hsub, hrow, hevents, hkeeps,
    (queued_dispatch_bound ⟨rfl, fun _ => ⟨(), trivial, rfl⟩⟩ hP hsub hrow rfl hevents).2 hkeeps⟩

/-- An enrollment token is asked for in two words: it is accepted from the dashboard as a
privileged request of `ann`, and dispatched with the operator that came with the verb. -/
theorem enroll_token_dispatched : ∃ c', (queueSystem Unit False).Steps
      ⟨.empty, fun _ => .idle ()⟩ c' ∧
    (⟨.peer .dashboard, txt "ENROLL_TOKEN op=root", [], txt "ann", none, .ok 1⟩ : Submission) ∈
      c'.shared.submits ∧
    .dispatched ⟨.queue 1, txt "ENROLL_TOKEN", some (txt "root"), txt "op=root op=ann"⟩ ∈
      c'.shared.eventsOf 1 := by
  have hP := lineThenPoll_steps False .dashboard
    (txt "REQUEST_SUBMIT verb=ENROLL_TOKEN%20op%3Droot op=ann") (txt "OK\n")
  exact ⟨_, hP, show _ ∈ (lineThenPoll .dashboard _ _).submits ∧
    _ ∈ (lineThenPoll .dashboard _ _).eventsOf 1 by decide +kernel⟩

end

end SolariNet
