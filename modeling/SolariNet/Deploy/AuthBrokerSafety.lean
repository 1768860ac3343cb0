/-
# What an approval stands for

The threads of the broker over the objects they share: any number of threads that serve a request,
and the network thread, which handles one response after the other.  A response is whatever arrives;
the clock moves forward.

    heap        every `PendingRequest` there is; a reference is a place in it
    pending     `_pending`, from a request id to a reference
    received    the responses that arrived, with the time
    overwrote   a result was set where there was one

The last two are kept for the statements below; no thread reads them.
-/
import SolariNet.Deploy.AuthBroker
import SolariNet.Lib.Play

namespace SolariNet.AuthBroker

open Function Lib Lib.Prog
open List hiding set

/-! ## The system -/

structure Pending where
  core : PendingCore
  result : Option Result

structure BrokerWorld where
  clock : Int
  heap : List Pending
  pending : String → Option Nat
  received : List (Arrival × Int)
  overwrote : Bool

inductive Thread where
  | network
  | http (n : Nat)
  deriving DecidableEq, Repr

def BrokerWorld.register (w : BrokerWorld) (p : PendingCore) : BrokerWorld :=
  { w with
    heap := w.heap ++ [⟨p, none⟩]
    pending := Function.update w.pending p.id (some w.heap.length) }

def BrokerWorld.result (w : BrokerWorld) (ref : Nat) : Option Result :=
  (w.heap[ref]?).bind (·.result)

def BrokerWorld.resolve (w : BrokerWorld) (ref : Nat) (r : Result) : BrokerWorld :=
  { w with
    heap := w.heap.modify ref fun p => { p with result := some r }
    overwrote := w.overwrote || (w.result ref).isSome }

def BrokerWorld.lookup (w : BrokerWorld) (id : String) : Option (Nat × PendingCore) :=
  (w.pending id).bind fun ref => (w.heap[ref]?).map fun p => (ref, p.core)

def brokerSem (t : Thread) : Sem BrokerOp BrokerRes BrokerWorld
  | .isConnected, w, _, w' => w' = w
  | .uuid, w, _, w' => w' = w
  | .token, w, _, w' => w' = w
  | .time, w, now, w' => now = w.clock ∧ w' = w
  | .register p, w, ref, w' => ref = w.heap.length ∧ w' = w.register p
  | .publish _ _ _, w, _, w' => w' = w
  | .wait ref _, w, set, w' => set = (w.result ref).isSome ∧ w' = w
  | .pop id, w, _, w' => w' = { w with pending := Function.update w.pending id none }
  | .result ref, w, r, w' => r = w.result ref ∧ w' = w
  | .arrive, w, m, w' => w' = { w with received := (m, w.clock) :: w.received }
  | .lookup id, w, found, w' => found = w.lookup id ∧ w' = w
  | .isSet ref, w, set, w' => set = (w.result ref).isSome ∧ w' = w
  -- only the program of the network thread has this operation
  | .resolve ref r, w, _, w' => w' = if t = .network then w.resolve ref r else w

variable {K : Type}

inductive BrokerStart (cfg : Config K) : Thread → BrokerProg Memory → Prop where
  | response : BrokerStart cfg .network (handleResponse cfg)
  | request (n : Nat) (ask : Ask) : BrokerStart cfg (.http n) (request cfg ask)

def brokerSystem (cfg : Config K) : System Thread BrokerOp BrokerRes BrokerWorld Memory where
  sem := brokerSem
  start t _ p := BrokerStart cfg t p
  env w w' := ∃ now, w.clock ≤ now ∧ w' = { w with clock := now }
  boot _ m := m = .fresh

def BrokerInitial (w : BrokerWorld) : Prop :=
  w.heap = [] ∧ (∀ id, w.pending id = none) ∧ w.received = [] ∧ w.overwrote = false

/-! ## What a result stands for -/

def Evidence (cfg : Config K) (received : List (Arrival × Int)) (p : PendingCore) (r : Result) :
    Prop :=
  ∃ m arrived body key bytes, (m, arrived) ∈ received ∧ arrived ≤ p.created + p.ttl * second ∧
    cfg.loads m.payload = some body ∧ cfg.devices r.deviceId = some key ∧
    canonicalResponse protoVersion p.id r.decision.text p.nonce r.deviceId p.reqDigest = .ok bytes ∧
    cfg.verify key bytes body.sig = true ∧ (p.device ≠ "" → r.deviceId = p.device)

variable {cfg : Config K} {p : PendingCore} {w w' : BrokerWorld} {ref : Nat}
  {c : Conf Thread BrokerOp BrokerRes BrokerWorld Memory} {r : Result}

theorem Evidence.mono {received received' : List (Arrival × Int)}
    (h : Evidence cfg received p r) (hsub : received ⊆ received') : Evidence cfg received' p r := by
  obtain ⟨m, arrived, body, key, bytes, hmem, hrest⟩ := h
  exact ⟨m, arrived, body, key, bytes, hsub hmem, hrest⟩

variable {b : Body} {c' : Conf Thread BrokerOp BrokerRes BrokerWorld Memory} {d : Decision}
  {reqId : String} {t : Thread}

theorem bodyChecks_eq_some (h : bodyChecks reqId p b = some d) :
    b.nonce = p.nonce ∧ b.decision = d.text ∧ b.reqDigest = p.reqDigest := by
  obtain ⟨-, h⟩ := Option.ite_none_left_eq_some.1 h
  obtain ⟨-, h⟩ := Option.ite_none_left_eq_some.1 h
  obtain ⟨hnonce, h⟩ := Option.ite_none_left_eq_some.1 h
  cases hd : Decision.ofText b.decision with
  | none =>
    rw [hd] at h
    cases h
  | some d' =>
    rw [hd] at h
    obtain ⟨hdigest, h⟩ := Option.ite_none_left_eq_some.1 h
    cases h
    exact ⟨not_not.1 hnonce, (Decision.text_of_ofText hd).symm, not_not.1 hdigest⟩

theorem signatureChecks_eq_true (h : signatureChecks cfg reqId p b = true) :
    ∃ key bytes, cfg.devices b.deviceId = some key ∧ (p.device ≠ "" → b.deviceId = p.device) ∧
      canonicalResponse protoVersion reqId b.decision b.nonce b.deviceId b.reqDigest = .ok bytes ∧
      cfg.verify key bytes b.sig = true := by
  unfold signatureChecks at h
  cases hkey : cfg.devices b.deviceId with
  | none =>
    rw [hkey] at h
    cases h
  | some key =>
    rw [hkey] at h
    simp only at h
    split at h
    · cases h
    next htarget =>
    cases hbytes : canonicalResponse protoVersion reqId b.decision b.nonce b.deviceId
        b.reqDigest with
    | error e =>
      rw [hbytes] at h
      cases h
    | ok bytes =>
      rw [hbytes] at h
      refine ⟨key, bytes, rfl, fun hne => ?_, rfl, h⟩
      by_contra hdiff
      exact htarget ⟨hne, fun heq => hdiff heq.symm⟩

theorem evidence_of_checks {arrived : Int} (hmem : (m, arrived) ∈ w.received)
    (hload : cfg.loads m.payload = some b) (hbody : bodyChecks p.id p b = some d)
    (htime : arrived - p.created ≤ p.ttl * second) (hsig : signatureChecks cfg p.id p b = true) :
    Evidence cfg w.received p ⟨d, b.deviceId, p.id⟩ := by
  obtain ⟨hnonce, hdec, hdigest⟩ := bodyChecks_eq_some hbody
  obtain ⟨key, bytes, hkey, htarget, hbytes, hverify⟩ := signatureChecks_eq_true hsig
  rw [hnonce, hdec, hdigest] at hbytes
  exact ⟨m, arrived, b, key, bytes, hmem, by omega, hload, hkey, hbytes, hverify, htarget⟩

/-! ## The invariant -/

structure BrokerInv (cfg : Config K) (w : BrokerWorld) : Prop where
  results : ∀ (ref : Nat) (p : Pending) r, w.heap[ref]? = some p → p.result = some r →
    Evidence cfg w.received p.core r
  arrived : ∀ a ∈ w.received, a.2 ≤ w.clock
  pending : ∀ id ref, w.pending id = some ref →
    ∃ p : Pending, w.heap[ref]? = some p ∧ p.core.id = id
  kept : w.overwrote = false

/-- What was there stays; a result stays the same unless one was overwritten. -/
structure Grows (w w' : BrokerWorld) : Prop where
  clock : w.clock ≤ w'.clock
  received : w.received ⊆ w'.received
  overwrote : w'.overwrote = false → w.overwrote = false
  objects : ∀ (ref : Nat) (p : Pending), w.heap[ref]? = some p →
    ∃ p' : Pending, w'.heap[ref]? = some p' ∧ p'.core = p.core ∧
      (w'.overwrote = false → p.result.isSome → p' = p)

theorem Grows.of_heap (hc : w.clock ≤ w'.clock) (hr : w.received ⊆ w'.received)
    (ho : w'.overwrote = w.overwrote)
    (hp : ∀ (ref : Nat) p, w.heap[ref]? = some p → w'.heap[ref]? = some p) : Grows w w' :=
  ⟨hc, hr, fun h => ho ▸ h, fun ref p h => ⟨p, hp ref p h, rfl, fun _ _ => rfl⟩⟩

theorem Grows.refl (w : BrokerWorld) : Grows w w :=
  .of_heap le_rfl (List.Subset.refl _) rfl fun _ _ h => h

theorem Grows.trans (h : Grows w w') (h' : Grows w' w'') : Grows w w'' where
  clock := h.clock.trans h'.clock
  received := List.Subset.trans h.received h'.received
  overwrote ho := h.overwrote (h'.overwrote ho)
  objects ref p hp := by
    obtain ⟨p', hp', hcore, hsame⟩ := h.objects ref p hp
    obtain ⟨p'', hp'', hcore', hsame'⟩ := h'.objects ref p' hp'
    refine ⟨p'', hp'', hcore'.trans hcore, fun ho hr => ?_⟩
    cases hsame (h'.overwrote ho) hr
    exact hsame' ho hr

structure BrokerRely (t : Thread) (w w' : BrokerWorld) : Prop where
  grows : Grows w w'
  objects : t = .network → ∀ (ref : Nat) p, w.heap[ref]? = some p → w'.heap[ref]? = some p

theorem heap_register (h : w.heap[ref]? = some q) :
    (w.register p).heap[ref]? = some q := by
  obtain ⟨hlt, -⟩ := List.getElem?_eq_some_iff.1 h
  simpa only [BrokerWorld.register, List.getElem?_append_left hlt] using h

theorem heap_resolve {ref' : Nat} {p : Pending} :
    (w.resolve ref r).heap[ref']? = some p ↔ ∃ q, w.heap[ref']? = some q ∧
      p = if ref = ref' then { q with result := some r } else q := by
  rw [BrokerWorld.resolve, List.getElem?_modify]
  cases hq : w.heap[ref']? with
  | none => simp
  | some q =>
    by_cases href : ref = ref'
    · simp [eq_comm]
    · simp [eq_comm]

/-- **One operation.**  Nothing that was there is lost, and only `resolve` touches an object. -/
theorem brokerSem_grows {o : BrokerOp} {r : BrokerRes o} (h : brokerSem t o w r w') : Grows w w' ∧
      (t ≠ .network → ∀ (ref : Nat) p, w.heap[ref]? = some p → w'.heap[ref]? = some p) := by
  cases o with
  | isConnected | uuid | token | publish _ _ _ =>
    cases h
    exact ⟨.refl _, fun _ _ _ hp => hp⟩
  | time | wait _ _ | result _ | lookup _ | isSet _ =>
    obtain ⟨-, rfl⟩ := h
    exact ⟨.refl _, fun _ _ _ hp => hp⟩
  | pop id =>
    cases h
    exact ⟨{ Grows.refl w with }, fun _ _ _ hp => hp⟩
  | arrive =>
    cases h
    exact ⟨{ Grows.refl w with received := subset_cons_self _ _ }, fun _ _ _ hp => hp⟩
  | register q =>
    obtain ⟨-, rfl⟩ := h
    exact ⟨.of_heap le_rfl (List.Subset.refl _) rfl fun _ _ hp => heap_register hp,
      fun _ _ _ hp => heap_register hp⟩
  | resolve ref q =>
    cases h
    by_cases ht : t = .network
    · rw [if_pos ht]
      refine ⟨⟨le_rfl, List.Subset.refl _, fun ho => (Bool.or_eq_false_iff.1 ho).1,
        fun ref' p hp => ⟨_, heap_resolve.2 ⟨p, hp, rfl⟩, ?_⟩⟩, fun hne => absurd ht hne⟩
      by_cases href : ref = ref'
      · subst href
        rw [if_pos rfl]
        refine ⟨rfl, fun ho hr => ?_⟩
        simp [BrokerWorld.resolve, BrokerWorld.result, hp, hr] at ho
      · rw [if_neg href]
        exact ⟨rfl, fun _ _ => rfl⟩
    · rw [if_neg ht]
      exact ⟨.refl _, fun _ _ _ hp => hp⟩

theorem brokerRelies (cfg : Config K) : (brokerSystem cfg).Relies (BrokerInv cfg) BrokerRely where
  refl _ w := ⟨.refl w, fun _ _ _ hp => hp⟩
  trans _ _ _ _ h h' :=
    ⟨h.grows.trans h'.grows, fun ht ref p hp => h'.objects ht ref p (h.objects ht ref p hp)⟩
  other i j o w r w' hij _ _ h := by
    obtain ⟨hgrows, hobjects⟩ := brokerSem_grows h
    refine ⟨hgrows, fun hi => hobjects fun hj => hij ?_⟩
    rw [hi, hj]
  env _ w w' _ _ h := by
    obtain ⟨now, hnow, rfl⟩ := h
    exact ⟨{ Grows.refl w with clock := hnow }, fun _ _ _ hp => hp⟩

section
variable {cfg : Config K} {w : BrokerWorld}

section
variable (h : BrokerInv cfg w)
include h

theorem BrokerInv.tick {now : Int} (hnow : w.clock ≤ now) : BrokerInv cfg { w with clock := now } :=
  ⟨h.results, fun a ha => (h.arrived a ha).trans hnow, h.pending, h.kept⟩

theorem BrokerInv.register (p : PendingCore) : BrokerInv cfg (w.register p) := by
  -- a place of the new heap is an old one, or holds the new object, which has no result
  have hcases (ref : Nat) (q : Pending) (hq : (w.register p).heap[ref]? = some q) :
      w.heap[ref]? = some q ∨ q = ⟨p, none⟩ := by
    rcases Nat.lt_or_ge ref w.heap.length with hlt | hge
    · refine .inl ?_
      simpa only [BrokerWorld.register, List.getElem?_append_left hlt] using hq
    refine .inr ?_
    rw [BrokerWorld.register, List.getElem?_append_right hge] at hq
    exact mem_singleton.1 (mem_of_getElem? hq)
  refine ⟨fun ref q r hq hr => ?_, h.arrived, fun id ref hid => ?_, h.kept⟩
  · rcases hcases ref q hq with hold | rfl
    · exact h.results ref q r hold hr
    · cases hr
  · rcases update_eq_iff.1 hid with ⟨rfl, ⟨⟩⟩ | ⟨-, hid⟩
    · refine ⟨⟨p, none⟩, ?_, rfl⟩
      rw [BrokerWorld.register, List.getElem?_append_right le_rfl, Nat.sub_self]
      rfl
    · obtain ⟨q, hq, hqid⟩ := h.pending id ref hid
      exact ⟨q, heap_register hq, hqid⟩

theorem BrokerInv.pop (id : String) :
    BrokerInv cfg { w with pending := Function.update w.pending id none } := by
  refine ⟨h.results, h.arrived, fun id' ref hid => ?_, h.kept⟩
  rcases update_eq_iff.1 hid with ⟨-, ⟨⟩⟩ | ⟨-, hid⟩
  exact h.pending id' ref hid

theorem BrokerInv.arrive (m : Arrival) :
    BrokerInv cfg { w with received := (m, w.clock) :: w.received } := by
  refine ⟨fun ref p r hp hr => (h.results ref p r hp hr).mono (subset_cons_self _ _), ?_,
    h.pending, h.kept⟩
  exact forall_mem_cons.2 ⟨le_rfl, h.arrived⟩

theorem BrokerInv.resolve {p : Pending} (hp : w.heap[ref]? = some p) (hnone : p.result = none)
    (hev : Evidence cfg w.received p.core r) : BrokerInv cfg (w.resolve ref r) := by
  refine ⟨fun ref' q r' hq hr => ?_, h.arrived, fun id ref' hid => ?_, ?_⟩
  · obtain ⟨q', hq', rfl⟩ := heap_resolve.1 hq
    by_cases href : ref = ref'
    · subst href
      rw [if_pos rfl] at hr ⊢
      cases hp.symm.trans hq'
      cases hr
      exact hev
    · rw [if_neg href] at hr ⊢
      exact h.results ref' q' r' hq' hr
  · obtain ⟨q, hq, hqid⟩ := h.pending id ref' hid
    refine ⟨_, heap_resolve.2 ⟨q, hq, rfl⟩, ?_⟩
    by_cases href : ref = ref'
    · rw [if_pos href]
      exact hqid
    · rw [if_neg href]
      exact hqid
  · simp [BrokerWorld.resolve, BrokerWorld.result, hp, hnone, h.kept]

theorem brokerSem_inv {t : Thread} {o : BrokerOp} {r : BrokerRes o}
    (ho : ∀ ref q, o ≠ .resolve ref q) (hs : brokerSem t o w r w') : BrokerInv cfg w' := by
  cases o with
  | isConnected | uuid | token | publish _ _ _ =>
    cases hs
    exact h
  | time | wait _ _ | result _ | lookup _ | isSet _ =>
    obtain ⟨-, rfl⟩ := hs
    exact h
  | pop id =>
    cases hs
    exact h.pop id
  | arrive =>
    cases hs
    exact h.arrive _
  | register q =>
    obtain ⟨-, rfl⟩ := hs
    exact h.register q
  | resolve ref q => exact absurd rfl (ho ref q)

end

end

/-! ## The threads -/

def Asked.Made (cfg : Config K) (a : Asked) : Prop :=
  ∃ canonical, canonicalRequest a.envelope = .ok canonical ∧
    a.envelope.id = .str a.pending.id ∧ a.envelope.nonce = .str a.pending.nonce ∧
    a.envelope.device = .str a.pending.device ∧ a.envelope.ttl = .int a.pending.ttl ∧
    a.pending.reqDigest = cfg.sha256 canonical

def Founded (cfg : Config K) (m : Memory) (w : BrokerWorld) : Prop :=
  ∀ asked r, m = .returned asked (some r) → asked.Made cfg ∧ Evidence cfg w.received asked.pending r

def Refers (w : BrokerWorld) (ref : Nat) (core : PendingCore) : Prop :=
  ∃ p : Pending, w.heap[ref]? = some p ∧ p.core = core

theorem Refers.grows (h : Refers w ref core) (hg : Grows w w') :
    Refers w' ref core := by
  obtain ⟨p, hp, hcore⟩ := h
  obtain ⟨p', hp', hcore', -⟩ := hg.objects ref p hp
  exact ⟨p', hp', hcore'.trans hcore⟩

theorem founded_of_ne (h : ∀ asked r, m ≠ .returned asked (some r)) :
    Founded cfg m w :=
  fun asked r hm => absurd hm (h asked r)

section
variable {cfg : Config K} {t : Thread} {w : BrokerWorld}

abbrev BrokerSafe (cfg : Config K) (t : Thread) : BrokerProg Memory → BrokerWorld → Prop :=
  Safe (brokerSem t) (BrokerRely t) (BrokerInv cfg) (Founded cfg)

theorem safe_op {f : BrokerRes o → BrokerProg Memory}
    (ho : ∀ ref q, o ≠ .resolve ref q)
    (hf : ∀ w₁ r w', BrokerRely t w w₁ → BrokerInv cfg w₁ → brokerSem t o w₁ r w' →
      BrokerSafe cfg t (f r) w') : BrokerSafe cfg t (perform o >>= f) w :=
  safe_perform_bind.2 fun w₁ hR hI r w' hs => ⟨brokerSem_inv hI ho hs, hf w₁ r w' hR hI hs⟩

theorem safe_awaitAnswer (sig : String) (hmade : asked.Made cfg)
    (href : Refers w ref asked.pending) : BrokerSafe cfg t (awaitAnswer cfg ref asked sig) w := by
  refine safe_op (by simp) fun w₁ sent w₂ hR _ hs => ?_
  have href := (href.grows hR.grows).grows (brokerSem_grows hs).1
  split
  · refine safe_op (by simp) fun _ _ _ _ _ _ => ?_
    exact founded_of_ne (by simp)
  refine safe_op (by simp) fun w₃ answered w₄ hR _ hs => ?_
  have href := (href.grows hR.grows).grows (brokerSem_grows hs).1
  refine safe_op (by simp) fun w₅ _ w₆ hR _ hs => ?_
  have href := (href.grows hR.grows).grows (brokerSem_grows hs).1
  split
  · refine safe_op (by simp) fun w₇ r w₈ hR hI hs => ?_
    obtain ⟨hr, rfl⟩ := hs
    intro asked' r' hm
    cases hm
    obtain ⟨p, hp, hcore⟩ := href.grows hR.grows
    refine ⟨hmade, ?_⟩
    rw [← hcore]
    refine hI.results ref p r' hp ?_
    rw [BrokerWorld.result, hp] at hr
    exact hr.symm
  · exact founded_of_ne (by simp)

theorem safe_request (ask : Ask) : BrokerSafe cfg t (request cfg ask) w := by
  unfold request
  cases cfg.signingKey with
  | none => exact founded_of_ne (by simp)
  | some sign =>
    simp only
    split
    · exact founded_of_ne (by simp)
    split
    · exact founded_of_ne (by simp)
    refine safe_op (by simp) fun _ _ _ _ _ _ => ?_
    split
    · exact founded_of_ne (by simp)
    refine safe_op (by simp) fun _ reqId _ _ _ _ => ?_
    refine safe_op (by simp) fun _ nonce _ _ _ _ => ?_
    refine safe_op (by simp) fun _ now _ _ _ _ => ?_
    cases hcan : canonicalRequest (requestEnvelope cfg.signingKeyId reqId nonce (now / second)
        (ask.ttl.getD cfg.requestTtl) ask) with
    | error message => exact founded_of_ne (by simp)
    | ok canonical =>
      refine safe_op (by simp) fun _ created _ _ _ _ => ?_
      refine safe_op (by simp) fun w₁ ref w₂ _ _ hs => ?_
      obtain ⟨rfl, rfl⟩ := hs
      refine safe_awaitAnswer _ ⟨canonical, hcan, rfl, rfl, rfl, rfl, rfl⟩ ⟨⟨_, none⟩, ?_, rfl⟩
      rw [BrokerWorld.register, List.getElem?_append_right le_rfl, Nat.sub_self]
      rfl

theorem founded_fresh : Founded cfg .fresh w := founded_of_ne (by simp)

theorem safe_handleResponse : BrokerSafe cfg .network (handleResponse cfg) w := by
  refine safe_op (by simp) fun w₁ msg w₂ _ _ hs => ?_
  cases hs
  have hmem : (msg, w₁.clock) ∈ (msg, w₁.clock) :: w₁.received := mem_cons_self
  cases topicId msg.topic with
  | none => exact founded_fresh
  | some reqId =>
    refine safe_op (by simp) fun w₃ found w₄ hR hI hs => ?_
    obtain ⟨hfound, rfl⟩ := hs
    have hmem := hR.grows.received hmem
    have hclock : w₁.clock ≤ w₄.clock := hR.grows.clock
    cases found with
    | none => exact founded_fresh
    | some found =>
      obtain ⟨ref, core⟩ := found
      -- the object is the one of the topic's id
      obtain ⟨ref', hpend, hobj⟩ := Option.bind_eq_some_iff.1 hfound.symm
      obtain ⟨p, hp, heq⟩ := Option.map_eq_some_iff.1 hobj
      cases heq
      obtain ⟨p', hp', hid⟩ := hI.pending reqId ref hpend
      cases hp.symm.trans hp'
      refine safe_op (by simp) fun w₅ set w₆ hR hI hs => ?_
      obtain ⟨hset, rfl⟩ := hs
      have hmem := hR.grows.received hmem
      have hclock := hclock.trans hR.grows.clock
      have hp := hR.objects rfl ref p hp
      split
      · exact founded_fresh
      next hunset =>
      -- the object has no result, and no other thread sets one
      have hnone : p.result = none := by
        rw [BrokerWorld.result, hp] at hset
        rw [hset] at hunset
        cases hres : p.result with
        | none => rfl
        | some r => exact absurd (by rw [Option.bind_some, hres]; rfl) hunset
      cases hbody : (cfg.loads msg.payload).bind fun b =>
          (bodyChecks reqId p.core b).map (b, ·) with
      | none => exact founded_fresh
      | some bd =>
        obtain ⟨b, d⟩ := bd
        obtain ⟨b', hload, hchecks⟩ := Option.bind_eq_some_iff.1 hbody
        obtain ⟨d', hchecks, heq⟩ := Option.map_eq_some_iff.1 hchecks
        cases heq
        refine safe_op (by simp) fun w₇ now w₈ hR hI hs => ?_
        obtain ⟨rfl, rfl⟩ := hs
        have hmem := hR.grows.received hmem
        have hclock := hclock.trans hR.grows.clock
        have hp := hR.objects rfl ref p hp
        split
        · exact founded_fresh
        next htime =>
        split
        · exact founded_fresh
        next hsig =>
        subst hid
        refine safe_perform_bind.2 fun w₉ hR hI _ w' hs => ?_
        cases hs
        have hsig := Bool.eq_true_of_not_eq_false hsig
        have hev := evidence_of_checks (hR.grows.received hmem) hload hchecks
          ((Int.sub_le_sub_right hclock _).trans (not_lt.1 htime)) hsig
        exact ⟨hI.resolve (hR.objects rfl ref p hp) hnone hev, founded_fresh⟩

end

/-! ## Runs -/

theorem brokerSystem_invariant (hc : (brokerSystem cfg).Initial BrokerInitial c)
    (hs : (brokerSystem cfg).Steps c c') :
    BrokerInv cfg c'.shared ∧ ∀ t m, c'.procs t = .idle m → Founded cfg m c'.shared := by
  have hinv := System.invariant (R := BrokerRely) (A := fun _ => Founded cfg) (brokerRelies cfg)
    ?_ ?_ ?_ ?_ ?_ hc hs
  · refine ⟨hinv.1, fun t m ht => ?_⟩
    have hm := hinv.2 t
    simpa only [System.Holds, ht] using hm
  · intro t m w w' h hR _ asked r hm
    obtain ⟨hmade, hev⟩ := h asked r hm
    exact ⟨hmade, hev.mono hR.grows.received⟩
  · intro t m p w hstart _ _
    cases hstart with
    | response => exact safe_handleResponse
    | request n ask => exact safe_request ask
  · rintro w w' h ⟨now, hnow, rfl⟩
    exact h.tick hnow
  · rintro t m w rfl _
    exact founded_fresh
  · rintro w ⟨hheap, hpending, hreceived, hkept⟩
    exact ⟨by simp [hheap], by simp [hreceived], by simp [hpending], hkept⟩

theorem grows_of_steps (hs : (brokerSystem cfg).Steps c c') : Grows c.shared c'.shared := by
  induction hs with
  | refl => exact .refl _
  | tail _ hstep ih =>
    cases hstep with
    | start => exact ih
    | act t _ ho => exact ih.trans (brokerSem_grows ho).1
    | finish => exact ih
    | env h =>
      obtain ⟨now, hnow, rfl⟩ := h
      exact ih.trans { Grows.refl _ with clock := hnow }
    | crash => exact ih

/-- Device `d` approved a request: within its TTL a response arrived whose signature verifies under
the key of `d` over the canonical response to this request.  Those bytes are the response to no
other request, unless SHA-256 has the same value for the two. -/
def ApprovedBy (cfg : Config K) (Signed : String → Bytes → Prop)
    (received : List (Arrival × Int)) (asked : Asked) (d : String) : Prop :=
  ∃ m arrived body key canonical bytes id nonce ttl,
    asked.envelope.id = .str id ∧ asked.envelope.nonce = .str nonce ∧
    asked.envelope.ttl = .int ttl ∧ canonicalRequest asked.envelope = .ok canonical ∧
    (m, arrived) ∈ received ∧ arrived ≤ asked.pending.created + ttl * second ∧
    cfg.loads m.payload = some body ∧ cfg.devices d = some key ∧
    canonicalResponse protoVersion id "approve" nonce d (cfg.sha256 canonical) = .ok bytes ∧
    cfg.verify key bytes body.sig = true ∧ Signed d bytes ∧
    (asked.envelope.device = .str "" ∨ asked.envelope.device = .str d) ∧
    ∀ e canonical' id' decision nonce' d', canonicalRequest e = .ok canonical' →
      (cfg.sha256 canonical' = cfg.sha256 canonical → canonical' = canonical) →
      canonicalResponse protoVersion id' decision nonce' d' (cfg.sha256 canonical') = .ok bytes →
      e.signed = asked.envelope.signed

/-- **Approvals are sound.**  When signatures cannot be forged, a request is answered with an
approval only if a device approved it.  A result that is set stays, and the canonical bytes tell
requests from each other and from responses. -/
theorem approvals_sound (cfg : Config K) :
    (∀ Signed : String → Bytes → Prop,
      (∀ d key bytes sig, cfg.devices d = some key → cfg.verify key bytes sig = true →
        Signed d bytes) →
      ∀ c c', (brokerSystem cfg).Initial BrokerInitial c → (brokerSystem cfg).Steps c c' →
        ∀ n asked r, c'.procs (.http n) = .idle (.returned asked (some r)) →
          r.decision = .approve → ApprovedBy cfg Signed c'.shared.received asked r.deviceId) ∧
    (∀ c c' c'', (brokerSystem cfg).Initial BrokerInitial c → (brokerSystem cfg).Steps c c' →
      (brokerSystem cfg).Steps c' c'' → ∀ (ref : Nat) (p : Pending) r,
        c'.shared.heap[ref]? = some p → p.result = some r → c''.shared.heap[ref]? = some p) ∧
    (∀ e e' b, canonicalRequest e = .ok b → canonicalRequest e' = .ok b → e.signed = e'.signed) ∧
    (∀ e v i d n x q b, canonicalRequest e = .ok b → canonicalResponse v i d n x q ≠ .ok b) := by
  refine ⟨fun Signed hsig c c' hc hs n asked r hidle happrove => ?_,
    fun c c' c'' hc hs hs' ref p r hp hr => ?_,
    fun e e' b => canonicalRequest_inj, fun e v i d n x q b => canonicalRequest_ne_response⟩
  · obtain ⟨⟨canonical, hcan, hid, hnonce, hdevice, httl, hdigest⟩, m, arrived, body, key, bytes,
      hmem, htime, hload, hkey, hbytes, hverify, htarget⟩ :=
      (brokerSystem_invariant hc hs).2 _ _ hidle asked r rfl
    rw [happrove, hdigest] at hbytes
    refine ⟨m, arrived, body, key, canonical, bytes, _, _, _, hid, hnonce, httl, hcan, hmem, htime,
      hload, hkey, hbytes, hverify, hsig _ key bytes body.sig hkey hverify, ?_, ?_⟩
    · by_cases hany : asked.pending.device = ""
      · exact .inl (by rw [hdevice, hany])
      · exact .inr (by rw [hdevice, htarget hany])
    · intro e canonical' id' decision nonce' d' hcan' hsha hbytes'
      obtain ⟨-, -, -, -, -, hq⟩ := canonicalResponse_inj hbytes' hbytes
      cases hsha hq
      exact canonicalRequest_inj hcan' hcan
  · obtain ⟨hI, -⟩ := brokerSystem_invariant hc (hs.trans hs')
    obtain ⟨p', hp', -, hsame⟩ := (grows_of_steps hs').objects ref p hp
    rw [hp', hsame hI.kept (by rw [hr]; rfl)]

/-! ### A request that is approved -/

def requestId : String := "3f2b8c1e9d4a4b6f8a7c5d0e1f2a3b4c"

def loginNonce : String := "eDd7UldXtJRCf4kBT5fXmSjzk40U61HiD7XeyYNOswQ="

def login : Ask := ⟨"login", "operator", "", "", "tab5", none⟩

def loginBytes : Bytes :=
  (canonicalRequest (requestEnvelope "k1" requestId loginNonce 1760000000 60
    login)).toOption.getD []

/-- SHA-256 of `loginBytes`. -/
def loginDigest : String := "36e06fda2144d6dec2dba7e7ee101c8b63c2c106d64840e77a6b2ac3a99d5b15"

def approvalBytes : Bytes :=
  (canonicalResponse 2 requestId "approve" loginNonce "tab5" loginDigest).toOption.getD []

/-- The P-256 key of the device, and its signature of `approvalBytes`. -/
def tabKey : String := "025df83892dc5ba4436fce7b10cdbfc370a938e07fd148a3b8f41ce1723d1b5a8c"

def tabSig : String :=
  "MEYCIQD3swlpXTikYl1OEVcusIuHyb3XXli2KFamTSJEB2vjHAIhAL2o6IWJpdPH50l7u7Up2Eu9Cq4mOLgUMR1DDewyOqE/"

/-- The broker's signature of `loginBytes`. -/
def brokerSig : String :=
  "MEUCIQDuUiFOXhzfSr6+ZI9nFDlz8VUjJvLoGF7pFgqUbdGoFgIgPywwv7VN3SVraTsh9WbUj2Jc9kNDJ/yBuvAiWUvz+/A="

def approval : Bytes :=
  ascii ("\x7b\"v\":2,\"id\":\"" ++ requestId ++
    "\",\"decision\":\"approve\",\"device_id\":\"tab5\"," ++
    "\"nonce\":\"" ++ loginNonce ++ "\",\"sig\":\"" ++ tabSig ++ "\",\"req_digest\":\"" ++
    loginDigest ++ "\"\x7d")

/-- One device.  SHA-256, the check of signatures and the decoding of JSON are given by their values
at what occurs in the run. -/
def tabConfig : Config String where
  topicPrefix := "auth"
  requestTtl := 60
  signingKey := some fun bytes => if bytes = loginBytes then brokerSig else ""
  signingKeyId := "k1"
  devices d := if d = "tab5" then some tabKey else none
  verify key bytes sig := key = tabKey ∧ bytes = approvalBytes ∧ sig = tabSig
  sha256 bytes := if bytes = loginBytes then loginDigest else ""
  loads payload :=
    if payload = approval then
      some ⟨some 2, some requestId, "approve", "tab5", loginNonce, tabSig, loginDigest⟩
    else none

def brokerAnswers (t : Thread) : (o : BrokerOp) → BrokerWorld → BrokerRes o × BrokerWorld
  | .isConnected, w => (true, w)
  | .uuid, w => (requestId, w)
  | .token, w => (loginNonce, w)
  | .time, w => (w.clock, w)
  | .register p, w => (w.heap.length, w.register p)
  | .publish _ _ _, w => (true, w)
  | .wait ref _, w => ((w.result ref).isSome, w)
  | .pop id, w => ((), { w with pending := Function.update w.pending id none })
  | .result ref, w => (w.result ref, w)
  | .arrive, w =>
    (⟨"auth/response/" ++ requestId, approval⟩,
      { w with received := (⟨"auth/response/" ++ requestId, approval⟩, w.clock) :: w.received })
  | .lookup id, w => (w.lookup id, w)
  | .isSet ref, w => ((w.result ref).isSome, w)
  | .resolve ref r, w => ((), if t = .network then w.resolve ref r else w)

theorem brokerAnswers_sem (t : Thread) (o : BrokerOp) (w : BrokerWorld) :
    brokerSem t o w (brokerAnswers t o w).1 (brokerAnswers t o w).2 := by
  cases o with
  | isConnected | uuid | token | publish _ _ _ | pop _ | arrive | resolve _ _ => rfl
  | time | register _ | wait _ _ | result _ | lookup _ | isSet _ => exact ⟨rfl, rfl⟩

def loginScript : List (Cue Thread BrokerOp BrokerRes Memory) :=
  [.begins (.http 0) fun _ => some (request tabConfig login), .acts (.http 0) 7,
    .begins .network fun _ => some (handleResponse tabConfig),
    .ends .network,
    .ends (.http 0)]

theorem loginScript_legal : ∀ q ∈ loginScript, System.Cue.Legal (brokerSystem tabConfig) q := by
  simp only [loginScript, forall_mem_cons]
  exact ⟨System.Cue.legal_begins fun _ => .request 0 login, trivial,
    System.Cue.legal_begins fun _ => .response, trivial, trivial, by simp⟩

def loginStart : Conf Thread BrokerOp BrokerRes BrokerWorld Memory where
  shared := ⟨1760000000 * second, [], fun _ => none, [], false⟩
  procs _ := .idle .fresh

theorem loginStart_initial : (brokerSystem tabConfig).Initial BrokerInitial loginStart :=
  ⟨⟨rfl, fun _ => rfl, rfl, rfl⟩, fun _ => ⟨_, rfl, rfl⟩⟩

set_option maxRecDepth 20000 in
theorem loginScript_plays : (System.play brokerAnswers loginScript loginStart).isSome = true := by
  decide +kernel

def loggedIn : Conf Thread BrokerOp BrokerRes BrokerWorld Memory :=
  (System.play brokerAnswers loginScript loginStart).get loginScript_plays

def returnedResult (c : Conf Thread BrokerOp BrokerRes BrokerWorld Memory) (t : Thread) :
    Option (Asked × Result) :=
  match c.procs t with
  | .idle (.returned asked (some r)) => some (asked, r)
  | _ => none

theorem procs_of_returnedResult (h : returnedResult c t = some (asked, r)) :
    c.procs t = .idle (.returned asked (some r)) := by
  unfold returnedResult at h
  split at h
  · next heq =>
    cases h
    exact heq
  · cases h

set_option maxRecDepth 20000 in
theorem loggedIn_result :
    (returnedResult loggedIn (.http 0)).map Prod.snd = some ⟨.approve, "tab5", requestId⟩ := by
  decide +kernel

/-- The request of the run was approved by the device it asked. -/
theorem approvals_sound_login : ∃ asked,
    loggedIn.procs (.http 0) = .idle (.returned asked (some ⟨.approve, "tab5", requestId⟩)) ∧
      ApprovedBy tabConfig (fun d bytes => d = "tab5" ∧ bytes = approvalBytes)
        loggedIn.shared.received asked "tab5" := by
  obtain ⟨⟨asked, r⟩, hres, hr⟩ := Option.map_eq_some_iff.1 loggedIn_result
  cases hr
  have hidle := procs_of_returnedResult hres
  refine ⟨asked, hidle, (approvals_sound tabConfig).1 _ ?_ loginStart loggedIn loginStart_initial
    (System.steps_play brokerAnswers_sem loginScript_legal (Option.some_get loginScript_plays).symm)
    0 asked _ hidle rfl⟩
  intro d key bytes sig hkey hverify
  exact ⟨(Option.ite_none_right_eq_some.1 hkey).1, (of_decide_eq_true hverify).2.1⟩

end SolariNet.AuthBroker
