/-
# Link liveness and snapshot ordering

`panelLink.c` reads the time as a 32-bit count of milliseconds and takes ages as signed
differences.  A run keeps the real time beside it, without a bound, and logs the edges that
`panelLinkPoll` reports, the switches and resets, and the snapshots that are accepted.

The source holds its signed comparison to be right across the wrap of the counter.  It is so
for ages below 2^31 ms: after 24.8 days without a snapshot the age is negative, and a poll
reports that the link is back.
-/
import Mathlib.Algebra.Group.Nat.Defs
import Mathlib.Data.Int.Init
import Mathlib.Logic.Function.Basic
import Mathlib.Logic.Relation

namespace SolariNet

open Function Relation

/-! ## The state machine -/

inductive PanelLinkTransport where
  | serial
  | wifi
  deriving DecidableEq

inductive PanelLinkEdge where
  | noChange
  | wentLost
  | cameBack

structure PanelLinkSeq where
  lastSeq : UInt16
  haveSeq : Bool
  adoptNext : Bool

structure PanelLink where
  lastAppliedMs : UInt32
  seq : PanelLinkTransport → PanelLinkSeq
  activeTransport : PanelLinkTransport
  lost : Bool

def panelLinkTimeoutMs : Int := 15000

def panelSeqResyncMs : Int := 30000

/-- RFC 1982: the candidate is newer than what was applied last. -/
def panelSeqNewer (candidate lastApplied : UInt16) : Bool :=
  let difference := candidate - lastApplied
  difference != 0 && difference < 0x8000

/-- `(int32_t)(now - then)`. -/
def ageMs (now earlier : UInt32) : Int := (now - earlier).toBitVec.toInt

def panelLinkInit (nowMs : UInt32) : PanelLink :=
  ⟨nowMs, fun _ => ⟨0, false, false⟩, .serial, false⟩

def panelLinkResetTransportSeq (link : PanelLink) (transport : PanelLinkTransport) : PanelLink :=
  { link with seq := update link.seq transport { link.seq transport with adoptNext := true } }

def panelLinkSetActiveTransport (link : PanelLink) (transport : PanelLinkTransport) : PanelLink :=
  if transport = link.activeTransport then link
  else { panelLinkResetTransportSeq link transport with activeTransport := transport }

def PanelLink.take (link : PanelLink) (transport : PanelLinkTransport) (seq : UInt16)
    (nowMs : UInt32) : PanelLink :=
  { link with seq := update link.seq transport ⟨seq, true, false⟩, lastAppliedMs := nowMs }

def panelLinkAcceptSnapshot (link : PanelLink) (transport : PanelLinkTransport) (seq : UInt16)
    (nowMs : UInt32) : Bool × Bool × PanelLink :=
  let seqState := link.seq transport
  if transport ≠ link.activeTransport then (false, false, link)
  else if seqState.adoptNext then (true, false, link.take transport seq nowMs)
  else if seqState.haveSeq ∧ ¬ panelSeqNewer seq seqState.lastSeq then
    -- an older number: the sender may have started again, which is believed on serial only
    if transport ≠ .serial ∨ ageMs nowMs link.lastAppliedMs < panelSeqResyncMs then
      (false, false, link)
    else (true, true, link.take transport seq nowMs)
  else (true, false, link.take transport seq nowMs)

def panelLinkPoll (link : PanelLink) (nowMs : UInt32) : PanelLinkEdge × PanelLink :=
  let lost := decide (ageMs nowMs link.lastAppliedMs > panelLinkTimeoutMs)
  if lost && !link.lost then (.wentLost, { link with lost := true })
  else if !lost && link.lost then (.cameBack, { link with lost := false })
  else (.noChange, link)

/-! ## Runs -/

inductive Acceptance where
  | adopted
  | resynced
  | inOrder
  deriving DecidableEq

/-- `armed` is a switch to the transport or a reset of its numbers; what is accepted has the time
since the snapshot before it. -/
inductive LinkEvent where
  | wentLost
  | cameBack
  | armed (transport : PanelLinkTransport)
  | accepted (active transport : PanelLinkTransport) (seq : UInt16) (how : Acceptance)
      (sinceMs : Nat)
  deriving DecidableEq

/-- The link at a real time, in milliseconds; the log has the newest event first. -/
structure LinkRun where
  link : PanelLink
  now : Nat
  applied : Nat
  log : List LinkEvent

inductive LinkInput where
  | wait (ms : Nat)
  | setActiveTransport (transport : PanelLinkTransport)
  | resetTransportSeq (transport : PanelLinkTransport)
  | snapshot (transport : PanelLinkTransport) (seq : UInt16)
  | poll

def linkStart (now : Nat) : LinkRun := ⟨panelLinkInit (.ofNat now), now, now, []⟩

def acceptance (adoptNext resynced : Bool) : Acceptance :=
  if adoptNext then .adopted else if resynced then .resynced else .inOrder

def linkStep (s : LinkRun) : LinkInput → LinkRun
  | .wait ms => { s with now := s.now + ms }
  | .setActiveTransport t =>
    { s with
      link := panelLinkSetActiveTransport s.link t
      log := if t = s.link.activeTransport then s.log else .armed t :: s.log }
  | .resetTransportSeq t =>
    { s with link := panelLinkResetTransportSeq s.link t, log := .armed t :: s.log }
  | .snapshot t seq =>
    match panelLinkAcceptSnapshot s.link t seq (.ofNat s.now) with
    | (true, resynced, link) =>
      let how := acceptance (s.link.seq t).adoptNext resynced
      ⟨link, s.now, s.now, .accepted s.link.activeTransport t seq how (s.now - s.applied) :: s.log⟩
    | (false, _, link) => { s with link := link }
  | .poll =>
    match panelLinkPoll s.link (.ofNat s.now) with
    | (.wentLost, link) => { s with link := link, log := .wentLost :: s.log }
    | (.cameBack, link) => { s with link := link, log := .cameBack :: s.log }
    | (.noChange, link) => { s with link := link }

/-! ## What the log has to be -/

def lostIn : List LinkEvent → Bool
  | [] => false
  | .wentLost :: _ => true
  | .cameBack :: _ => false
  | .armed _ :: log | .accepted .. :: log => lostIn log

def acceptedSince : List LinkEvent → Bool
  | [] => false
  | .wentLost :: _ => false
  | .cameBack :: log | .armed _ :: log => acceptedSince log
  | .accepted .. :: _ => true

def lastAccepted : List LinkEvent → Option (PanelLinkTransport × UInt16)
  | [] => none
  | .accepted _ transport seq _ _ :: _ => some (transport, seq)
  | .wentLost :: log | .cameBack :: log | .armed _ :: log => lastAccepted log

/-- A switch to the transport or a reset of it has come since its last snapshot. -/
def armedSince (transport : PanelLinkTransport) : List LinkEvent → Bool
  | [] => false
  | .armed t :: log => t = transport || armedSince transport log
  | .accepted _ t _ _ _ :: log => t ≠ transport && armedSince transport log
  | .wentLost :: log | .cameBack :: log => armedSince transport log

/-- The edges alternate, `cameBack` has a snapshot behind it, and what is accepted comes from the
active transport, newer than what was accepted before it unless it is adopted after a switch or
reset, or resynced on serial after 30 s without a snapshot. -/
inductive Truthful : List LinkEvent → Prop where
  | nil : Truthful []
  | wentLost {log : List LinkEvent} (h : Truthful log) (hedge : lostIn log = false) :
      Truthful (.wentLost :: log)
  | cameBack {log : List LinkEvent} (h : Truthful log) (hedge : lostIn log = true)
      (hsnapshot : acceptedSince log = true) : Truthful (.cameBack :: log)
  | armed {log : List LinkEvent} {transport : PanelLinkTransport} (h : Truthful log) :
      Truthful (.armed transport :: log)
  | accepted {log : List LinkEvent} {transport : PanelLinkTransport} {seq : UInt16}
      {how : Acceptance} {sinceMs : Nat} (h : Truthful log)
      (hadopt : how = .adopted → armedSince transport log = true)
      (hresync : how = .resynced → transport = .serial ∧ panelSeqResyncMs ≤ sinceMs)
      (horder : how = .inOrder → ∀ last ∈ lastAccepted log,
        last.1 = transport ∧ panelSeqNewer seq last.2) :
      Truthful (.accepted transport transport seq how sinceMs :: log)

/-- A poll comes less than 2^31 ms after the last accepted snapshot. -/
def PolledInTime (s : LinkRun) (i : LinkInput) : Prop :=
  i = .poll → s.now < s.applied + 2 ^ 31

/-! ## The invariant -/

structure LinkInv (s : LinkRun) : Prop where
  clock : s.link.lastAppliedMs = .ofNat s.applied
  past : s.applied ≤ s.now
  edge : s.link.lost = lostIn s.log
  armed (t : PanelLinkTransport) : (s.link.seq t).adoptNext = armedSince t s.log
  /-- while the link is lost and nothing was accepted, the last snapshot is too old -/
  silent : lostIn s.log = true → acceptedSince s.log = false →
    panelLinkTimeoutMs < s.now - s.applied
  order : (s.link.seq s.link.activeTransport).adoptNext = false →
    lastAccepted s.log = if (s.link.seq s.link.activeTransport).haveSeq then
      some (s.link.activeTransport, (s.link.seq s.link.activeTransport).lastSeq) else none
  truthful : Truthful s.log

section
variable {now applied : Nat}

theorem ageMs_eq_bmod (hpast : applied ≤ now) :
    ageMs (.ofNat now) (.ofNat applied) = Int.bmod (now - applied : Nat) (2 ^ 32) := by
  rw [ageMs, ← UInt32.ofNat_sub hpast, UInt32.toBitVec_ofNat', BitVec.toInt_ofNat']

theorem ageMs_ofNat (hpast : applied ≤ now) (hage : now < applied + 2 ^ 31) :
    ageMs (.ofNat now) (.ofNat applied) = (now : Int) - applied := by
  rw [ageMs_eq_bmod hpast, Int.bmod_eq_of_le] <;> omega

theorem ageMs_le (hpast : applied ≤ now) :
    ageMs (.ofNat now) (.ofNat applied) ≤ (now - applied : Nat) := by
  rw [ageMs_eq_bmod hpast, Int.bmod_def]
  split <;> omega

end

theorem panelLinkAcceptSnapshot_cases (link : PanelLink) (transport : PanelLinkTransport)
    (seq : UInt16) (nowMs : UInt32) :
    panelLinkAcceptSnapshot link transport seq nowMs = (false, false, link) ∨
    link.activeTransport = transport ∧ ∃ resynced, panelLinkAcceptSnapshot link transport seq nowMs
        = (true, resynced, link.take transport seq nowMs) ∧
      (acceptance (link.seq transport).adoptNext resynced = .resynced →
        transport = .serial ∧ panelSeqResyncMs ≤ ageMs nowMs link.lastAppliedMs) ∧
      (acceptance (link.seq transport).adoptNext resynced = .inOrder →
        (link.seq transport).adoptNext = false ∧ ((link.seq transport).haveSeq →
          panelSeqNewer seq (link.seq transport).lastSeq)) := by
  dsimp only [panelLinkAcceptSnapshot]
  split
  · exact .inl rfl
  next hactive =>
  have hactive := (not_not.1 hactive).symm
  split
  · next hadopt =>
    exact .inr ⟨hactive, false, rfl, by simp [acceptance, hadopt], by simp [acceptance, hadopt]⟩
  next hadopt =>
  have hadopt := Bool.eq_false_iff.2 hadopt
  split
  · split
    · exact .inl rfl
    · next hserial =>
      exact .inr ⟨hactive, true, rfl, fun _ => by simpa using hserial, by simp [acceptance, hadopt]⟩
  · next hold =>
    exact .inr ⟨hactive, false, rfl, by simp [acceptance, hadopt],
      fun _ => ⟨hadopt, by simpa using hold⟩⟩

variable {s : LinkRun}

theorem LinkInv.snapshot (h : LinkInv s) (transport : PanelLinkTransport)
    (seq : UInt16) : LinkInv (linkStep s (.snapshot transport seq)) := by
  dsimp only [linkStep]
  obtain hdrop | ⟨hactive, resynced, htake, hresync, horder⟩ :=
    panelLinkAcceptSnapshot_cases s.link transport seq (.ofNat s.now)
  · rw [hdrop]
    exact h
  rw [htake, hactive]
  refine ⟨rfl, Nat.le_refl _, h.edge, fun t => ?_, fun _ hnone => (by cases hnone), fun _ => ?_,
    .accepted h.truthful (fun how => ?_) (fun how => ?_) fun hin last hlast => ?_⟩
  · by_cases ht : t = transport
    · simp [PanelLink.take, armedSince, ht]
    · simpa [PanelLink.take, armedSince, ht, Ne.symm ht] using h.armed t
  · simp [lastAccepted, PanelLink.take, hactive]
  · refine (h.armed transport).symm.trans ?_
    by_contra hno
    cases resynced <;> simp [acceptance, hno] at how
  · obtain ⟨hserial, hage⟩ := hresync how
    rw [h.clock] at hage
    exact ⟨hserial, Int.le_trans hage (ageMs_le h.past)⟩
  obtain ⟨hadopt, hnewer⟩ := horder hin
  have hprev := h.order (hactive ▸ hadopt)
  rw [hactive] at hprev
  split at hprev
  · next hhave =>
    cases hprev.symm.trans hlast
    exact ⟨rfl, hnewer hhave⟩
  · cases hprev.symm.trans hlast

theorem LinkInv.poll (h : LinkInv s) (hin : s.now < s.applied + 2 ^ 31) :
    LinkInv (linkStep s .poll) := by
  have hage := ageMs_ofNat h.past hin
  dsimp only [linkStep, panelLinkPoll]
  rw [h.clock, hage, h.edge]
  by_cases hold : (s.now : Int) - s.applied > panelLinkTimeoutMs <;> cases hlost : lostIn s.log
  · rw [decide_eq_true hold]
    exact ⟨rfl, h.past, rfl, h.armed, fun _ _ => hold, h.order, .wentLost h.truthful hlost⟩
  · rw [decide_eq_true hold]
    exact h
  · rw [decide_eq_false hold]
    exact h
  -- the age is honest, so a snapshot has come since the link was lost
  have hsince : acceptedSince s.log = true := by
    by_contra hnone
    exact hold (h.silent hlost (Bool.eq_false_iff.2 hnone))
  rw [decide_eq_false hold]
  exact ⟨rfl, h.past, rfl, h.armed, fun hl => (by cases hl), h.order,
    .cameBack h.truthful hlost hsince⟩

theorem LinkInv.armed_reset (h : LinkInv s) (transport t : PanelLinkTransport) :
    ((panelLinkResetTransportSeq s.link transport).seq t).adoptNext =
      armedSince t (.armed transport :: s.log) := by
  by_cases ht : t = transport
  · simp [panelLinkResetTransportSeq, armedSince, ht]
  · simpa [panelLinkResetTransportSeq, armedSince, ht, Ne.symm ht] using h.armed t

theorem LinkInv.reset (h : LinkInv s) (transport : PanelLinkTransport) :
    LinkInv { s with
      link := panelLinkResetTransportSeq s.link transport, log := .armed transport :: s.log } := by
  refine ⟨h.clock, h.past, h.edge, h.armed_reset transport, h.silent, fun hadopt => ?_,
    .armed h.truthful⟩
  by_cases hactive : s.link.activeTransport = transport
  · simp [panelLinkResetTransportSeq, hactive] at hadopt
  · simp only [panelLinkResetTransportSeq, update_of_ne hactive] at hadopt ⊢
    exact h.order hadopt

theorem LinkInv.step (h : LinkInv s) (hpoll : PolledInTime s i) :
    LinkInv (linkStep s i) := by
  cases i with
  | wait ms =>
    refine ⟨h.clock, Nat.le_add_right_of_le h.past, h.edge, h.armed, fun hlost hnone => ?_,
      h.order, h.truthful⟩
    have := h.silent hlost hnone
    simp only [linkStep]
    omega
  | setActiveTransport t =>
    dsimp only [linkStep, panelLinkSetActiveTransport]
    split
    · exact h
    -- the transport that becomes active is to be adopted
    exact ⟨h.clock, h.past, h.edge, h.armed_reset t, h.silent,
      fun hadopt => by simp [panelLinkResetTransportSeq] at hadopt, .armed h.truthful⟩
  | resetTransportSeq t => exact h.reset t
  | snapshot t seq => exact h.snapshot t seq
  | poll => exact h.poll (hpoll rfl)

/-! ## Results -/

def LinkReaches (P : LinkRun → LinkInput → Prop) (start : Nat) : LinkRun → Prop :=
  ReflTransGen (fun s s' => ∃ i, P s i ∧ s' = linkStep s i) (linkStart start)

theorem LinkReaches.input {P : LinkRun → LinkInput → Prop} {start : Nat}
    (h : LinkReaches P start s) (i : LinkInput) (hi : P s i) : LinkReaches P start (linkStep s i) :=
  ReflTransGen.tail h ⟨i, hi, rfl⟩

theorem link_edges_truthful (start : Nat) (s : LinkRun) (hrun : LinkReaches PolledInTime start s) :
    Truthful s.log := by
  suffices hinv : LinkInv s from hinv.truthful
  induction hrun with
  | refl =>
    exact ⟨rfl, Nat.le_refl _, rfl, fun _ => rfl, fun hl => (by cases hl), fun _ => rfl, .nil⟩
  | tail _ hstep ih =>
    obtain ⟨i, hpoll, rfl⟩ := hstep
    exact ih.step hpoll

theorem link_edges_truthful_outage : ∃ s, LinkReaches PolledInTime 0 s ∧
      s.log = [.cameBack, .accepted .serial .serial 1 .inOrder 15001, .wentLost] ∧
      Truthful s.log := by
  have hlost : LinkReaches PolledInTime 0 (linkStep (linkStep (linkStart 0) (.wait 15001)) .poll) :=
    (LinkReaches.input .refl (.wait 15001) (by simp [PolledInTime])).input .poll
      fun _ => by decide +kernel
  have hback := (hlost.input (.snapshot .serial 1) (by simp [PolledInTime])).input .poll
    fun _ => by decide +kernel
  exact ⟨_, hback, by decide +kernel, link_edges_truthful 0 _ hback⟩

def silentLink : LinkRun :=
  linkStep (linkStep (linkStep (linkStep (linkStart 0) (.wait 15001)) .poll)
    (.wait (2 ^ 31 - 15001))) .poll

theorem silence_comes_back :
    LinkReaches (fun _ _ => True) 0 silentLink ∧ silentLink.log = [.cameBack, .wentLost] ∧
      ¬ Truthful silentLink.log := by
  have hlog : silentLink.log = [.cameBack, .wentLost] := by decide +kernel
  have hrun : LinkReaches (fun _ _ => True) 0 silentLink := by
    exact (((LinkReaches.input .refl _ trivial).input _ trivial).input _ trivial).input _ trivial
  refine ⟨hrun, hlog, fun h => ?_⟩
  cases h with
  | cameBack _ _ hsnapshot => cases hsnapshot

end SolariNet
