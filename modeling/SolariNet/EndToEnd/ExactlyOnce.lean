/-
# Reports are delivered once

The agent of `EndToEnd.Reporting`, and the whole system.

    confirmed send    rests on the ACK of a server (`reporterSendConfirmed_safe`): these carry one
                      session, so the flag of the two attempts is never left set
    drain             a row is deleted only after a confirmed send of its frame
                      (`reporterDrain_safe`)
    framing           a number is never given twice in a session (`buildFrame_safe`)
-/
import SolariNet.EndToEnd.ReportRows
import SolariNet.Lib.Play
import SolariNet.Reporter.Handle

namespace SolariNet

open List Lib Lib.Prog

/-! ## The reporter -/

section reporter
variable {ι : Type} {n : UInt64} {J : ReportWorld → Prop}
  (hJ : ∀ w w', ReportInv n w → J w → ReportChange n w w' → J w')

abbrev AgentRely (ι : Type) : ReportWorld → ReportWorld → Prop := ReportRely (ι := ι) .agent

abbrev AgentSafe (ι : Type) (n : UInt64) (J : ReportWorld → Prop) {α : Type} :
    (α → ReportWorld → Prop) → RepM α → ReportWorld → Prop :=
  Safe reporterSem (AgentRely ι) (Upheld n J)

structure AgentKept (w w' : ReportWorld) : Prop where
  framed : w'.framed = w.framed
  sessions : w'.sessions = w.sessions
  commits : w.commits ⊆ w'.commits

variable {w w' : ReportWorld}

theorem ReportRely.kept (h : AgentRely ι w w') : AgentKept w w' :=
  ⟨(h.own rfl).framed, (h.own rfl).sessions, h.commits⟩

theorem AgentKept.trans (h : AgentKept w w') (h' : AgentKept w' w'') :
    AgentKept w w'' :=
  ⟨h'.framed.trans h.framed, h'.sessions.trans h.sessions, List.Subset.trans h.commits h'.commits⟩

variable {f : Frame} {session : Session} {st : Status}

theorem isReport_iff (hp : solariFrameParse frame = .ok f) :
    IsReport frame ↔ isDurableReport f.hdr.msgType = true := by
  simp [IsReport, hp]

theorem not_isReport (hp : solariFrameParse frame = .error st) :
    ¬ IsReport frame := by
  simp [IsReport, hp]

/-- **The verdict on a reply of a server.**  It settles the send only if the report is stored, and
otherwise leaves the flag clear. -/
theorem ackVerdict_backed (hI : ReportInv n w) (hframe : frame ∈ w.framed)
    (hp : solariFrameParse frame = .ok f) (hs : sentSession f = some session)
    (hrx : rx ∈ w.replies) :
    ((ackVerdict f.hdr session false rx).1 = true → w.Committed frame) ∧
      ((ackVerdict f.hdr session false rx).1 = false →
        (ackVerdict f.hdr session false rx).2 = false) := by
  obtain ⟨hd, hv⟩ := (sentSession_eq_some hp).1 hs
  constructor
  · intro h
    obtain ⟨got, ⟨hg, hm, hcorr⟩, hval⟩ := ackVerdict_settles.1 h
    obtain ⟨b, hb, s, hid, hsv, hcom⟩ := hI.replies rx hrx got hg hm
    have hval' : sessionValues got.tlvs = [session.val] :=
      hval.elim And.left fun h => absurd h.2 (by decide)
    have hses : s = session := Subtype.ext (by simpa using hsv.symm.trans hval')
    rw [hcorr, hses] at hid
    obtain rfl := hI.unique b (hI.sent b hb) frame hframe _ _ hid ⟨f, hp, hd, hv, rfl⟩
    exact hcom
  · intro h
    by_contra hflag
    rw [Bool.not_eq_false] at hflag
    obtain ⟨got, v, vs, ⟨hg, hm, -⟩, hval⟩ := ackVerdict_leaves_flag.1 (Prod.ext h hflag)
    obtain ⟨-, -, s, -, hsv, -⟩ := hI.replies rx hrx got hg hm
    rw [hval] at hsv
    simp at hsv

abbrev RepOp.Idle (o : RepOp) : Prop := ∀ w r w', reporterSem o w r w' → w' = w

theorem idle_safe {α : Type} {p : RepM α} {w₀ : ReportWorld} (hp : p.Uses RepOp.Idle)
    (hw : AgentRely ι w₀ w) : AgentSafe ι n J (fun _ w => AgentRely ι w₀ w) p w :=
  Safe.of_uses (fun _ _ h hR _ => h.trans hR)
    (fun o s r s' ho hI h hs => by rw [ho s r s' hs]; exact ⟨hI, h⟩) hp hw

theorem reporterDialAck_safe (r : Reporter) (failover : Bool) {w₀ : ReportWorld}
    (hw : AgentRely ι w₀ w) :
    AgentSafe ι n J (fun _ w => AgentRely ι w₀ w) (reporterDialAck r failover) w := by
  refine idle_safe ?_ hw
  unfold reporterDialAck
  dsimp only
  generalize (if failover then r.ackFailoverUrl else r.ackUrl) = url
  split
  · trivial
  split
  · trivial
  · exact .perform_bind (fun _ _ _ h => h) fun _ => trivial

include hJ

variable {w₀ : ReportWorld} {frame : Bytes} (hframe : frame ∈ w₀.framed)
include hframe

theorem reporterAttempt_safe (hp : solariFrameParse frame = .ok f)
    (hs : sentSession f = some session) (r : Reporter) (failover : Bool) (hw : AgentRely ι w₀ w) :
    AgentSafe ι n J
      (fun x w => AgentRely ι w₀ w ∧ (x.1 = true → w.Committed frame) ∧
        (x.1 = false → x.2.1 = false))
      (reporterAttempt r frame f.hdr session failover false) w := by
  refine (reporterDialAck_safe r failover hw).seq fun x w' hw' => ?_
  dsimp only
  split
  · exact ⟨hw', by simp, fun _ => rfl⟩
  refine safe_perform_bind.2 fun w₁ hR hI rc w₂ hsend => ?_
  have hw₁ := hw'.trans hR
  have hsend' : w₂ = w₁.send frame := hsend
  subst hsend'
  have hw₂ : AgentRely ι w₀ (w₁.send frame) :=
    hw₁.trans ⟨List.Subset.refl _, List.Subset.refl _, subset_cons_self _ _,
      fun _ => ⟨rfl, rfl, rfl⟩⟩
  refine ⟨Upheld.change hJ hI (.sent (hw₁.framed hframe)), ?_⟩
  split
  · exact ⟨hw₂, by simp, fun _ => rfl⟩
  refine safe_perform_bind.2 fun w₃ hR hI rx w₄ hrecv => ?_
  obtain ⟨rfl, hrx⟩ := hrecv
  have hw₄ := hw₂.trans hR
  refine ⟨hI, ?_⟩
  cases rx with
  | error st => exact ⟨hw₄, by simp, fun _ => rfl⟩
  | ok rx =>
    obtain ⟨hok, hclear⟩ := ackVerdict_backed hI.1 (hw₄.framed hframe) hp hs (hrx rx rfl)
    dsimp only
    split
    · exact ⟨hw₄, by simp, fun _ => rfl⟩
    split
    · next h => exact ⟨hw₄, fun _ => hok h, by simp⟩
    · next h => exact ⟨hw₄, by simp, fun _ => hclear (Bool.eq_false_iff.2 h)⟩

/-- **A confirmed send has the report stored.** -/
theorem reporterSendConfirmed_safe (r : Reporter) (hw : AgentRely ι w₀ w) :
    AgentSafe ι n J (fun x w => AgentRely ι w₀ w ∧ (x.1 = .ok → w.Committed frame))
      (reporterSendConfirmed r frame) w := by
  unfold reporterSendConfirmed
  split
  · exact ⟨hw, fun h => by cases h⟩
  next f hp =>
  split
  · exact ⟨hw, fun h => by cases h⟩
  next session hs =>
  refine (reporterAttempt_safe hJ hframe hp hs r _ hw).seq fun x w' hx => ?_
  obtain ⟨hw', hok, hclear⟩ := hx
  dsimp only
  split
  · next h => exact ⟨hw', fun _ => hok h⟩
  next h =>
  rw [hclear (Bool.eq_false_iff.2 h)]
  refine (reporterAttempt_safe hJ hframe hp hs _ _ hw').seq fun y w'' hy => ?_
  split
  · next h => exact ⟨hy.1, fun _ => hy.2.1 h⟩
  · exact ⟨hy.1, fun h => by cases h⟩

theorem drainDeliver_safe (r : Reporter) (hw : AgentRely ι w₀ w) : AgentSafe ι n J
      (fun x w => AgentRely ι w₀ w ∧ (x.1 = .ok → IsReport frame → w.Committed frame))
      (drainDeliver r frame) w := by
  unfold drainDeliver
  split
  · next st hp => exact ⟨hw, fun _ hrep => absurd hrep (not_isReport hp)⟩
  next f hp =>
  split
  · exact (reporterSendConfirmed_safe hJ hframe r hw).mono fun x w' hx => ⟨hx.1, fun h _ => hx.2 h⟩
  next hd =>
  rw [← isReport_iff hp] at hd
  split
  · refine (idle_safe ?_ hw).mono fun x w' hx => ⟨hx, fun _ h => absurd h hd⟩
    exact .perform_bind (fun _ _ _ h => h) fun _ => trivial
  · exact ⟨hw, fun _ h => absurd h hd⟩

omit hframe in
/-- **The drain.**  A row is deleted only when its report is stored. -/
theorem reporterDrain_safe (k : Nat) (r : Reporter) (hw : AgentKept w₀ w) :
    AgentSafe ι n J (fun _ w => AgentKept w₀ w) (reporterDrain k r) w := by
  induction k generalizing r w with
  | zero => exact hw
  | succ k ih =>
    rw [reporterDrain_succ]
    refine safe_perform_bind.2 fun w₁ hR hI x w₂ hpeek => ?_
    obtain ⟨rfl, hx⟩ := hpeek
    have hw₁ := hw.trans hR.kept
    refine ⟨hI, ?_⟩
    cases x with
    | error st => exact hw₁
    | ok row =>
      cases row with
      | none => exact hw₁
      | some row =>
        obtain ⟨now, hnow⟩ := hx.resolve_left (by simp)
        rw [Except.ok.injEq, eq_comm, Option.map_eq_some_iff] at hnow
        obtain ⟨q, hq, rfl⟩ := hnow
        have hrow := Spool.mem_of_peek hq
        refine (drainDeliver_safe hJ (hI.1.spooled q hrow) r (.refl _ _)).seq fun y w₃ hy => ?_
        obtain ⟨hw₃, hcom⟩ := hy
        split
        · next hok =>
          refine safe_perform_bind.2 fun w₄ hR hI rc w₅ hack => ?_
          have hw₄ := hw₃.trans hR
          have hrows : ∀ p ∈ w₄.spool.rows, p.rowId = q.rowId → IsReport p.frame →
              w₄.Committed p.frame := by
            intro p hp hid hrep
            rw [(hw₄.own rfl).spool] at hp
            obtain rfl := Serial.eq_of_id hp hrow hid
            exact (hcom hok hrep).mono hR.commits
          have hkept := hw₁.trans hw₄.kept
          rcases hack with rfl | ⟨hrc, rfl⟩
          · refine ⟨Upheld.change hJ hI (.acked hrows), ?_⟩
            split
            · exact { hkept with }
            · exact ih y.2 { hkept with }
          · rw [if_pos hrc]
            exact ⟨hI, hkept⟩
        · refine safe_perform_bind.2 fun w₄ hR hI rc w₅ hnack => ?_
          have hkept := hw₁.trans (hw₃.trans hR).kept
          rcases hnack with ⟨now, rfl⟩ | rfl
          · exact ⟨Upheld.change hJ hI (.nacked now q.rowId), hkept.framed, hkept.sessions,
              hkept.commits⟩
          · exact ⟨hI, hkept⟩

omit hframe in
theorem solariReporterDrain_safe (r : Reporter) (hw : AgentKept w₀ w) :
    AgentSafe ι n J (fun _ w => AgentKept w₀ w) (solariReporterDrain r) w := by
  unfold solariReporterDrain
  split
  · exact reporterDrain_safe hJ _ r hw
  · exact hw

theorem reporterSpool_safe (r : Reporter) (hst : st ≠ .ok) (hw : AgentRely ι w₀ w) : AgentSafe ι n J
      (fun x w => AgentKept w₀ w ∧ (x.1 = .ok → w.spool.Holds frame))
        (reporterSpool r frame st) w := by
  unfold reporterSpool
  split
  · refine safe_perform_bind.2 fun w₁ hR hI rc w₂ hpush => ?_
    have hw₁ := hw.trans hR
    rcases hpush with ⟨now, rfl⟩ | ⟨hrc, rfl⟩
    · exact ⟨Upheld.change hJ hI (.pushed now (hw₁.framed hframe)),
        { hw₁.kept with }, fun _ => Spool.holds_push.2 (.inr rfl)⟩
    · exact ⟨hI, hw₁.kept, fun h => absurd h hrc⟩
  · exact ⟨hw.kept, fun h => absurd h hst⟩

/-- **A send.**  A report that is accepted is in the spool or stored. -/
theorem solariReporterSend_safe (r : Reporter) (hw : AgentRely ι w₀ w) : AgentSafe ι n J
      (fun x w => AgentKept w₀ w ∧
        (x.1 = .ok → IsReport frame → w.spool.Holds frame ∨ w.Committed frame))
      (solariReporterSend r frame) w := by
  unfold solariReporterSend
  split
  · next st hp => exact ⟨hw.kept, fun _ hrep => absurd hrep (not_isReport hp)⟩
  next f hp =>
  split
  · refine (reporterSendConfirmed_safe hJ hframe r hw).seq fun x w' hx => ?_
    obtain ⟨hw', hcom⟩ := hx
    dsimp only
    split
    · next hok =>
      refine (solariReporterDrain_safe hJ x.2 ⟨rfl, rfl, List.Subset.refl _⟩).seq
        fun y w'' hy => ?_
      exact ⟨hw'.kept.trans hy, fun _ _ => .inr ((hcom hok).mono hy.commits)⟩
    · next hne =>
      exact (reporterSpool_safe hJ hframe x.2 hne hw').mono
        fun y w'' hy => ⟨hy.1, fun h _ => .inl (hy.2 h)⟩
  · next hd =>
    rw [← isReport_iff hp] at hd
    split
    · refine safe_perform_bind.2 fun w₁ hR hI rc w₂ hpush => ?_
      cases hpush
      refine ⟨hI, ?_⟩
      split
      · exact (solariReporterDrain_safe hJ r (hw.trans hR).kept).seq
          fun y w'' hy => ⟨hy, fun _ h => absurd h hd⟩
      · exact (reporterSpool_safe hJ hframe _ (by decide) (hw.trans hR)).mono
          fun y w'' hy => ⟨hy.1, fun _ h => absurd h hd⟩
    · exact (reporterSpool_safe hJ hframe _ (by decide) hw).mono
        fun y w'' hy => ⟨hy.1, fun _ h => absurd h hd⟩

theorem sendFrame_safe (r : Reporter) (hw : AgentRely ι w₀ w) :
    AgentSafe ι n J (fun r' w => AgentKept w₀ w ∧ r.SameId r') (sendFrame r frame) w := by
  refine ((solariReporterSend_safe hJ hframe r hw).returns
    (solariReporterSend_sameId r frame)).seq fun x w' hx => ?_
  obtain ⟨⟨hw', hacc⟩, hid⟩ := hx
  refine safe_perform_bind.2 fun w₁ hR hI u w₂ hret => ?_
  have hkept := hw'.trans hR.kept
  have hret' : w₂ = if x.1 = .ok then { w₁ with accepted := frame :: w₁.accepted } else w₁ := hret
  split at hret'
  · next hok =>
    subst hret'
    refine ⟨Upheld.change hJ hI (.accepted fun hrep => ?_), { hkept with }, hid⟩
    rw [(hR.own rfl).spool]
    exact (hacc hok hrep).imp_right fun h => h.mono hR.commits
  · subst hret'
    exact ⟨hI, hkept, hid⟩

end reporter

/-! ## Framing -/

structure AgentKnows (n : UInt64) (w : ReportWorld) (r : Reporter) (built : List Bytes) : Prop where
  node : r.nodeId = n
  built : ∀ b ∈ built, b ∈ w.framed
  session : r.session ∈ w.sessions
  numbers : ∀ b ∈ w.framed, ∀ q, Identified b r.session q → q.toNat ≤ r.seqNo.toNat

variable {built : List Bytes} {n : UInt64} {I : ReportWorld → Prop}
  {R : ReportWorld → ReportWorld → Prop} {r : Reporter} {α ι : Type} {Q : α → ReportWorld → Prop}

theorem AgentKnows.kept {r' : Reporter} (h : AgentKnows n w r built) (hk : AgentKept w w')
    (hid : r.SameId r') : AgentKnows n w' r' built := by
  obtain ⟨hn, hs, hq⟩ := hid
  refine ⟨hn.trans h.node, ?_, ?_, ?_⟩
  · rw [hk.framed]
    exact h.built
  · rw [hk.sessions, hs]
    exact h.session
  · rw [hk.framed, hs, hq]
    exact h.numbers

structure NumberReady (n : UInt64) (w : ReportWorld) (r : Reporter) (built : List Bytes) :
    Prop where
  node : r.nodeId = n
  built : ∀ b ∈ built, b ∈ w.framed
  session : r.session ∈ w.sessions
  numbers : ∀ b ∈ w.framed, ∀ q, Identified b r.session q → q.toNat < r.seqNo.toNat

section
variable (h : NumberReady n w r built)
include h

theorem NumberReady.knows : AgentKnows n w r built :=
  ⟨h.node, h.built, h.session, fun b hb q hid => (h.numbers b hb q hid).le⟩

theorem NumberReady.kept (hk : AgentKept w w') : NumberReady n w' r built := by
  refine ⟨h.node, ?_, ?_, ?_⟩
  · rw [hk.framed]
    exact h.built
  · rw [hk.sessions]
    exact h.session
  · rw [hk.framed]
    exact h.numbers

theorem NumberReady.newFrame {msgType : UInt8} {ts : List Tlv}
    (hf : NumberedFrame r msgType ts frame) :
    NewFrame n w frame ∧ ∀ q, Identified frame r.session q → q = r.seqNo := by
  obtain ⟨f, hp, hnode, rfl, hseq, hval⟩ := hf
  have hid {s : Session} {q : UInt32} (hi : Identified frame s q) :
      s = r.session ∧ q = r.seqNo := by
    obtain ⟨g, hg, hd, hv, hq⟩ := hi
    obtain rfl : f = g := Except.ok.inj (hp.symm.trans hg)
    have hone : sessionValues ts ++ [r.session.val] = [s.val] := (hval hd).symm.trans hv
    refine ⟨Subtype.ext ?_, hq.symm.trans hseq⟩
    cases hts : sessionValues ts with
    | nil =>
      rw [hts] at hone
      simpa using hone.symm
    | cons v vs =>
      rw [hts] at hone
      simp at hone
  refine ⟨⟨fun g hg => ?_, fun s q hi => ?_⟩, fun q hi => (hid hi).2⟩
  · obtain rfl : f = g := Except.ok.inj (hp.symm.trans hg)
    exact hnode.trans h.node
  · obtain ⟨rfl, rfl⟩ := hid hi
    exact ⟨h.session, fun b hb hb' => lt_irrefl _ (h.numbers b hb _ hb')⟩

end

theorem solariReporterConnect_uses (r : Reporter) : (solariReporterConnect r).Uses RepOp.Idle := by
  have hdial (r : Reporter) (url : CStr) (failover : Bool) :
      (dialUrl r url failover).Uses RepOp.Idle := by
    refine .perform_bind (fun _ _ _ h => h) fun rc => ?_
    split
    · trivial
    · trivial
  unfold solariReporterConnect
  split
  · trivial
  have hnext (x : Status × Reporter) : Uses RepOp.Idle
      (if x.1 = .ok then (.ret (.ok, x.2) : RepM _)
        else if x.2.failoverUrl.isEmpty then .ret (.errConnRetry, x.2)
        else dialUrl x.2 x.2.failoverUrl true) := by
    split
    · trivial
    split
    · trivial
    · exact hdial _ _ _
  split
  · exact hnext (.errConnRetry, r)
  · exact Uses.bind (hdial _ _ _) hnext

theorem frameNumbered_uses (r : Reporter) (msgType flags : UInt8) (correlationId : UInt32)
    (payload : Bytes) (tlvCount : UInt16) (cap : Nat) :
    (frameNumbered r msgType flags correlationId payload tlvCount cap).Uses RepOp.Idle := by
  refine .perform_bind (fun _ _ _ h => h) fun time => ?_
  split
  · split
    · trivial
    refine .perform_bind (fun _ _ _ h => h) fun crlFile => ?_
    split
    · trivial
    · trivial
  · trivial

theorem onReporter_safe {p : RepM α} (h : Safe reporterSem R I Q p w) :
    Safe (partySem (ι := ι) .agent) R I Q (onReporter p) w := by
  refine Safe.embed ?_ h
  exact fun o w r w' h => h

theorem onControl_safe (i : ι) {p : SrvM α} (h : Safe controlSem R I Q p w) :
    Safe (partySem (.server i)) R I Q (onControl p) w := by
  refine Safe.embed ?_ h
  exact fun o w r w' h => h

def PartyKnows {ι : Type} (n : UInt64) : Party ι → PartyMem → ReportWorld → Prop
  | .agent, .agent r built, w => AgentKnows n w r built
  | _, _, _ => True

section system
variable {ι : Type} {n : UInt64} {J : ReportWorld → Prop}
  (hJ : ∀ w w', ReportInv n w → J w → ReportChange n w w' → J w')
include hJ

theorem nextSeq_safe (r : Reporter) (hw : AgentKnows n w r built) : AgentSafe ι n J
      (fun x w => AgentKnows n w r built ∧ ∀ r', x = .ok r' → NumberReady n w r' built)
      (nextSeq r) w := by
  unfold nextSeq
  split
  · refine safe_perform_bind.2 fun w₁ hR hI x w₂ hs => ?_
    have hw₁ := hw.kept hR.kept .rfl
    rcases hs with ⟨⟨st, rfl⟩, rfl⟩ | ⟨s, rfl, hnew, rfl⟩
    · exact ⟨hI, hw₁, fun r' h => by cases h⟩
    refine ⟨Upheld.change hJ hI (.drawn hnew), ⟨hw₁.node, hw₁.built,
      mem_cons_of_mem s hw₁.session, hw₁.numbers⟩, fun r' h => ?_⟩
    cases h
    exact ⟨hw₁.node, hw₁.built, mem_cons_self,
      fun b hb q hid => absurd (hI.1.drawn b hb s q hid) hnew⟩
  · next hmax =>
    refine ⟨hw, fun r' h => ?_⟩
    cases h
    refine ⟨hw.node, hw.built, hw.session, fun b hb q hid => ?_⟩
    have hq := hw.numbers b hb q hid
    have hlt : r.seqNo.toNat ≠ 0xFFFFFFFF := fun h => hmax (UInt32.toNat_inj.1 h)
    have hsucc : (r.seqNo + 1).toNat = (r.seqNo.toNat + 1) % 2 ^ 32 := by
      rfl
    have hbound := r.seqNo.toNat_lt
    show q.toNat < (r.seqNo + 1).toNat
    omega

theorem buildFrame_safe (r : Reporter) (msgType flags : UInt8) (correlationId : UInt32)
    (ts : List Tlv) (tlvCount : UInt16) (cap : Nat) (hw : AgentKnows n w r built) :
    Safe (partySem (ι := ι) .agent) (AgentRely ι) (Upheld n J)
      (PartyKnows (ι := ι) n .agent)
      (buildFrame r built msgType flags correlationId ts tlvCount cap) w := by
  have hframe : AgentSafe ι n J
      (fun x w => AgentKnows n w x.2 built ∧ ∀ frame, x.1 = .ok frame →
        NumberReady n w x.2 built ∧ NumberedFrame x.2 msgType ts frame)
      (solariReporterFrameCorr r msgType flags correlationId (encodeTlvs ts) tlvCount cap) w := by
    refine (nextSeq_safe hJ r hw).seq fun x w' hx => ?_
    cases x with
    | error st => exact ⟨hx.1, fun frame h => by cases h⟩
    | ok r' =>
      have hready := hx.2 r' rfl
      refine (Safe.returns (idle_safe (frameNumbered_uses r' msgType flags correlationId
        (encodeTlvs ts) tlvCount cap) (.refl _ w'))
        (frameNumbered_returns r' msgType flags correlationId ts tlvCount cap)).mono
          fun y w'' hy => ?_
      obtain ⟨hkept, hsame, hnum⟩ := hy
      rw [hsame]
      have hready' := hready.kept hkept.kept
      exact ⟨hready'.knows, fun frame h => ⟨hready', hnum frame h⟩⟩
  refine (onReporter_safe hframe).seq fun x w' hx => ?_
  split
  · exact hx.1
  next frame hok =>
  obtain ⟨hready, hnum⟩ := hx.2 frame hok
  refine safe_perform_bind.2 fun w₁ hR hI u w₂ hs => ?_
  have hready₁ := hready.kept hR.kept
  obtain ⟨hnew, hseq⟩ := hready₁.newFrame hnum
  cases hs
  refine ⟨Upheld.change hJ hI (.framed hnew), hready₁.node, ?_, hready₁.session, ?_⟩
  · intro b hb
    rcases mem_cons.1 hb with rfl | hb
    · exact mem_cons_self
    · exact mem_cons_of_mem frame (hready₁.built b hb)
  · intro b hb q hid
    rcases mem_cons.1 hb with rfl | hb
    · rw [hseq q hid]
    · exact (hready₁.numbers b hb q hid).le

theorem openReporter_safe (opts : ReporterOpts) (hn : opts.nodeId = n) (spool : Bool)
    (w : ReportWorld) :
    AgentSafe ι n J (PartyKnows (ι := ι) n .agent) (openReporter opts spool) w := by
  refine safe_perform_bind.2 fun w₁ hR hI x w₂ hs => ?_
  have hI₂ : Upheld n J w₂ ∧ ∀ s, x = .ok s → s ∈ w₂.sessions ∧
      ∀ b ∈ w₂.framed, ∀ q, ¬ Identified b s q := by
    rcases hs with ⟨⟨st, rfl⟩, rfl⟩ | ⟨s, rfl, hnew, rfl⟩
    · exact ⟨hI, fun s h => by cases h⟩
    refine ⟨Upheld.change hJ hI (.drawn hnew), fun s' h => ?_⟩
    cases h
    exact ⟨mem_cons_self, fun b hb q hid => hnew (hI.1.drawn b hb s q hid)⟩
  refine ⟨hI₂.1, ?_⟩
  split
  · trivial
  next r hr =>
  obtain ⟨hs, hnode, -⟩ := solariReporterOpen_ok hr
  obtain ⟨hmem, hfresh⟩ := hI₂.2 r.session hs
  exact ⟨hnode.trans hn, by simp, hmem, fun b hb q hid => absurd hid (hfresh b hb q)⟩

variable {opts : ReporterOpts} {cfg : ι → LoopCfg} {self : ι → UInt64}

theorem partyStart_safe (hn : opts.nodeId = n) {p : Party ι} {m : PartyMem} {prog : PartyM PartyMem}
    (h : PartyStart opts cfg self p m prog) (hw : PartyKnows n p m w) :
    Safe (partySem p) (ReportRely p) (Upheld n J) (PartyKnows n p) prog w := by
  cases h with
  | opens spool => exact onReporter_safe (openReporter_safe hJ opts hn spool w)
  | connect r built =>
    refine onReporter_safe (Safe.bind ?_)
    exact (Safe.returns (idle_safe (solariReporterConnect_uses r) (.refl _ w))
      (solariReporterConnect_sameId r)).mono fun x w' hx => AgentKnows.kept hw hx.1.kept hx.2
  | frame r built msgType flags correlationId ts tlvCount cap =>
    exact buildFrame_safe hJ r msgType flags correlationId ts tlvCount cap hw
  | send r built frame hmem =>
    refine onReporter_safe (Safe.bind ?_)
    exact (sendFrame_safe hJ (AgentKnows.built hw frame hmem) r (.refl _ w)).mono
      fun r' w' hx => AgentKnows.kept hw hx.1 hx.2
  | drain r built =>
    refine onReporter_safe (Safe.bind ?_)
    exact (Safe.returns (solariReporterDrain_safe hJ r ⟨rfl, rfl, List.Subset.refl _⟩)
      (solariReporterDrain_sameId r)).mono fun x w' hx => AgentKnows.kept hw hx.1 hx.2
  | serve i m k =>
    refine onControl_safe i (Safe.bind ?_)
    exact (serverServiceControl_safe hJ (cfg i) (self i) m k w).mono fun _ _ _ => trivial

/-- **Runs of the system.**  The invariant holds in every state that is reached, with whatever else
the changes keep. -/
theorem reportSystem_upheld [DecidableEq ι] (hn : opts.nodeId = n)
    {c c' : Conf (Party ι) PartyOp PartyOp.Res ReportWorld PartyMem}
    (hinit : ∀ w, ReportInitial n w → J w)
    (hc : (reportSystem opts cfg self).Initial (ReportInitial n) c)
    (hs : (reportSystem opts cfg self).Steps c c') : Upheld n J c'.shared := by
  have hR : (reportSystem opts cfg self).Relies (Upheld n J) ReportRely :=
    { refl := .refl
      trans := fun _ _ _ _ h h' => h.trans h'
      other := fun _ _ _ _ _ _ hpq _ _ h => partySem_rely hpq h
      env := fun p w w' _ _ h => by
        obtain ⟨db, -, rfl⟩ := h
        exact ⟨List.Subset.refl _, List.Subset.refl _, List.Subset.refl _,
          fun _ => ⟨rfl, rfl, rfl⟩⟩ }
  refine (System.invariant (A := PartyKnows n) hR ?_ ?_ ?_ ?_ ?_ hc hs).1
  · intro p m w w' h hrely _
    cases p with
    | server i => trivial
    | agent =>
      cases m with
      | agent r built => exact AgentKnows.kept h hrely.kept .rfl
      | closed | server k => trivial
  · exact fun p m prog w h _ hw => partyStart_safe hJ hn h hw
  · intro w w' hI h
    obtain ⟨db, hkept, rfl⟩ := h
    subst hn
    exact Upheld.change hJ hI (.tables hkept)
  · intro p m w h _
    cases p with
    | server i => trivial
    | agent =>
      cases h
      trivial
  · exact fun w h => ⟨h.inv, hinit w h⟩

end system

theorem rowsSystem_rowsOnce {ι : Type} [DecidableEq ι] {opts : ReporterOpts} {cfg : ι → LoopCfg}
    {self : ι → UInt64} {c c' : Conf (Party ι) PartyOp PartyOp.Res ReportWorld PartyMem}
    (hc : (reportSystem opts cfg self).Initial (ReportInitial opts.nodeId) c)
    (hs : (rowsSystem opts cfg self).Steps c c') :
    RowsOnce opts.nodeId c.shared.db c'.shared := by
  induction hs with
  | refl => exact .initial hc.1.commits _
  | @tail c₁ c₂ hs hstep ih =>
    refine rowsSystem_step hstep ih fun x hx => ?_
    -- what is stored is a frame that was sent, so one of the node's own
    have hsteps : (reportSystem opts cfg self).Steps c c₂ :=
      .of_env (fun _ _ ⟨db, hk, _, hw⟩ => ⟨db, hk, hw⟩) (hs.tail hstep)
    obtain ⟨hI, -⟩ := reportSystem_upheld (J := fun _ => True) (fun _ _ _ _ _ => trivial) rfl
      (fun _ _ => trivial) hc hsteps
    obtain ⟨b, hb, f, hp, hf⟩ := hI.stored x hx
    exact hf.node.trans (hI.node b (hI.sent b hb) f hp)

/-- **Reports are delivered exactly once.** (a) A report whose send returned success is in the spool
or stored; (b) no report is stored twice, and its receipt tells that it is; (c) a report that left
the spool has been stored, with its exact content.  What is stored has its rows in the tables, once,
as long as nobody else removes them. -/
theorem exactly_once {ι : Type} [DecidableEq ι] (opts : ReporterOpts) (cfg : ι → LoopCfg)
    (self : ι → UInt64) {c c' : Conf (Party ι) PartyOp PartyOp.Res ReportWorld PartyMem}
    (hc : (reportSystem opts cfg self).Initial (ReportInitial opts.nodeId) c)
    (hs : (reportSystem opts cfg self).Steps c c') :
    (∀ frame ∈ c'.shared.accepted, IsReport frame →
      c'.shared.spool.Holds frame ∨ c'.shared.Committed frame) ∧
    (c'.shared.commits.map StoredReport.key).Nodup ∧
    (∀ q : ReceiptRow, q.nodeId = opts.nodeId →
      (q ∈ c'.shared.db.reportReceipt.rows ↔ ∃ x ∈ c'.shared.commits, x.row = q)) ∧
    (∀ frame ∈ c'.shared.acked, IsReport frame → c'.shared.Committed frame) ∧
    ((rowsSystem opts cfg self).Steps c c' → RowsOnce opts.nodeId c.shared.db c'.shared) := by
  obtain ⟨hI, -⟩ := reportSystem_upheld (J := fun _ => True) (fun _ _ _ _ _ => trivial) rfl
    (fun _ _ => trivial) hc hs
  exact ⟨hI.accepted, hI.once, hI.receipts, hI.acked, rowsSystem_rowsOnce hc⟩

/-! ### One client and one server -/

/-- Links that work: a party receives the newest frame there is.  One session can be drawn. -/
def reporterAnswers : (o : RepOp) → ReportWorld → o.Res × ReportWorld
  | .sendAck frame, w => (Status.ok, w.send frame)
  | .recvAck, w =>
    (match w.replies with
      | [] => .error .errConnRetry
      | b :: _ => .ok ⟨b, .error .errTls⟩, w)
  | .spoolPush frame, w => (Status.ok, { w with spool := w.spool.push 0 frame })
  | .spoolPeek, w => (.ok ((w.spool.peek 0).map fun q => (q.rowId, q.frame)), w)
  | .spoolAck rowId, w => (Status.ok, w.ackRow rowId)
  | .spoolNack rowId, w => (Status.ok, { w with spool := w.spool.nack 0 rowId })
  | .newSession, w =>
    if zeroSession ∈ w.sessions then (.error .errTls, w)
    else (.ok zeroSession, { w with sessions := zeroSession :: w.sessions })
  | .returned frame rc, w =>
    ((), if rc = .ok then { w with accepted := frame :: w.accepted } else w)
  | .dialAck _, w => (Status.ok, w)
  | .dialPush _, w => (Status.errConnRetry, w)
  | .sendPush _, w => (Status.errConnRetry, w)
  | .now, w => ((0 : UInt64), w)
  | .readCrlFile, w => (none, w)

def storeAnswer (w : ReportWorld) (c : StoredReport) : Status × ReportWorld :=
  match c.txn w.db with
  | .error st => (st, w)
  | .ok db => (.ok, w.store c db)

def controlAnswers : (o : SrvOp) → ReportWorld → o.Res × ReportWorld
  | .recv _, w =>
    (match w.requests with
      | [] => .error .errConnRetry
      | b :: _ => .ok ⟨b, .ok "host".toList⟩, w)
  | .reply b, w => (Status.ok, { w with replies := b :: w.replies })
  | .writeClientReport n rep receipt, w => storeAnswer w ⟨n, .client rep, receipt⟩
  | .writeMonitorReport n rep receipt, w => storeAnswer w ⟨n, .monitor rep, receipt⟩
  | o, w => ((dbAnswers o w.db).1, { w with db := (dbAnswers o w.db).2 })

def partyAnswers : Party Unit → (o : PartyOp) → ReportWorld → o.Res × ReportWorld
  | .agent, .rep o, w => reporterAnswers o w
  | .agent, .framed frame, w => ((), { w with framed := frame :: w.framed })
  | .agent, .srv o, w => ((controlAnswers o w).1, w)
  | .server _, .srv o, w => controlAnswers o w
  | .server _, .rep o, w => ((reporterAnswers o w).1, w)
  | .server _, .framed _, w => ((), w)

theorem reporterAnswers_sem (o : RepOp) (w : ReportWorld) :
    reporterSem o w (reporterAnswers o w).1 (reporterAnswers o w).2 := by
  cases o with
  | recvAck =>
    refine ⟨rfl, fun rx h => ?_⟩
    cases hr : w.replies with
    | nil =>
      simp only [reporterAnswers, hr] at h
      cases h
    | cons b bs =>
      simp only [reporterAnswers, hr] at h
      cases h
      exact mem_cons_self
  | spoolPush frame => exact .inl ⟨0, rfl⟩
  | spoolPeek => exact ⟨rfl, .inr ⟨0, rfl⟩⟩
  | spoolAck rowId => exact .inl rfl
  | spoolNack rowId => exact .inl ⟨0, rfl⟩
  | newSession =>
    by_cases hs : zeroSession ∈ w.sessions
    · simp only [reporterAnswers, if_pos hs]
      exact .inl ⟨⟨_, rfl⟩, rfl⟩
    · simp only [reporterAnswers, if_neg hs]
      exact .inr ⟨_, rfl, hs, rfl⟩
  | _ => rfl

theorem storeAnswer_txn (w : ReportWorld) (c : StoredReport) :
    StoreTxn w c (storeAnswer w c).1 (storeAnswer w c).2 := by
  cases h : c.txn w.db with
  | error st =>
    simp only [storeAnswer, h]
    exact .refused h
  | ok db =>
    simp only [storeAnswer, h]
    exact .committed h

theorem controlAnswers_sem (o : SrvOp) (w : ReportWorld) :
    controlSem o w (controlAnswers o w).1 (controlAnswers o w).2 := by
  cases o with
  | recv l =>
    refine ⟨rfl, fun rx h => ?_⟩
    cases hr : w.requests with
    | nil =>
      simp only [controlAnswers, hr] at h
      cases h
    | cons b bs =>
      simp only [controlAnswers, hr] at h
      cases h
      exact mem_cons_self
  | reply b => rfl
  | writeClientReport | writeMonitorReport => exact storeAnswer_txn w _
  | _ => exact ⟨_, dbAnswers_sem _ _, rfl⟩

theorem partyAnswers_sem (p : Party Unit) (o : PartyOp) (w : ReportWorld) :
    partySem p o w (partyAnswers p o w).1 (partyAnswers p o w).2 := by
  cases p with
  | agent =>
    cases o with
    | rep o => exact reporterAnswers_sem o w
    | srv o | framed b => rfl
  | server i =>
    cases o with
    | rep o => rfl
    | srv o => exact controlAnswers_sem o w
    | framed b => rfl

def soleOpts : ReporterOpts := ⟨['p'], [], ['a'], [], false, 7⟩

def soleCfg (_ : Unit) : LoopCfg := ⟨⟨false, false, false⟩, ⟨15, 5, fun _ => ['u']⟩, []⟩

abbrev soleSystem : System (Party Unit) PartyOp PartyOp.Res ReportWorld PartyMem :=
  reportSystem soleOpts soleCfg fun _ => 1

abbrev SoleCue : Type := Cue (Party Unit) PartyOp PartyOp.Res PartyMem

def opensCue : SoleCue :=
  .begins .agent fun m => match m with
    | .closed => some (onReporter (openReporter soleOpts true))
    | _ => none

def framesCue (ts : List Tlv) : SoleCue :=
  .begins .agent fun m => match m with
    | .agent r built =>
      some (buildFrame r built Msg.clientReport Flag.ackReq 0 ts (UInt16.ofNat ts.length) 2048)
    | _ => none

def sendsCue : SoleCue :=
  .begins .agent fun m => match m with
    | .agent r (b :: built) =>
      some (onReporter (sendFrame r b >>= fun r => .ret (.agent r (b :: built))))
    | _ => none

def servesCue : SoleCue :=
  .begins (.server ()) fun m => match m with
    | .server k => some (onControl (serverServiceControl (soleCfg ()) 1
        ⟨.active, 1, 0, fun _ => true⟩ k >>= fun k => .ret (.server k)))
    | _ => none

@[simp] theorem opensCue_legal : System.Cue.Legal soleSystem opensCue := by
  intro m p h
  cases m with
  | closed =>
    cases h
    exact .opens true
  | agent r built | server k => cases h

@[simp] theorem framesCue_legal (ts : List Tlv) : System.Cue.Legal soleSystem (framesCue ts) := by
  intro m p h
  cases m with
  | agent r built =>
    cases h
    exact .frame r built _ _ _ ts _ _
  | closed | server k => cases h

@[simp] theorem sendsCue_legal : System.Cue.Legal soleSystem sendsCue := by
  intro m p h
  cases m with
  | agent r built =>
    cases built with
    | nil => cases h
    | cons b built =>
      cases h
      exact .send r (b :: built) b mem_cons_self
  | closed | server k => cases h

@[simp] theorem servesCue_legal : System.Cue.Legal soleSystem servesCue := by
  intro m p h
  cases m with
  | server k =>
    cases h
    exact .serve () _ k
  | closed | agent r built => cases h

def soleStart : Conf (Party Unit) PartyOp PartyOp.Res ReportWorld PartyMem where
  shared := ⟨enrolledDb "host".toList, [], .empty, [], [], [], [], [], []⟩
  procs p := match p with
    | .agent => .idle .closed
    | .server _ => .idle (.server ⟨.empty, 0⟩)

theorem soleStart_initial : soleSystem.Initial (ReportInitial 7) soleStart := by
  refine ⟨⟨?_, rfl, rfl, rfl, rfl, rfl, rfl, rfl⟩, fun p => ?_⟩
  · intro q hq
    cases hq
  · cases p with
    | agent | server i => exact ⟨_, rfl, rfl⟩

/-- The first report gets no answer and is spooled; the second is confirmed, and the drain that
follows confirms the first. -/
def overtaking : List SoleCue :=
  [opensCue, .ends .agent, framesCue [], .ends .agent, sendsCue, .ends .agent,
    framesCue [Tlv.u64 TlvType.ramUsedKb 5], .ends .agent, sendsCue, .acts .agent 2,
    servesCue, .ends (.server ()), .acts .agent 3, servesCue, .ends (.server ()), .ends .agent]

theorem overtaking_legal : ∀ q ∈ overtaking, System.Cue.Legal soleSystem q := by
  simp [overtaking]

set_option maxRecDepth 20000 in
theorem overtaking_plays : (System.play partyAnswers overtaking soleStart).isSome = true := by
  decide +kernel

def overtaken : Conf (Party Unit) PartyOp PartyOp.Res ReportWorld PartyMem :=
  (System.play partyAnswers overtaking soleStart).get overtaking_plays

theorem overtaking_steps : soleSystem.Steps soleStart overtaken :=
  System.steps_play partyAnswers_sem overtaking_legal (Option.some_get overtaking_plays).symm

set_option maxRecDepth 20000 in
theorem exactly_once_overtaking :
    (overtaken.shared.accepted.length = 2 ∧ overtaken.shared.acked.length = 1 ∧
      overtaken.shared.db.hostHistory.map HostHistoryRow.ramUsedKb = [5, 0]) ∧
      (∀ frame ∈ overtaken.shared.accepted, IsReport frame →
        overtaken.shared.spool.Holds frame ∨ overtaken.shared.Committed frame) ∧
      (overtaken.shared.commits.map StoredReport.key).Nodup ∧
      (∀ frame ∈ overtaken.shared.acked, IsReport frame → overtaken.shared.Committed frame) ∧
      RowsOnce 7 soleStart.shared.db overtaken.shared := by
  obtain ⟨ha, hb, -, hc, hrows⟩ :=
    exactly_once soleOpts soleCfg (fun _ => 1) soleStart_initial overtaking_steps
  exact ⟨by decide +kernel, ha, hb, hc, hrows (System.steps_play partyAnswers_sem
    overtaking_legal (Option.some_get overtaking_plays).symm)⟩

end SolariNet
