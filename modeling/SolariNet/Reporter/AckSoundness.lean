/-
# On which replies a confirmed send succeeds

`reporterSendConfirmed` makes two attempts and judges each reply with a scan over its
elements.  The scan carries one flag, `haveAckSession`, which is cleared before the first
attempt only.

    session values of the reply      flag before     settles the send     flag after
    none                             s               s                    s
    [session]                        false           true                 true
    session :: _ :: _                false           false                true      ← leaks
    v :: _,  v ≠ session             false           false                false
    _ :: _                           true            false                true

The marked row is the only way the flag survives an attempt, and the first row with
`s = true` is the only reply that then succeeds without a session of its own.
-/
import SolariNet.Reporter.Reporter

namespace SolariNet

open Lib Lib.Prog

def Frame.tlvs (f : Frame) : List Tlv := (readTlvs f.payload).1

/-! ## The scans -/

variable {session : Session} {seen : Bool} {rx : Bytes} {sent : FrameHeader} {failover : Bool}
  {f got : Frame} {ts : List Tlv} {stop : Status}

theorem scanAck_nil (h : sessionValues ts = []) : scanAck session stop seen ts = (stop, seen) := by
  induction ts with
  | nil => rfl
  | cons t ts ih =>
    have ht : t.type ≠ TlvType.reportSession := by
      intro ht
      rw [sessionValues_cons_of_eq ht] at h
      cases h
    rw [sessionValues_cons_of_ne ht] at h
    simp only [scanAck, ne_eq, ht, not_false_eq_true, if_true, ih h]

theorem scanAck_seen (h : sessionValues ts ≠ []) :
    scanAck session stop true ts = (.errConnRetry, true) := by
  induction ts with
  | nil => exact absurd rfl h
  | cons t ts ih =>
    by_cases ht : t.type = TlvType.reportSession
    · simp [scanAck, ht]
    · rw [sessionValues_cons_of_ne ht] at h
      simp only [scanAck, ne_eq, ht, not_false_eq_true, if_true, ih h]

theorem scanAck_fresh {vs : List Bytes} (h : sessionValues ts = v :: vs) :
    scanAck session stop false ts =
      if v = session.val then (if vs = [] then (stop, true) else (.errConnRetry, true))
      else (.errConnRetry, false) := by
  induction ts with
  | nil => cases h
  | cons t ts ih =>
    by_cases ht : t.type = TlvType.reportSession
    · rw [sessionValues_cons_of_eq ht] at h
      obtain ⟨hv, hvs⟩ := List.cons.inj h
      subst hv
      by_cases hs : t.value = session.val
      · simp only [scanAck, ht, hs, ne_eq, not_true_eq_false, or_self, if_false,
          Bool.false_eq_true, session.property, if_true]
        by_cases hn : vs = []
        · rw [if_pos hn, scanAck_nil (hvs.trans hn)]
        · rw [if_neg hn, scanAck_seen (hvs ▸ hn)]
      · simp [scanAck, ht, hs]
    · rw [sessionValues_cons_of_ne ht] at h
      simp only [scanAck, ne_eq, ht, not_false_eq_true, if_true, ih h]

/-! ## The verdict on one reply -/

def IsAck (seqNo : UInt32) (rx : Bytes) (got : Frame) : Prop :=
  solariFrameParse rx = .ok got ∧ got.hdr.msgType = Msg.ack ∧ got.hdr.correlationId = seqNo

theorem IsAck.unique {seqNo : UInt32} (hf : IsAck seqNo rx f) (hg : IsAck seqNo rx g) :
    g = f :=
  Except.ok.inj (hg.1.symm.trans hf.1)

theorem ackVerdict_of_isAck (h : IsAck sent.seqNo rx got) : ackVerdict sent session seen rx =
      ((scanAck session .errTlvEnd seen got.tlvs).1 == .errTlvEnd &&
        (scanAck session .errTlvEnd seen got.tlvs).2,
       (scanAck session .errTlvEnd seen got.tlvs).2) := by
  obtain ⟨hp, hm, hc⟩ := h
  have hend := solariFrameParse_payload hp
  simp only [ackVerdict, hp, hm, hc, and_self, if_true, hend, Frame.tlvs]

theorem ackVerdict_of_not_isAck (h : ∀ got, ¬ IsAck sent.seqNo rx got) :
    ackVerdict sent session seen rx = (false, seen) := by
  unfold ackVerdict
  cases hp : solariFrameParse rx with
  | error st => rfl
  | ok got =>
    refine if_neg ?_
    intro hc
    exact h got ⟨hp, hc.1, hc.2⟩

theorem exists_isAck {Q : Frame → Prop} (h : IsAck sent.seqNo rx got) :
    (∃ g, IsAck sent.seqNo rx g ∧ Q g) ↔ Q got := by
  refine ⟨fun ⟨g, hg, hQ⟩ => ?_, fun hQ => ⟨got, h, hQ⟩⟩
  rwa [h.unique hg] at hQ

theorem ackVerdict_settles : (ackVerdict sent session seen rx).1 = true ↔
      ∃ got, IsAck sent.seqNo rx got ∧ (sessionValues got.tlvs = [session.val] ∧ seen = false ∨
         sessionValues got.tlvs = [] ∧ seen = true) := by
  by_cases hex : ∃ got, IsAck sent.seqNo rx got
  · obtain ⟨got, hgot⟩ := hex
    rw [ackVerdict_of_isAck hgot, exists_isAck hgot]
    cases hv : sessionValues got.tlvs with
    | nil => simp [scanAck_nil hv]
    | cons v vs =>
      cases seen with
      | true => simp [scanAck_seen (hv ▸ List.cons_ne_nil v vs)]
      | false =>
        rw [scanAck_fresh hv]
        by_cases hvs : v = session.val
        · by_cases hn : vs = []
          · simp [hvs, hn]
          · simp [hvs, hn]
        · simp [hvs]
  · have hno : ∀ got, ¬ IsAck sent.seqNo rx got := fun got hg => hex ⟨got, hg⟩
    simp only [ackVerdict_of_not_isAck hno, hno, Bool.false_eq_true, false_and, exists_false]

theorem ackVerdict_leaves_flag : ackVerdict sent session false rx = (false, true) ↔
      ∃ got v vs, IsAck sent.seqNo rx got ∧ sessionValues got.tlvs = session.val :: v :: vs := by
  by_cases hex : ∃ got, IsAck sent.seqNo rx got
  · obtain ⟨got, hgot⟩ := hex
    simp only [ackVerdict_of_isAck hgot, exists_and_left, exists_isAck hgot]
    cases hv : sessionValues got.tlvs with
    | nil => simp [scanAck_nil hv]
    | cons v vs =>
      rw [scanAck_fresh hv]
      by_cases hvs : v = session.val
      · cases vs with
        | nil | cons w ws => simp [hvs]
      · simp [hvs]
  · have hno : ∀ got, ¬ IsAck sent.seqNo rx got := fun got hg => hex ⟨got, hg⟩
    simp [ackVerdict_of_not_isAck hno, hno]

/-! ## One attempt, and the call -/

abbrev RepTrace : Type := List (Event RepOp RepOp.Res)

def replyOf : Event RepOp RepOp.Res → Option Received
  | ⟨.recvAck, .ok rx⟩ => some rx
  | _ => none

def replies (t : RepTrace) : List Received := t.filterMap replyOf

def examined (useTls : Bool) (t : RepTrace) : List Received :=
  (replies t).filter fun rx => peerIsServer useTls rx.peerCn

@[simp] theorem replies_nil : replies [] = [] := rfl

@[simp] theorem replies_cons (e : Event RepOp RepOp.Res) (t : RepTrace) :
    replies (e :: t) = (replyOf e).toList ++ replies t := by
  cases h : replyOf e <;> simp [replies, h]

@[simp] theorem replies_append (t u : RepTrace) : replies (t ++ u) = replies t ++ replies u :=
  List.filterMap_append

variable {t : RepTrace}

theorem examined_of_replies_nil {useTls : Bool} (h : replies t = []) : examined useTls t = [] := by
  simp [examined, h]

theorem examined_append (useTls : Bool) (t u : RepTrace) :
    examined useTls (t ++ u) = examined useTls t ++ examined useTls u := by
  simp [examined]

variable {r r' : Reporter}

theorem reporterDialAck_runs (h : Runs (reporterDialAck r failover) t (rc, r')) :
    replies t = [] ∧ r'.useTls = r.useTls := by
  unfold reporterDialAck at h
  generalize (if failover then r.ackFailoverUrl else r.ackUrl) = url at h
  dsimp only at h
  split at h
  · cases h
    exact ⟨rfl, rfl⟩
  split at h
  · cases h
    exact ⟨rfl, rfl⟩
  simp only [perform_bind, Runs.call_iff, Runs.ret_iff] at h
  obtain ⟨st, _, rfl, rfl, -, rfl⟩ := h
  exact ⟨rfl, rfl⟩

theorem reporterAttempt_runs {done seen' : Bool}
    (h : Runs (reporterAttempt r frame sent session failover seen) t (done, seen', r')) :
    r'.useTls = r.useTls ∧ (examined r.useTls t = [] ∧ done = false ∧ seen' = seen ∨
        ∃ rx, replies t = [rx] ∧ examined r.useTls t = [rx] ∧
          ackVerdict sent session seen rx.bytes = (done, seen')) := by
  obtain ⟨t₁, t₂, ⟨rc, r₁⟩, rfl, h₁, h₂⟩ := Runs.bind_iff.1 h
  obtain ⟨hn₁, htls⟩ := reporterDialAck_runs h₁
  have hnone : replies t₂ = [] → examined r.useTls (t₁ ++ t₂) = [] := by
    intro hn
    exact examined_of_replies_nil (by rw [replies_append, hn₁, hn, List.append_nil])
  simp only at h₂
  split at h₂
  · cases h₂
    exact ⟨htls, .inl ⟨hnone rfl, rfl, rfl⟩⟩
  rw [perform_bind, Runs.call_iff] at h₂
  obtain ⟨rc₂, t₃, rfl, h₂⟩ := h₂
  split at h₂
  · cases h₂
    exact ⟨htls, .inl ⟨hnone rfl, rfl, rfl⟩⟩
  rw [perform_bind, Runs.call_iff] at h₂
  obtain ⟨rx, t₄, rfl, h₂⟩ := h₂
  cases rx with
  | error st =>
    cases h₂
    exact ⟨htls, .inl ⟨hnone rfl, rfl, rfl⟩⟩
  | ok rx =>
    simp only [Bool.not_eq_eq_eq_not, htls] at h₂
    split at h₂
    · next hp =>
      cases h₂
      refine ⟨htls, .inl ⟨?_, rfl, rfl⟩⟩
      simp [examined, hn₁, replyOf, hp]
    next hp =>
    have hp' : peerIsServer r.useTls rx.peerCn = true := by simpa using hp
    split at h₂
    · next hv =>
      cases h₂
      refine ⟨htls, .inr ⟨rx, ?_, ?_, Prod.ext hv rfl⟩⟩
      · simp [hn₁, replyOf]
      · simp [examined, hn₁, replyOf, hp']
    · next hv =>
      cases h₂
      refine ⟨htls, .inr ⟨rx, ?_, ?_, Prod.ext (by simpa using hv) rfl⟩⟩
      · simp [hn₁, replyOf]
      · simp [examined, hn₁, replyOf, hp']

theorem sentSession_eq_some (hp : solariFrameParse buf = .ok f) :
    sentSession f = some session ↔
      isDurableReport f.hdr.msgType = true ∧ sessionValues f.tlvs = [session.val] := by
  have hend := solariFrameParse_payload hp
  unfold sentSession
  cases hd : isDurableReport f.hdr.msgType with
  | false => simp
  | true =>
    rw [← scanSession_none]
    simp only [hend, Frame.tlvs]
    cases hs : scanSession none (readTlvs f.payload).1 with
    | error st | ok found => simp

/-- The last reply received is a well-formed ACK of the frame, and its one session element
is the session of the frame. -/
def AckSound (frame : Bytes) (t : RepTrace) : Prop :=
  ∃ sent session rx got, solariFrameParse frame = .ok sent ∧ (replies t).getLast? = some rx ∧
    IsAck sent.hdr.seqNo rx.bytes got ∧ sessionValues sent.tlvs = [Subtype.val session] ∧
    sessionValues got.tlvs = [Subtype.val (session : Session)]

/-- The first of two examined replies is an ACK that repeats the session of the frame, the
second an ACK without a session. -/
def LeaksEvidence (useTls : Bool) (frame : Bytes) (t : RepTrace) : Prop :=
  ∃ sent session rx₁ rx₂ got₁ got₂ v vs, solariFrameParse frame = .ok sent ∧
    isDurableReport sent.hdr.msgType = true ∧
    sessionValues sent.tlvs = [Subtype.val (session : Session)] ∧
    examined useTls t = [rx₁, rx₂] ∧
    IsAck sent.hdr.seqNo rx₁.bytes got₁ ∧ sessionValues got₁.tlvs = session.val :: v :: vs ∧
    IsAck sent.hdr.seqNo rx₂.bytes got₂ ∧ sessionValues got₂.tlvs = []

section fixed
variable {frame : Bytes} {sent : Frame} {session : Session} {t : RepTrace} {useTls : Bool}

theorem not_leaksEvidence_of_length (h : (examined useTls t).length ≠ 2) :
    ¬ LeaksEvidence useTls frame t := by
  intro hleak
  obtain ⟨_, _, _, _, _, _, _, _, -, -, -, hx, -⟩ := hleak
  rw [hx] at h
  exact h rfl

variable (hp : solariFrameParse frame = .ok sent) (hs : sessionValues sent.tlvs = [session.val])
include hp hs

theorem ackSound_iff {rx : Received} (hl : (replies t).getLast? = some rx) : AckSound frame t ↔
      ∃ got, IsAck sent.hdr.seqNo rx.bytes got ∧ sessionValues got.tlvs = [session.val] := by
  constructor
  · intro h
    obtain ⟨sent', session', rx', got, hp', hl', hgot, hs', hv⟩ := h
    have hsent := Except.ok.inj (hp.symm.trans hp')
    subst hsent
    rw [hl] at hl'
    cases hl'
    exact ⟨got, hgot, by rw [hv, ← hs', hs]⟩
  · intro h
    obtain ⟨got, hgot, hv⟩ := h
    exact ⟨sent, session, rx, got, hp, hl, hgot, hs, hv⟩

theorem leaksEvidence_iff (hd : isDurableReport sent.hdr.msgType = true)
    (hx : examined useTls t = [rx₁, rx₂]) :
    LeaksEvidence useTls frame t ↔ ackVerdict sent.hdr session false rx₁.bytes = (false, true) ∧
        (ackVerdict sent.hdr session true rx₂.bytes).1 = true := by
  rw [ackVerdict_leaves_flag, ackVerdict_settles]
  constructor
  · intro h
    obtain ⟨sent', session', y₁, y₂, g₁, g₂, v, vs, hp', -, hs', hx', hg₁, hw₁, hg₂, hw₂⟩ := h
    have hsent := Except.ok.inj (hp.symm.trans hp')
    subst hsent
    have hsess : session' = session := Subtype.ext (List.cons.inj (hs'.symm.trans hs)).1
    subst hsess
    rw [hx] at hx'
    cases hx'
    exact ⟨⟨g₁, v, vs, hg₁, hw₁⟩, g₂, hg₂, .inr ⟨hw₂, rfl⟩⟩
  · intro h
    obtain ⟨⟨g₁, v, vs, hg₁, hw₁⟩, g₂, hg₂, hcase⟩ := h
    rcases hcase with ⟨-, hf⟩ | ⟨hw₂, -⟩
    · cases hf
    · exact ⟨sent, session, rx₁, rx₂, g₁, g₂, v, vs, hp, hd, hs, hx, hg₁, hw₁, hg₂, hw₂⟩

theorem ackSound_of_settles {rx : Received} (hl : (replies t).getLast? = some rx)
    (hv : (ackVerdict sent.hdr session false rx.bytes).1 = true) : AckSound frame t := by
  obtain ⟨got, hgot, hcase⟩ := ackVerdict_settles.1 hv
  rcases hcase with ⟨hval, -⟩ | ⟨-, hf⟩
  · exact (ackSound_iff hp hs hl).2 ⟨got, hgot, hval⟩
  · cases hf

theorem not_ackSound_of_settles {rx : Received} (hl : (replies t).getLast? = some rx)
    (hv : (ackVerdict sent.hdr session true rx.bytes).1 = true) : ¬ AckSound frame t := by
  obtain ⟨got, hgot, hcase⟩ := ackVerdict_settles.1 hv
  rcases hcase with ⟨-, hf⟩ | ⟨hval, -⟩
  · cases hf
  intro h
  obtain ⟨got', hgot', hval'⟩ := (ackSound_iff hp hs hl).1 h
  rw [hgot.unique hgot', hval] at hval'
  cases hval'

theorem reporterConfirm_sound_iff {rc : Status} (hd : isDurableReport sent.hdr.msgType = true)
    (h : Runs (reporterConfirm r frame sent.hdr session) t (rc, r')) :
    (rc = .ok → AckSound frame t) ↔ ¬ LeaksEvidence r.useTls frame t := by
  obtain ⟨t₁, t₂, ⟨done₁, seen₁, r₁⟩, rfl, h₁, h₂⟩ := Runs.bind_iff.1 h
  obtain ⟨htls, hcase₁⟩ := reporterAttempt_runs h₁
  simp only at h₂
  split at h₂
  · -- the first attempt settles the send
    next hdone =>
      cases h₂
      rw [List.append_nil]
      rcases hcase₁ with ⟨-, hf, -⟩ | ⟨rx, hr, hx, hv⟩
      · rw [hf] at hdone; cases hdone
      have hl : (replies t₁).getLast? = some rx := by rw [hr]; rfl
      have hsound := ackSound_of_settles hp hs hl (by rw [hv]; exact hdone)
      exact ⟨fun _ => not_leaksEvidence_of_length (by simp [hx]), fun _ _ => hsound⟩
  · next hdone =>
    have hdone₁ : done₁ = false := by simpa using hdone
    subst hdone₁
    obtain ⟨t₃, t₄, ⟨done₂, seen₂, r₂⟩, rfl, h₃, h₄⟩ := Runs.bind_iff.1 h₂
    obtain ⟨-, hcase₂⟩ := reporterAttempt_runs h₃
    rw [htls] at hcase₂
    have ht₄ : t₄ = [] ∧ (rc = .ok ↔ done₂ = true) := by
      simp only at h₄
      split at h₄
      · next hd₂ =>
        simp only [Runs.ret_iff, Prod.mk.injEq] at h₄
        exact ⟨h₄.1, by simp [h₄.2.1, hd₂]⟩
      · next hd₂ =>
        simp only [Runs.ret_iff, Prod.mk.injEq] at h₄
        exact ⟨h₄.1, by simp [h₄.2.1, hd₂]⟩
    obtain ⟨rfl, hrc⟩ := ht₄
    rw [List.append_nil, hrc]
    rcases hcase₂ with ⟨hx₂, hf, -⟩ | ⟨rx₂, hr₂, hx₂, hv₂⟩
    · -- the second attempt saw no reply, so the call fails
      refine ⟨fun _ => not_leaksEvidence_of_length ?_, fun _ hok => by rw [hf] at hok; cases hok⟩
      rw [examined_append, hx₂]
      rcases hcase₁ with ⟨hx₁, -⟩ | ⟨rx₁, -, hx₁, -⟩ <;> simp [hx₁]
    have hl : (replies (t₁ ++ t₃)).getLast? = some rx₂ := by
      rw [replies_append, hr₂, List.getLast?_concat]
    have hset : done₂ = true ↔ (ackVerdict sent.hdr session seen₁ rx₂.bytes).1 = true := by
      rw [hv₂]
    rw [hset]
    rcases hcase₁ with ⟨hx₁, -, hseen⟩ | ⟨rx₁, -, hx₁, hv₁⟩
    · subst hseen
      refine ⟨fun _ => not_leaksEvidence_of_length ?_, fun _ => ackSound_of_settles hp hs hl⟩
      simp [examined_append, hx₁, hx₂]
    have hx : examined r.useTls (t₁ ++ t₃) = [rx₁, rx₂] := by
      rw [examined_append, hx₁, hx₂]; rfl
    rw [leaksEvidence_iff hp hs hd hx, hv₁]
    cases seen₁ with
    | false => simpa using ackSound_of_settles hp hs hl
    | true =>
      have hn := not_ackSound_of_settles hp hs hl
      simp only [true_and]
      exact ⟨fun himp hv => hn hv (himp hv), fun hno hv => absurd hv hno⟩

end fixed

/-! ## A run that leaks -/

theorem isAck_frameBytes {t : List Tlv}
    (hsize : (encodeTlvs t).length + 32 ≤ solariMaxFrame) (hh : frameValidateHeader h = .ok)
    (hc : h.tlvCount.toNat = t.length) (hm : h.msgType = Msg.ack) :
    ∃ got, IsAck h.correlationId (frameBytes h (encodeTlvs t)) got ∧ got.tlvs = t := by
  have hf := solariFrameParse_of_framed ⟨hsize, hh, frameValidatePayload_encodeTlvs hc⟩
  exact ⟨_, ⟨hf, hm, rfl⟩, by simp only [Frame.tlvs, readTlvs_encodeTlvs]⟩

def plainHeader : FrameHeader where
  msgType := Msg.clientReport
  flags := Flag.ackReq
  tlvCount := 1
  sourceNodeId := 1
  sendTimeUnixMs := 0
  seqNo := 1

def plainReport : Bytes := frameBytes plainHeader (encodeTlvs [sessionTlv zeroSession])

def plainAckHeader (n : UInt16) : FrameHeader where
  msgType := Msg.ack
  tlvCount := n
  sourceNodeId := 2
  sendTimeUnixMs := 0
  seqNo := 1
  correlationId := 1

def doubleAck : Bytes :=
  frameBytes (plainAckHeader 2) (encodeTlvs [sessionTlv zeroSession, sessionTlv zeroSession])

def bareAck : Bytes := frameBytes (plainAckHeader 0) (encodeTlvs [])

def plainReporter : Reporter where
  primaryUrl := []
  failoverUrl := []
  ackUrl := ['a']
  ackFailoverUrl := ['b']
  useTls := false
  nodeId := 1
  seqNo := 1
  session := zeroSession
  onFailover := false
  conn := false
  ackConn := false
  spool := false

/-- The first server repeats the session in its ACK, the second leaves it out. -/
def leakTrace : RepTrace :=
  [⟨.dialAck ['a'], .ok⟩, ⟨.sendAck plainReport, .ok⟩, ⟨.recvAck, .ok ⟨doubleAck, .error .errTls⟩⟩,
   ⟨.dialAck ['b'], .ok⟩, ⟨.sendAck plainReport, .ok⟩,
   ⟨.recvAck, .ok ⟨bareAck, .error .errTls⟩⟩]

theorem parse_plainReport : ∃ f, solariFrameParse plainReport = .ok f ∧
    isDurableReport f.hdr.msgType = true ∧ f.hdr.seqNo = 1 ∧
    sessionValues f.tlvs = [zeroSession.val] := by
  have hok : Framed plainHeader (encodeTlvs [sessionTlv zeroSession]) :=
    ⟨by decide, by decide, frameValidatePayload_encodeTlvs rfl⟩
  have hf := solariFrameParse_of_framed hok
  exact ⟨_, hf, by decide, rfl, by simp only [Frame.tlvs]; rfl⟩

set_option maxRecDepth 20000 in
theorem leakTrace_runs : ∃ r',
    Runs (reporterSendConfirmed plainReporter plainReport) leakTrace (.ok, r') :=
  ⟨_, .call (.call (.call (.call (.call (.call (.ret _))))))⟩

/-- **Soundness of the confirmed send.** A success rests on the reply it is returned on exactly when
no evidence has leaked from an earlier reply. -/
theorem reporterSendConfirmed_sound_iff {r r' : Reporter} {frame : Bytes} {t : RepTrace}
    {rc : Status} (h : Runs (reporterSendConfirmed r frame) t (rc, r')) :
    (rc = .ok → AckSound frame t) ↔ ¬ LeaksEvidence r.useTls frame t := by
  unfold reporterSendConfirmed at h
  cases hp : solariFrameParse frame with
  | error st =>
    simp only [hp, Runs.ret_iff, Prod.mk.injEq] at h
    refine ⟨fun _ hleak => ?_, fun _ hok => ?_⟩
    · obtain ⟨_, _, _, _, _, _, _, _, hp', -⟩ := hleak
      rw [hp] at hp'
      cases hp'
    · rw [h.2.1] at hok
      cases hok
  | ok sent =>
    simp only [hp] at h
    cases hs : sentSession sent with
    | none =>
      simp only [hs, Runs.ret_iff, Prod.mk.injEq] at h
      refine ⟨fun _ hleak => ?_, fun _ hok => ?_⟩
      · obtain ⟨sent', session, _, _, _, _, _, _, hp', hd, hv, -⟩ := hleak
        have hsent := Except.ok.inj (hp.symm.trans hp')
        subst hsent
        rw [(sentSession_eq_some hp).2 ⟨hd, hv⟩] at hs
        cases hs
      · rw [h.2.1] at hok
        cases hok
    | some session =>
      simp only [hs] at h
      obtain ⟨hd, hv⟩ := (sentSession_eq_some hp).1 hs
      exact reporterConfirm_sound_iff hp hv hd h

theorem leakTrace_sound_iff : ∃ r',
    Runs (reporterSendConfirmed plainReporter plainReport) leakTrace (.ok, r') ∧
      ((Status.ok = .ok → AckSound plainReport leakTrace) ↔
        ¬ LeaksEvidence plainReporter.useTls plainReport leakTrace) := by
  obtain ⟨r', hrun⟩ := leakTrace_runs
  exact ⟨r', hrun, reporterSendConfirmed_sound_iff hrun⟩

/-- **A success on no evidence.**  The run returns `SOLARI_OK` on an ACK that carries no
session at all. -/
theorem confirmed_send_without_session : ∃ r',
    Runs (reporterSendConfirmed plainReporter plainReport) leakTrace (.ok, r') ∧
      ¬ AckSound plainReport leakTrace := by
  obtain ⟨r', hrun⟩ := leakTrace_runs
  refine ⟨r', hrun, ?_⟩
  obtain ⟨sent, hp, hd, hseq, hs⟩ := parse_plainReport
  obtain ⟨got₂, hg₂, hw₂⟩ := isAck_frameBytes (h := plainAckHeader 0) (t := [])
    (by decide) (by decide) rfl rfl
  have hl : (replies leakTrace).getLast? = some ⟨bareAck, .error .errTls⟩ := rfl
  intro h
  obtain ⟨got, hgot, hval⟩ := (ackSound_iff hp hs hl).1 h
  rw [hseq] at hgot
  rw [hg₂.unique hgot, hw₂] at hval
  cases hval

end SolariNet
