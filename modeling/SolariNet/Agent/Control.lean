/-
# Directives at the node

`clientControl.c` and `monitorControl.c`: a node takes a directive off the broadcast channel,
applies it and answers with a CONTROL_RESULT that carries the verb, the outcome and the epoch it has
applied now.  The answer is correlated by the sequence number of the directive's frame.

    controlHandle           parse, check the addressee, apply, build the answer
    controlHandleDurable    the same on a copy, which becomes current only once it is saved

The two programs differ in their configuration and in one verb of the monitor; how a configuration
is applied and saved is a parameter here.
-/
import SolariNet.Monitor.Ownership
import SolariNet.Reporter.Framing
import SolariNet.Server.Control

namespace SolariNet

open Lib Lib.Prog

def Status.magnitude (st : Status) : UInt16 := UInt16.ofNat st.code

def answerTlvs (verb : UInt8) (outcome : Status) (appliedEpoch : UInt64) : List Tlv :=
  [Tlv.u8 TlvType.ctrlVerb verb, Tlv.u16 TlvType.errorCode outcome.magnitude,
    Tlv.u64 TlvType.ctrlTargetEpoch appliedEpoch]

def buildResult (verb : UInt8) (outcome : Status) (appliedEpoch : UInt64) (cap : Nat) :
    Except Status (Bytes × UInt16) :=
  match solariTlvAppendAll (solariTlvWriterInit cap) (answerTlvs verb outcome appliedEpoch) with
  | .error st => .error st
  | .ok w => .ok (w.buf, w.count)

/-- What the handling of a directive leaves: its status, the state and the configuration, and the
answer if one is wanted. -/
structure ControlOutcome (κ : Type) where
  rc : Status
  appliedEpoch : UInt64
  cfg : κ
  verb : UInt8 := 0
  applied : Bool := false
  blob : Bytes := []
  result : Option (Bytes × UInt16) := none

section
variable {κ : Type}

/-- The `switch` on the verb, for a node at epoch `epoch`.  `other` gives the verbs that only one
kind of node knows. -/
def controlApply (applyBlob : κ → Bytes → Status × κ)
    (other : UInt8 → Option (κ → Bytes → Status × κ)) (epoch : UInt64) (cfg : κ) (c : Control) :
    ControlOutcome κ :=
  if convergent c.verb then
    if c.targetEpoch ≤ epoch then { rc := .ok, appliedEpoch := epoch, cfg := cfg }
    else
      match applyBlob cfg c.payload with
      | (.ok, cfg) =>
        { rc := .ok, appliedEpoch := c.targetEpoch, cfg := cfg, applied := true,
          blob := c.payload }
      | (st, cfg) => { rc := st, appliedEpoch := epoch, cfg := cfg }
  else
    match other c.verb with
    | some f => { rc := (f cfg c.payload).1, appliedEpoch := epoch, cfg := (f cfg c.payload).2 }
    | none => { rc := .errUnknownMsg, appliedEpoch := epoch, cfg := cfg }

def controlHandle (applyBlob : κ → Bytes → Status × κ)
    (other : UInt8 → Option (κ → Bytes → Status × κ)) (epoch : UInt64) (cfg : κ) (self : UInt64)
    (payload : Bytes) (cap : Nat) : ControlOutcome κ :=
  match solariMsgParseControl payload with
  | .error st => { rc := st, appliedEpoch := epoch, cfg := cfg }
  | .ok c =>
    if c.targetNode ≠ 0 ∧ c.targetNode ≠ self then { rc := .ok, appliedEpoch := epoch, cfg := cfg }
    else
      let o := controlApply applyBlob other epoch cfg c
      match buildResult c.verb o.rc o.appliedEpoch cap with
      | .error st => { o with rc := st, verb := c.verb }
      | .ok r => { o with verb := c.verb, result := some r }

/-- Handle a directive on a copy; it becomes current when it is saved, and an answer that promised
more is replaced. -/
def controlHandleDurable (handle : ControlOutcome κ) (save : κ → UInt64 → Bytes → Status)
    (setEpoch : κ → UInt64 → κ) (epoch : UInt64) (cfg : κ) (cap : Nat) : ControlOutcome κ :=
  if handle.rc ≠ .ok ∨ handle.applied = false then
    { handle with appliedEpoch := epoch, cfg := cfg }
  else
    let rc := save handle.cfg handle.appliedEpoch handle.blob
    if rc ≠ .ok then
      { handle with
        rc := rc, appliedEpoch := epoch, cfg := cfg, applied := false
        result := (buildResult handle.verb rc epoch cap).toOption }
    else { handle with cfg := setEpoch handle.cfg handle.appliedEpoch }

def Verb.adoptTarget : UInt8 := 9

def monitorHandleControl (applyBlob : κ → Bytes → Status × κ) (addTarget : κ → CStr → Status × κ) :
    UInt64 → κ → UInt64 → Bytes → Nat → ControlOutcome κ :=
  controlHandle applyBlob fun verb =>
    if verb = Verb.adoptTarget then
      some fun cfg payload =>
        if payload = [] then (.errInvalidArg, cfg)
        else addTarget cfg (copyBounded monitorTargetIdMax payload)
    else none

def monitorHandleControlDurable (applyBlob : κ → Bytes → Status × κ)
    (addTarget : κ → CStr → Status × κ) (save : κ → UInt64 → Bytes → Status)
    (setEpoch : κ → UInt64 → κ) (epoch : UInt64) (cfg : κ) (self : UInt64) (payload : Bytes)
    (cap : Nat) : ControlOutcome κ :=
  controlHandleDurable (monitorHandleControl applyBlob addTarget epoch cfg self payload cap) save
    setEpoch epoch cfg cap

def ctrlResultFrame (r : Reporter) (correlationId : UInt32) (result : Bytes × UInt16) (cap : Nat) :
    RepM (Except Status Bytes × Reporter) :=
  solariReporterFrameCorr r Msg.controlResult Flag.none correlationId result.1 result.2 cap

end

/-! ## What is answered -/

theorem serverControlParseResult_build {verb : UInt8} {epoch : UInt64} {cap : Nat}
    {r : Bytes × UInt16} (h : buildResult verb outcome epoch cap = .ok r) :
    serverControlParseResult r.1 = .ok
      { verb := verb, errCode := outcome.magnitude, appliedEpoch := epoch, haveVerb := true,
        haveErr := true, haveEpoch := true } := by
  unfold buildResult at h
  split at h
  · cases h
  next w hw =>
  cases h
  have hread : readTlvs w.buf = (answerTlvs verb outcome epoch, .errTlvEnd) := by
    rw [solariTlvAppendAll_ok hw, solariTlvWriterInit, List.nil_append, readTlvs_encodeTlvs]
  refine parseTlvs_ok.2 ⟨by rw [hread], ?_⟩
  rw [hread]
  simp [answerTlvs, controlResultTlv, Tlv.u8, Tlv.u16, Tlv.u64, TlvType.ctrlVerb,
    TlvType.errorCode, TlvType.ctrlTargetEpoch]

section
variable {κ : Type} {applyBlob : κ → Bytes → Status × κ}
  {other : UInt8 → Option (κ → Bytes → Status × κ)} {epoch self : UInt64} {cfg : κ}
  {payload : Bytes}
  {cap : Nat}

variable (applyBlob other epoch cfg) in
theorem controlApply_cases (c : Control) : (∃ st cfg', controlApply applyBlob other epoch cfg c =
        { rc := st, appliedEpoch := epoch, cfg := cfg' } ∧
      (st = .ok → ¬ (convergent c.verb ∧ epoch < c.targetEpoch))) ∨
    convergent c.verb ∧ epoch < c.targetEpoch ∧ (applyBlob cfg c.payload).1 = .ok ∧
      controlApply applyBlob other epoch cfg c =
        { rc := .ok, appliedEpoch := c.targetEpoch, applied := true, blob := c.payload
          cfg := (applyBlob cfg c.payload).2 } := by
  unfold controlApply
  split
  · next hv =>
    split
    · next hle => exact .inl ⟨_, _, rfl, fun _ h => absurd hle (UInt64.not_le.2 h.2)⟩
    next hlt =>
    split
    · next hb => exact .inr ⟨hv, UInt64.not_le.1 hlt, by rw [hb], by rw [hb]⟩
    · next hne _ => exact .inl ⟨_, _, rfl, fun hok => (hne hok).elim⟩
  · next hv => split <;> exact .inl ⟨_, _, rfl, fun _ h => hv h.1⟩

theorem controlHandle_applied
    (h : (controlHandle applyBlob other epoch cfg self payload cap).applied = true) :
    ∃ c, solariMsgParseControl payload = .ok c ∧ epoch < c.targetEpoch ∧
      ∀ r, (controlHandle applyBlob other epoch cfg self payload cap).result = some r →
        buildResult c.verb .ok c.targetEpoch cap = .ok r := by
  unfold controlHandle at h ⊢
  split at h
  · cases h
  next c hc =>
  refine ⟨c, hc, ?_⟩
  split at h
  · cases h
  next hself =>
  simp only [if_neg hself]
  have happ : (controlApply applyBlob other epoch cfg c).applied = true := by
    dsimp only at h
    split at h
    · exact h
    · exact h
  rcases controlApply_cases applyBlob other epoch cfg c with
    ⟨_, _, heq, -⟩ | ⟨-, hlt, -, heq⟩
  · rw [heq] at happ
    cases happ
  refine ⟨hlt, fun r hr => ?_⟩
  rw [heq] at hr
  split at hr
  · cases hr
  next r' hb =>
  cases hr
  exact hb

variable {save : κ → UInt64 → Bytes → Status} {setEpoch : κ → UInt64 → κ}

theorem controlHandleDurable_kept
    (h : (controlHandleDurable handle save setEpoch epoch cfg cap).applied = true) :
    handle.applied = true ∧
      (controlHandleDurable handle save setEpoch epoch cfg cap).result = handle.result := by
  unfold controlHandleDurable at h ⊢
  split at h
  · next hno =>
    rw [if_pos hno]
    exact ⟨h, rfl⟩
  next hno =>
  rw [if_neg hno]
  dsimp only at h ⊢
  split at h
  · cases h
  next hrc =>
  rw [if_neg hrc]
  exact ⟨h, rfl⟩

/-- **A node answers for what it applied.**  The directive was new to it, and the answer carries its
verb and epoch and no error. -/
theorem controlHandleDurable_applied {r : Bytes × UInt16}
    (h : (controlHandleDurable (controlHandle applyBlob other epoch cfg self payload cap) save
      setEpoch epoch cfg cap).applied = true)
    (hr : (controlHandleDurable (controlHandle applyBlob other epoch cfg self payload cap) save
      setEpoch epoch cfg cap).result = some r) :
    ∃ c, solariMsgParseControl payload = .ok c ∧ epoch < c.targetEpoch ∧
      serverControlParseResult r.1 = .ok
        { verb := c.verb, errCode := 0, appliedEpoch := c.targetEpoch, haveVerb := true,
          haveErr := true, haveEpoch := true } := by
  obtain ⟨happ, hres⟩ := controlHandleDurable_kept h
  obtain ⟨c, hc, hlt, hb⟩ := controlHandle_applied happ
  exact ⟨c, hc, hlt, serverControlParseResult_build (hb r (hres ▸ hr))⟩

end

theorem ctrlResultFrame_returns (r : Reporter) (correlationId : UInt32) (result : Bytes × UInt16)
    (cap : Nat) : (ctrlResultFrame r correlationId result cap).Returns fun out =>
      ∀ frame, out.1 = .ok frame → ∃ f, solariFrameParse frame = .ok f ∧
        f.hdr.sourceNodeId = r.nodeId ∧ f.hdr.correlationId = correlationId ∧
        f.payload = result.1 := by
  refine Returns.bind (nextSeq_returns r) fun x hx => ?_
  cases x with
  | error st =>
    intro frame h
    cases h
  | ok r' =>
    obtain ⟨hnode, -⟩ := hx r' rfl
    -- an answer is no report, so it is framed as it is
    intro time frame h
    obtain ⟨hf, rfl⟩ := solariFrameBuild_ok h
    exact ⟨_, solariFrameParse_of_framed hf, hnode, rfl, rfl⟩

end SolariNet
