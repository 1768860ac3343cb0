/-
# A provisioned node in the books of the server

`serverProvisionNode` writes the target epoch and publishes a directive, the node applies it and
answers, and `serverControlOnResult` handles the answer.  An answer is recorded only if a pending
row has its correlation id, its verb and its epoch; `serverProvisionNode` writes no such row.
-/
import SolariNet.Agent.Control
import SolariNet.Server.Provision

namespace SolariNet

open Lib Lib.Prog

/-! ## The run -/

def serverDbSetNodeTargetEpoch (db : Db) (nodeId targetEpoch : UInt64) : Db :=
  { db with
    nodeConfig := db.nodeConfig.upsert ⟨nodeId, targetEpoch, none, []⟩
      (fun r => { r with targetEpoch := targetEpoch }) fun _ => rfl }

structure ProvWorld where
  db : Db
  published : List Bytes

def provSem : Sem ProvOp ProvOp.Res ProvWorld
  | .srv (.publishControl frame), w, rc, w' =>
    rc ≠ .ok ∧ w' = w ∨ rc = .ok ∧ w' = { w with published := frame :: w.published }
  | .srv o, w, r, w' => ∃ db, dbSem o w.db r db ∧ w' = { w with db := db }
  | .setNodeTargetEpoch n epoch _, w, rc, w' =>
    ∃ db, Txn w.db (.ok (serverDbSetNodeTargetEpoch w.db n epoch)) rc db ∧ w' = { w with db := db }
  | _, w, _, w' => w' = w

def recordedEpoch (db : Db) (nodeId : UInt64) : Option UInt64 :=
  (db.nodeConfig.find? nodeId).bind NodeConfigRow.appliedEpoch

/-- Between the publication and the answer nobody issues or settles a directive under the number of
the frame, and the node keeps its row. -/
structure Undisturbed (nodeId : UInt64) (seqNo : UInt32) (db db' : Db) : Prop where
  pending : ∀ r : DirectiveRow, r.key = (nodeId, seqNo) →
    (r ∈ db'.pendingControlDirective.rows ↔ r ∈ db.pendingControlDirective.rows)
  config : (db'.nodeConfig.find? nodeId).isSome = true

structure Agent (κ : Type) where
  applyBlob : κ → Bytes → Status × κ
  other : UInt8 → Option (κ → Bytes → Status × κ)
  save : κ → UInt64 → Bytes → Status
  setEpoch : κ → UInt64 → κ

def Agent.handle {κ : Type} (a : Agent κ) (epoch : UInt64) (cfg : κ) (self : UInt64)
    (payload : Bytes) : ControlOutcome κ :=
  controlHandleDurable (controlHandle a.applyBlob a.other epoch cfg self payload 64) a.save
    a.setEpoch epoch cfg 64

/-- A directive is published for a node, the node applies it, and its answer is delivered. -/
structure ProvisionRun {κ : Type} (a : Agent κ) (server nodeId targetEpoch : UInt64) (frame : Frame)
    (w₀ w₁ w₂ w₃ : ProvWorld) : Prop where
  publish : ∃ configJson bytes,
    Exec provSem (serverProvisionNode server true nodeId configJson targetEpoch) w₀ .ok w₁ ∧
      w₁.published = bytes :: w₀.published ∧ solariFrameParse bytes = .ok frame
  between : Undisturbed nodeId frame.hdr.seqNo w₁.db w₂.db
  answer : ∃ (epoch : UInt64) (cfg : κ) (result : Bytes × UInt16) (r r' : Reporter) (cap : Nat)
    (t : List (Event RepOp RepOp.Res)) (bytes : Bytes) (reply : Frame) (rc : Status),
      (a.handle epoch cfg nodeId frame.payload).applied = true ∧
      (a.handle epoch cfg nodeId frame.payload).result = some result ∧
      r.nodeId = nodeId ∧
      Runs (ctrlResultFrame r frame.hdr.seqNo result cap) t (.ok bytes, r') ∧
      solariFrameParse bytes = .ok reply ∧
      Exec provSem (onSrv (serverControlOnResult reply.hdr.sourceNodeId reply.hdr.correlationId
        reply.payload)) w₂ rc w₃ ∧
      -- the database answered
      rc ≠ .errDb

/-! ## What is published -/

section
variable {w w' : ProvWorld}

theorem provSem_srv {o : SrvOp} (ho : ∀ frame, o ≠ .publishControl frame) {r : o.Res} :
    provSem (.srv o) w r w' ↔ ∃ db, dbSem o w.db r db ∧ w' = { w with db := db } := by
  cases o with
  | publishControl frame => exact absurd rfl (ho frame)
  | _ => exact Iff.rfl

theorem provAssembleFrame_exec {self : UInt64} {msgType : UInt8} {count : UInt16}
    {cap : Nat}
    (h : Exec provSem (provAssembleFrame self msgType count payload cap) w r w') : w' = w := by
  obtain ⟨nowMs, w₁, hnow, h⟩ := Exec.perform_bind_iff.1 h
  cases h
  obtain ⟨db, rfl, rfl⟩ := (provSem_srv fun _ h => by cases h).1 hnow
  rfl

theorem serverDbSetNodeTargetEpoch_pending {nodeId epoch : UInt64}
    (h : Txn db (.ok (serverDbSetNodeTargetEpoch db nodeId epoch)) rc db') :
    db'.pendingControlDirective = db.pendingControlDirective := by
  cases h with
  | aborted => rfl
  | refused hb => cases hb
  | committed hb | unconfirmed hb =>
    cases hb
    rfl

theorem serverProvisionNode_publishes {self nodeId targetEpoch : UInt64}
   
    (h : Exec provSem (serverProvisionNode self true nodeId configJson targetEpoch) w rc w')
    (hp : w'.published = bytes :: w.published) :
    nodeId ≠ 0 ∧ w'.db.pendingControlDirective = w.db.pendingControlDirective ∧
      ∃ f c, solariFrameParse bytes = .ok f ∧ solariMsgParseControl f.payload = .ok c ∧
        c.verb = Verb.provision ∧ c.targetEpoch = targetEpoch := by
  have hself (l : List Bytes) : l ≠ bytes :: l := fun h => by
    simpa using congrArg List.length h
  unfold serverProvisionNode at h
  split at h
  · cases h
    exact absurd hp (hself _)
  next hn =>
  split at h
  · obtain ⟨rc₁, w₁, ⟨db, ht, rfl⟩, h⟩ := Exec.perform_bind_iff.1 h
    split at h
    · cases h
      exact absurd hp (hself _)
    split at h
    · cases h
      exact absurd hp (hself _)
    next payload count hb =>
    obtain ⟨x, w₂, hx, h⟩ := Exec.bind_iff.1 h
    have hframe := (provAssembleFrame_returns _ _ _ _ _).exec hx
    obtain rfl := provAssembleFrame_exec hx
    cases x with
    | error st =>
      cases h
      exact absurd hp (hself _)
    | ok frame =>
      obtain ⟨f, nowMs, hf, -, hpay⟩ := hframe frame rfl
      obtain ⟨st, w₃, hsend, h⟩ := Exec.perform_bind_iff.1 h
      cases h
      rcases hsend with ⟨-, rfl⟩ | ⟨-, rfl⟩
      · exact absurd hp (hself _)
      cases hp
      have hc := solariMsgParseControl_build hb
      rw [← hpay] at hc
      exact ⟨hn, serverDbSetNodeTargetEpoch_pending ht, f, _, hf, hc, rfl, rfl⟩
  · cases h
    exact absurd hp (hself _)

end

/-! ## What is recorded -/

section
variable {db db' : Db} {nodeId epoch : UInt64} {seqNo : UInt32}

def provisionOutcome (nodeId epoch : UInt64) (seqNo : UInt32) : DirectiveOutcome :=
  ControlResult.outcome
    { verb := Verb.provision, errCode := 0, appliedEpoch := epoch, haveVerb := true,
      haveErr := true, haveEpoch := true } nodeId seqNo

theorem provisionOutcome_matches :
    (provisionOutcome nodeId epoch seqNo).matches r = true ↔
      r = ⟨nodeId, seqNo, Verb.provision, epoch⟩ := by
  obtain ⟨n, c, v, e⟩ := r
  simp [DirectiveOutcome.matches, provisionOutcome, ControlResult.outcome, DirectiveRow.key,
    convergent, and_assoc]

theorem controlResultTxn_provision (epoch : UInt64) (hn : nodeId ≠ 0) (hs : seqNo ≠ 0)
    (hrow : (db.nodeConfig.find? nodeId).isSome = true) :
    (⟨nodeId, seqNo, Verb.provision, epoch⟩ : DirectiveRow) ∈ db.pendingControlDirective.rows ∧
      (∃ db', controlResultTxn db (provisionOutcome nodeId epoch seqNo) = .ok db' ∧
        recordedEpoch db' nodeId = some epoch) ∨
    (⟨nodeId, seqNo, Verb.provision, epoch⟩ : DirectiveRow) ∉ db.pendingControlDirective.rows ∧
      controlResultTxn db (provisionOutcome nodeId epoch seqNo) = .error .errAuthRole := by
  have hargs : ¬ ((provisionOutcome nodeId epoch seqNo).nodeId = 0 ∨
      (provisionOutcome nodeId epoch seqNo).correlationId = 0 ∨
      (provisionOutcome nodeId epoch seqNo).verb = 0) := by
    rintro (h | h | h)
    · exact hn h
    · exact hs h
    · exact absurd h (show Verb.provision ≠ 0 by decide)
  unfold controlResultTxn
  rw [if_neg hargs]
  by_cases hm : (⟨nodeId, seqNo, Verb.provision, epoch⟩ : DirectiveRow) ∈
      db.pendingControlDirective.rows
  · have hany : db.pendingControlDirective.rows.any
        (provisionOutcome nodeId epoch seqNo).matches = true :=
      List.any_eq_true.2 ⟨_, hm, provisionOutcome_matches.2 rfl⟩
    rw [if_pos hany]
    refine .inl ⟨hm, _, rfl, ?_⟩
    obtain ⟨r, hr⟩ := Option.isSome_iff_exists.1 hrow
    have hid : r.nodeId = nodeId := (Table.find?_eq_some.1 hr).2
    unfold recordedEpoch
    rw [Table.find?_update, hr]
    simp [hid, DirectiveOutcome.apply, provisionOutcome, ControlResult.outcome, convergent]
  · have hany : ¬ db.pendingControlDirective.rows.any
        (provisionOutcome nodeId epoch seqNo).matches = true := by
      intro h
      obtain ⟨r, hr, hmatch⟩ := List.any_eq_true.1 h
      rw [provisionOutcome_matches.1 hmatch] at hr
      exact hm hr
    rw [if_neg hany]
    exact .inr ⟨hm, rfl⟩

theorem serverControlOnResult_provision
    (hp : serverControlParseResult payload = .ok
      { verb := Verb.provision, errCode := 0, appliedEpoch := epoch, haveVerb := true,
        haveErr := true, haveEpoch := true })
    (h : Exec provSem (onSrv (serverControlOnResult nodeId seqNo payload)) w rc w') :
    seqNo = 0 ∧ w' = w ∨ seqNo ≠ 0 ∧ ∃ db,
      Txn w.db (controlResultTxn w.db (provisionOutcome nodeId epoch seqNo)) rc db ∧
        w' = { w with db := db } := by
  unfold serverControlOnResult at h
  rw [hp] at h
  by_cases hs : seqNo = 0
  · simp only [hs] at h
    cases h
    exact .inl ⟨hs, rfl⟩
  have hno : ¬ (seqNo = 0 ∨ (!true) = true ∨ (!true) = true ∨ Verb.provision = 0) := by
    simp [hs, Verb.provision]
  dsimp only at h
  rw [if_neg hno] at h
  obtain ⟨whenMs, w₁, hnow, h⟩ := Exec.call_iff.1 h
  obtain ⟨db, rfl, rfl⟩ := (provSem_srv fun _ h => by cases h).1 hnow
  obtain ⟨rc', w₂, hsem, h⟩ := Exec.call_iff.1 h
  cases h
  obtain ⟨db', ht, rfl⟩ := (provSem_srv fun _ h => by cases h).1 hsem
  exact .inr ⟨hs, db', ht, rfl⟩

end

/-- **What is recorded of a provisioned node.** The books say that it applied the directive exactly
if they said so before, or a pending PROVISION directive of that epoch for the node had the number
of the frame before `serverProvisionNode` began. -/
theorem provisioning_recorded {κ : Type} {a : Agent κ} {self nodeId targetEpoch : UInt64}
    {frame : Frame} {w₀ w₁ w₂ w₃ : ProvWorld}
    (h : ProvisionRun a self nodeId targetEpoch frame w₀ w₁ w₂ w₃) :
    recordedEpoch w₃.db nodeId = some targetEpoch ↔
      recordedEpoch w₂.db nodeId = some targetEpoch ∨ frame.hdr.seqNo ≠ 0 ∧
        (⟨nodeId, frame.hdr.seqNo, Verb.provision, targetEpoch⟩ : DirectiveRow) ∈
          w₀.db.pendingControlDirective.rows := by
  obtain ⟨configJson, bytes, hexec, hpub, hparse⟩ := h.publish
  obtain ⟨hn, hpend, f, c, hf, hc, hverb, hepoch⟩ := serverProvisionNode_publishes hexec hpub
  obtain rfl : frame = f := Except.ok.inj (hparse.symm.trans hf)
  obtain ⟨epoch, cfg, result, r, r', cap, t, reply, g, rc, happ, hres, hr, hruns, hg, hrec, hrc⟩ :=
    h.answer
  obtain ⟨c', hc', -, hresult⟩ := controlHandleDurable_applied happ hres
  obtain rfl : c = c' := Except.ok.inj (hc.symm.trans hc')
  obtain ⟨g', hg', hsrc, hcorr, hpay⟩ := (ctrlResultFrame_returns _ _ _ _).runs hruns reply rfl
  obtain rfl : g = g' := Except.ok.inj (hg.symm.trans hg')
  rw [hsrc, hr, hcorr, hpay] at hrec
  rw [hverb, hepoch] at hresult
  have hkey : (⟨nodeId, frame.hdr.seqNo, Verb.provision, targetEpoch⟩ : DirectiveRow) ∈
        w₂.db.pendingControlDirective.rows ↔
      (⟨nodeId, frame.hdr.seqNo, Verb.provision, targetEpoch⟩ : DirectiveRow) ∈
        w₀.db.pendingControlDirective.rows := by
    rw [h.between.pending _ rfl, hpend]
  rw [← hkey]
  rcases serverControlOnResult_provision hresult hrec with ⟨hs, rfl⟩ | ⟨hs, db, ht, rfl⟩
  · simp [hs]
  rcases controlResultTxn_provision targetEpoch hn hs h.between.config with
    ⟨hmem, db', htxn, hdone⟩ | ⟨hmem, htxn⟩
  · rw [htxn] at ht
    have hdb : db = db' := by
      cases ht with
      | aborted => exact absurd rfl hrc
      | refused hb => cases hb
      | committed hb => exact (Except.ok.inj hb).symm
      | unconfirmed hb => exact absurd rfl hrc
    simp [hdb, hdone, hs, hmem]
  · rw [htxn] at ht
    have hdb : db = w₂.db := by
      cases ht with
      | aborted | refused hb => rfl
      | committed hb | unconfirmed hb => cases hb
    simp [hdb, hmem]

/-! ### A run in which everything works -/

def provAnswers : (o : ProvOp) → ProvWorld → o.Res × ProvWorld
  | .srv (.publishControl frame), w => (Status.ok, { w with published := frame :: w.published })
  | .srv .now, w => ((5 : UInt64), w)
  | .srv o, w => ((dbAnswers o w.db).1, { w with db := (dbAnswers o w.db).2 })
  | .setNodeTargetEpoch n epoch _, w =>
    (Status.ok, { w with db := serverDbSetNodeTargetEpoch w.db n epoch })
  | .randomToken, w => (.error .errPlatform, w)
  | .audit _ _ _, w => (Status.ok, w)
  | .decommissionIssue _, w => (Status.ok, w)
  | .decommissionConfirm _, w => (.error .errAuthRole, w)
  | .decommissionListDue _ _, w => (.ok [], w)
  | .decommissionNoteAttempt _ _ _ _, w => (Status.errAuthRole, w)
  | .retireNode _, w => (Status.ok, w)

theorem provAnswers_sem (o : ProvOp) (w : ProvWorld) :
    provSem o w (provAnswers o w).1 (provAnswers o w).2 := by
  cases o with
  | srv o =>
    cases o with
    | publishControl frame => exact .inr ⟨rfl, rfl⟩
    | now => exact ⟨w.db, rfl, rfl⟩
    | _ => exact ⟨_, dbAnswers_sem _ _, rfl⟩
  | setNodeTargetEpoch n epoch json => exact ⟨_, .committed rfl, rfl⟩
  | _ => rfl

/-- Nothing is pending; or a directive for node 7 under number 5, with epoch 3. -/
def books (other : Bool) : ProvWorld where
  db := { Db.empty with
    pendingControlDirective := if other then ⟨[⟨7, 5, Verb.provision, 3⟩], by decide⟩ else .empty }
  published := []

def provisioned (other : Bool) : Status × ProvWorld :=
  (serverProvisionNode 1 true 7 [] 3).run provAnswers (books other)

def readyAgent : Agent Unit := ⟨fun c _ => (.ok, c), fun _ => none, fun _ _ _ => .ok, fun c _ => c⟩

def node7 : Reporter := ⟨[], [], [], [], false, 7, 0, zeroSession, false, false, false, false⟩

def directive7 : Frame := ⟨provHeader 1 Msg.control 3 5, encodeTlvs (Control.tlvs
    { verb := Verb.provision, targetEpoch := 3, targetNode := 7, payload_lt := noPayload_lt }), 69⟩

def answer7 : Bytes × UInt16 := (encodeTlvs (answerTlvs Verb.provision .ok 3), 3)

def answerHeader7 : FrameHeader where
  msgType := Msg.controlResult
  tlvCount := 3
  sourceNodeId := 7
  sendTimeUnixMs := 0
  seqNo := 1
  correlationId := 5

def answered (other : Bool) : Status × ProvWorld :=
  (onSrv (serverControlOnResult 7 5 answer7.1)).run provAnswers (provisioned other).2

theorem answer7_runs : Runs (ctrlResultFrame node7 5 answer7 192) [⟨RepOp.now, (0 : UInt64)⟩]
    (.ok (frameBytes answerHeader7 answer7.1), { node7 with seqNo := 1 }) := by
  exact .call (.ret _)

theorem provisioned_facts : ∀ other, (provisioned other).1 = .ok ∧
    (provisioned other).2.published.length = 1 ∧
    solariFrameParse ((provisioned other).2.published.headD []) = .ok directive7 ∧
    ((provisioned other).2.db.nodeConfig.find? 7).isSome = true ∧ (answered other).1 ≠ .errDb := by
  decide +kernel

theorem answered_run (other : Bool) : ProvisionRun readyAgent 1 7 3 directive7 (books other)
    (provisioned other).2 (provisioned other).2 (answered other).2 := by
  obtain ⟨hok, hlen, hparse, hconfig, hrc⟩ := provisioned_facts other
  obtain ⟨bytes, hpub⟩ := List.length_eq_one_iff.1 hlen
  rw [hpub] at hparse
  refine ⟨⟨[], bytes, ?_, hpub, hparse⟩, ⟨fun _ _ => Iff.rfl, hconfig⟩, ?_⟩
  · rw [← hok]
    exact Exec.of_run provAnswers_sem _ _
  have hreply : solariFrameParse (frameBytes answerHeader7 answer7.1) =
      .ok ⟨answerHeader7, answer7.1, 63⟩ := by decide +kernel
  exact ⟨0, (), answer7, node7, _, 192, _, _, _, _, by decide +kernel, by decide +kernel, rfl,
    answer7_runs, hreply, Exec.of_run provAnswers_sem _ _, hrc⟩

/-- With a directive of somebody else under the number of the frame, the epoch is recorded. -/
theorem provisioning_recorded_by_chance :
    ProvisionRun readyAgent 1 7 3 directive7 (books true) (provisioned true).2
      (provisioned true).2 (answered true).2 ∧ recordedEpoch (answered true).2.db 7 = some 3 :=
  ⟨answered_run true, (provisioning_recorded (answered_run true)).2 (by decide +kernel)⟩

/-- Server 1 provisions node 7 with epoch 3, the node applies it and its answer arrives: the books
do not say that it did. -/
theorem provisioning_unrecorded :
    ProvisionRun readyAgent 1 7 3 directive7 (books false) (provisioned false).2
      (provisioned false).2 (answered false).2 ∧
      (answered false).1 = .errAuthRole ∧ recordedEpoch (answered false).2.db 7 = none :=
  ⟨answered_run false, by decide +kernel, by decide +kernel⟩

end SolariNet
