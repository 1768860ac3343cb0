/-
# A result and the directive it answers

Any number of server processes issue directives, nodes execute the published frames and
answer, and the answers come back late, more than once, or not at all.  A process may be
restarted at any point; its sequence counter then starts again.

The shared state keeps, next to the tables, who is who: the directives in the order of their
pending rows, which of them each published frame is about, which frame each answer was made
for, and which of them is handled by each process (`CtlWorld`).
-/
import SolariNet.Lib.System
import SolariNet.Server.Footprint

namespace SolariNet

open Function List Lib Lib.Prog

/-! ## The system -/

/-- The tables and the history.  A directive is named by its place in `issued`. -/
structure CtlWorld (ι : Type) where
  db : Db
  /-- the directives that were given a pending row -/
  issued : List DirectiveRow
  /-- the directive of the pending row under a key -/
  owner : UInt64 × UInt32 → Nat
  /-- the directive each process issued last -/
  current : ι → Nat
  /-- the published frames and their directives -/
  published : List (Nat × Bytes)
  /-- the answers of the nodes, with the directive that was executed -/
  results : List (Nat × Bytes)
  /-- what the answer each process handles was made for -/
  handling : ι → Nat
  /-- a pending row deleted by a result: its directive, and the one that was executed -/
  consumed : List (Nat × Nat)

variable {ι : Type} [DecidableEq ι]

def CtlWorld.issue (w : CtlWorld ι) (i : ι) (row : DirectiveRow) (db : Db) : CtlWorld ι :=
  { w with
    db := db
    issued := w.issued ++ [row]
    owner := Function.update w.owner row.key w.issued.length
    current := Function.update w.current i w.issued.length }

def CtlWorld.consume (w : CtlWorld ι) (i : ι) (o : DirectiveOutcome) (db : Db) : CtlWorld ι :=
  { w with
    db := db
    consumed := w.consumed ++ [(w.owner (o.nodeId, o.correlationId), w.handling i)] }

def OtherFrame (bytes : Bytes) : Prop :=
  ∀ f, solariFrameParse bytes = .ok f → f.hdr.msgType ≠ Msg.controlResult

/-- The operations of process `i`; a directive is inserted only where `fresh` allows.  An
insertion or deletion may take effect although its status says otherwise. -/
def ctlSem (fresh : List DirectiveRow → DirectiveRow → Prop) (i : ι) :
    Sem SrvOp SrvOp.Res (CtlWorld ι)
  | .controlDirectiveAdd row, w, rc, w' =>
    rc ≠ .ok ∧ w' = w ∨ ∃ db, serverDbControlDirectiveAdd w.db row = .ok db ∧
      fresh w.issued row ∧ w' = w.issue i row db
  | .controlResultApply o, w, rc, w' =>
    rc ≠ .ok ∧ w' = w ∨ ∃ db, controlResultTxn w.db o = .ok db ∧ w' = w.consume i o db
  | .publishControl frame, w, rc, w' =>
    rc ≠ .ok ∧ w' = w ∨ w' = { w with published := w.published ++ [(w.current i, frame)] }
  | .recv _, w, r, w' =>
    (∃ st, r = .error st) ∧ w' = w ∨ (∃ rx, r = .ok rx ∧ OtherFrame rx.bytes) ∧ w' = w ∨
      ∃ id bytes cn, (id, bytes) ∈ w.results ∧ r = .ok ⟨bytes, cn⟩ ∧
        w' = { w with handling := Function.update w.handling i id }
  | o, w, r, w' => ∃ db, dbSem o w.db r db ∧ w' = { w with db := db }

/-- A node executes a frame that is addressed to it, or to all, and answers: whatever the
answer says, it carries the node's id and the sequence number of the frame. -/
def Answers (frame : Bytes) (reply : Bytes) : Prop :=
  ∃ f c g, solariFrameParse frame = .ok f ∧ f.hdr.msgType = Msg.control ∧
    solariMsgParseControl f.payload = .ok c ∧ solariFrameParse reply = .ok g ∧
    (c.targetNode = 0 ∨ c.targetNode = g.hdr.sourceNodeId) ∧ g.hdr.correlationId = f.hdr.seqNo

/-- A node answers, or other programs touch the tables without issuing a directive. -/
inductive CtlEnv : CtlWorld ι → CtlWorld ι → Prop where
  | answer {w : CtlWorld ι} {id : Nat} {frame reply : Bytes} (hp : (id, frame) ∈ w.published)
      (ha : Answers frame reply) : CtlEnv w { w with results := w.results ++ [(id, reply)] }
  | tables {w : CtlWorld ι} {db : Db}
      (h : ∀ r ∈ db.pendingControlDirective.rows, r ∈ w.db.pendingControlDirective.rows) :
      CtlEnv w { w with db := db }

structure CtlMem where
  seq : UInt32
  ingest : IngestState

/-- The programs of a process: a `CONTROL` or `SURVEY` request, or a round of the ingest. -/
inductive CtlStart (cfg : ServerCfg) (self : UInt64) (m : CtlMem) : SrvM CtlMem → Prop where
  | control (a : CtlControl) (pub : Bool) : CtlStart cfg self m
      (ctlControl self m.seq a pub >>= fun r => .ret { m with seq := r.2 })
  | survey (pub : Bool) : CtlStart cfg self m
      (ctlSurvey self m.seq pub >>= fun r => .ret { m with seq := r.2 })
  | drain (epoch : UInt64) : CtlStart cfg self m
      (serverDrainIngest cfg epoch m.ingest >>= fun t => .ret { m with ingest := t })

def ctlSystem (cfg : ServerCfg) (ids : ι → UInt64)
    (fresh : List DirectiveRow → DirectiveRow → Prop) :
    System ι SrvOp SrvOp.Res (CtlWorld ι) CtlMem where
  sem i := ctlSem fresh i
  start i m p := CtlStart cfg (ids i) m p
  env := CtlEnv
  boot _ m := m = ⟨0, IngestState.empty⟩

def CtlInitial (w : CtlWorld ι) : Prop :=
  w.db.pendingControlDirective.rows = [] ∧ w.issued = [] ∧ w.published = [] ∧ w.results = [] ∧
    w.consumed = []

def FreshKey (issued : List DirectiveRow) (row : DirectiveRow) : Prop :=
  ∀ q ∈ issued, q.key ≠ row.key

/-- Every result consumed the row of the directive it was made for. -/
def Correlated (w : CtlWorld ι) : Prop := ∀ p ∈ w.consumed, p.1 = p.2

/-! ## The invariant -/

def FrameOf (row : DirectiveRow) (frame : Bytes) : Prop :=
  ∀ f c, solariFrameParse frame = .ok f → solariMsgParseControl f.payload = .ok c →
    f.hdr.seqNo = row.correlationId ∧ c.targetNode = row.nodeId

def AnswerTo (row : DirectiveRow) (reply : Bytes) : Prop :=
  ∀ f, solariFrameParse reply = .ok f → row.key = (f.hdr.sourceNodeId, f.hdr.correlationId)

/-- A frame that no node executes as a directive. -/
def NoControl (frame : Bytes) : Prop :=
  ∀ f, solariFrameParse frame = .ok f → f.hdr.msgType ≠ Msg.control

structure CtlInv (w : CtlWorld ι) : Prop where
  owned : ∀ id row, w.issued[id]? = some row → w.owner row.key = id
  published : ∀ p ∈ w.published, NoControl p.2 ∨
    ∃ row, w.issued[p.1]? = some row ∧ row.nodeId ≠ 0 ∧ FrameOf row p.2
  answered : ∀ p ∈ w.results, ∃ row, w.issued[p.1]? = some row ∧ AnswerTo row p.2
  consumed : Correlated w

variable {row : DirectiveRow} {w w' : CtlWorld ι} {fresh : List DirectiveRow → DirectiveRow → Prop}

omit [DecidableEq ι] in
theorem FrameOf.answerTo (hf : FrameOf row frame) (hn : row.nodeId ≠ 0)
    (ha : Answers frame reply) : AnswerTo row reply := by
  obtain ⟨f, c, g, hparse, -, hc, hg, htarget, hcorr⟩ := ha
  obtain ⟨hseq, hnode⟩ := hf f c hparse hc
  intro g' hg'
  rw [hg] at hg'
  cases hg'
  rcases htarget with h0 | hself
  · exact absurd (hnode.symm.trans h0) hn
  · rw [DirectiveRow.key, ← hnode, hself, ← hseq, hcorr]

theorem getElem?_of_isPrefix {l l' : List DirectiveRow} (h : l <+: l') {id : Nat}
    (hr : l[id]? = some row) : l'[id]? = some row := by
  obtain ⟨t, rfl⟩ := h
  rw [List.getElem?_append_left (List.getElem?_eq_some_iff.1 hr).1]
  exact hr

theorem CtlInv.issue (h : CtlInv w) (hfresh : FreshKey w.issued row) (i : ι) (db : Db) :
    CtlInv (w.issue i row db) := by
  have hpre : w.issued <+: w.issued ++ [row] := prefix_append _ _
  refine ⟨fun id q hq => ?_, fun p hp => ?_, fun p hp => ?_, h.consumed⟩
  · by_cases hlt : id < w.issued.length
    · have hold : w.issued[id]? = some q := by
        rw [← hq]
        exact (List.getElem?_append_left hlt).symm
      have hne := hfresh q (List.mem_of_getElem? hold)
      exact (update_of_ne hne _ _).trans (h.owned id q hold)
    · rw [CtlWorld.issue, List.getElem?_append_right (Nat.le_of_not_lt hlt),
        List.getElem?_singleton, Option.ite_none_right_eq_some] at hq
      obtain ⟨hid, ⟨⟩⟩ := hq
      refine (update_self _ _ _).trans ?_
      omega
  · rcases h.published p hp with hc | ⟨q, hq, hn⟩
    · exact .inl hc
    · exact .inr ⟨q, getElem?_of_isPrefix hpre hq, hn⟩
  · obtain ⟨q, hq, ha⟩ := h.answered p hp
    exact ⟨q, getElem?_of_isPrefix hpre hq, ha⟩

section
omit [DecidableEq ι]

theorem CtlInv.publish (h : CtlInv w) {id : Nat}
    (hf : NoControl frame ∨ ∃ row, w.issued[id]? = some row ∧ row.nodeId ≠ 0 ∧ FrameOf row frame) :
    CtlInv { w with published := w.published ++ [(id, frame)] } := by
  refine ⟨h.owned, forall_mem_append.2 ⟨h.published, ?_⟩, h.answered, h.consumed⟩
  exact forall_mem_singleton.2 hf

theorem CtlInv.consume (h : CtlInv w) {i : ι}
    (hrow : w.issued[w.handling i]? = some row) (hkey : row.key = (o.nodeId, o.correlationId))
    (db : Db) : CtlInv (w.consume i o db) := by
  refine ⟨h.owned, h.published, h.answered, forall_mem_append.2 ⟨h.consumed, ?_⟩⟩
  rw [forall_mem_singleton, ← hkey]
  exact h.owned _ row hrow

theorem CtlInv.env (h : CtlInv w) (he : CtlEnv w w') : CtlInv w' := by
  cases he with
  | @answer id frame reply hp ha =>
    refine ⟨h.owned, h.published, forall_mem_append.2 ⟨h.answered, ?_⟩, h.consumed⟩
    rw [forall_mem_singleton]
    rcases h.published _ hp with hc | ⟨row, hrow, hn, hf⟩
    · obtain ⟨f, -, -, hparse, hctl, -⟩ := ha
      exact absurd hctl (hc f hparse)
    · exact ⟨row, hrow, hf.answerTo hn ha⟩
  | tables _ => exact { h with }

end

/-! ## Operations -/

def SrvOp.aboutDirectives : SrvOp → Bool
  | .controlDirectiveAdd _ | .controlResultApply _ | .publishControl _ | .recv _ => true
  | _ => false

theorem ctlSem_other {i : ι} (ho : o.aboutDirectives = false) :
    ctlSem fresh i o w r w' ↔ ∃ db, dbSem o w.db r db ∧ w' = { w with db := db } := by
  cases o <;> first | exact Iff.rfl | cases ho

structure CtlRely (i : ι) (w w' : CtlWorld ι) : Prop where
  current : w'.current i = w.current i
  handling : w'.handling i = w.handling i
  issued : w.issued <+: w'.issued

omit [DecidableEq ι] in
theorem CtlRely.refl (i : ι) (w : CtlWorld ι) : CtlRely i w w := ⟨rfl, rfl, prefix_refl _⟩

theorem ctlSem_rely {i j : ι} (hij : i ≠ j) (h : ctlSem fresh j o w r w') :
    CtlRely i w w' := by
  by_cases ho : o.aboutDirectives = false
  · obtain ⟨db, -, rfl⟩ := (ctlSem_other ho).1 h
    exact ⟨rfl, rfl, prefix_refl _⟩
  cases o with
  | controlDirectiveAdd row =>
    rcases h with ⟨-, rfl⟩ | ⟨db, -, -, rfl⟩
    · exact .refl i w'
    · exact ⟨update_of_ne hij _ _, rfl, prefix_append _ _⟩
  | controlResultApply out =>
    rcases h with ⟨-, rfl⟩ | ⟨db, -, rfl⟩
    · exact .refl i w'
    · exact ⟨rfl, rfl, prefix_refl _⟩
  | publishControl frame =>
    rcases h with ⟨-, rfl⟩ | rfl
    · exact .refl i w'
    · exact ⟨rfl, rfl, prefix_refl _⟩
  | recv l =>
    rcases h with ⟨-, rfl⟩ | ⟨-, rfl⟩ | ⟨id, bytes, cn, -, -, rfl⟩
    · exact .refl i w'
    · exact .refl i w'
    · exact ⟨rfl, update_of_ne hij _ _, prefix_refl _⟩
  | _ => exact absurd rfl ho

/-! ## Programs -/

abbrev CtlSafe (i : ι) {α : Type} : (α → CtlWorld ι → Prop) → SrvM α → CtlWorld ι → Prop :=
  Safe (ctlSem FreshKey i) (CtlRely i) CtlInv

section
variable {i : ι}

theorem safe_other {α : Type} {p : SrvM α} {K : CtlWorld ι → Prop}
    (hp : p.Uses fun o => o.aboutDirectives = false)
    (hK : ∀ w w', K w → CtlRely i w w' → CtlInv w' → K w')
    (hdb : ∀ w db, K w → K { w with db := db }) (h : K w) : CtlSafe i (fun _ => K) p w := by
  refine Safe.of_uses hK (fun o w r w' ho hI hw hs => ?_) hp h
  obtain ⟨db, -, rfl⟩ := (ctlSem_other ho).1 hs
  exact ⟨{ hI with }, hdb w db hw⟩

theorem ctlPublish_safe (hn : row.nodeId ≠ 0) (hf : FrameOf row frame)
    (w : CtlWorld ι) : CtlSafe i (fun _ _ => True) (ctlPublish row frame) w := by
  refine safe_perform_bind.2 ?_
  rintro w₁ - hI rc w₂ (⟨hrc, rfl⟩ | ⟨db, -, hfresh, rfl⟩)
  · exact ⟨hI, by rw [if_pos hrc]; trivial⟩
  refine ⟨hI.issue hfresh i db, ?_⟩
  split
  · trivial
  refine safe_perform_bind.2 ?_
  rintro w₃ hR hI₃ rc w₄ hs
  -- the directive that was just issued is still the last one of this process
  have hrow : w₃.issued[w₃.current i]? = some row := by
    refine getElem?_of_isPrefix hR.issued ?_
    have hcur : w₃.current i = w₁.issued.length := hR.current.trans (update_self _ _ _)
    rw [hcur]
    exact List.getElem?_concat_length
  have hI₄ : CtlInv w₄ := by
    rcases hs with ⟨-, rfl⟩ | rfl
    · exact hI₃
    · exact hI₃.publish (.inr ⟨row, hrow, hn, hf⟩)
  refine ⟨hI₄, ?_⟩
  split
  · exact safe_other (.perform_bind rfl fun _ => trivial) (fun _ _ _ _ _ => trivial)
      (fun _ _ _ => trivial) trivial
  · trivial

theorem ctlControl_safe (self : UInt64) (seq : UInt32) (a : CtlControl) (pub : Bool)
    (w : CtlWorld ι) : CtlSafe i (fun _ _ => True) (ctlControl self seq a pub) w := by
  unfold ctlControl
  split
  · trivial
  next hn =>
  split
  · trivial
  have huses := serverControlBuild_uses (P := fun o => o.aboutDirectives = false) rfl
    self seq a.directive ctlReqCap
  have hbuild := safe_other (i := i) (w := w) (K := fun _ => True) huses
    (fun _ _ _ _ _ => trivial) (fun _ _ _ => trivial) trivial
  refine (hbuild.returns (serverControlBuild_returns _ _ _ _)).seq ?_
  rintro r w' ⟨-, hr⟩
  split
  · trivial
  next frame hframe =>
  split
  · trivial
  split
  · trivial
  next f hf =>
  split
  · trivial
  obtain ⟨f', hf', hcorr, hc⟩ := hr frame hframe
  rw [hf] at hf'
  cases hf'
  refine (ctlPublish_safe ?_ ?_ w').seq fun _ _ _ => trivial
  · exact hn
  intro g c hg hgc
  rw [hf] at hg
  cases hg
  rw [hc] at hgc
  cases hgc
  exact ⟨hcorr.symm, rfl⟩

theorem ctlSurvey_safe (self : UInt64) (seq : UInt32) (pub : Bool) (w : CtlWorld ι) :
    CtlSafe i (fun _ _ => True) (ctlSurvey self seq pub) w := by
  refine safe_perform_bind.2 ?_
  intro w₁ _ hI nowMs w₂ hs
  obtain ⟨db, -, rfl⟩ := (ctlSem_other rfl).1 hs
  refine ⟨{ hI with }, ?_⟩
  simp only
  split
  · trivial
  next frame hframe =>
  split
  · trivial
  refine safe_perform_bind.2 ?_
  intro w₃ _ hI₃ rc w₄ hs
  refine ⟨?_, trivial⟩
  rcases hs with ⟨-, rfl⟩ | rfl
  · exact hI₃
  refine hI₃.publish (.inl ?_)
  obtain ⟨hframed, rfl⟩ := solariFrameBuild_ok hframe
  intro f hf
  rw [solariFrameParse_of_framed hframed] at hf
  cases hf
  exact show Msg.survey ≠ Msg.control by decide

def Handled (i : ι) (rx : Received) (w : CtlWorld ι) : Prop :=
  OtherFrame rx.bytes ∨ ∃ row, w.issued[w.handling i]? = some row ∧ AnswerTo row rx.bytes

omit [DecidableEq ι] in
theorem Handled.stable (h : Handled i rx w) (hR : CtlRely i w w') :
    Handled i rx w' := by
  rcases h with h | ⟨row, hrow, ha⟩
  · exact .inl h
  · exact .inr ⟨row, hR.handling ▸ getElem?_of_isPrefix hR.issued hrow, ha⟩

theorem minor_other {o : SrvOp} (ho : o.isMinor = true) : o.aboutDirectives = false := by
  cases o <;> first | rfl | cases ho

theorem Footprint.directives
    (h : Footprint cfg hdr payload o) : o.aboutDirectives = false ∨
      hdr.msgType = Msg.controlResult ∧ ∃ res : ControlResult,
        o = .controlResultApply (res.outcome hdr.sourceNodeId hdr.correlationId) := by
  cases h with
  | clientReport _ _ _ | monitorReport _ _ _ => exact .inl rfl
  | discovery _ ho =>
    refine .inl ?_
    cases o <;> first | rfl | cases ho
  | @result res ht => exact .inr ⟨ht, res, rfl⟩
  | ack _ => exact .inl rfl
  | minor ho => exact .inl (minor_other ho)

theorem ingestFrame_safe {epoch : UInt64}
    (h : Handled i rx w) : CtlSafe i (fun _ _ => True) (ingestFrame cfg epoch m rx) w := by
  have hfoot : ∀ f o, solariFrameParse rx.bytes = .ok f → Footprint cfg f.hdr f.payload o →
      ∃ f, solariFrameParse rx.bytes = .ok f ∧ Footprint cfg f.hdr f.payload o :=
    fun f o hf ho => ⟨f, hf, ho⟩
  have huses := ingestFrame_uses hfoot epoch m
  refine (Safe.of_uses (fun _ _ hk hR _ => hk.stable hR) ?_ huses h).mono fun _ _ _ => trivial
  rintro o w r w' ⟨f, hf, ho⟩ hI hk hs
  rcases ho.directives with hother | ⟨ht, res, rfl⟩
  · obtain ⟨db, -, rfl⟩ := (ctlSem_other hother).1 hs
    exact ⟨{ hI with }, hk⟩
  rcases hs with ⟨-, rfl⟩ | ⟨db, -, rfl⟩
  · exact ⟨hI, hk⟩
  refine ⟨?_, hk⟩
  rcases hk with hk | ⟨row, hrow, ha⟩
  · exact absurd ht (hk f hf)
  · exact hI.consume hrow (ha f hf) db

theorem drainIngest_safe (cfg : ServerCfg) (epoch : UInt64) (burst : Nat) (m : IngestState)
    (w : CtlWorld ι) : CtlSafe i (fun _ _ => True) (drainIngest cfg epoch burst m) w := by
  induction burst generalizing m w with
  | zero => trivial
  | succ burst ih =>
    refine safe_perform_bind.2 ?_
    rintro w₁ - hI r w₂ (⟨⟨st, rfl⟩, rfl⟩ | ⟨⟨rx, rfl, hrx⟩, rfl⟩ | ⟨id, bytes, cn, hmem, rfl, rfl⟩)
    · exact ⟨hI, trivial⟩
    · exact ⟨hI, (ingestFrame_safe (.inl hrx)).seq fun m w _ => ih m w⟩
    refine ⟨{ hI with }, ?_⟩
    refine (ingestFrame_safe (.inr ?_)).seq fun m w _ => ih m w
    obtain ⟨row, hrow, ha⟩ := hI.answered _ hmem
    refine ⟨row, ?_, ha⟩
    simp only [update_self]
    exact hrow

end

/-! ## Runs -/

theorem ctlSystem_relies (cfg : ServerCfg) (ids : ι → UInt64) :
    (ctlSystem cfg ids FreshKey).Relies CtlInv CtlRely where
  refl := CtlRely.refl
  trans _ _ _ _ h h' :=
    ⟨h'.current.trans h.current, h'.handling.trans h.handling, h.issued.trans h'.issued⟩
  other _ _ _ _ _ _ hij _ _ h := ctlSem_rely hij h
  env i w w' _ _ he := by
    cases he with
    | answer _ _ | tables _ => exact ⟨rfl, rfl, prefix_refl _⟩

/-- **Correlation of control results.** If no directive gets a pending row under the key of an
earlier one, every result that deletes a pending row was produced by executing its directive. -/
theorem control_results_correlated (cfg : ServerCfg) (ids : ι → UInt64)
    {c c' : Conf ι SrvOp SrvOp.Res (CtlWorld ι) CtlMem}
    (hc : (ctlSystem cfg ids FreshKey).Initial CtlInitial c)
    (hs : (ctlSystem cfg ids FreshKey).Steps c c') : Correlated c'.shared := by
  have hinv := System.invariant (A := fun _ _ _ => True) (ctlSystem_relies cfg ids)
    (fun _ _ _ _ _ _ _ => trivial) ?_ (fun w w' hI he => hI.env he)
    (fun _ _ _ _ _ => trivial) ?_ hc hs
  · exact hinv.1.consumed
  · rintro i m p w (⟨a, pub⟩ | pub | epoch) - -
    · exact (ctlControl_safe _ _ _ _ w).seq fun _ _ _ => trivial
    · exact (ctlSurvey_safe _ _ _ w).seq fun _ _ _ => trivial
    · exact (drainIngest_safe _ _ _ _ w).seq fun _ _ _ => trivial
  · rintro w ⟨-, hissued, hpub, hres, hcons⟩
    exact ⟨by simp [hissued], by simp [hpub], by simp [hres], by simp [Correlated, hcons]⟩

/-! ### A server that is restarted -/

def oneServer (fresh : List DirectiveRow → DirectiveRow → Prop) :
    System Unit SrvOp SrvOp.Res (CtlWorld Unit) CtlMem :=
  ctlSystem ⟨false, false, false⟩ (fun _ => 1) fresh

def restart7 : CtlControl := ⟨7, 3, 0, [], by decide⟩

def restartHeader : FrameHeader := serverControlInitHeader 1 Msg.control 3 1 0

def restartFrame : Bytes := frameBytes restartHeader (encodeTlvs restart7.directive.tlvs)

def restartRow : DirectiveRow := ⟨7, 1, 3, 0⟩

/-- The answer of an agent, which does not know that verb: `ERR_UNKNOWN_MSG`. -/
def resultTlvs : List Tlv :=
  [Tlv.u8 TlvType.ctrlVerb 3, Tlv.u16 TlvType.errorCode 60, Tlv.u64 TlvType.ctrlTargetEpoch 0]

def resultHeader : FrameHeader :=
  { msgType := Msg.controlResult, tlvCount := 3, sourceNodeId := 7, sendTimeUnixMs := 0, seqNo := 1,
    correlationId := 1 }

def resultFrame : Bytes := frameBytes resultHeader (encodeTlvs resultTlvs)

def idleDb : Db := enrolledDb "host".toList

def pendingDb : Db :=
  { idleDb with pendingControlDirective := ⟨[restartRow], nodup_singleton _⟩ }

theorem restart_framed : Framed restartHeader (encodeTlvs restart7.directive.tlvs) :=
  ⟨by decide, by decide, frameValidatePayload_encodeTlvs rfl⟩

theorem result_framed : Framed resultHeader (encodeTlvs resultTlvs) :=
  ⟨by decide, by decide, frameValidatePayload_encodeTlvs rfl⟩

theorem restart_build : solariMsgBuildControl restart7.directive serverControlTlvMax =
      .ok (encodeTlvs restart7.directive.tlvs, 3) := rfl

theorem result_answers : Answers restartFrame resultFrame :=
  ⟨_, _, _, solariFrameParse_of_framed restart_framed, rfl,
    solariMsgParseControl_build restart_build, solariFrameParse_of_framed result_framed,
      .inr rfl, rfl⟩

def CtlWorld.restarted (w : CtlWorld Unit) : CtlWorld Unit :=
  let w' := w.issue () restartRow pendingDb
  { w' with published := w'.published ++ [(w'.current (), restartFrame)] }

def resultOutcome : DirectiveOutcome := (resultTlvs.foldl controlResultTlv {}).outcome 7 1

def ctlAnswers (fresh : List DirectiveRow → DirectiveRow → Prop)
    [∀ l row, Decidable (fresh l row)] :
    (o : SrvOp) → CtlWorld Unit → o.Res × CtlWorld Unit
  | .controlDirectiveAdd row, w =>
    match serverDbControlDirectiveAdd w.db row with
    | .ok db => if fresh w.issued row then (Status.ok, w.issue () row db) else (Status.errDb, w)
    | .error _ => (Status.errDb, w)
  | .controlResultApply o, w =>
    match controlResultTxn w.db o with
    | .ok db => (Status.ok, w.consume () o db)
    | .error _ => (Status.errDb, w)
  | .publishControl frame, w =>
    (Status.ok, { w with published := w.published ++ [(w.current (), frame)] })
  | .recv _, w =>
    match w.db.pendingControlDirective.rows, w.results with
    | _ :: _, (id, bytes) :: _ =>
      (.ok ⟨bytes, .ok "host".toList⟩, { w with handling := fun _ => id })
    | _, _ => (.error .errConnRetry, w)
  | o, w => ((dbAnswers o w.db).1, { w with db := (dbAnswers o w.db).2 })

section
variable (fresh : List DirectiveRow → DirectiveRow → Prop) [∀ l row, Decidable (fresh l row)]

theorem ctlAnswers_sem (o : SrvOp) (w : CtlWorld Unit) :
    ctlSem fresh () o w (ctlAnswers fresh o w).1 (ctlAnswers fresh o w).2 := by
  cases o with
  | controlDirectiveAdd row =>
    cases hadd : serverDbControlDirectiveAdd w.db row with
    | error st =>
      simp only [ctlAnswers, hadd]
      exact .inl ⟨Status.noConfusion, rfl⟩
    | ok db =>
      by_cases hf : fresh w.issued row
      · simp only [ctlAnswers, hadd, if_pos hf]
        exact .inr ⟨db, hadd, hf, rfl⟩
      · simp only [ctlAnswers, hadd, if_neg hf]
        exact .inl ⟨Status.noConfusion, rfl⟩
  | controlResultApply o =>
    cases htxn : controlResultTxn w.db o with
    | error st =>
      simp only [ctlAnswers, htxn]
      exact .inl ⟨Status.noConfusion, rfl⟩
    | ok db =>
      simp only [ctlAnswers, htxn]
      exact .inr ⟨db, htxn, rfl⟩
  | publishControl frame => exact .inr rfl
  | recv l =>
    simp only [ctlAnswers]
    split
    · next id bytes rest _ hr =>
      refine .inr (.inr ⟨id, bytes, _, hr ▸ mem_cons_self, rfl, ?_⟩)
      rfl
    · exact .inl ⟨⟨_, rfl⟩, rfl⟩
  | _ => exact ⟨_, dbAnswers_sem _ _, rfl⟩

theorem oneServer_steps (w : CtlWorld Unit)
    (hp : CtlStart ⟨false, false, false⟩ 1 m p) :
    (oneServer fresh).Steps ⟨w, fun _ => .idle m⟩
      ⟨(p.run (ctlAnswers fresh) w).2, fun _ => .idle (p.run (ctlAnswers fresh) w).1⟩ := by
  have h := System.steps_run (S := oneServer fresh) (P := fun _ => .idle m) (s := w)
    (ctlAnswers_sem fresh) rfl hp
  exact h

end

theorem oneServer_crash (fresh : List DirectiveRow → DirectiveRow → Prop) (w : CtlWorld Unit)
    (m : CtlMem) :
    (oneServer fresh).Step ⟨w, fun _ => .idle m⟩ ⟨w, fun _ => .idle ⟨0, IngestState.empty⟩⟩ := by
  have h := System.Step.crash (S := oneServer fresh) (s := w) (P := fun _ => .idle m) () rfl
  exact h

def quietWorld : CtlWorld Unit := ⟨idleDb, [], fun _ => 0, fun _ => 0, [], [], fun _ => 0, []⟩

theorem quiet_initial (fresh : List DirectiveRow → DirectiveRow → Prop) :
    (oneServer fresh).Initial CtlInitial ⟨quietWorld, fun _ => .idle ⟨0, IngestState.empty⟩⟩ :=
  ⟨⟨rfl, rfl, rfl, rfl, rfl⟩, fun _ => ⟨_, rfl, rfl⟩⟩

def answeredWorld : CtlWorld Unit :=
  { quietWorld.restarted with results := quietWorld.restarted.results ++ [(0, resultFrame)] }

def settledWorld : CtlWorld Unit :=
  { answeredWorld with handling := fun _ => 0 }.consume () resultOutcome idleDb

instance (issued : List DirectiveRow) (row : DirectiveRow) : Decidable (FreshKey issued row) :=
  inferInstanceAs (Decidable (∀ q ∈ issued, q.key ≠ row.key))

set_option maxRecDepth 20000

section
variable (fresh : List DirectiveRow → DirectiveRow → Prop) [∀ l row, Decidable (fresh l row)]

theorem restart_steps {w : CtlWorld Unit}
    (h : ((ctlControl 1 0 restart7 true).run (ctlAnswers fresh) w) = ((.ok, 1), w.restarted)) :
    (oneServer fresh).Steps ⟨w, fun _ => .idle ⟨0, IngestState.empty⟩⟩
      ⟨w.restarted, fun _ => .idle ⟨1, IngestState.empty⟩⟩ := by
  have hs := oneServer_steps fresh w (m := ⟨0, IngestState.empty⟩) (.control restart7 true)
  rw [run_bind, h] at hs
  exact hs

theorem result_steps (w w' : CtlWorld Unit)
    (h : ((serverDrainIngest ⟨false, false, false⟩ 0 IngestState.empty).run
      (ctlAnswers fresh) w).2 = w') :
    ∃ st, (oneServer fresh).Steps ⟨w, fun _ => .idle ⟨1, IngestState.empty⟩⟩
      ⟨w', fun _ => .idle ⟨1, st⟩⟩ := by
  have hs := oneServer_steps fresh w (m := ⟨1, IngestState.empty⟩) (.drain 0)
  rw [run_bind, h] at hs
  exact ⟨_, hs⟩

theorem settled_steps (h : ((ctlControl 1 0 restart7 true).run (ctlAnswers fresh) quietWorld) =
      ((.ok, 1), quietWorld.restarted)) : ∃ st, (oneServer fresh).Steps
      ⟨quietWorld, fun _ => .idle ⟨0, IngestState.empty⟩⟩
      ⟨settledWorld, fun _ => .idle ⟨1, st⟩⟩ := by
  have hanswer : (oneServer fresh).Step
      ⟨quietWorld.restarted, fun _ => .idle ⟨1, IngestState.empty⟩⟩
      ⟨answeredWorld, fun _ => .idle ⟨1, IngestState.empty⟩⟩ :=
    .env (.answer (by decide +kernel) result_answers)
  obtain ⟨st, hdrain⟩ := result_steps fresh answeredWorld settledWorld rfl
  exact ⟨st, ((restart_steps fresh h).tail hanswer).trans hdrain⟩

end

/-- The first directive is answered, and a second one is issued under the next key. -/
theorem control_results_correlated_twice : ∃ c', (oneServer FreshKey).Steps
    ⟨quietWorld, fun _ => .idle ⟨0, IngestState.empty⟩⟩ c' ∧ c'.shared.issued.length = 2 ∧
    c'.shared.consumed = [(0, 0)] ∧ Correlated c'.shared := by
  obtain ⟨st, hs⟩ := settled_steps FreshKey rfl
  have hnext := oneServer_steps FreshKey settledWorld (m := ⟨1, st⟩) (.control restart7 true)
  simp only [run_bind, run] at hnext
  refine ⟨_, hs.trans hnext, ?_, ?_,
    control_results_correlated _ _ (quiet_initial FreshKey) (hs.trans hnext)⟩
  · dsimp only
    decide +kernel
  · dsimp only
    decide +kernel

/-- The server is restarted and the same request is issued again, under the same key.  The first
result, delivered once more, deletes the row of the second directive. -/
theorem stale_result_consumes_other : ∃ c c', (oneServer fun _ _ => True).Initial CtlInitial c ∧
    (oneServer fun _ _ => True).Steps c c' ∧ ¬ Correlated c'.shared := by
  obtain ⟨m, hs⟩ := settled_steps (fun _ _ => True) rfl
  have hissue := restart_steps (fun _ _ => True) (w := settledWorld) rfl
  obtain ⟨m', hdrain⟩ := result_steps (fun _ _ => True) settledWorld.restarted _ rfl
  refine ⟨_, _, quiet_initial _, ((hs.tail (oneServer_crash _ _ _)).trans hissue).trans hdrain, ?_⟩
  intro h
  refine absurd (h (1, 0) ?_) (by decide)
  show _ ∈ CtlWorld.consumed (run _ _ _).2
  decide +kernel

end SolariNet
