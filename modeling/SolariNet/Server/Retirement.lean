/-
# A retired node

Any number of server processes serve the fleet over one database, while nodes are retired by the
acknowledgement of a decommission, by an operator or by the revocation of their certificate, the
sweep marks silent nodes and enrollment brings nodes back.

A frame of a retired node is refused by `serverIngestValidate`.  What a handler writes to the
node's row comes later, in statements of its own, and `serverDbSetNodeState` and
`serverDbUpsertNode` do not look whether the node was retired in between.
-/
import SolariNet.Lib.Play
import SolariNet.Server.FalseDuplicates
import SolariNet.Server.RunLoop

namespace SolariNet

open Function List Lib Lib.Prog

/-! ## The state of a node -/

def nodeState (db : Db) (n : UInt64) : Option NodeState := (db.node.find? n).map (·.state)

def serverDbMarkSilentNodes (db : Db) (silent : UInt64 → Bool) : Db :=
  { db with
    node := db.node.update
      (fun r => if (r.state = .up ∨ r.state = .degraded) ∧ silent r.nodeId = true then
        { r with state := .unknown } else r) fun r => by split <;> rfl }

theorem nodeState_setNodeState (db : Db) (n : UInt64) (st : NodeState) :
    nodeState (serverDbSetNodeState db n st) n = (nodeState db n).map fun _ => st := by
  unfold nodeState serverDbSetNodeState
  rw [Table.find?_update]
  cases h : db.node.find? n with
  | none => rfl
  | some r => simp [(Table.find?_eq_some.1 h).2]

variable {n : UInt64} {db : Db}

theorem nodeState_setNodeState_of_ne (db : Db) {m : UInt64} (st : NodeState) (h : m ≠ n) :
    nodeState (serverDbSetNodeState db n st) m = nodeState db m := by
  unfold nodeState serverDbSetNodeState
  rw [Table.find?_update]
  cases hm : db.node.find? m with
  | none => rfl
  | some r =>
    have hr : r.nodeId ≠ n := (Table.find?_eq_some.1 hm).2.trans_ne h
    simp [hr]

theorem nodeState_upsertNode_of_ne (db : Db) {m : UInt64} (role : Role) (host cn : CStr)
    (epoch : UInt64) (h : m ≠ n) :
    nodeState (serverDbUpsertNode db n role host cn epoch) m = nodeState db m := by
  unfold nodeState serverDbUpsertNode
  rw [Table.find?_upsert_of_ne _ _ h]

theorem nodeState_markSilentNodes (silent : UInt64 → Bool) (h : nodeState db n = some .retired) :
    nodeState (serverDbMarkSilentNodes db silent) n = some .retired := by
  unfold nodeState serverDbMarkSilentNodes
  rw [Table.find?_update]
  obtain ⟨r, hr, hst⟩ := Option.map_eq_some_iff.1 h
  rw [hr]
  simp [hst]

theorem serverDbNodeIdentity_retired {r : Role × CStr}
    (h : serverDbNodeIdentity db n cn = .ok r) : nodeState db n ≠ some .retired := by
  obtain ⟨row, hrow, -, hstate, -⟩ := serverDbNodeIdentity_eq_ok h
  unfold nodeState
  rw [hrow]
  simpa using hstate

/-! ## Statements -/

def SrvOp.aboutNodes : SrvOp → Bool
  | .recv _ | .nodeIdentity _ _ | .upsertNode _ _ _ _ _ | .setNodeState _ _ => true
  | .decommissionAck _ _ => true
  | _ => false

theorem reportReceipt_node {nodeId : UInt64}
    (h : reportReceipt db nodeId receipt = .ok db₁) : db₁.node = db.node := by
  obtain ⟨t, rfl⟩ := reportReceipt_frame h
  rfl

theorem dbSem_keepsNode (ho : o.aboutNodes = false)
    (h : dbSem o db r db') : db'.node = db.node := by
  refine dbSem_keeps (K := (·.node = db.node)) h rfl ?_
  cases o with
  | writeClientReport n rep receipt =>
    refine txnAnswer_keeps (K := (·.node = db.node)) rfl fun db₁ hb => ?_
    obtain ⟨-, db₂, t, hr, -, rfl⟩ := clientReportTxn_eq_ok hb
    have hnode : db₂.node = db.node := reportReceipt_node hr
    exact hnode
  | writeMonitorReport n rep receipt =>
    refine txnAnswer_keeps (K := (·.node = db.node)) rfl fun db₁ hb => ?_
    obtain ⟨-, db₂, hr, rfl⟩ := monitorReportTxn_eq_ok hb
    obtain ⟨current, hprobes⟩ :=
      foldl_writeProbe_eq n (rep.probes.take solariMaxProbes) db₂
    have hnode : db₂.node = db.node := reportReceipt_node hr
    rw [hprobes]
    exact hnode
  | upsertProbeTarget t =>
    show (serverDbUpsertProbeTarget db t).node = db.node
    unfold serverDbUpsertProbeTarget
    split
    · rfl
    · rfl
  | controlDirectiveAdd row =>
    refine txnAnswer_keeps (K := (·.node = db.node)) rfl fun db₁ hb => ?_
    obtain ⟨t, rfl⟩ := serverDbControlDirectiveAdd_eq_ok hb
    rfl
  | controlResultApply o =>
    refine txnAnswer_keeps (K := (·.node = db.node)) rfl fun db₁ hb => ?_
    obtain ⟨t, c, rfl⟩ := controlResultTxn_eq_ok hb
    rfl
  | upsertDiscovered e =>
    obtain ⟨t, ht⟩ := serverDbUpsertDiscovered_eq db e
    exact ht ▸ rfl
  | lease o => cases o <;> rfl
  | recv | nodeIdentity | upsertNode | setNodeState | decommissionAck => cases ho
  | _ => rfl

/-! ## The system -/

structure LifeWorld (ι : Type) where
  db : Db
  /-- the node whose frame a process has validated since it last polled a link -/
  admitted : ι → Option UInt64
  /-- the nodes whose row was set to `retired` and that were not enrolled since -/
  retired : UInt64 → Bool

variable {ι : Type} [DecidableEq ι]

def LifeWorld.attend (w : LifeWorld ι) (i : ι) (n : Option UInt64) : LifeWorld ι :=
  { w with admitted := Function.update w.admitted i n }

omit [DecidableEq ι] in
def LifeWorld.retire (w : LifeWorld ι) (n : UInt64) (db : Db) : LifeWorld ι :=
  { w with db := db, retired := Function.update w.retired n (nodeState db n).isSome }

/-- The transaction of a decommission acknowledgement on process `i`.  The frame it handles has
nothing more to write. -/
inductive AckTxn (may : UInt64 → LifeWorld ι → Prop) (i : ι) (n generation : UInt64)
    (w : LifeWorld ι) : Status → LifeWorld ι → Prop where
  | aborted : AckTxn may i n generation w .errDb w
  | refused {st : Status} (h : decommissionAckTxn w.db n generation = .error st) :
      AckTxn may i n generation w st w
  | committed {db : Db} (h : decommissionAckTxn w.db n generation = .ok db)
      (hmay : may n (w.attend i none)) :
      AckTxn may i n generation w .ok ((w.attend i none).retire n db)
  | unconfirmed {db : Db} (h : decommissionAckTxn w.db n generation = .ok db)
      (hmay : may n (w.attend i none)) :
      AckTxn may i n generation w .errDb ((w.attend i none).retire n db)

def lifeSem (may : UInt64 → LifeWorld ι → Prop) (i : ι) : Sem SrvOp SrvOp.Res (LifeWorld ι)
  | .recv _, w, _, w' => w' = w.attend i none
  | .nodeIdentity n cn, w, r, w' =>
    Query (serverDbNodeIdentity w.db n cn) r ∧ w' = match r with
        | .ok _ => w.attend i (some n)
        | .error _ => w
  | .decommissionAck n g, w, rc, w' => AckTxn may i n g w rc w'
  | o, w, r, w' => ∃ db, dbSem o w.db r db ∧ w' = { w with db := db }

/-- What happens besides the frames: a node is retired by an operator or with its certificate, the
sweep, an enrollment, and what does not touch the node table. -/
inductive LifeEnv (may : UInt64 → LifeWorld ι → Prop) : LifeWorld ι → LifeWorld ι → Prop where
  | retire {w : LifeWorld ι} {n : UInt64} {db : Db} (h : retireNodeTxn w.db n = .ok db)
      (hmay : may n w) : LifeEnv may w (w.retire n db)
  | revoke {w : LifeWorld ι} {n : UInt64} {db : Db}
      (h : db.node = (serverDbSetNodeState w.db n .retired).node) (hmay : may n w) :
      LifeEnv may w (w.retire n db)
  | sweep {w : LifeWorld ι} (silent : UInt64 → Bool) :
      LifeEnv may w { w with db := serverDbMarkSilentNodes w.db silent }
  | enroll {w : LifeWorld ι} {n : UInt64} {role : Role} {host cn : CStr} {db : Db}
      (h : db.node = (serverDbUpsertNode w.db n role host cn 0).node) :
      LifeEnv may w { w with db := db, retired := Function.update w.retired n false }
  | tables {w : LifeWorld ι} {db : Db} (h : db.node = w.db.node) : LifeEnv may w { w with db := db }

/-- Server processes, each with its own id; a turn serves the fleet under any view of the lease. -/
def lifeSystem (cfg : LoopCfg) (ids : ι → UInt64) (may : UInt64 → LifeWorld ι → Prop) :
    System ι SrvOp SrvOp.Res (LifeWorld ι) LinkState where
  sem i := lifeSem may i
  start i k p := ∃ m : LeaseCtx, p = fleetTurn cfg (ids i) m k
  env := LifeEnv may
  boot _ k := k = ⟨.empty, 0⟩

def LifeInitial (w : LifeWorld ι) : Prop :=
  (∀ i, w.admitted i = none) ∧ ∀ n, w.retired n = false

/-- No process handles a validated frame of the node. -/
def NotInHand (n : UInt64) (w : LifeWorld ι) : Prop := ∀ i, w.admitted i ≠ some n

def RetirementSticks (w : LifeWorld ι) : Prop :=
  ∀ n, w.retired n = true → nodeState w.db n = some .retired

/-! ## The invariant -/

structure LifeInv (w : LifeWorld ι) : Prop where
  sticks : RetirementSticks w
  admitted : ∀ i n, w.admitted i = some n → w.retired n = false

section
omit [DecidableEq ι]

variable {w : LifeWorld ι}

theorem LifeInv.write (h : LifeInv w)
    (hdb : ∀ n, w.retired n = true → nodeState db n = nodeState w.db n) :
    LifeInv { w with db := db } :=
  ⟨fun n hn => (hdb n hn).trans (h.sticks n hn), h.admitted⟩

theorem LifeInv.tables (h : LifeInv w) (hdb : db.node = w.db.node) : LifeInv { w with db := db } :=
  h.write fun n _ => by rw [nodeState, hdb, nodeState]

theorem LifeInv.retire (h : LifeInv w) (hq : NotInHand n w)
    (hdb : db.node = (serverDbSetNodeState w.db n .retired).node) : LifeInv (w.retire n db) := by
  have hstate (m : UInt64) :
      nodeState db m = nodeState (serverDbSetNodeState w.db n .retired) m := by
    rw [nodeState, hdb, nodeState]
  refine ⟨fun m hm => ?_, fun i m hi => ?_⟩
  · rcases update_eq_iff.1 hm with ⟨rfl, hsome⟩ | ⟨hmn, hold⟩
    · obtain ⟨st, hst⟩ := Option.isSome_iff_exists.1 hsome
      rw [hstate, nodeState_setNodeState] at hst
      obtain ⟨_, _, rfl⟩ := Option.map_eq_some_iff.1 hst
      rw [← nodeState_setNodeState, ← hstate] at hst
      exact hst
    · exact (hstate m).trans ((nodeState_setNodeState_of_ne _ _ hmn).trans (h.sticks m hold))
  · have hmn : m ≠ n := fun hmn => hq i (hmn ▸ hi)
    exact (update_of_ne hmn _ _).trans (h.admitted i m hi)

end

theorem LifeInv.attend (h : LifeInv w) (i : ι) {n : Option UInt64}
    (hn : ∀ m, n = some m → w.retired m = false) : LifeInv (w.attend i n) := by
  refine ⟨h.sticks, fun j m hj => ?_⟩
  rcases update_eq_iff.1 hj with ⟨-, hj⟩ | ⟨-, hj⟩
  · exact hn m hj
  · exact h.admitted j m hj

variable {w' : LifeWorld ι} {may : UInt64 → LifeWorld ι → Prop} {rc : Status}

theorem LifeInv.ack {i : ι} {g : UInt64} (h : LifeInv w)
    (ha : AckTxn NotInHand i n g w rc w') : LifeInv w' := by
  have hretire {db : Db} (hdb : decommissionAckTxn w.db n g = .ok db)
      (hq : NotInHand n (w.attend i none)) : LifeInv ((w.attend i none).retire n db) := by
    obtain ⟨t, -, rfl⟩ := decommissionAckTxn_eq_ok hdb
    exact (h.attend i fun m hm => by cases hm).retire hq rfl
  cases ha with
  | aborted | refused _ => exact h
  | committed hdb hq | unconfirmed hdb hq => exact hretire hdb hq

omit [DecidableEq ι] in
theorem LifeInv.env (h : LifeInv w) (he : LifeEnv NotInHand w w') : LifeInv w' := by
  cases he with
  | retire hdb hq =>
    cases retireNodeTxn_eq_ok hdb
    exact h.retire hq rfl
  | revoke hdb hq => exact h.retire hq hdb
  | sweep silent =>
    exact ⟨fun n hn => nodeState_markSilentNodes silent (h.sticks n hn), h.admitted⟩
  | @enroll n role host cn db hdb =>
    refine ⟨fun m hm => ?_, fun i m hi => ?_⟩
    · rcases update_eq_iff.1 hm with ⟨-, ⟨⟩⟩ | ⟨hmn, hold⟩
      rw [nodeState, hdb, ← nodeState, nodeState_upsertNode_of_ne _ _ _ _ _ hmn]
      exact h.sticks m hold
    · by_cases hmn : m = n
      · subst hmn
        exact update_self _ _ _
      · exact (update_of_ne hmn _ _).trans (h.admitted i m hi)
  | tables hdb => exact h.tables hdb

/-! ## Operations -/

theorem lifeSem_other {i : ι} {o : SrvOp} (ho : o.aboutNodes = false) {r : o.Res}
    (h : lifeSem may i o w r w') : ∃ db, db.node = w.db.node ∧ w' = { w with db := db } := by
  have hdb : ∃ db, dbSem o w.db r db ∧ w' = { w with db := db } := by
    cases o <;> first | exact h | cases ho
  obtain ⟨db, hs, rfl⟩ := hdb
  exact ⟨db, dbSem_keepsNode ho hs, rfl⟩

def LifeRely (i : ι) (w w' : LifeWorld ι) : Prop := w'.admitted i = w.admitted i

theorem AckTxn.rely {i j : ι} (hij : i ≠ j) {g : UInt64}
    (h : AckTxn may j n g w rc w') : LifeRely i w w' := by
  cases h with
  | aborted | refused _ => rfl
  | committed _ _ | unconfirmed _ _ => exact update_of_ne hij _ _

theorem lifeSem_rely {i j : ι} (hij : i ≠ j) (h : lifeSem may j o w r w') :
    LifeRely i w w' := by
  by_cases ho : o.aboutNodes = false
  · obtain ⟨db, -, rfl⟩ := lifeSem_other ho h
    rfl
  cases o with
  | recv l =>
    cases h
    exact update_of_ne hij _ _
  | nodeIdentity n cn =>
    obtain ⟨-, rfl⟩ := h
    cases r with
    | error st => rfl
    | ok identity => exact update_of_ne hij _ _
  | upsertNode | setNodeState =>
    obtain ⟨db, -, rfl⟩ := h
    rfl
  | decommissionAck n g => exact AckTxn.rely hij h
  | _ => exact absurd rfl ho

section
variable {i : ι} {w w' : LifeWorld ι}

theorem LifeInv.nodeIdentity (h : LifeInv w) {r : Except Status (Role × CStr)}
    (hs : lifeSem NotInHand i (.nodeIdentity n cn) w r w') : LifeInv w' := by
  obtain ⟨hq, rfl⟩ := hs
  cases r with
  | error st => exact h
  | ok identity =>
    refine h.attend i ?_
    rintro m ⟨rfl⟩
    rcases hq with hq | hq
    · have hne := serverDbNodeIdentity_retired hq.symm
      exact Bool.eq_false_iff.2 fun hret => hne (h.sticks n hret)
    · cases hq

omit [DecidableEq ι] in
theorem LifeInv.writeNode (h : LifeInv w) (hk : w.admitted i = some n) {after : Db}
    (htxn : Txn w.db (.ok after) rc db) (hafter : ∀ m, m ≠ n →
      nodeState after m = nodeState w.db m) : LifeInv { w with db := db } := by
  refine h.write fun m hm => ?_
  have hmn : m ≠ n := by
    rintro rfl
    rw [h.admitted i m hk] at hm
    cases hm
  rcases htxn.cases_db with rfl | hdb
  · rfl
  · cases hdb
    exact hafter m hmn

theorem lifeSem_footprint {cfg : ServerCfg} {hdr : FrameHeader} {o : SrvOp}
    (ho : Footprint cfg hdr payload o) (ht : hdr.msgType ≠ Msg.controlResult) {r : o.Res}
    (h : LifeInv w) (hk : w.admitted i = some hdr.sourceNodeId)
    (hs : lifeSem NotInHand i o w r w') : LifeInv w' ∧ w'.admitted i = some hdr.sourceNodeId := by
  have hother (ho : o.aboutNodes = false) : LifeInv w' ∧ w'.admitted i = some hdr.sourceNodeId := by
    obtain ⟨db, hdb, rfl⟩ := lifeSem_other ho hs
    exact ⟨h.tables hdb, hk⟩
  cases ho with
  | clientReport | monitorReport => exact hother rfl
  | result ht' | ack ht' => exact absurd ht' ht
  | discovery _ ho => exact hother (by cases o <;> first | rfl | cases ho)
  | minor ho hn =>
    cases o with
    | nodeIdentity n cn =>
      refine ⟨h.nodeIdentity hs, ?_⟩
      obtain ⟨-, rfl⟩ := hs
      cases r with
      | error st => exact hk
      | ok identity => exact (update_self _ _ _).trans (congrArg some hn)
    | upsertNode n role host cn epoch =>
      cases hn
      obtain ⟨db, htxn, rfl⟩ := hs
      exact ⟨h.writeNode hk htxn fun m hm => nodeState_upsertNode_of_ne _ _ _ _ _ hm, hk⟩
    | setNodeState n st =>
      cases hn
      obtain ⟨db, htxn, rfl⟩ := hs
      exact ⟨h.writeNode hk htxn fun m hm => nodeState_setNodeState_of_ne _ _ hm, hk⟩
    | recv | decommissionAck => cases ho
    | _ => exact hother rfl

/-! ## Programs -/

abbrev LifeSafe (i : ι) {α : Type} : (α → LifeWorld ι → Prop) → SrvM α → LifeWorld ι → Prop :=
  Safe (lifeSem NotInHand i) (LifeRely i) LifeInv

theorem safe_aside {α : Type} {p : SrvM α} (hp : p.Uses fun o => o.aboutNodes = false)
    {n : Option UInt64} (hk : w.admitted i = n) : LifeSafe i (fun _ w => w.admitted i = n) p w := by
  refine Safe.of_uses (fun w w' hk hR _ => hR.trans hk) (fun o w r w' ho h hk hs => ?_) hp hk
  obtain ⟨db, hdb, rfl⟩ := lifeSem_other ho hs
  exact ⟨h.tables hdb, hk⟩

theorem serverIngestValidate_safe (t : Dedup) (hdr : FrameHeader) (cn : CStr) : LifeSafe i
      (fun v w => v.1 = .ok ∨ v.1 = .errConnRetry → w.admitted i = some hdr.sourceNodeId)
      (serverIngestValidate t hdr cn) w := by
  unfold serverIngestValidate
  split
  · rintro (hv | hv) <;> cases hv
  refine safe_perform_bind.2 ?_
  intro w₁ _ hI r w₂ hs
  refine ⟨hI.nodeIdentity hs, ?_⟩
  obtain ⟨hq, rfl⟩ := hs
  cases r with
  | error st =>
    have hst : st ≠ .ok ∧ st ≠ .errConnRetry := nodeIdentity_error ⟨hq, rfl⟩
    rintro (hv | hv)
    · exact absurd hv hst.1
    · exact absurd hv hst.2
  | ok identity =>
    have hk : (w₁.attend i (some hdr.sourceNodeId)).admitted i = some hdr.sourceNodeId :=
      update_self _ _ _
    simp only
    split
    · rintro (hv | hv) <;> cases hv
    refine (safe_aside (.perform rfl) hk).seq fun nowMs w hk => ?_
    split
    · exact fun _ => hk
    · exact fun _ => hk

theorem serverIngestDispatch_life (cfg : ServerCfg) (epoch : UInt64) (m : IngestState)
    (hdr : FrameHeader) (payload : Bytes) (cn : CStr) (hk : w.admitted i = some hdr.sourceNodeId) :
    LifeSafe i (fun _ _ => True) (serverIngestDispatch cfg epoch m hdr payload cn) w := by
  by_cases ht : hdr.msgType = Msg.controlResult
  · -- an acknowledgement may retire the node, and is the last word on its row
    rw [serverIngestDispatch_result ht]
    refine Safe.bind ?_
    refine (Safe.of_uses (P := fun o => o.aboutNodes = false ∨ ∃ n g, o = .decommissionAck n g)
      (K := fun _ => True) (fun _ _ _ _ _ => trivial) ?_
      (serverControlOnResult_uses (.inl rfl) (fun g => .inr ⟨_, g, rfl⟩) (fun _ => .inl rfl)
        payload) trivial).mono fun _ _ _ => trivial
    rintro o w r w' (ho | ⟨n, g, rfl⟩) h - hs
    · obtain ⟨db, hdb, rfl⟩ := lifeSem_other ho hs
      exact ⟨h.tables hdb, trivial⟩
    · exact ⟨h.ack hs, trivial⟩
  · refine (Safe.of_uses (R := LifeRely i) (I := LifeInv) (fun w w' hk hR _ => hR.trans hk)
      (fun o w r w' ho h hk hs => ?_)
      (serverIngestDispatch_uses cfg epoch m hdr payload cn) hk).mono fun _ _ _ => trivial
    exact lifeSem_footprint ho ht h hk hs

theorem ingestFrame_life (cfg : ServerCfg) (epoch : UInt64) (m : IngestState) (rx : Received) :
    LifeSafe i (fun _ _ => True) (ingestFrame cfg epoch m rx) w := by
  unfold ingestFrame
  split
  · trivial
  refine (serverIngestValidate_safe _ _ _).seq fun v w hv => ?_
  split
  · trivial
  next hok =>
  have hk := hv (.inl (not_not.1 hok))
  exact (serverIngestDispatch_life _ _ _ _ _ _ hk).seq fun _ _ _ => trivial

theorem drainIngest_life (cfg : ServerCfg) (epoch : UInt64) (burst : Nat) (m : IngestState) :
    LifeSafe i (fun _ _ => True) (drainIngest cfg epoch burst m) w := by
  induction burst generalizing m w with
  | zero => trivial
  | succ burst ih =>
    refine safe_perform_bind.2 ?_
    rintro w₁ - hI r w₂ rfl
    refine ⟨hI.attend i (by intro m hm; cases hm), ?_⟩
    cases r with
    | error st => trivial
    | ok rx => exact (ingestFrame_life _ _ _ _).seq fun m _ _ => ih m

theorem controlFrame_life (cfg : LoopCfg) (self : UInt64) (m : LeaseCtx) (k : LinkState)
    (rx : Received) : LifeSafe i (fun _ _ => True) (controlFrame cfg self m k rx) w := by
  have hrefuse (k : LinkState) (seq : UInt32) (code : UInt16) (detail : String) (w : LifeWorld ι) :
      LifeSafe i (fun _ _ => True)
        (refuse self k seq code detail) w :=
    (safe_aside (refuse_uses (P := fun o => o.aboutNodes = false) rfl (fun _ => rfl) _ _ _ _ _)
      rfl).mono fun _ _ _ => trivial
  unfold controlFrame
  split
  · exact hrefuse _ _ _ _ _
  next f hf =>
  refine (serverIngestValidate_safe _ _ _).seq fun v w hv => ?_
  split
  · exact hrefuse _ _ _ _ _
  split
  · exact hrefuse _ _ _ _ _
  next hok =>
  have hk : w.admitted i = some f.hdr.sourceNodeId := by
    refine hv ?_
    by_contra hn
    exact hok (not_or.1 hn)
  refine (Safe.of_uses (P := fun o => o.aboutNodes = false ∨
    f.hdr.msgType ≠ Msg.controlResult ∧ Footprint cfg.server f.hdr f.payload o)
    (R := LifeRely i) (I := LifeInv) (fun w w' hk hR _ => hR.trans hk) ?_
    (serveRequest_uses (.inl rfl) (fun _ => .inl rfl) (fun o ht ho => .inr ⟨ht, ho⟩)
      (.inl rfl) self m _ _) hk).mono fun _ _ _ => trivial
  rintro o w r w' (ho | ⟨ht, ho⟩) h hk hs
  · obtain ⟨db, hdb, rfl⟩ := lifeSem_other ho hs
    exact ⟨h.tables hdb, hk⟩
  · exact lifeSem_footprint ho ht h hk hs

theorem fleetTurn_life (cfg : LoopCfg) (self : UInt64) (m : LeaseCtx) (k : LinkState) :
    LifeSafe i (fun _ _ => True) (fleetTurn cfg self m k) w := by
  unfold fleetTurn
  split
  · trivial
  refine Safe.seq (Q := fun _ _ => True) ?_ fun k w _ => ?_
  · unfold drainTurn
    split
    · trivial
    · exact (drainIngest_life _ _ _ _).seq fun _ _ _ => trivial
  · unfold serverServiceControl
    split
    · trivial
    refine safe_perform_bind.2 ?_
    rintro w₁ - hI r w₂ rfl
    refine ⟨hI.attend i (by intro m hm; cases hm), ?_⟩
    cases r with
    | error st => trivial
    | ok rx => exact controlFrame_life _ _ _ _ _

end

/-! ## Runs -/

theorem lifeSystem_relies (cfg : LoopCfg) (ids : ι → UInt64) :
    (lifeSystem cfg ids NotInHand).Relies LifeInv LifeRely where
  refl _ _ := rfl
  trans _ _ _ _ h h' := h'.trans h
  other _ _ _ _ _ _ hij _ _ h := lifeSem_rely hij h
  env i w w' _ _ he := by
    cases he with
    | retire _ _ | revoke _ _ | sweep _ | enroll _ | tables _ => rfl

/-- **Retirement sticks**, as long as a node is retired only while no other process is handling a
validated frame of it. -/
theorem retired_stays (cfg : LoopCfg) (ids : ι → UInt64)
    {c c' : Conf ι SrvOp SrvOp.Res (LifeWorld ι) LinkState}
    (hc : (lifeSystem cfg ids NotInHand).Initial LifeInitial c)
    (hs : (lifeSystem cfg ids NotInHand).Steps c c') : RetirementSticks c'.shared := by
  have hinv := System.invariant (A := fun _ _ _ => True) (lifeSystem_relies cfg ids)
    (fun _ _ _ _ _ _ _ => trivial) ?_ (fun w w' hI he => hI.env he)
    (fun _ _ _ _ _ => trivial) ?_ hc hs
  · exact hinv.1.sticks
  · rintro i k p w ⟨m, rfl⟩ - -
    exact fleetTurn_life _ _ _ _
  · rintro w ⟨hadmitted, hretired⟩
    refine ⟨fun n hn => ?_, fun i n hi => ?_⟩
    · rw [hretired n] at hn
      cases hn
    · rw [hadmitted i] at hi
      cases hi

/-! ### A report and a retirement -/

def lastReport : Bytes :=
  frameBytes { reportHeader with flags := Flag.ackReq, tlvCount := 1 }
    (encodeTlvs [sessionTlv zeroSession])

def lifeAnswers : (o : SrvOp) → LifeWorld Unit → o.Res × LifeWorld Unit
  | .recv _, w => (.ok ⟨lastReport, .ok "host".toList⟩, w.attend () none)
  | .nodeIdentity n cn, w =>
    match serverDbNodeIdentity w.db n cn with
    | .ok identity => (.ok identity, w.attend () (some n))
    | .error st => (.error st, w)
  | .decommissionAck _ _, w => (Status.errDb, w)
  | o, w => ((dbAnswers o w.db).1, { w with db := (dbAnswers o w.db).2 })

theorem lifeAnswers_sem (may : UInt64 → LifeWorld Unit → Prop) (i : Unit) (o : SrvOp)
    (w : LifeWorld Unit) : lifeSem may i o w (lifeAnswers o w).1 (lifeAnswers o w).2 := by
  cases o with
  | recv l => rfl
  | nodeIdentity n cn =>
    cases h : serverDbNodeIdentity w.db n cn with
    | ok identity | error st =>
      simp only [lifeAnswers, h]
      exact ⟨.inl h.symm, rfl⟩
  | decommissionAck n g => exact .aborted
  | _ => exact ⟨_, dbAnswers_sem _ _, rfl⟩

abbrev lifeServer (may : UInt64 → LifeWorld Unit → Prop) :
    System Unit SrvOp SrvOp.Res (LifeWorld Unit) LinkState :=
  lifeSystem ⟨⟨false, false, false⟩, ⟨15, 5, fun _ => ['u']⟩, []⟩ (fun _ => 1) may

def servesLink : Cue Unit SrvOp SrvOp.Res LinkState :=
  .begins () fun k => some (fleetTurn ⟨⟨false, false, false⟩, ⟨15, 5, fun _ => ['u']⟩, []⟩ 1
    ⟨.active, 1, 0, fun l => l = .control⟩ k)

def lifeStart : Conf Unit SrvOp SrvOp.Res (LifeWorld Unit) LinkState where
  shared := ⟨enrolledDb "host".toList, fun _ => none, fun _ => false⟩
  procs _ := .idle ⟨.empty, 0⟩

theorem lifeStart_initial (may : UInt64 → LifeWorld Unit → Prop) :
    (lifeServer may).Initial LifeInitial lifeStart :=
  ⟨⟨fun _ => rfl, fun _ => rfl⟩, fun _ => ⟨_, rfl, rfl⟩⟩

/-- The server takes the report of client 7 and gets as far as storing it. -/
def storesReport : List (Cue Unit SrvOp SrvOp.Res LinkState) := [servesLink, .acts () 4]

def marksNode : List (Cue Unit SrvOp SrvOp.Res LinkState) := [.acts () 1]

theorem lifeScript_legal (may : UInt64 → LifeWorld Unit → Prop) :
    ∀ q ∈ storesReport ++ marksNode, System.Cue.Legal (lifeServer may) q := by
  refine forall_mem_cons.2 ⟨fun k p h => ?_,
    forall_mem_cons.2 ⟨trivial, forall_mem_singleton.2 trivial⟩⟩
  cases h
  exact ⟨_, rfl⟩

def operatorRetires (c : Conf Unit SrvOp SrvOp.Res (LifeWorld Unit) LinkState) :
    Conf Unit SrvOp SrvOp.Res (LifeWorld Unit) LinkState :=
  match retireNodeTxn c.shared.db 7 with
  | .ok db => ⟨c.shared.retire 7 db, c.procs⟩
  | .error _ => c

theorem operatorRetires_steps {may : UInt64 → LifeWorld Unit → Prop}
    (c : Conf Unit SrvOp SrvOp.Res (LifeWorld Unit) LinkState) (hmay : may 7 c.shared) :
    (lifeServer may).Steps c (operatorRetires c) := by
  unfold operatorRetires
  split
  · next db hdb => exact .single (.env (.retire hdb hmay))
  · exact .refl

theorem report_plays :
    (System.play (fun _ => lifeAnswers) storesReport lifeStart).isSome = true := by
  decide +kernel

def reportStored : Conf Unit SrvOp SrvOp.Res (LifeWorld Unit) LinkState :=
  (System.play (fun _ => lifeAnswers) storesReport lifeStart).get report_plays

theorem reportStored_steps (may : UInt64 → LifeWorld Unit → Prop) :
    (lifeServer may).Steps lifeStart reportStored :=
  System.steps_play (lifeAnswers_sem may)
    (fun q hq => lifeScript_legal may q (mem_append_left _ hq)) (Option.some_get report_plays).symm

theorem mark_plays : (System.play (fun _ => lifeAnswers) marksNode
    (operatorRetires reportStored)).isSome = true := by
  decide +kernel

def nodeMarked : Conf Unit SrvOp SrvOp.Res (LifeWorld Unit) LinkState :=
  (System.play (fun _ => lifeAnswers) marksNode (operatorRetires reportStored)).get mark_plays

theorem refusal_plays : (System.play (fun _ => lifeAnswers) storesReport
    (operatorRetires lifeStart)).isSome = true := by
  decide +kernel

def reportRefused : Conf Unit SrvOp SrvOp.Res (LifeWorld Unit) LinkState :=
  (System.play (fun _ => lifeAnswers) storesReport (operatorRetires lifeStart)).get refusal_plays

/-- A node that is retired before its report arrives stays retired, and the report is not stored. -/
theorem retired_stays_refused : reportRefused.shared.retired 7 = true ∧
    reportRefused.shared.db.hostHistory = [] ∧ RetirementSticks reportRefused.shared := by
  have hquiet : NotInHand 7 lifeStart.shared := by
    intro i hi
    cases hi
  have hserve : (lifeServer NotInHand).Steps (operatorRetires lifeStart) reportRefused :=
    System.steps_play (lifeAnswers_sem NotInHand)
      (fun q hq => lifeScript_legal NotInHand q (mem_append_left _ hq))
      (Option.some_get refusal_plays).symm
  exact ⟨by decide +kernel, by decide +kernel, retired_stays _ _ (lifeStart_initial NotInHand)
    ((operatorRetires_steps lifeStart hquiet).trans hserve)⟩

/-- A server validates and stores a report of node 7.  The node is retired.  The server goes on with
the report and sets the node's state to `up`. -/
theorem retired_node_up : ∃ c c', (lifeServer fun _ _ => True).Initial LifeInitial c ∧
    (lifeServer fun _ _ => True).Steps c c' ∧ c'.shared.retired 7 = true ∧
    nodeState c'.shared.db 7 = some .up ∧ ¬ RetirementSticks c'.shared := by
  have hmark : (lifeServer fun _ _ => True).Steps (operatorRetires reportStored) nodeMarked :=
    System.steps_play (lifeAnswers_sem _)
      (fun q hq => lifeScript_legal _ q (mem_append_right _ hq)) (Option.some_get mark_plays).symm
  have hretired : nodeMarked.shared.retired 7 = true := by decide +kernel
  have hup : nodeState nodeMarked.shared.db 7 = some .up := by decide +kernel
  refine ⟨lifeStart, nodeMarked, lifeStart_initial _, ?_, hretired, hup, fun h => ?_⟩
  · exact ((reportStored_steps _).trans (operatorRetires_steps reportStored trivial)).trans hmark
  · rw [h 7 hretired] at hup
    cases hup

end SolariNet
