/-
# Decommissioning a node

The statements of `serverDb.c` on `decommissionChallenge` and the system of any number of server
processes that issue, confirm, deliver, acknowledge and cancel challenges over one database.  Every
statement is one transaction; the answer of one that has committed may be lost.
-/
import SolariNet.Lib.Play
import SolariNet.Server.DecommissionJournal
import SolariNet.Server.Footprint

namespace SolariNet

open Function List Lib Lib.Prog

/-! ## Statements -/

def nextGeneration (db : Db) (nodeId : UInt64) : Option UInt64 :=
  match db.decommissionChallenge.find? nodeId with
  | none => some 1
  | some r => if r.generation.toNat + 1 < 2 ^ 64 then some (r.generation + 1) else none

def serverDbDecommissionIssue (db : Db) (c : DecommissionIssue) : Except Status Db :=
  if c.nodeId = 0 ∨ c.wipeScope = 0 ∨ c.requestedBy = [] ∨ c.expiresAt ≤ c.issuedAt then
    .error .errInvalidArg
  else if 256 ≤ c.wipeScope.toNat ∨ 128 < c.requestedBy.length ∨
      db.node.find? c.nodeId = none then .error .errDb
  else
    match nextGeneration db c.nodeId with
    | none => .error .errDb
    | some g =>
      .ok { db with
        decommissionChallenge := db.decommissionChallenge.upsert (issueRow c g)
          (fun r => { issueRow c g with nodeId := r.nodeId }) fun _ => rfl }

def confirmHit (c : DecommissionConfirm) (r : ChallengeRow) : Bool :=
  r.nodeId == c.nodeId && r.wipeScope == c.wipeScope && r.requestedBy == c.requestedBy &&
    r.tokenHash == c.tokenHash && r.state == .pending && decide (c.nowMs < r.expiresAt)

def serverDbDecommissionConfirm (db : Db) (c : DecommissionConfirm) (dbNow : UInt64) :
    Except Status Db :=
  if c.nodeId = 0 ∨ c.wipeScope = 0 ∨ c.requestedBy = [] ∨ c.nowMs = 0 then .error .errInvalidArg
  else
    match db.decommissionChallenge.updateWhere (confirmHit c) (·.consume dbNow) fun _ => rfl with
    | none => .error .errAuthRole
    | some t => .ok { db with decommissionChallenge := t }

def noteHit (nodeId generation nowMs : UInt64) (r : ChallengeRow) : Bool :=
  r.nodeId == nodeId && r.generation == generation && r.state == .consumed && r.isDue nowMs

def serverDbDecommissionNoteAttempt (db : Db) (nodeId generation nowMs nextMs : UInt64) :
    Except Status Db :=
  let full (r : ChallengeRow) : Bool :=
    noteHit nodeId generation nowMs r && decide (2 ^ 32 ≤ r.deliveryAttempts.toNat + 1)
  if nodeId = 0 ∨ generation = 0 ∨ nowMs = 0 ∨ nextMs ≤ nowMs then .error .errInvalidArg
  else if db.decommissionChallenge.rows.any full then .error .errDb
  else
    match db.decommissionChallenge.updateWhere (noteHit nodeId generation nowMs) (·.note nextMs)
        fun _ => rfl with
    | none => .error .errAuthRole
    | some t => .ok { db with decommissionChallenge := t }

def dueBefore (r q : ChallengeRow) : Bool :=
  match r.nextDeliveryAt, q.nextDeliveryAt with
  | none, some _ => true
  | some _, none => false
  | none, none => r.nodeId ≤ q.nodeId
  | some s, some t => s < t || s == t && r.nodeId ≤ q.nodeId

def serverDbDecommissionListDue (db : Db) (nowMs : UInt64) (cap : Nat) :
    List DecommissionDelivery :=
  let due := db.decommissionChallenge.rows.filter fun r => r.state == .consumed && r.isDue nowMs
  ((due.mergeSort dueBefore).take cap).map fun r =>
    ⟨r.nodeId, r.wipeScope, r.generation, r.deliveryAttempts⟩

variable {db : Db}

theorem confirm_ne_ok {dbNow : UInt64} :
    serverDbDecommissionConfirm db c dbNow ≠ .error .ok := by
  unfold serverDbDecommissionConfirm
  split
  · simp
  · split <;> simp

theorem noteAttempt_ne_ok {nodeId generation nowMs nextMs : UInt64} :
    serverDbDecommissionNoteAttempt db nodeId generation nowMs nextMs ≠ .error .ok := by
  unfold serverDbDecommissionNoteAttempt
  simp only
  split
  · simp
  split
  · simp
  · split <;> simp

/-! ## The system -/

/-- The tables, the journal, and the windows that were noted and not yet used. -/
structure DecWorld (ι : Type) where
  db : Db
  journal : List DecEvent
  noted : ι → Option Window

variable {ι : Type}

def DecWorld.record (w : DecWorld ι) (db : Db) (e : DecEvent) : DecWorld ι :=
  { w with db := db, journal := e :: w.journal }

inductive DecTxn (w : DecWorld ι) (body : Except Status Db) (e : DecEvent) :
    Status → DecWorld ι → Prop where
  | aborted : DecTxn w body e .errDb w
  | refused {st : Status} (h : body = .error st) : DecTxn w body e st w
  | committed {db : Db} (h : body = .ok db) : DecTxn w body e .ok (w.record db e)
  | unconfirmed {db : Db} (h : body = .ok db) : DecTxn w body e .errDb (w.record db e)

def windowOf (db : Db) (nodeId : UInt64) : Option Window :=
  (db.decommissionChallenge.find? nodeId).map (·.window)

variable [DecidableEq ι]

def DecWorld.publish (w : DecWorld ι) (i : ι) (frame : Bytes) : DecWorld ι :=
  { w with
    journal := .published frame (w.noted i) :: w.journal
    noted := update w.noted i none }

inductive NoteTxn (i : ι) (w : DecWorld ι) (nodeId generation nowMs nextMs : UInt64) :
    Status → DecWorld ι → Prop where
  | aborted : NoteTxn i w nodeId generation nowMs nextMs .errDb w
  | refused {st : Status}
      (h : serverDbDecommissionNoteAttempt w.db nodeId generation nowMs nextMs = .error st) :
      NoteTxn i w nodeId generation nowMs nextMs st w
  | committed {db : Db} {win : Window}
      (h : serverDbDecommissionNoteAttempt w.db nodeId generation nowMs nextMs = .ok db)
      (hwin : windowOf w.db nodeId = some win) :
      NoteTxn i w nodeId generation nowMs nextMs .ok
        { w.record db (.noted win nowMs nextMs) with noted := update w.noted i (some win) }
  | unconfirmed {db : Db} {win : Window}
      (h : serverDbDecommissionNoteAttempt w.db nodeId generation nowMs nextMs = .ok db)
      (hwin : windowOf w.db nodeId = some win) :
      NoteTxn i w nodeId generation nowMs nextMs .errDb (w.record db (.noted win nowMs nextMs))

def decSem (i : ι) : Sem ProvOp ProvOp.Res (DecWorld ι)
  | .decommissionIssue c, w, rc, w' =>
    DecTxn w (serverDbDecommissionIssue w.db c)
      (.issued c ((nextGeneration w.db c.nodeId).getD 0)) rc w'
  | .decommissionConfirm c, w, r, w' => ∃ dbNow g rc, windowOf w.db c.nodeId = g ∧
      DecTxn w (serverDbDecommissionConfirm w.db c dbNow)
        (.confirmed c ((g.map (·.generation)).getD 0) dbNow) rc w' ∧
      r = if rc = .ok then .ok ((g.map (·.generation)).getD 0) else .error rc
  | .decommissionListDue nowMs cap, w, r, w' =>
    Query (.ok (serverDbDecommissionListDue w.db nowMs cap)) r ∧ w' = w
  | .decommissionNoteAttempt n g nowMs nextMs, w, rc, w' => NoteTxn i w n g nowMs nextMs rc w'
  | .retireNode n, w, rc, w' => DecTxn w (retireNodeTxn w.db n) (.retired n) rc w'
  | .srv (.decommissionAck n g), w, rc, w' =>
    DecTxn w (decommissionAckTxn w.db n g) (.acknowledged n g) rc w'
  | .srv (.publishControl frame), w, rc, w' => rc ≠ .ok ∧ w' = w ∨ w' = w.publish i frame
  | .srv o, w, r, w' => ∃ db, dbSem o w.db r db ∧ w' = { w with db := db }
  | .randomToken, w, _, w' => w' = w
  | .audit _ _ _, w, _, w' | .setNodeTargetEpoch _ _ _, w, _, w' =>
    ∃ db, db.decommissionChallenge = w.db.decommissionChallenge ∧ w' = { w with db := db }

inductive DecStart (self : UInt64) : ProvM Unit → Prop where
  | decommission (nodeId : UInt64) (wipeScope : UInt32) (operator : CStr) : DecStart self
      (serverProvisionDecommission nodeId wipeScope operator >>= fun _ => .ret ())
  | confirm (pub : Bool) (nodeId : UInt64) (wipeScope : UInt32) (operator : CStr) (token : UInt64) :
      DecStart self (serverProvisionConfirmDecommission self pub nodeId wipeScope operator token >>=
        fun _ => .ret ())
  | retry (pub : Bool) (nowMs : UInt64) :
      DecStart self (serverProvisionRetryDecommissions self pub nowMs)
  | result (nodeId : UInt64) (correlationId : UInt32) (payload : Bytes) : DecStart self
      (onSrv (serverControlOnResult nodeId correlationId payload) >>= fun _ => .ret ())
  | retire (nodeId : UInt64) : DecStart self (serverProvisionRetire nodeId >>= fun _ => .ret ())

/-- Server processes, each with its own id; other programs leave the challenges alone. -/
def decSystem (ids : ι → UInt64) : System ι ProvOp ProvOp.Res (DecWorld ι) Unit where
  sem i := decSem i
  start i _ p := DecStart (ids i) p
  env w w' := ∃ db, db.decommissionChallenge = w.db.decommissionChallenge ∧ w' = { w with db := db }
  boot _ _ := True

omit [DecidableEq ι] in
def DecInitial (w : DecWorld ι) : Prop :=
  w.db.decommissionChallenge.rows = [] ∧ w.journal = [] ∧ ∀ i, w.noted i = none

/-! ## The invariant -/

structure DecInv (w : DecWorld ι) : Prop where
  journal : Journal DecRule w.journal
  rows : ∀ n, w.db.decommissionChallenge.find? n = challenge w.journal n
  noted : ∀ i win, w.noted i = some win → Noted w.journal win ∧ Unpublished w.journal win
  apart : ∀ i j win win', w.noted i = some win → w.noted j = some win' → win.key = win'.key → i = j

section
omit [DecidableEq ι]
variable {w : DecWorld ι}

theorem DecInv.tables (h : DecInv w) (hdb : db.decommissionChallenge = w.db.decommissionChallenge) :
    DecInv { w with db := db } :=
  ⟨h.journal, fun n => by rw [hdb]; exact h.rows n, h.noted, h.apart⟩

variable {es : List DecEvent} {win : Window} {n : UInt64}

theorem Noted.cons (h : Noted es win) (e : DecEvent) : Noted (e :: es) win := by
  obtain ⟨nowMs, nextMs, hmem⟩ := h
  exact ⟨nowMs, nextMs, mem_cons_of_mem _ hmem⟩

variable {e : DecEvent} {g : UInt64}

theorem Unpublished.cons (h : Unpublished es win)
    (he : ∀ frame win', e = .published frame (some win') → win'.key ≠ win.key) :
    Unpublished (e :: es) win := by
  intro frame win' hmem
  rcases mem_cons.1 hmem with heq | hold
  · exact he frame win' heq.symm
  · exact h frame win' hold

theorem noted_of_published (h : Journal DecRule es)
    (hmem : .published frame (some win) ∈ es) : Noted es win := by
  obtain ⟨newer, older, rfl, win', scope, hwin, ⟨nowMs, nextMs, hnoted⟩, -⟩ :=
    h.admitted_of_mem hmem
  cases hwin
  exact ⟨nowMs, nextMs, mem_append_right _ (mem_cons_of_mem _ hnoted)⟩

theorem DecInv.record (h : DecInv w) (he : DecRule w.journal e)
    (hrows : ∀ n, db.decommissionChallenge.find? n = e.apply n (challenge w.journal n))
    (hpub : ∀ frame win, e ≠ .published frame win) : DecInv (w.record db e) where
  journal := h.journal.cons he
  rows := hrows
  noted i win hi := by
    obtain ⟨hn, hu⟩ := h.noted i win hi
    exact ⟨hn.cons e, hu.cons fun frame win' heq => absurd heq (hpub frame _)⟩
  apart := h.apart

theorem rows_of_updateWhere (h : DecInv w)
    {hit : ChallengeRow → Bool} {f : ChallengeRow → ChallengeRow}
    {hf : ∀ r, (f r).nodeId = r.nodeId}
    (ht : w.db.decommissionChallenge.updateWhere hit f hf = some t)
    (hn : ∀ r, hit r = true → r.nodeId = n) :
    ∃ row, challenge w.journal n = some row ∧ hit row = true ∧
      ∀ m, t.find? m = if n = m then (challenge w.journal m).map f else challenge w.journal m := by
  obtain ⟨⟨row, hrow, hhit, hnew⟩, hother⟩ := Table.find?_updateWhere ht hn
  rw [h.rows] at hrow
  refine ⟨row, hrow, hhit, fun m => ?_⟩
  by_cases hm : n = m
  · subst hm
    rw [if_pos rfl, hnew, hrow]
    rfl
  · rw [if_neg hm, hother m (Ne.symm hm)]
    exact h.rows m

omit w in
theorem find?_issueRow (t : Table ChallengeRow.nodeId) (c : DecommissionIssue) (g n : UInt64) :
    (t.upsert (issueRow c g) (fun r => { issueRow c g with nodeId := r.nodeId })
      fun _ => rfl).find? n = if c.nodeId = n then some (issueRow c g) else t.find? n := by
  by_cases hn : c.nodeId = n
  · subst hn
    rw [if_pos rfl, show c.nodeId = (issueRow c g).nodeId from rfl, Table.find?_upsert]
    cases hrow : t.find? (issueRow c g).nodeId with
    | none => rfl
    | some r =>
      have hkey : r.nodeId = (issueRow c g).nodeId := (Table.find?_eq_some.1 hrow).2
      rw [Option.map_some, Option.getD_some, hkey]
  · rw [if_neg hn]
    exact Table.find?_upsert_of_ne t _ (Ne.symm hn)

section
variable (h : DecInv w)
include h

theorem DecInv.issue (hdb : serverDbDecommissionIssue w.db c = .ok db) :
    DecInv (w.record db (.issued c ((nextGeneration w.db c.nodeId).getD 0))) := by
  obtain ⟨-, hdb⟩ := guard_ok.1 hdb
  obtain ⟨hcols, hdb⟩ := guard_ok.1 hdb
  split at hdb
  · cases hdb
  next g hg =>
  cases hdb
  rw [hg]
  have hscope : c.wipeScope.toNat < 256 := Nat.lt_of_not_le fun hle => hcols (.inl hle)
  refine h.record ⟨hscope, ?_⟩ (fun n => ?_) (by simp)
  · rw [← h.rows c.nodeId]
    unfold nextGeneration at hg
    split at hg
    · next hnone =>
      cases hg
      rw [hnone]
      rfl
    · next r hr =>
      split at hg
      · next hroom =>
        cases hg
        rw [hr]
        exact Nat.mod_eq_of_lt hroom
      · cases hg
  · refine (find?_issueRow _ c g n).trans ?_
    rw [h.rows]
    rfl

theorem DecInv.confirm {dbNow : UInt64}
    (hdb : serverDbDecommissionConfirm w.db c dbNow = .ok db) :
    DecInv (w.record db
      (.confirmed c (((windowOf w.db c.nodeId).map (·.generation)).getD 0) dbNow)) := by
  obtain ⟨-, hdb⟩ := guard_ok.1 hdb
  split at hdb
  · cases hdb
  next t ht =>
  cases hdb
  have hn (r : ChallengeRow) (hr : confirmHit c r = true) : r.nodeId = c.nodeId := by
    simp only [confirmHit, Bool.and_eq_true, beq_iff_eq] at hr
    exact hr.1.1.1.1.1
  obtain ⟨row, hrow, hhit, hrows⟩ := rows_of_updateWhere h ht hn
  simp only [confirmHit, Bool.and_eq_true, beq_iff_eq, decide_eq_true_eq] at hhit
  obtain ⟨⟨⟨⟨⟨-, hscope⟩, hby⟩, htoken⟩, hst⟩, hexp⟩ := hhit
  have hwin : windowOf w.db c.nodeId = some row.window := by
    rw [windowOf, h.rows, hrow]
    rfl
  rw [hwin]
  exact h.record ⟨row, hrow, hst, rfl, hscope, hby, htoken, hexp⟩ hrows
    (by simp)

theorem DecInv.ack (hdb : decommissionAckTxn w.db n g = .ok db) :
    DecInv (w.record db (.acknowledged n g)) := by
  obtain ⟨t, ht, rfl⟩ := decommissionAckTxn_eq_ok hdb
  obtain ⟨row, hrow, hhit, hrows⟩ := rows_of_updateWhere h ht fun r hr => by
    simp only [Bool.and_eq_true, beq_iff_eq] at hr
    exact hr.1.1
  simp only [Bool.and_eq_true, beq_iff_eq] at hhit
  exact h.record ⟨row, hrow, hhit.2, hhit.1.2⟩ hrows (by simp)

theorem DecInv.retire (hdb : retireNodeTxn w.db n = .ok db) :
    DecInv (w.record db (.retired n)) := by
  cases retireNodeTxn_eq_ok hdb
  refine h.record trivial (fun m => ?_) (by simp)
  simp only [serverDbSetNodeState, Table.find?_update]
  rw [h.rows]
  cases hrow : challenge w.journal m with
  | none => simp only [DecEvent.apply, Option.map_none, ite_self]
  | some r =>
    have hm : r.nodeId = m := (Table.find?_eq_some.1 ((h.rows m).trans hrow)).2
    subst hm
    by_cases hn : n = r.nodeId
    · subst hn
      simp only [DecEvent.apply, if_pos, Option.map_some, beq_self_eq_true, Bool.true_and,
        Bool.or_eq_true, beq_iff_eq, ChallengeRow.cancel]
    · have hne : (r.nodeId == n) = false := beq_false_of_ne (Ne.symm hn)
      simp only [DecEvent.apply, if_neg hn, Option.map_some, hne, Bool.false_and,
        Bool.false_eq_true, if_false]

theorem DecInv.note {nowMs nextMs : UInt64}
    (hdb : serverDbDecommissionNoteAttempt w.db n g nowMs nextMs = .ok db)
    (hwin : windowOf w.db n = some win) :
    win.nodeId = n ∧ win.generation = g ∧ (∀ win', Noted w.journal win' → win'.key ≠ win.key) ∧
      DecInv (w.record db (.noted win nowMs nextMs)) := by
  obtain ⟨-, hdb⟩ := guard_ok.1 hdb
  obtain ⟨hfull, hdb⟩ := guard_ok.1 hdb
  split at hdb
  · cases hdb
  next t ht =>
  cases hdb
  obtain ⟨row, hrow, hhit, hrows⟩ := rows_of_updateWhere h ht fun r hr => by
    simp only [noteHit, Bool.and_eq_true, beq_iff_eq] at hr
    exact hr.1.1.1
  have hroom : row.deliveryAttempts.toNat + 1 < 2 ^ 32 := by
    refine Nat.lt_of_not_le fun hle => hfull ?_
    have hmem := (Table.find?_eq_some.1 ((h.rows n).trans hrow)).1
    exact any_eq_true.2 ⟨row, hmem, by rw [hhit, decide_eq_true hle]; rfl⟩
  simp only [noteHit, Bool.and_eq_true, beq_iff_eq] at hhit
  obtain ⟨⟨⟨hnode, hgen⟩, hst⟩, hdue⟩ := hhit
  rw [windowOf, h.rows, hrow] at hwin
  cases hwin
  have hnode' : row.window.nodeId = n := hnode
  refine ⟨hnode, hgen, fun win' hn => noted_fresh h.journal hrow hn, ?_⟩
  refine h.record ⟨row, hnode'.symm ▸ hrow, hst, rfl, hdue, hroom⟩ ?_
    (by simp)
  intro m
  show t.find? m = if row.window.nodeId = m then _ else _
  rw [hnode']
  exact hrows m

end

end

variable {w w' : DecWorld ι} {o : ProvOp} {r : o.Res} {i : ι}

theorem DecInv.hold (h : DecInv w) (hn : Noted w.journal win) (hu : Unpublished w.journal win)
    (hnew : ∀ j win', j ≠ i → w.noted j = some win' → win'.key ≠ win.key) :
    DecInv { w with noted := update w.noted i (some win) } := by
  refine ⟨h.journal, h.rows, fun j win' hj => ?_, fun j k win₁ win₂ hj hk hkey => ?_⟩
  · rcases update_eq_iff.1 hj with ⟨-, ⟨⟩⟩ | ⟨-, hj⟩
    · exact ⟨hn, hu⟩
    · exact h.noted j win' hj
  · rcases update_eq_iff.1 hj with ⟨hji, ⟨⟩⟩ | ⟨hji, hj⟩
    · rcases update_eq_iff.1 hk with ⟨hki, -⟩ | ⟨hki, hk⟩
      · exact hji.trans hki.symm
      · exact absurd hkey.symm (hnew k win₂ hki hk)
    · rcases update_eq_iff.1 hk with ⟨-, ⟨⟩⟩ | ⟨-, hk⟩
      · exact absurd hkey (hnew j win₁ hji hj)
      · exact h.apart j k win₁ win₂ hj hk hkey

theorem DecInv.publish (h : DecInv w) {scope : UInt32} (hi : w.noted i = some win)
    (hc : Confirmed w.journal win.nodeId win.generation scope)
    (hd : Directs frame win.nodeId win.generation scope) : DecInv (w.publish i frame) := by
  obtain ⟨hn, hu⟩ := h.noted i win hi
  have hother {j : ι} {win' : Window} (hj : (w.publish i frame).noted j = some win') :
      j ≠ i ∧ w.noted j = some win' := by
    rcases update_eq_iff.1 hj with ⟨-, ⟨⟩⟩ | hj
    exact hj
  refine ⟨h.journal.cons ⟨win, scope, hi, hn, hu, hc, hd⟩, h.rows, fun j win' hj => ?_,
    fun j k win₁ win₂ hj hk => h.apart j k win₁ win₂ (hother hj).2 (hother hk).2⟩
  obtain ⟨hji, hj⟩ := hother hj
  obtain ⟨hn', hu'⟩ := h.noted j win' hj
  refine ⟨hn'.cons _, hu'.cons fun f win₁ heq hkey => ?_⟩
  rw [hi] at heq
  cases heq
  exact hji (h.apart i j win win' hi hj hkey).symm

/-! ## Operations -/

structure DecRely (i : ι) (w w' : DecWorld ι) : Prop where
  journal : w.journal <:+ w'.journal
  noted : w'.noted i = w.noted i

omit [DecidableEq ι] in
theorem DecRely.refl (i : ι) (w : DecWorld ι) : DecRely i w w := ⟨suffix_refl _, rfl⟩

def ProvOp.isAside : ProvOp → Bool
  | .srv .now | .srv (.controlResultApply _) | .randomToken | .audit _ _ _ => true
  | _ => false

theorem decSem_aside (ho : o.isAside = true) (h : decSem i o w r w') :
    ∃ db, db.decommissionChallenge = w.db.decommissionChallenge ∧ w' = { w with db := db } := by
  cases o with
  | srv o =>
    cases o with
    | now =>
      obtain ⟨db, rfl, rfl⟩ := h
      exact ⟨w.db, rfl, rfl⟩
    | controlResultApply out =>
      obtain ⟨db, htxn, rfl⟩ := h
      refine ⟨db, ?_, rfl⟩
      rcases Txn.cases_db htxn with rfl | hdb
      · rfl
      · obtain ⟨t, c, rfl⟩ := controlResultTxn_eq_ok hdb
        rfl
    | _ => cases ho
  | randomToken =>
    cases h
    exact ⟨w.db, rfl, rfl⟩
  | audit n severity detail => exact h
  | _ => cases ho

omit [DecidableEq ι] in
theorem DecTxn.step
    (h : DecTxn w body e rc w') : w.journal <:+ w'.journal ∧ w'.noted = w.noted := by
  cases h with
  | aborted | refused _ => exact ⟨suffix_refl _, rfl⟩
  | committed _ | unconfirmed _ => exact ⟨suffix_cons _ _, rfl⟩

theorem decSem_step (h : decSem i o w r w') :
    w.journal <:+ w'.journal ∧ (w'.noted = w.noted ∨ ∃ win, w'.noted = update w.noted i win) := by
  have hrec {body : Except Status Db} {e : DecEvent} {rc : Status} (h : DecTxn w body e rc w') :
      w.journal <:+ w'.journal ∧
        (w'.noted = w.noted ∨ ∃ win, w'.noted = update w.noted i win) := ⟨h.step.1, .inl h.step.2⟩
  cases o with
  | srv o =>
    cases o with
    | decommissionAck n g => exact hrec h
    | publishControl frame =>
      rcases h with ⟨-, rfl⟩ | rfl
      · exact ⟨suffix_refl _, .inl rfl⟩
      · exact ⟨suffix_cons _ _, .inr ⟨none, rfl⟩⟩
    | _ =>
      obtain ⟨db, -, rfl⟩ := h
      exact ⟨suffix_refl _, .inl rfl⟩
  | randomToken =>
    cases h
    exact ⟨suffix_refl _, .inl rfl⟩
  | audit | setNodeTargetEpoch =>
    obtain ⟨db, -, rfl⟩ := h
    exact ⟨suffix_refl _, .inl rfl⟩
  | decommissionIssue c => exact hrec h
  | decommissionConfirm c =>
    obtain ⟨dbNow, g, rc, -, hconf, -⟩ := h
    exact hrec hconf
  | decommissionListDue nowMs cap =>
    obtain ⟨-, rfl⟩ := h
    exact ⟨suffix_refl _, .inl rfl⟩
  | decommissionNoteAttempt n g nowMs nextMs =>
    cases h with
    | aborted | refused _ => exact ⟨suffix_refl _, .inl rfl⟩
    | @committed db win _ _ => exact ⟨suffix_cons _ _, .inr ⟨some win, rfl⟩⟩
    | unconfirmed _ _ => exact ⟨suffix_cons _ _, .inl rfl⟩
  | retireNode n => exact hrec h

theorem decSem_rely {j : ι} (hij : i ≠ j) (h : decSem j o w r w') : DecRely i w w' := by
  obtain ⟨hjournal, hsame | ⟨win, hupd⟩⟩ := decSem_step h
  · exact ⟨hjournal, congrFun hsame i⟩
  · exact ⟨hjournal, (congrFun hupd i).trans (update_of_ne hij _ _)⟩

/-! ## Programs -/

abbrev DecSafe (i : ι) {α : Type} : (α → DecWorld ι → Prop) → ProvM α → DecWorld ι → Prop :=
  Safe (decSem i) (DecRely i) DecInv

section
variable {i : ι} {w : DecWorld ι}

section
omit [DecidableEq ι]

theorem Confirmed.later {es' : List DecEvent} {g : UInt64} {scope : UInt32}
    (h : Confirmed es n g scope) (hsuf : es <:+ es') : Confirmed es' n g scope := by
  obtain ⟨c, t, hmem, hc⟩ := h
  exact ⟨c, t, hsuf.subset hmem, hc⟩

theorem DecTxn.inv
    (hrec : DecTxn w body e rc w') (h : DecInv w)
    (hbody : ∀ db, body = .ok db → DecInv (w.record db e)) : DecInv w' := by
  cases hrec with
  | aborted | refused _ => exact h
  | committed hdb | unconfirmed hdb => exact hbody _ hdb

end

variable {K : List DecEvent → Prop} {α : Type} {p : ProvM α}

theorem safe_journalless (hp : p.Uses fun o => o.isAside = true)
    (hK : ∀ es es', K es → es <:+ es' → K es') (h : K w.journal) :
    DecSafe i (fun _ w => K w.journal) p w := by
  refine Safe.of_uses (fun w w' hk hR _ => hK _ _ hk hR.journal)
    (fun o w r w' ho hI hk hs => ?_) hp h
  obtain ⟨db, hdb, rfl⟩ := decSem_aside ho hs
  exact ⟨hI.tables hdb, hk⟩

theorem decSafe_aside (hp : p.Uses fun o => o.isAside = true) (w : DecWorld ι) :
    DecSafe i (fun _ _ => True) p w :=
  safe_journalless (K := fun _ => True) hp (fun _ _ _ _ => trivial) trivial

theorem safe_grows {Q : α → DecWorld ι → Prop} (hp : DecSafe i Q p w)
    (hK : ∀ es es', K es → es <:+ es' → K es') (h : K w.journal) :
    DecSafe i (fun a w => Q a w ∧ K w.journal) p w :=
  hp.frame (P := fun _ => True) (K := fun w => K w.journal)
    (fun _ _ hk hR => hK _ _ hk hR.journal) (fun _ _ _ _ _ hs hk => hK _ _ hk (decSem_step hs).1)
    (.of_forall (fun _ => trivial) p) h

theorem noteAndSend_safe (pub : Bool) {g : UInt64} (nowMs nextMs : UInt64) {scope : UInt32}
    (hconf : Confirmed w.journal n g scope) (hdirects : Directs frame n g scope) :
    DecSafe i (fun _ _ => True)
      (prov (.decommissionNoteAttempt n g nowMs nextMs) >>= fun rc =>
        if rc ≠ .ok then .ret rc else provSendControl pub frame) w := by
  refine safe_perform_bind.2 ?_
  intro w₁ hR hI rc w₂ hs
  have hconf₁ := hconf.later hR.journal
  cases hs with
  | aborted => exact ⟨hI, trivial⟩
  | refused hdb =>
    refine ⟨hI, ?_⟩
    split
    · trivial
    next hok =>
    cases not_not.1 hok
    exact absurd hdb noteAttempt_ne_ok
  | unconfirmed hdb hwin => exact ⟨(hI.note hdb hwin).2.2.2, trivial⟩
  | @committed db win hdb hwin =>
    obtain ⟨rfl, rfl, hnew, hI₁⟩ := hI.note hdb hwin
    have hheld : update w₁.noted i (some win) i = some win := update_self _ _ _
    refine ⟨hI₁.hold ⟨_, _, mem_cons_self⟩ ?_ fun j win' _ hj => ?_, ?_⟩
    · intro f win' hmem
      rcases mem_cons.1 hmem with heq | hold
      · cases heq
      · exact hnew win' (noted_of_published hI.journal hold)
    · exact hnew win' (hI.noted j win' hj).1
    · rw [if_neg (not_not.2 rfl)]
      unfold provSendControl
      split
      · trivial
      refine safe_perform.2 ?_
      rintro w₃ hR₃ hI₃ rc w₄ (⟨-, rfl⟩ | rfl)
      · exact ⟨hI₃, trivial⟩
      · have hconf₃ := (hconf₁.cons _).later hR₃.journal
        exact ⟨hI₃.publish (hR₃.noted.trans hheld) hconf₃ hdirects, trivial⟩

theorem provDispatchDecommission_safe (self : UInt64) (pub : Bool) (job : DecommissionDelivery)
    (nowMs : UInt64) (hjob : Confirmed w.journal job.nodeId job.generation job.wipeScope) :
    DecSafe i (fun _ _ => True) (provDispatchDecommission self pub job nowMs) w := by
  unfold provDispatchDecommission
  split
  · trivial
  unfold provBuildDecommissionPayload
  cases hb : solariTlvAppendAll (solariTlvWriterInit provPayloadCap)
      (decommissionTlvs job.nodeId job.generation job.wipeScope) with
  | error st => trivial
  | ok tw =>
    have hbuf : tw.buf = encodeTlvs (decommissionTlvs job.nodeId job.generation job.wipeScope) :=
      (solariTlvAppendAll_ok hb).trans (nil_append _)
    have hframe := (safe_journalless (i := i)
      (p := provAssembleFrame self Msg.decommission tw.count tw.buf provFrameCap)
      (K := fun es => Confirmed es job.nodeId job.generation job.wipeScope)
      (.perform_bind rfl fun _ => trivial) (fun _ _ hc => hc.later) hjob).returns
        (provAssembleFrame_returns _ _ _ _ _)
    refine hframe.seq ?_
    rintro r w₁ ⟨hjob, hr⟩
    cases r with
    | error st => trivial
    | ok frame =>
      obtain ⟨f, t, hf, hhdr, hpayload⟩ := hr frame rfl
      have hdirects : Directs frame job.nodeId job.generation job.wipeScope :=
        ⟨f, hf, by rw [hhdr]; rfl, hpayload.trans hbuf⟩
      exact noteAndSend_safe pub nowMs _ hjob hdirects

theorem provRetryJobs_safe (self : UInt64) (pub : Bool) (nowMs : UInt64)
    {jobs : List DecommissionDelivery}
    (hjobs : ∀ job ∈ jobs, Confirmed w.journal job.nodeId job.generation job.wipeScope) :
    DecSafe i (fun _ _ => True) (provRetryJobs self pub nowMs jobs) w := by
  induction jobs generalizing w with
  | nil => trivial
  | cons job jobs ih =>
    have hjob := hjobs job mem_cons_self
    have hrest : ∀ q ∈ jobs, Confirmed w.journal q.nodeId q.generation q.wipeScope :=
      fun q hq => hjobs q (mem_cons_of_mem _ hq)
    refine (safe_grows (provDispatchDecommission_safe self pub job nowMs hjob)
      (K := fun es => ∀ q ∈ jobs, Confirmed es q.nodeId q.generation q.wipeScope)
      (fun _ _ hk hsuf q hq => (hk q hq).later hsuf) hrest).seq ?_
    rintro rc w' ⟨-, hk⟩
    exact ih hk

omit [DecidableEq ι] in
theorem confirmed_of_due (h : DecInv w) {nowMs : UInt64} {cap : Nat}
    (hjob : job ∈ serverDbDecommissionListDue w.db nowMs cap) :
    Confirmed w.journal job.nodeId job.generation job.wipeScope := by
  obtain ⟨row, hrow, rfl⟩ := mem_map.1 hjob
  have hdue := mem_mergeSort.1 (mem_of_mem_take hrow)
  obtain ⟨hmem, hst⟩ := mem_filter.1 hdue
  simp only [Bool.and_eq_true, beq_iff_eq] at hst
  have hfind : challenge w.journal row.nodeId = some row :=
    (h.rows _).symm.trans (Table.find?_eq_some.2 ⟨hmem, rfl⟩)
  exact confirmed_of_consumed h.journal hfind hst.1

theorem serverProvisionRetryDecommissions_safe (self : UInt64) (pub : Bool) (nowMs : UInt64) :
    DecSafe i (fun _ _ => True) (serverProvisionRetryDecommissions self pub nowMs) w := by
  have hlist (now : UInt64) (w : DecWorld ι) : DecSafe i (fun _ _ => True)
      (prov (.decommissionListDue now retryBatch) >>= fun r => match r with
        | .error _ => .ret ()
        | .ok jobs => provRetryJobs self pub now jobs) w := by
    refine safe_perform_bind.2 ?_
    rintro w₁ - hI r w₂ ⟨hq, rfl⟩
    refine ⟨hI, ?_⟩
    rcases hq with rfl | rfl
    · exact provRetryJobs_safe self pub now fun job hjob => confirmed_of_due hI hjob
    · trivial
  unfold serverProvisionRetryDecommissions
  split
  · exact (decSafe_aside (.perform rfl) w).seq fun now w _ => hlist now w
  · exact hlist nowMs w

theorem serverProvisionDecommission_safe (nodeId : UInt64) (wipeScope : UInt32) (operator : CStr) :
    DecSafe i (fun _ _ => True) (serverProvisionDecommission nodeId wipeScope operator) w := by
  unfold serverProvisionDecommission
  split
  · trivial
  refine (decSafe_aside (.perform rfl) w).seq fun nowMs w _ => ?_
  refine (decSafe_aside (.perform rfl) w).seq fun r w _ => ?_
  cases r with
  | error st => trivial
  | ok token =>
    refine (decSafe_aside (.perform rfl) w).seq fun rc w _ => ?_
    split
    · trivial
    refine safe_perform_bind.2 ?_
    intro w₁ _ hI rc w₂ hs
    exact ⟨DecTxn.inv hs hI fun db hdb => hI.issue hdb, trivial⟩

theorem serverProvisionConfirmDecommission_safe (self : UInt64) (pub : Bool) (nodeId : UInt64)
    (wipeScope : UInt32) (operator : CStr) (token : UInt64) :
    DecSafe i (fun _ _ => True)
      (serverProvisionConfirmDecommission self pub nodeId wipeScope operator token) w := by
  unfold serverProvisionConfirmDecommission
  split
  · trivial
  refine (decSafe_aside (.perform rfl) w).seq fun nowMs w _ => ?_
  refine safe_perform_bind.2 ?_
  rintro w₁ - hI r w₂ ⟨dbNow, g, rc, rfl, hrec, rfl⟩
  refine ⟨hrec.inv hI fun db hdb => hI.confirm hdb, ?_⟩
  by_cases hrc : rc = .ok
  · subst hrc
    cases hrec with
    | refused hdb => exact absurd hdb confirm_ne_ok
    | committed hdb =>
      refine (provDispatchDecommission_safe _ _ _ _ ?_).seq fun st w _ => ?_
      · exact ⟨_, _, mem_cons_self, rfl, rfl⟩
      · exact decSafe_aside (.perform_bind rfl fun _ => uses_ret _ _) w
  · rw [if_neg hrc]
    trivial

theorem serverControlOnResult_dec (nodeId : UInt64) (correlationId : UInt32) (payload : Bytes) :
    DecSafe i (fun _ _ => True) (onSrv (serverControlOnResult nodeId correlationId payload)) w := by
  have huses : (serverControlOnResult nodeId correlationId payload).Uses fun o =>
      (ProvOp.srv o).isAside = true ∨ ∃ g, o = .decommissionAck nodeId g :=
    serverControlOnResult_uses (.inl rfl) (fun g => .inr ⟨g, rfl⟩) (fun _ => .inl rfl) payload
  have hsafe : Safe (fun o => decSem i (.srv o)) (DecRely i) DecInv (fun _ _ => True)
      (serverControlOnResult nodeId correlationId payload) w := by
    refine Safe.of_uses (K := fun _ => True) (fun _ _ _ _ _ => trivial) ?_ huses trivial
    rintro o w r w' (ho | ⟨g, rfl⟩) hI - hs
    · obtain ⟨db, hdb, rfl⟩ := decSem_aside ho hs
      exact ⟨hI.tables hdb, trivial⟩
    · exact ⟨DecTxn.inv hs hI fun db hdb => hI.ack hdb, trivial⟩
  exact Safe.embed (fun _ _ _ _ h => h) hsafe

theorem serverProvisionRetire_safe (nodeId : UInt64) : DecSafe i
    (fun _ _ => True) (serverProvisionRetire nodeId) w := by
  unfold serverProvisionRetire
  split
  · trivial
  refine safe_perform_bind.2 ?_
  intro w₁ _ hI rc w₂ hs
  refine ⟨DecTxn.inv hs hI fun db hdb => hI.retire hdb, ?_⟩
  split
  · trivial
  · exact decSafe_aside (.perform_bind rfl fun _ => .perform_bind rfl fun _ => uses_ret _ _) _

end

/-! ## Runs -/

theorem decSystem_relies (ids : ι → UInt64) : (decSystem ids).Relies DecInv DecRely where
  refl := DecRely.refl
  trans _ _ _ _ h h' := ⟨h.journal.trans h'.journal, h'.noted.trans h.noted⟩
  other _ _ _ _ _ _ hij _ _ h := decSem_rely hij h
  env i w w' _ _ he := by
    obtain ⟨db, -, rfl⟩ := he
    exact ⟨suffix_refl _, rfl⟩

/-- **Guarded decommission.** Generations increase; each is consumed at most once, by a confirmation
that repeats its issue in time; a directive is published only with what was consumed together, once
for each delivery window; an acknowledgement counts only for the current generation. -/
theorem guarded_decommission (ids : ι → UInt64)
    {c c' : Conf ι ProvOp ProvOp.Res (DecWorld ι) Unit}
    (hc : (decSystem ids).Initial DecInitial c) (hs : (decSystem ids).Steps c c') :
    Guarded c'.shared.journal := by
  have hinv := System.invariant (A := fun _ _ _ => True) (decSystem_relies ids)
    (fun _ _ _ _ _ _ _ => trivial) ?_ ?_ (fun _ _ _ _ _ => trivial) ?_ hc hs
  · exact guarded_of_journal hinv.1.journal
  · rintro i m p w hp - -
    cases hp with
    | decommission nodeId wipeScope operator =>
      exact (serverProvisionDecommission_safe _ _ _).seq fun _ _ _ => trivial
    | confirm pub nodeId wipeScope operator token =>
      exact (serverProvisionConfirmDecommission_safe _ _ _ _ _ _).seq fun _ _ _ => trivial
    | retry pub nowMs => exact serverProvisionRetryDecommissions_safe _ _ _
    | result nodeId correlationId payload =>
      exact (serverControlOnResult_dec _ _ _).seq fun _ _ _ => trivial
    | retire nodeId => exact (serverProvisionRetire_safe _).seq fun _ _ _ => trivial
  · rintro w w' hI ⟨db, hdb, rfl⟩
    exact hI.tables hdb
  · rintro w ⟨hrows, hjournal, hnoted⟩
    refine ⟨hjournal ▸ .nil, fun n => ?_, fun i win hi => ?_, fun i j win win' hi => ?_⟩
    · rw [hjournal, Table.find?, hrows]
      rfl
    · rw [hnoted i] at hi
      cases hi
    · rw [hnoted i] at hi
      cases hi

/-! ### A decommission from issue to acknowledgement -/

def recordAnswer (w : DecWorld Unit) (e : DecEvent) : Except Status Db → Status × DecWorld Unit
  | .error st => (st, w)
  | .ok db => (.ok, w.record db e)

def decAnswers : (o : ProvOp) → DecWorld Unit → o.Res × DecWorld Unit
  | .srv .now, w => ((1000 : UInt64), w)
  | .srv (.decommissionAck n g), w =>
    recordAnswer w (.acknowledged n g) (decommissionAckTxn w.db n g)
  | .srv (.publishControl frame), w => (Status.ok, w.publish () frame)
  | .srv o, w => ((dbAnswers o w.db).1, { w with db := (dbAnswers o w.db).2 })
  | .randomToken, w => (.ok 5, w)
  | .audit _ _ _, w => (Status.ok, w)
  | .setNodeTargetEpoch _ _ _, w => (Status.ok, w)
  | .decommissionIssue c, w =>
    recordAnswer w (.issued c ((nextGeneration w.db c.nodeId).getD 0))
      (serverDbDecommissionIssue w.db c)
  | .decommissionConfirm c, w =>
    let g := ((windowOf w.db c.nodeId).map (·.generation)).getD 0
    let a := recordAnswer w (.confirmed c g 1000) (serverDbDecommissionConfirm w.db c 1000)
    (if a.1 = .ok then .ok g else .error a.1, a.2)
  | .decommissionListDue nowMs cap, w => (.ok (serverDbDecommissionListDue w.db nowMs cap), w)
  | .decommissionNoteAttempt n g nowMs nextMs, w =>
    match serverDbDecommissionNoteAttempt w.db n g nowMs nextMs, windowOf w.db n with
    | .ok db, some win =>
      (Status.ok, { w.record db (.noted win nowMs nextMs) with
        noted := update w.noted () (some win) })
    | .error st, _ => (st, w)
    | .ok _, none => (Status.errDb, w)
  | .retireNode n, w => recordAnswer w (.retired n) (retireNodeTxn w.db n)

theorem recordAnswer_txn (w : DecWorld Unit) (e : DecEvent) (body : Except Status Db) :
    DecTxn w body e (recordAnswer w e body).1 (recordAnswer w e body).2 := by
  cases body with
  | error st => exact .refused rfl
  | ok db => exact .committed rfl

theorem decAnswers_sem (i : Unit) (o : ProvOp) (w : DecWorld Unit) :
    decSem i o w (decAnswers o w).1 (decAnswers o w).2 := by
  cases o with
  | srv o =>
    cases o with
    | now => exact ⟨w.db, rfl, rfl⟩
    | decommissionAck n g => exact recordAnswer_txn w _ _
    | publishControl frame => exact .inr rfl
    | _ => exact ⟨_, dbAnswers_sem _ _, rfl⟩
  | randomToken => rfl
  | audit | setNodeTargetEpoch => exact ⟨w.db, rfl, rfl⟩
  | decommissionIssue c => exact recordAnswer_txn w _ _
  | decommissionConfirm c => exact ⟨1000, _, _, rfl, recordAnswer_txn w _ _, rfl⟩
  | decommissionListDue nowMs cap => exact ⟨.inl rfl, rfl⟩
  | decommissionNoteAttempt n g nowMs nextMs =>
    cases hdb : serverDbDecommissionNoteAttempt w.db n g nowMs nextMs with
    | error st =>
      simp only [decAnswers, hdb]
      exact .refused hdb
    | ok db =>
      cases hwin : windowOf w.db n with
      | none =>
        simp only [decAnswers, hdb, hwin]
        exact .aborted
      | some win =>
        simp only [decAnswers, hdb, hwin]
        exact .committed hdb hwin
  | retireNode n => exact recordAnswer_txn w _ _

def ackPayload : Bytes :=
  encodeTlvs [Tlv.u8 TlvType.ctrlVerb Verb.decommission, Tlv.u16 TlvType.errorCode 0,
    Tlv.u64 TlvType.lifeGeneration 1]

/-- Server 1 issues a challenge for node 7, has it confirmed and delivered, and gets the answer. -/
def decScript : List (Cue Unit ProvOp ProvOp.Res Unit) :=
  [.begins () fun _ => some (serverProvisionDecommission 7 1 ['o'] >>= fun _ => .ret ()), .ends (),
    .begins () fun _ => some (serverProvisionConfirmDecommission 1 true 7 1 ['o'] 5 >>=
      fun _ => .ret ()),
    .ends (),
    .begins () fun _ => some (onSrv (serverControlOnResult 7 9 ackPayload) >>= fun _ => .ret ()),
    .ends ()]

def decServer : System Unit ProvOp ProvOp.Res (DecWorld Unit) Unit := decSystem fun _ => 1

theorem decScript_legal : ∀ q ∈ decScript, System.Cue.Legal decServer q := by
  simp only [decScript, forall_mem_cons]
  exact ⟨System.Cue.legal_begins fun _ => .decommission 7 1 ['o'], trivial,
    System.Cue.legal_begins fun _ => .confirm true 7 1 ['o'] 5, trivial,
    System.Cue.legal_begins fun _ => .result 7 9 ackPayload, trivial, by simp⟩

def decStart : Conf Unit ProvOp ProvOp.Res (DecWorld Unit) Unit where
  shared := ⟨enrolledDb "host".toList, [], fun _ => none⟩
  procs _ := .idle ()

theorem decStart_initial : decServer.Initial DecInitial decStart :=
  ⟨⟨rfl, rfl, fun _ => rfl⟩, fun _ => ⟨_, trivial, rfl⟩⟩

set_option maxRecDepth 20000 in
theorem decScript_plays : (System.play (fun _ => decAnswers) decScript decStart).isSome = true := by
  decide +kernel

def decommissioned : Conf Unit ProvOp ProvOp.Res (DecWorld Unit) Unit :=
  (System.play (fun _ => decAnswers) decScript decStart).get decScript_plays

set_option maxRecDepth 20000 in
theorem guarded_decommission_acknowledged :
    decommissioned.shared.journal.head? = some (.acknowledged 7 1) ∧
      decommissioned.shared.journal.length = 5 ∧ Guarded decommissioned.shared.journal :=
  ⟨by decide +kernel, by decide +kernel,
    guarded_decommission (fun _ => 1) decStart_initial
      (System.steps_play decAnswers_sem decScript_legal (Option.some_get decScript_plays).symm)⟩

end SolariNet
