/-
# What may happen to a decommission

The life of decommission challenges as a journal (`Lib.Journal`): challenges are issued, confirmed,
delivered, acknowledged and cancelled by retiring the node.  The journal determines the row of
every node (`challenge`), and the row what may come next (`DecRule`).

    issued          the first generation is 1, and every other is the next one
    confirmed       the row is pending, and everything the operator repeats is as it was issued
    noted           the row is consumed and its delivery is due; this closes the delivery window
    published       by whoever noted the window, once
    acknowledged    the row is consumed and of this generation
    retired         cancels what is pending or consumed
-/
import SolariNet.Lib.Journal
import SolariNet.Server.Provision

namespace SolariNet

open List Lib

/-! ## Entries -/

structure Window where
  nodeId : UInt64
  generation : UInt64
  attempts : UInt32
  dueAt : Option UInt64
  deriving DecidableEq, Repr

def Window.key (w : Window) : UInt64 × UInt64 × UInt32 := (w.nodeId, w.generation, w.attempts)

inductive DecEvent where
  | issued (c : DecommissionIssue) (generation : UInt64)
  | confirmed (c : DecommissionConfirm) (generation dueAt : UInt64)
  | noted (window : Window) (nowMs nextMs : UInt64)
  | published (frame : Bytes) (window : Option Window)
  | acknowledged (nodeId generation : UInt64)
  | retired (nodeId : UInt64)
  deriving DecidableEq, Repr

namespace DecEvent

def node : DecEvent → Option UInt64
  | .issued c _ => some c.nodeId
  | .confirmed c _ _ => some c.nodeId
  | .noted win _ _ => some win.nodeId
  | .acknowledged n _ => some n
  | .retired n => some n
  | .published _ _ => none

def about : DecEvent → Option (UInt64 × UInt64)
  | .issued c g => some (c.nodeId, g)
  | .confirmed c g _ => some (c.nodeId, g)
  | .noted win _ _ => some (win.nodeId, win.generation)
  | .acknowledged n g => some (n, g)
  | .published _ _ | .retired _ => none

end DecEvent

/-! ## Rows -/

def issueRow (c : DecommissionIssue) (generation : UInt64) : ChallengeRow where
  nodeId := c.nodeId
  generation := generation
  state := .pending
  wipeScope := c.wipeScope
  requestedBy := c.requestedBy
  tokenHash := c.tokenHash
  expiresAt := c.expiresAt
  deliveryAttempts := 0
  nextDeliveryAt := none

namespace ChallengeRow

def consume (r : ChallengeRow) (dueAt : UInt64) : ChallengeRow :=
  { r with state := .consumed, nextDeliveryAt := some dueAt, deliveryAttempts := 0 }

def note (r : ChallengeRow) (nextMs : UInt64) : ChallengeRow :=
  { r with deliveryAttempts := r.deliveryAttempts + 1, nextDeliveryAt := some nextMs }

def cancel (r : ChallengeRow) : ChallengeRow :=
  if r.state = .pending ∨ r.state = .consumed then { r with state := .cancelled } else r

def window (r : ChallengeRow) : Window :=
  ⟨r.nodeId, r.generation, r.deliveryAttempts, r.nextDeliveryAt⟩

def isDue (r : ChallengeRow) (nowMs : UInt64) : Bool :=
  match r.nextDeliveryAt with
  | none => true
  | some t => t ≤ nowMs

def Matches (r : ChallengeRow) (c : DecommissionConfirm) : Prop :=
  r.wipeScope = c.wipeScope ∧ r.requestedBy = c.requestedBy ∧ r.tokenHash = c.tokenHash ∧
    c.nowMs < r.expiresAt

end ChallengeRow

def DecEvent.apply (n : UInt64) (row : Option ChallengeRow) : DecEvent → Option ChallengeRow
  | .issued c g => if c.nodeId = n then some (issueRow c g) else row
  | .confirmed c _ dueAt => if c.nodeId = n then row.map (·.consume dueAt) else row
  | .noted win _ nextMs => if win.nodeId = n then row.map (·.note nextMs) else row
  | .acknowledged m _ => if m = n then row.map ({ · with state := .acknowledged }) else row
  | .retired m => if m = n then row.map (·.cancel) else row
  | .published _ _ => row

def challenge : List DecEvent → UInt64 → Option ChallengeRow
  | [], _ => none
  | e :: es, n => e.apply n (challenge es n)

/-! ## The rule -/

def Directs (frame : Bytes) (nodeId generation : UInt64) (wipeScope : UInt32) : Prop :=
  ∃ f, solariFrameParse frame = .ok f ∧ f.hdr.msgType = Msg.decommission ∧
    f.payload = encodeTlvs (decommissionTlvs nodeId generation wipeScope)

def Confirmed (es : List DecEvent) (nodeId generation : UInt64) (wipeScope : UInt32) : Prop :=
  ∃ c t, .confirmed c generation t ∈ es ∧ c.nodeId = nodeId ∧ c.wipeScope = wipeScope

def Noted (es : List DecEvent) (win : Window) : Prop :=
  ∃ nowMs nextMs, .noted win nowMs nextMs ∈ es

def Unpublished (es : List DecEvent) (win : Window) : Prop :=
  ∀ frame win', .published frame (some win') ∈ es → win'.key ≠ win.key

def DecRule (es : List DecEvent) : DecEvent → Prop
  | .issued c g => c.wipeScope.toNat < 256 ∧
      g.toNat = ((challenge es c.nodeId).map (·.generation.toNat)).getD 0 + 1
  | .confirmed c g _ => ∃ row, challenge es c.nodeId = some row ∧ row.state = .pending ∧
      row.generation = g ∧ row.Matches c
  | .noted win nowMs _ => ∃ row, challenge es win.nodeId = some row ∧ row.state = .consumed ∧
      row.window = win ∧ row.isDue nowMs = true ∧ row.deliveryAttempts.toNat + 1 < 2 ^ 32
  | .published frame win? => ∃ win scope, win? = some win ∧ Noted es win ∧ Unpublished es win ∧
      Confirmed es win.nodeId win.generation scope ∧
      Directs frame win.nodeId win.generation scope
  | .acknowledged n g => ∃ row, challenge es n = some row ∧ row.state = .consumed ∧
      row.generation = g
  | .retired _ => True

/-! ## The contract -/

structure LastIssue (es : List DecEvent) (n : UInt64) (i : DecommissionIssue) (g : UInt64)
    (since : List DecEvent) : Prop where
  split : ∃ older, es = since ++ .issued i g :: older
  node : i.nodeId = n
  last : ∀ c g', .issued c g' ∈ since → c.nodeId ≠ n

/-- **Guarded decommission**, of a history. -/
structure Guarded (es : List DecEvent) : Prop where
  /-- generations increase with every issue -/
  increasing : ∀ newer c g older, es = newer ++ .issued c g :: older →
    ∀ c' g', .issued c' g' ∈ older → c'.nodeId = c.nodeId → g' < g
  /-- a generation is consumed once, by a confirmation that repeats its issue, before it expires
  and before any later issue -/
  consumed : ∀ newer c g t older, es = newer ++ .confirmed c g t :: older →
    (∀ c' t', .confirmed c' g t' ∈ older → c'.nodeId ≠ c.nodeId) ∧
    ∃ i since, LastIssue older c.nodeId i g since ∧ i.wipeScope = c.wipeScope ∧
      i.requestedBy = c.requestedBy ∧ i.tokenHash = c.tokenHash ∧ c.nowMs < i.expiresAt
  /-- a directive is published with a node, a generation and a scope that were consumed together -/
  published : ∀ newer frame win older, es = newer ++ .published frame win :: older →
    ∃ n g scope, Confirmed older n g scope ∧ scope.toNat < 256 ∧ Directs frame n g scope
  /-- an acknowledgement names the current generation, which is consumed and was neither cancelled
  nor acknowledged -/
  acknowledged : ∀ newer n g older, es = newer ++ .acknowledged n g :: older →
    .acknowledged n g ∉ older ∧
    ∃ i since, LastIssue older n i g since ∧ Confirmed since n g i.wipeScope ∧ .retired n ∉ since
  /-- a delivery window that was due leads to at most one publication -/
  windows : ∀ newer frame win older, es = newer ++ .published frame win :: older →
    ∃ w nowMs nextMs, win = some w ∧ .noted w nowMs nextMs ∈ older ∧
      (∀ t, w.dueAt = some t → t ≤ nowMs) ∧ Unpublished older w

/-! ## Generations -/

variable {g n : UInt64} {es : List DecEvent} {e : DecEvent}

theorem apply_of_issued (row : Option ChallengeRow) :
    (DecEvent.issued c g).apply c.nodeId row = some (issueRow c g) := if_pos rfl

theorem apply_of_ne (hne : e.node ≠ some n) (row : Option ChallengeRow) : e.apply n row = row := by
  cases e with
  | published frame win => rfl
  | _ => exact if_neg fun hn => hne (congrArg some hn)

theorem generation_mono (he : DecRule es e) (hrow : challenge es n = some row) :
    ∃ row', challenge (e :: es) n = some row' ∧ row.generation ≤ row'.generation := by
  have hsame : row.generation ≤ row.generation := UInt64.le_refl _
  simp only [challenge, hrow]
  by_cases hn : e.node = some n
  · cases e with
    | issued c g =>
      cases hn
      refine ⟨issueRow c g, apply_of_issued _, UInt64.le_iff_toNat_le.2 ?_⟩
      have hg := he.2
      rw [hrow] at hg
      simp only [Option.map_some, Option.getD_some] at hg
      simp only [issueRow]
      omega
    | confirmed c g t => exact ⟨row.consume t, if_pos (Option.some.inj hn), hsame⟩
    | noted win nowMs nextMs => exact ⟨row.note nextMs, if_pos (Option.some.inj hn), hsame⟩
    | acknowledged m g => exact ⟨_, if_pos (Option.some.inj hn), hsame⟩
    | retired m =>
      refine ⟨row.cancel, if_pos (Option.some.inj hn), ?_⟩
      unfold ChallengeRow.cancel
      split
      · exact hsame
      · exact hsame
    | published frame win => cases hn
  · exact ⟨row, apply_of_ne hn _, hsame⟩

theorem generation_of_admits (he : DecRule es e) (ha : e.about = some (n, g)) :
    ∃ row, challenge (e :: es) n = some row ∧ g ≤ row.generation := by
  have hself (row : ChallengeRow) (hrow : challenge es n = some row) (hg : row.generation = g) :
      ∃ row, challenge (e :: es) n = some row ∧ g ≤ row.generation := by
    obtain ⟨row', hrow', hle⟩ := generation_mono he hrow
    exact ⟨row', hrow', hg ▸ hle⟩
  cases e with
  | issued c g' =>
    cases ha
    exact ⟨issueRow c g, apply_of_issued _, UInt64.le_refl _⟩
  | confirmed c g' t =>
    cases ha
    obtain ⟨row, hrow, -, hg, -⟩ := he
    exact hself row hrow hg
  | noted win nowMs nextMs =>
    cases ha
    obtain ⟨row, hrow, -, hwin, -⟩ := he
    exact hself row hrow (congrArg Window.generation hwin)
  | acknowledged m g' =>
    cases ha
    obtain ⟨row, hrow, -, hg⟩ := he
    exact hself row hrow hg
  | published frame win | retired m => cases ha

theorem generation_le (h : Journal DecRule es) (he : e ∈ es) (ha : e.about = some (n, g)) :
    ∃ row, challenge es n = some row ∧ g ≤ row.generation := by
  induction h with
  | nil => cases he
  | cons h hadm ih =>
    rcases mem_cons.1 he with rfl | hold
    · exact generation_of_admits hadm ha
    obtain ⟨row, hrow, hle⟩ := ih hold
    obtain ⟨row', hrow', hle'⟩ := generation_mono hadm hrow
    exact ⟨row', hrow', UInt64.le_trans hle hle'⟩

theorem lt_of_issued {newer older : List DecEvent}
    (h : Journal DecRule (newer ++ .issued c g :: older)) (he : e ∈ older) {g' : UInt64}
    (ha : e.about = some (c.nodeId, g')) : g' < g := by
  obtain ⟨row, hrow, hle⟩ := generation_le h.before he ha
  have hg := h.admitted.2
  rw [hrow] at hg
  simp only [Option.map_some, Option.getD_some] at hg
  rw [UInt64.lt_iff_toNat_lt]
  rw [UInt64.le_iff_toNat_le] at hle
  omega

/-! ## The current challenge -/

structure CurrentRow (es : List DecEvent) (n : UInt64) (row : ChallengeRow) (i : DecommissionIssue)
    (since : List DecEvent) : Prop where
  issue : LastIssue es n i row.generation since
  narrow : i.wipeScope.toNat < 256
  node : row.nodeId = n
  repeats : row.wipeScope = i.wipeScope ∧ row.requestedBy = i.requestedBy ∧
    row.tokenHash = i.tokenHash ∧ row.expiresAt = i.expiresAt
  pending : row.state = .pending → (∀ c g t, .confirmed c g t ∈ since → c.nodeId ≠ n) ∧
    ∀ win nowMs nextMs, .noted win nowMs nextMs ∈ since → win.nodeId ≠ n
  consumed : row.state = .consumed → Confirmed since n row.generation i.wipeScope
  live : row.state = .pending ∨ row.state = .consumed →
    .retired n ∉ since ∧ ∀ g, .acknowledged n g ∉ since
  attempts : ∀ win nowMs nextMs, .noted win nowMs nextMs ∈ since → win.nodeId = n →
    win.attempts < row.deliveryAttempts

section
variable {es since : List DecEvent} {n : UInt64} {row : ChallengeRow} {i : DecommissionIssue}

theorem LastIssue.cons (h : LastIssue es n i g since)
    (he : ∀ c g', e = .issued c g' → c.nodeId ≠ n) : LastIssue (e :: es) n i g (e :: since) := by
  obtain ⟨older, hsplit⟩ := h.split
  refine ⟨⟨older, by rw [hsplit, cons_append]⟩, h.node, fun c g' hmem => ?_⟩
  rcases mem_cons.1 hmem with heq | hold
  · exact he c g' heq.symm
  · exact h.last c g' hold

theorem Confirmed.cons {scope : UInt32} (h : Confirmed es n g scope) (e : DecEvent) :
    Confirmed (e :: es) n g scope := by
  obtain ⟨c, t, hmem, hc⟩ := h
  exact ⟨c, t, mem_cons_of_mem _ hmem, hc⟩

theorem CurrentRow.live_cons (h : CurrentRow es n row i since)
    (hst : row.state = .pending ∨ row.state = .consumed) (hret : e ≠ .retired n)
    (hack : ∀ g, e ≠ .acknowledged n g) :
    .retired n ∉ e :: since ∧ ∀ g, .acknowledged n g ∉ e :: since := by
  obtain ⟨hnret, hnack⟩ := h.live hst
  refine ⟨fun hmem => ?_, fun g hmem => ?_⟩
  · rcases mem_cons.1 hmem with heq | hold
    · exact hret heq.symm
    · exact hnret hold
  · rcases mem_cons.1 hmem with heq | hold
    · exact hack g heq.symm
    · exact hnack g hold

theorem CurrentRow.skip (h : CurrentRow es n row i since) (hne : e.node ≠ some n) :
    CurrentRow (e :: es) n row i (e :: since) where
  issue := h.issue.cons fun c g' heq hn => hne (by rw [heq, ← hn]; rfl)
  narrow := h.narrow
  node := h.node
  repeats := h.repeats
  pending hst := by
    obtain ⟨hconf, hnote⟩ := h.pending hst
    refine ⟨fun c g t hmem hn => ?_, fun win nowMs nextMs hmem hn => ?_⟩
    · rcases mem_cons.1 hmem with rfl | hold
      · exact hne (congrArg some hn)
      · exact hconf c g t hold hn
    · rcases mem_cons.1 hmem with rfl | hold
      · exact hne (congrArg some hn)
      · exact hnote win nowMs nextMs hold hn
  consumed hst := (h.consumed hst).cons e
  live hst := h.live_cons hst (fun heq => hne (by rw [heq]; rfl)) fun _ heq =>
    hne (by rw [heq]; rfl)
  attempts win nowMs nextMs hmem hn := by
    rcases mem_cons.1 hmem with rfl | hold
    · exact absurd (congrArg some hn) hne
    · exact h.attempts win nowMs nextMs hold hn

theorem CurrentRow.issued (c : DecommissionIssue) (g : UInt64) (hscope : c.wipeScope.toNat < 256) :
    CurrentRow (.issued c g :: es) c.nodeId (issueRow c g) c [] where
  issue := ⟨⟨es, rfl⟩, rfl, by simp⟩
  narrow := hscope
  node := rfl
  repeats := ⟨rfl, rfl, rfl, rfl⟩
  pending _ := by simp
  consumed hst := by cases hst
  live _ := by simp
  attempts := by simp

section
variable (h : CurrentRow es n row i since)
include h

theorem CurrentRow.confirmed (hst : row.state = .pending)
    (hn : c.nodeId = n) (hscope : c.wipeScope = i.wipeScope)
    (t : UInt64) :
    CurrentRow (.confirmed c row.generation t :: es) n (row.consume t) i
      (.confirmed c row.generation t :: since) where
  issue := h.issue.cons (by simp)
  narrow := h.narrow
  node := h.node
  repeats := h.repeats
  pending hst' := by cases hst'
  consumed _ := ⟨c, t, mem_cons_self, hn, hscope⟩
  live _ := h.live_cons (.inl hst) (by simp) (by simp)
  attempts win nowMs nextMs hmem hwin := by
    rcases mem_cons.1 hmem with heq | hold
    · cases heq
    · exact absurd hwin ((h.pending hst).2 win nowMs nextMs hold)

theorem CurrentRow.noted (hst : row.state = .consumed)
    (hroom : row.deliveryAttempts.toNat + 1 < 2 ^ 32) (nowMs nextMs : UInt64) :
    CurrentRow (.noted row.window nowMs nextMs :: es) n (row.note nextMs) i
      (.noted row.window nowMs nextMs :: since) where
  issue := h.issue.cons (by simp)
  narrow := h.narrow
  node := h.node
  repeats := h.repeats
  pending hst' := by
    rw [ChallengeRow.note, hst] at hst'
    cases hst'
  consumed _ := (h.consumed hst).cons _
  live _ := h.live_cons (.inr hst) (by simp) (by simp)
  attempts win nowMs' nextMs' hmem hwin := by
    have hnext : row.deliveryAttempts < (row.note nextMs).deliveryAttempts := by
      rw [UInt32.lt_iff_toNat_lt]
      simp only [ChallengeRow.note, UInt32.toNat_add, UInt32.toNat_one]
      omega
    rcases mem_cons.1 hmem with heq | hold
    · cases heq
      exact hnext
    · exact UInt32.lt_trans (h.attempts win nowMs' nextMs' hold hwin) hnext

theorem CurrentRow.ended
    (hpending : st ≠ .pending) (hconsumed : st ≠ .consumed) (hissue : ∀ c g, e ≠ .issued c g)
    (hnote : ∀ win nowMs nextMs, e ≠ .noted win nowMs nextMs) :
    CurrentRow (e :: es) n { row with state := st } i (e :: since) where
  issue := h.issue.cons fun c g' heq => absurd heq (hissue c g')
  narrow := h.narrow
  node := h.node
  repeats := h.repeats
  pending hst := absurd hst hpending
  consumed hst := absurd hst hconsumed
  live hst := by
    rcases hst with hst | hst
    · exact absurd hst hpending
    · exact absurd hst hconsumed
  attempts win nowMs nextMs hmem hwin := by
    rcases mem_cons.1 hmem with heq | hold
    · exact absurd heq.symm (hnote win nowMs nextMs)
    · exact h.attempts win nowMs nextMs hold hwin

theorem CurrentRow.retired :
    CurrentRow (.retired n :: es) n row.cancel i (.retired n :: since) := by
  unfold ChallengeRow.cancel
  split
  · exact h.ended (by decide) (by decide) (by simp) (by simp)
  next hst =>
  obtain ⟨hpending, hconsumed⟩ := not_or.1 hst
  exact h.ended hpending hconsumed (by simp) (by simp)

end

end

theorem currentRow_of_journal (h : Journal DecRule es)
    (hrow : challenge es n = some row) : ∃ i since, CurrentRow es n row i since := by
  induction h generalizing n row with
  | nil => cases hrow
  | @cons es e h he ih =>
    by_cases hn : e.node = some n
    · cases e with
      | issued c g =>
        cases hn
        cases (apply_of_issued _).symm.trans hrow
        exact ⟨c, [], .issued c g he.1⟩
      | confirmed c g t =>
        cases hn
        obtain ⟨old, hold, hst, rfl, hmatch⟩ := he
        obtain ⟨i, since, hcur⟩ := ih hold
        rw [challenge, hold] at hrow
        cases (if_pos rfl).symm.trans hrow
        exact ⟨i, _, hcur.confirmed hst rfl (hmatch.1.symm.trans hcur.repeats.1) t⟩
      | noted win nowMs nextMs =>
        cases hn
        obtain ⟨old, hold, hst, rfl, -, hroom⟩ := he
        obtain ⟨i, since, hcur⟩ := ih hold
        rw [challenge, hold] at hrow
        cases (if_pos rfl).symm.trans hrow
        exact ⟨i, _, hcur.noted hst hroom nowMs nextMs⟩
      | acknowledged m g =>
        cases hn
        obtain ⟨old, hold, -, -⟩ := he
        obtain ⟨i, since, hcur⟩ := ih hold
        rw [challenge, hold] at hrow
        cases (if_pos rfl).symm.trans hrow
        exact ⟨i, _, hcur.ended (by decide) (by decide) (by simp) (by simp)⟩
      | retired m =>
        cases hn
        rw [challenge, DecEvent.apply, if_pos rfl] at hrow
        obtain ⟨old, hold, rfl⟩ := Option.map_eq_some_iff.1 hrow
        obtain ⟨i, since, hcur⟩ := ih hold
        exact ⟨i, _, hcur.retired⟩
      | published frame win => cases hn
    · rw [challenge, apply_of_ne hn] at hrow
      obtain ⟨i, since, hcur⟩ := ih hrow
      exact ⟨i, _, hcur.skip hn⟩

/-! ## Every journal is guarded -/

section
variable {es : List DecEvent} {n : UInt64} {row : ChallengeRow}

section
variable (h : Journal DecRule es)
include h

theorem confirmed_of_consumed (hrow : challenge es n = some row)
    (hst : row.state = .consumed) : Confirmed es n row.generation row.wipeScope := by
  obtain ⟨i, since, hcur⟩ := currentRow_of_journal h hrow
  obtain ⟨c, t, hmem, hn, hscope⟩ := hcur.consumed hst
  obtain ⟨older, hsplit⟩ := hcur.issue.split
  refine ⟨c, t, ?_, hn, hscope.trans hcur.repeats.1.symm⟩
  rw [hsplit]
  exact mem_append_left _ hmem

theorem mem_since {since : List DecEvent}
    (hcur : CurrentRow es n row i since) (he : e ∈ es) (ha : e.about = some (n, row.generation))
    (hissue : ∀ c g, e ≠ .issued c g) : e ∈ since := by
  obtain ⟨older, hsplit⟩ := hcur.issue.split
  rw [hsplit] at h he
  rcases mem_append.1 he with hmem | hmem
  · exact hmem
  rcases mem_cons.1 hmem with heq | hold
  · exact absurd heq (hissue _ _)
  · have hlt := lt_of_issued h hold (hcur.issue.node ▸ ha)
    exact absurd hlt (UInt64.lt_irrefl _)

theorem noted_fresh (hrow : challenge es n = some row)
    (hnoted : Noted es win) : win.key ≠ row.window.key := by
  intro hkey
  obtain ⟨nowMs, nextMs, hmem⟩ := hnoted
  obtain ⟨i, since, hcur⟩ := currentRow_of_journal h hrow
  have hnode : win.nodeId = n := (congrArg (·.1) hkey).trans hcur.node
  have hgen : win.generation = row.generation := congrArg (·.2.1) hkey
  have hatt : win.attempts = row.deliveryAttempts := congrArg (·.2.2) hkey
  have hsince := mem_since h hcur hmem (by rw [DecEvent.about, hnode, hgen])
    (by simp)
  have hlt := hcur.attempts win nowMs nextMs hsince hnode
  rw [hatt] at hlt
  exact absurd hlt (UInt32.lt_irrefl _)

end

end

theorem Confirmed.narrow (h : Journal DecRule es) {scope : UInt32} (hc : Confirmed es n g scope) :
    scope.toNat < 256 := by
  obtain ⟨c, t, hmem, -, rfl⟩ := hc
  obtain ⟨newer, older, rfl, row, hrow, -, -, hmatch⟩ := h.admitted_of_mem hmem
  obtain ⟨i, since, hcur⟩ := currentRow_of_journal h.before hrow
  rw [← hmatch.1, hcur.repeats.1]
  exact hcur.narrow

theorem guarded_of_journal (h : Journal DecRule es) : Guarded es where
  increasing := by
    rintro newer c g older rfl c' g' hmem hn
    exact lt_of_issued h hmem (by rw [DecEvent.about, hn])
  consumed := by
    rintro newer c g t older rfl
    obtain ⟨row, hrow, hst, rfl, hmatch⟩ := h.admitted
    obtain ⟨i, since, hcur⟩ := currentRow_of_journal h.before hrow
    obtain ⟨hscope, hby, htoken, hexp⟩ := hcur.repeats
    obtain ⟨hscope', hby', htoken', hexp'⟩ := hmatch
    refine ⟨fun c' t' hmem hn => ?_, i, since, hcur.issue, hscope.symm.trans hscope',
      hby.symm.trans hby', htoken.symm.trans htoken', hexp ▸ hexp'⟩
    have hsince := mem_since h.before hcur hmem (by rw [DecEvent.about, hn])
      (by simp)
    exact (hcur.pending hst).1 c' _ t' hsince hn
  published := by
    rintro newer frame win older rfl
    obtain ⟨w, scope, -, -, -, hconf, hdirects⟩ := h.admitted
    exact ⟨_, _, scope, hconf, hconf.narrow h.before, hdirects⟩
  acknowledged := by
    rintro newer n g older rfl
    obtain ⟨row, hrow, hst, rfl⟩ := h.admitted
    obtain ⟨i, since, hcur⟩ := currentRow_of_journal h.before hrow
    obtain ⟨hret, hack⟩ := hcur.live (.inr hst)
    refine ⟨fun hmem => ?_, i, since, hcur.issue, hcur.consumed hst, hret⟩
    have hsince := mem_since h.before hcur hmem rfl (by simp)
    exact hack _ hsince
  windows := by
    rintro newer frame win older rfl
    obtain ⟨w, scope, rfl, ⟨nowMs, nextMs, hmem⟩, hfree, -, -⟩ := h.admitted
    refine ⟨w, nowMs, nextMs, rfl, hmem, fun t ht => ?_, hfree⟩
    obtain ⟨newer', older', -, row, -, -, rfl, hdue, -⟩ := h.before.admitted_of_mem hmem
    have ht' : row.nextDeliveryAt = some t := ht
    rw [ChallengeRow.isDue, ht'] at hdue
    exact of_decide_eq_true hdue

end SolariNet
