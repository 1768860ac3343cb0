/-
# Allocating concurrently

The calls of `allocate` as they run in `allocSystem`, with other connections' statements between any
two of theirs.  A call reads under the lock of its subnet; what it read of the subnet and its ranges
stays true until its transaction ends, so the address it selected still fits when it is committed.
The addresses in use are not under the lock: an address that was taken in between makes the
insertion collide, the call goes back to its savepoint and reads again.
-/
import SolariNet.Netdb.AllocSystem

namespace SolariNet

open Function List Lib Lib.Prog

variable {ι : Type} [DecidableEq ι]

/-! ## Triples for calls -/

def allocSetting (i : ι) : Setting AllocOp AllocOp.Res (AllocWorld ι) :=
  ⟨allocSem i, AllocRely i, AllocInv⟩

abbrev Triple {α : Type} (i : ι) (P : AllocWorld ι → Prop) (x : AllocM α)
    (Q : α → AllocWorld ι → Prop) : Prop := (allocSetting i).Triple P x Q fun e _ => e.NotLost

def Stable (i : ι) (P : AllocWorld ι → Prop) : Prop := ∀ w w', P w → AllocRely i w w' → P w'

section
variable {i : ι} {α : Type} {P : AllocWorld ι → Prop} {Q : α → AllocWorld ι → Prop}

theorem triple_sql {Q : o.Ans → AllocWorld ι → Prop} (hP : Stable i P)
    (ho : ∀ w, P w → AllocAllowed i w o)
    (hQ : ∀ w a w', P w → allocAnswers i o w a w' → Q a w') : Triple i P (sql o) Q := by
  intro w hw
  refine safe_perform_bind.2 fun w₁ hR hI r w₂ hs => ?_
  have hw₁ := hP w w₁ hw hR
  refine ⟨hI.step hs (ho w₁ hw₁), ?_⟩
  cases r with
  | error e => exact fun _ _ => by rintro ⟨⟩
  | ok a => exact hQ w₁ a w₂ hw₁ hs

theorem triple_read (hP : Stable i P) (ho : ∀ w, AllocAllowed i w o)
    (hsame : ∀ w a w', allocAnswers i o w a w' → w' = w) : Triple i P (sql o) fun _ => P :=
  triple_sql hP (fun w _ => ho w) fun w a w' hw h => hsame w a w' h ▸ hw

theorem triple_pureLayer (h : ∀ w a, P w → r = .ok a → Q a w) :
    Triple i P (pureLayer r) Q := by
  intro w hw
  cases r with
  | error e => exact fun _ _ => by rintro ⟨⟩
  | ok a => exact h w a hw rfl

end

/-! ## What a call keeps -/

structure Calling (i : ι) (b : List SorWrite) (n : Nat) (w : AllocWorld ι) : Prop where
  before : w.before i = some b
  writes : (w.txn i).writes = b
  collided : (w.collided i).length = n

structure Inserted (i : ι) (b : List SorWrite) (a : Nat) (w : AllocWorld ι) : Prop where
  before : w.before i = some b
  writes : ∃ row : NewAddress, row.address = a ∧ (w.txn i).writes = b ++ [.allocation row]

def Held (i : ι) (k : Nat) (s : SubnetState) (w : AllocWorld ι) : Prop :=
  k ∈ (w.txn i).locks ∧ ∃ row, ((w.view i).subnetPart k).row = some row ∧ row.live = true ∧
    row.cidr = s.cidr ∧ row.gateway = s.gateway ∧ ((w.view i).subnetPart k).liveRanges = s.ranges

structure Marked (i : ι) (b : List SorWrite) (sp n : Nat) (w : AllocWorld ι) : Prop where
  before : w.before i = some b
  back : ∃ t, (w.txn i).rollbackTo sp = some t ∧ t.writes = b
  collided : (w.collided i).length = n

section
variable {i : ι} {b : List SorWrite} {n : Nat}

section
omit [DecidableEq ι]

theorem Calling.stable : Stable i (Calling i b n) := by
  intro w w' h hR
  exact ⟨hR.before.trans h.before, (congrArg Txn.writes hR.txn).trans h.writes,
    (congrArg List.length hR.collided).trans h.collided⟩

theorem Inserted.stable {a : Nat} : Stable i (Inserted i b a) := by
  intro w w' h hR
  refine ⟨hR.before.trans h.before, ?_⟩
  rw [hR.txn]
  exact h.writes

theorem Held.stable {k : Nat} : Stable i (Held i k s) := by
  intro w w' h hR
  obtain ⟨hk, hrow⟩ := h
  unfold Held
  rw [hR.txn, hR.view hk]
  exact ⟨hk, hrow⟩

theorem Marked.stable {sp : Nat} : Stable i (Marked i b sp n) := by
  intro w w' h hR
  refine ⟨hR.before.trans h.before, ?_, (congrArg List.length hR.collided).trans h.collided⟩
  rw [hR.txn]
  exact h.back

theorem Stable.and {P Q : AllocWorld ι → Prop} (hP : Stable i P) (hQ : Stable i Q) :
    Stable i fun w => P w ∧ Q w :=
  fun w w' h hR => ⟨hP w w' h.1 hR, hQ w w' h.2 hR⟩

end

variable {P : AllocWorld ι → Prop}

theorem alloc_finds (hP : Stable i P) (o : AllocOp) (ho : o.plans = true) :
    Finds (allocSetting i) P (sql o) fun _ => True := by
  have hread : Triple i P (sql o) fun _ => P := by
    cases o with
    | getAutocommit | txIsolation | selectSource | lockInterface | selectMemberships
    | selectFunction | selectSubnets | selectOtherSubnets | uuid4 =>
      exact triple_read hP (fun _ => trivial) fun _ _ _ h => h
    | _ => cases ho
  exact hread.post fun _ _ h => ⟨h, trivial⟩

theorem triple_of_finds {α : Type} {x : AllocM α} {Q : α → Prop}
    (h : Finds (allocSetting i) P x Q) : Triple i P x fun _ => P :=
  h.post fun _ _ h => h.1

/-! ## One turn of the loop -/

theorem usedAndRanges_held (b : List SorWrite) (n k : Nat) :
    Triple i (Calling i b n) (usedAndRanges k) fun s w => Calling i b n w ∧ Held i k s w := by
  -- the row that was locked, before the ranges are read
  let Row (s : LockedSubnet) (w : AllocWorld ι) : Prop := k ∈ (w.txn i).locks ∧
    ∃ row, ((w.view i).subnetPart k).row = some row ∧ row.live = true ∧ row.cidr = s.cidr ∧
      row.gateway = s.gateway
  have hstable : ∀ s, Stable i fun w => Calling i b n w ∧ Row s w := by
    intro s
    refine Calling.stable.and fun w w' h hR => ?_
    obtain ⟨hk, hrow⟩ := h
    show _ ∧ _
    rw [hR.txn, hR.view hk]
    exact ⟨hk, hrow⟩
  refine .bind (Q := fun r w => Calling i b n w ∧ ∀ s, r = some s → Row s w)
    (triple_sql Calling.stable (fun _ _ => trivial) ?_) fun r => ?_
  · rintro w r w' hw (⟨rfl, rfl⟩ | ⟨s, row, rfl, -, hrow, hlive, hcidr, hgw, -, rfl⟩)
    · exact ⟨hw, by rintro s ⟨⟩⟩
    refine ⟨⟨hw.before, by rw [txn_setTxn]; exact hw.writes, hw.collided⟩, ?_⟩
    rintro s' ⟨⟩
    refine ⟨by rw [txn_setTxn]; exact mem_cons_self, row, ?_, hlive, hcidr.symm, hgw.symm⟩
    rw [← hrow]
    congr 2
    unfold AllocWorld.view TxnStore.view
    rw [show (w.setTxn i ((w.txn i).lock k)).store.txn i = (w.txn i).lock k from txn_setTxn _]
    rfl
  · cases r with
    | none => exact .throw fun _ _ _ _ => by rintro ⟨⟩
    | some s =>
      refine .bind (Q := fun _ w => Calling i b n w ∧ Row s w)
        (fun w hw => triple_of_finds (checkSubnet_finds (alloc_finds (hstable s)) k s) w
          ⟨hw.1, hw.2 s rfl⟩) fun net => ?_
      refine .bind (triple_read (hstable s) (fun _ => trivial) fun _ _ _ h => h.2) fun used => ?_
      refine .bind (Q := fun ranges w => Calling i b n w ∧
        Held i k ⟨s.cidr, s.gateway, used, ranges⟩ w)
        (triple_sql (hstable s) (fun _ _ => trivial) ?_) fun ranges => .pure fun _ h => h
      rintro w ranges w' ⟨hw, hk, row, hrow, hlive, hcidr, hgw⟩ ⟨rfl, rfl⟩
      exact ⟨hw, hk, row, hrow, hlive, hcidr, hgw, rfl⟩

theorem unwind_marked (b : List SorWrite) (sp n : Nat) :
    Triple i (Marked i b sp n) (unwind sp) fun _ => Calling i b n := by
  refine .bind (Q := fun _ => Calling i b n) (triple_sql Marked.stable ?_ ?_) fun _ =>
    triple_sql Calling.stable (fun _ _ => trivial) ?_
  · rintro w ⟨hb, ⟨t, ht, hw⟩, -⟩ b' t' hb' ht'
    cases hb.symm.trans hb'
    cases ht.symm.trans ht'
    exact hw ▸ prefix_refl _
  · rintro w a w' ⟨hb, ⟨t, ht, hw⟩, hc⟩ ⟨t', ht', rfl⟩
    cases ht.symm.trans ht'
    exact ⟨hb, by rw [txn_setTxn]; exact hw, hc⟩
  · rintro w a w' hw ⟨t, ht, rfl⟩
    obtain ⟨hwrites, -⟩ := Txn.release_eq_some ht
    exact ⟨hw.before, by rw [txn_setTxn, hwrites]; exact hw.writes, hw.collided⟩

theorem unwind_aborted (sp : Nat) :
    Triple i (fun w => w.before i = none) (unwind sp) fun _ _ => True := by
  have hstable : Stable i fun w : AllocWorld ι => w.before i = none :=
    fun w w' h hR => hR.before.trans h
  refine .bind (Q := fun _ w => w.before i = none) (triple_sql hstable ?_ ?_) fun _ =>
    triple_sql hstable (fun _ _ => trivial) fun _ _ _ _ _ => trivial
  · intro w hw b t hb
    cases hw.symm.trans hb
  · rintro w a w' hw ⟨t, -, rfl⟩
    exact hw

variable {w w' : AllocWorld ι}

theorem StatementFails.marked {sp : Nat} (h : StatementFails i w e w')
    (hw : Marked i b sp n w) : Marked i b sp n w' ∨ w'.before i = none := by
  match e, h with
  | .integrity _ _, h => exact .inl (h.2 ▸ hw)
  | .other false, h => exact .inl (h ▸ hw)
  | .other true, h => exact .inr (h ▸ update_self ..)

theorem unwind_any (b : List SorWrite) (sp n : Nat) :
    Triple i (fun w => Marked i b sp n w ∨ w.before i = none) (unwind sp) fun _ _ => True := by
  rintro w (hw | hw)
  · exact (unwind_marked b sp n).post (fun _ _ _ => trivial) w hw
  · exact unwind_aborted sp w hw

structure Ready (i : ι) (b : List SorWrite) (sp n : Nat) (row : NewAddress) (w : AllocWorld ι) :
    Prop where
  before : w.before i = some b
  txn : ∃ t : Txn SorWrite Nat, w.txn i = t.savepoint sp ∧ t.writes = b
  collided : (w.collided i).length = n
  locked : row.subnetId ∈ (w.txn i).locks
  fits : ((w.view i).subnetPart row.subnetId).Fits row.address

variable {sp : Nat} {row : NewAddress}

section
omit [DecidableEq ι]

theorem Ready.stable (h : Ready i b sp n row w) (hR : AllocRely i w w') :
    Ready i b sp n row w' where
  before := hR.before.trans h.before
  txn := hR.txn.symm ▸ h.txn
  collided := (congrArg List.length hR.collided).trans h.collided
  locked := hR.txn.symm ▸ h.locked
  fits := (hR.view h.locked).symm ▸ h.fits

theorem Ready.marked (h : Ready i b sp n row w) : Marked i b sp n w := by
  obtain ⟨t, ht, hb⟩ := h.txn
  refine ⟨h.before, ⟨t.savepoint sp, ?_, hb⟩, h.collided⟩
  rw [ht]
  exact t.rollbackTo_savepoint sp

end

/-- How the statements of the `try` end: a lost race is one more collision. -/
def Tried (i : ι) (b : List SorWrite) (sp n : Nat) (row : NewAddress) :
    Except AllocError Unit → AllocWorld ι → Prop
  | .ok _, w => Inserted i b row.address w
  | .error e, w => ∃ s, e = .sql s ∧ (Marked i b sp n w ∨ Marked i b sp (n + 1) w ∨
      w.before i = none) ∧ ∀ code message, s = .integrity code message →
        isRace code message = true → Marked i b sp (n + 1) w

theorem Tried.failed (row : NewAddress) (h : StatementFails i w e w')
    (hw : Marked i b sp n w) : Tried i b sp n row (.error (.sql e)) w' := by
  refine ⟨e, rfl, (h.marked hw).imp_right .inr, ?_⟩
  rintro code message rfl hrace
  rw [h.1] at hrace
  cases hrace

theorem tryInsert_tried (hw : Ready i b sp n row w) :
    Safe (allocSem i) (AllocRely i) AllocInv (Tried i b sp n row) (tryInsert sp row).run w := by
  refine Safe.bind_run (safe_perform_bind.2 fun w₁ hR hI r w₂ hs => ?_)
  have hready := hw.stable hR
  have hI₂ : AllocInv w₂ := hI.step hs ⟨hready.locked, hready.fits⟩
  refine ⟨hI₂, ?_⟩
  cases r with
  | error e =>
    rcases hs with ⟨-, hs⟩ | ⟨row', code, message, ho, he, hrace, -, rfl⟩
    · exact Tried.failed row hs hready.marked
    -- the row collided
    cases ho
    have hmarked := hready.marked
    have hM : Marked i b sp (n + 1) (w₁.collide i row.address) := by
      refine ⟨hmarked.before, hmarked.back, ?_⟩
      rw [show (w₁.collide i row.address).collided i = w₁.collided i ++ [_] from
        update_self .., length_append, hmarked.collided]
      rfl
    exact ⟨e, rfl, .inr (.inl hM), fun _ _ _ _ => hM⟩
  | ok a =>
    obtain ⟨-, -, rfl⟩ := hs
    obtain ⟨t, ht, hb⟩ := hready.txn
    have hwrites : (w₁.txn i).writes = b := by rw [ht]; exact hb
    refine safe_perform_bind.2 fun w₃ hR₃ hI₃ r w₄ hs₄ => ⟨hI₃.step hs₄ trivial, ?_⟩
    have hbefore : w₃.before i = some b := hR₃.before.trans hready.before
    have htxn : w₃.txn i = (w₁.txn i).write (.allocation row) := hR₃.txn.trans (txn_setTxn _)
    cases r with
    | error e =>
      have hM : Marked i b sp n w₃ := by
        refine ⟨hbefore, ⟨t.savepoint sp, ?_, hb⟩, ?_⟩
        · rw [htxn, ht]
          exact t.rollbackTo_savepoint_write sp _
        · exact (congrArg List.length hR₃.collided).trans hready.collided
      rcases hs₄ with ⟨-, hs₄⟩ | ⟨_, _, _, ho, -⟩
      · exact Tried.failed row hs₄ hM
      · cases ho
    | ok a =>
      obtain ⟨t', ht', rfl⟩ := hs₄
      obtain ⟨hw', -⟩ := Txn.release_eq_some ht'
      refine ⟨hbefore, row, rfl, ?_⟩
      rw [txn_setTxn, hw', htxn]
      exact congrArg (· ++ [SorWrite.allocation row]) hwrites

theorem insertOrUnwind_spec : Triple i (Ready i b sp n row) (insertOrUnwind sp row)
    fun inserted w => if inserted then Inserted i b row.address w else Calling i b (n + 1) w := by
  intro w hw
  refine (tryInsert_tried hw).seq fun r w₁ hr => ?_
  cases r with
  | ok a => exact hr
  | error e =>
    obtain ⟨s, rfl, hmark, hrace⟩ := hr
    have hundo : ∃ m, Marked i b sp m w₁ ∨ w₁.before i = none := by
      rcases hmark with h | h | h
      · exact ⟨n, .inl h⟩
      · exact ⟨n + 1, .inl h⟩
      · exact ⟨n, .inr h⟩
    obtain ⟨m, hundo⟩ := hundo
    cases s with
    | other fatal =>
      refine (unwind_any b sp m w₁ hundo).seq fun _ _ _ => ?_
      exact fun _ _ => by rintro ⟨⟩
    | integrity code message =>
      refine Safe.bind ?_
      by_cases hr : isRace code message = true
      · refine (unwind_marked b sp (n + 1) w₁ (hrace code message rfl hr)).mono fun r w₂ h₂ => ?_
        cases r with
        | error e => exact h₂
        | ok a =>
          rw [if_pos hr]
          exact h₂
      · refine (unwind_any b sp m w₁ hundo).mono fun r w₂ h₂ => ?_
        cases r with
        | error e => exact h₂
        | ok a =>
          rw [if_neg hr]
          exact fun _ _ => by rintro ⟨⟩

theorem allocateOnce_spec (p : AllocPlan) : Triple i (Calling i b n) (allocateOnce p) fun r w =>
    match r with
    | some a => Inserted i b a w
    | none => Calling i b (n + 1) w := by
  refine .bind (usedAndRanges_held b n p.subnetId) fun s => ?_
  refine .bind (Q := fun r w => (Calling i b n w ∧ Held i p.subnetId s w) ∧
    selectAddress s.cidr s.gateway s.used s.ranges = .ok r)
      (triple_pureLayer fun _ _ hw h => ⟨hw, h⟩)
    fun r => ?_
  cases r with
  | none => exact .throw fun _ _ _ _ => by rintro ⟨⟩
  | some chosen =>
    refine .bind (Q := fun _ => Ready i b p.sp n (p.row chosen))
      (triple_sql ?_ (fun _ _ => trivial) ?_)
      fun _ => .bind insertOrUnwind_spec fun inserted => ?_
    · intro w w' h hR
      exact ⟨(Calling.stable.and Held.stable) w w' h.1 hR, h.2⟩
    · rintro w _ w' ⟨⟨hw, hk, row, hrow, hlive, hcidr, hgw, hranges⟩, hsel⟩ rfl
      obtain ⟨net, hnet, hfits, -⟩ := selectAddress_eq_some hsel
      have hview : (w.setTxn i ((w.txn i).savepoint p.sp)).view i = w.view i := by
        unfold AllocWorld.view TxnStore.view
        rw [show (w.setTxn i ((w.txn i).savepoint p.sp)).store.txn i = (w.txn i).savepoint p.sp
          from txn_setTxn _]
        rfl
      refine ⟨hw.before, ⟨w.txn i, txn_setTxn _, hw.writes⟩, hw.collided, ?_, ?_⟩
      · rw [txn_setTxn]
        exact hk
      rw [hview]
      refine ⟨row, net, hrow, hlive, hcidr.trans hnet, ?_⟩
      rw [hgw, show ((w.view i).subnetPart (p.row chosen).subnetId).liveRanges = s.ranges from
        hranges]
      exact hfits
    · cases inserted with
      | true | false => exact .pure fun _ h => h

/-! ## The call -/

/-- How a call that was given `n` turns ends: its row is behind the caller's work, or every turn
collided and nothing is left of it. -/
def Ended (i : ι) (b : List SorWrite) (n : Nat) : Except AllocError Nat → AllocWorld ι → Prop
  | .ok a, w => Inserted i b a w
  | .error (.lostRace _ _), w => Calling i b n w
  | .error _, _ => True

omit [DecidableEq ι] in
theorem AllocError.NotLost.ended (h : e.NotLost) (w : AllocWorld ι) :
    Ended i b n (.error e) w := by
  cases e with
  | lostRace slug m => exact absurd rfl (h slug m)
  | _ => trivial

theorem allocateLoop_ended (p : AllocPlan) (k : Nat) (hw : Calling i b n w) :
    Safe (allocSem i) (AllocRely i) AllocInv (Ended i b (n + k)) (allocateLoop p k).run w := by
  induction k generalizing n w with
  | zero => exact hw
  | succ k ih =>
    refine Safe.bind_run ((allocateOnce_spec p w hw).mono fun r w₁ hr => ?_)
    cases r with
    | error e => exact hr.ended w₁
    | ok r =>
      cases r with
      | some a => exact hr
      | none =>
        have h := ih hr
        rw [show n + 1 + k = n + (k + 1) by omega] at h
        exact h

theorem allocate_ended (a : AllocArgs) (hw : Calling i b 0 w) :
    Safe (allocSem i) (AllocRely i) AllocInv (Ended i b a.maxRetries) (allocate a).run w := by
  have hplan := triple_of_finds (planAllocation_finds (alloc_finds Calling.stable) a) w hw
  refine Safe.bind_run (hplan.mono fun r w₁ hr => ?_)
  cases r with
  | error e => exact hr.ended w₁
  | ok p =>
    have h := allocateLoop_ended p a.maxRetries hr
    rw [Nat.zero_add] at h
    exact h

def Knows (i : ι) (m : Option CallResult) (w : AllocWorld ι) : Prop :=
  ∀ n r, m = some (n, r) → ∃ b, Ended i b n r w

omit [DecidableEq ι] in
theorem Knows.stable {m : Option CallResult} (h : Knows i m w) (hR : AllocRely i w w') :
    Knows i m w' := by
  intro n r hm
  obtain ⟨b, hb⟩ := h n r hm
  refine ⟨b, ?_⟩
  cases r with
  | ok a => exact Inserted.stable w w' hb hR
  | error e =>
    cases e with
    | lostRace slug m => exact Calling.stable w w' hb hR
    | _ => trivial

theorem AllocStart.safe {p : Prog AllocOp AllocOp.Res (Option CallResult)} (h : AllocStart p)
    (w : AllocWorld ι) : Safe (allocSem i) (AllocRely i) AllocInv (Knows i) p w := by
  cases h with
  | call a =>
    refine safe_perform_bind.2 fun w₁ _ hI r w₂ hs => ⟨hI.step hs trivial, Safe.bind ?_⟩
    have hcalling : Calling i (w₁.txn i).writes 0 w₂ := by
      cases r with
      | error e =>
        rcases hs with ⟨hs, -⟩ | ⟨_, _, _, ho, -⟩
        · exact absurd rfl hs
        · cases ho
      | ok a =>
        cases hs
        refine ⟨update_self .., rfl, ?_⟩
        rw [show (w₁.call i).collided i = [] from update_self ..]
        rfl
    refine (allocate_ended a hcalling).mono fun r w₃ hr => ?_
    rintro n r' ⟨⟩
    exact ⟨_, hr⟩
  | write cw =>
    exact safe_perform_bind.2 fun w₁ _ hI r w₂ hs => ⟨hI.step hs trivial, by rintro _ _ ⟨⟩⟩
  | commit =>
    exact safe_perform_bind.2 fun w₁ _ hI r w₂ hs => ⟨hI.step hs trivial, by rintro _ _ ⟨⟩⟩
  | rollback =>
    exact safe_perform_bind.2 fun w₁ _ hI r w₂ hs => ⟨hI.step hs trivial, by rintro _ _ ⟨⟩⟩

end

/-! ## The theorem -/

theorem allocSystem_relies : (allocSystem ι).Relies AllocInv AllocRely where
  refl i w := .refl i w
  trans _ _ _ _ h h' := h.trans h'
  other _ _ _ _ _ _ hij hI _ hs := (allocSem_change hs).rely hij hI
  env _ _ _ _ _ h := h.elim

/-- **Concurrent allocation.** Every committed allocation fits the database it was committed into;
earlier work of a transaction is not rolled back; and a call that raises the race error had every
turn collide, and leaves the transaction as it found it. -/
theorem allocation_safety {c c' : Conf ι AllocOp AllocOp.Res (AllocWorld ι) (Option CallResult)}
    (hc : (allocSystem ι).Initial AllocInitial c) (hs : (allocSystem ι).Steps c c') :
    (∀ e ∈ c'.shared.committed, (e.2.subnetPart e.1.subnetId).Fits e.1.address) ∧
      (∀ i b, c'.shared.before i = some b → b <+: (c'.shared.txn i).writes) ∧
      ∀ i n slug m, c'.procs i = .idle (some (n, .error (.lostRace slug m))) →
        (c'.shared.collided i).length = n ∧ (∀ e ∈ c'.shared.collided i, e.2.IsLive (.v4 e.1)) ∧
          c'.shared.before i = some (c'.shared.txn i).writes := by
  obtain ⟨hI, hL⟩ := System.invariant (A := Knows) allocSystem_relies
    (fun _ _ _ _ h hR _ => h.stable hR) (fun _ _ _ w hp _ _ => hp.safe w) (fun _ _ _ h => h.elim)
    (fun i m w hm _ n r h => by cases hm.symm.trans h) (fun w hw => .initial hw) hc hs
  refine ⟨hI.committed, hI.kept, fun i n slug m hi => ?_⟩
  have hknows := hL i
  simp only [System.Holds, hi] at hknows
  obtain ⟨b, hb⟩ := hknows n _ rfl
  exact ⟨hb.collided, hI.collided i, hb.before.trans (congrArg some hb.writes.symm)⟩

/-! ### A run -/

/-- The answers to connection `i` of two; a row that the other one has locked is not waited for. -/
def pairAnswers (i : Bool) : (o : AllocOp) → AllocWorld Bool → o.Res × AllocWorld Bool
  | .calling, w => (.ok (), w.call i)
  | .getAutocommit, w => (.ok false, w)
  | .txIsolation, w => (.ok (some "READ-COMMITTED".toList), w)
  | .selectSource _, w => (.ok (some 1), w)
  | .selectFunction _, w => (.ok (some ⟨some 1, some true, some true⟩), w)
  | .selectSubnets _, w => (.ok [(1, .v4 ⟨0, 29⟩, none)], w)
  | .lockSubnet id, w =>
    match ((w.view i).subnetPart id).row.filter fun row => row.live && id ∉ (w.txn !i).locks with
    | none => (.error (.other false), w)
    | some row =>
      (.ok (some ⟨row.networkId, row.cidr, row.gateway, true, true⟩),
        w.setTxn i ((w.txn i).lock id))
  | .selectUsed subnetId bounds, w => (.ok ((w.view i).used subnetId bounds), w)
  | .lockRanges subnetId, w => (.ok ((w.view i).subnetPart subnetId).liveRanges, w)
  | .uuid4, w => (.ok 0, w)
  | .savepoint sp, w => (.ok (), w.setTxn i ((w.txn i).savepoint sp))
  | .releaseSavepoint sp, w =>
    match (w.txn i).release sp with
    | none => (.error (.other false), w)
    | some t => (.ok (), w.setTxn i t)
  | .insertAddress row, w =>
    if Addr.v4 row.address ∈ (w.view i).live.map (·.1) ∨ (w.txn !i).writes ≠ [] then
      (.error (.other false), w)
    else (.ok (), w.setTxn i ((w.txn i).write (.allocation row)))
  | .commit, w => (.ok (), w.commit i)
  | .rollback, w => (.ok (), w.abort i)
  | .selectMemberships _, w | .selectOtherSubnets _, w => (.ok [], w)
  | .lockInterface _, w | .rollbackToSavepoint _, w | .callerWrite _, w =>
    (.error (.other false), w)

theorem pairAnswers_sem (i : Bool) (o : AllocOp) (w : AllocWorld Bool) :
    allocSem i o w (pairAnswers i o w).1 (pairAnswers i o w).2 := by
  have hother {j : Bool} (hj : j ≠ i) : j = !i := Bool.eq_not_of_ne hj
  cases o with
  | lockSubnet id =>
    simp only [pairAnswers]
    split
    · exact .inl ⟨by rintro ⟨⟩, rfl⟩
    next row hrow =>
    obtain ⟨hrow, hfree⟩ := Option.filter_eq_some_iff.1 hrow
    obtain ⟨hlive, hfree⟩ := Bool.and_eq_true_iff.1 hfree
    exact .inr ⟨_, row, rfl, fun j hj => hother hj ▸ of_decide_eq_true hfree, hrow, hlive, rfl, rfl,
      rfl, rfl⟩
  | releaseSavepoint sp =>
    simp only [pairAnswers]
    split
    · exact .inl ⟨by rintro ⟨⟩, rfl⟩
    · next t ht => exact ⟨t, ht, rfl⟩
  | insertAddress row =>
    simp only [pairAnswers]
    split
    · exact .inl ⟨by rintro ⟨⟩, rfl⟩
    next hlive =>
    obtain ⟨hlive, hnone⟩ := not_or.1 hlive
    refine ⟨hlive, fun j hj => ?_, rfl⟩
    rw [hother hj, not_not.1 hnone]
    exact fun wr h => nomatch h
  | selectUsed subnetId bounds | lockRanges subnetId => exact ⟨rfl, rfl⟩
  | lockInterface _ | rollbackToSavepoint _ | callerWrite _ => exact .inl ⟨by rintro ⟨⟩, rfl⟩
  | _ => rfl

def smallDb : SorDb :=
  ⟨[⟨1, 1, .v4 ⟨0, 29⟩, some (.v4 1), true⟩], [⟨1, 1, ⟨.dynamicPool, .v4 3, .v4 4⟩, true⟩],
    [(.v4 2, some 1)]⟩

def smallStart : AllocWorld Bool := ⟨⟨smallDb, fun _ => .empty⟩, fun _ => none, fun _ => [], []⟩

def dnsArgs : AllocArgs :=
  ⟨"dns".toList, none, none, false, "manual".toList, "static".toList, 3⟩

/-- Both connections call; the second one is refused the lock, and calls again after the commit of
the first. -/
theorem allocation_safety_contended : ∃ c',
    (allocSystem Bool).Steps ⟨smallStart, fun _ => .idle none⟩ c' ∧
    c'.shared.committed.map (fun e => e.1.address) = [5, 6] ∧
    ∀ e ∈ c'.shared.committed, (e.2.subnetPart e.1.subnetId).Fits e.1.address := by
  have hrun (i : Bool) (s P m p) := System.steps_run (S := allocSystem Bool) (s := s) (P := P)
    (m := m) (p := p) (pairAnswers_sem i)
  have hsteps := ((((hrun false smallStart (fun _ => .idle none) _ _ rfl (.call dnsArgs)).trans
    (hrun true _ _ _ _ rfl (.call dnsArgs))).trans (hrun false _ _ _ _ rfl .commit)).trans
    (hrun true _ _ _ _ rfl (.call dnsArgs))).trans (hrun true _ _ _ _ rfl .commit)
  have hall := allocation_safety
    ⟨⟨fun _ => rfl, fun _ => rfl, fun _ => rfl, rfl⟩, fun _ => ⟨none, rfl, rfl⟩⟩ hsteps
  refine ⟨_, hsteps, ?_, hall.1⟩
  decide +kernel

end SolariNet
