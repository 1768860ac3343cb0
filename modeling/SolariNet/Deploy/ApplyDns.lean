/-
# The DNS applier

`deploy/sorsync/sor_apply_dnsd.py`: `apply` renders the zones from the database, releases them on
the primary and refreshes every configured secondary.  It returns `True` only when each of these
has been proved by its helper and recorded in the state file of the targets.

The rendering, the helpers and the state file are operations; the validation of the configured
secondaries and of the proof of the release helper are functions.
-/
import Mathlib.Data.Char
import Mathlib.Data.List.Lex
import Mathlib.Data.List.Sort
import SolariNet.Deploy.Delivery

namespace SolariNet

open List Lib Lib.Prog

/-! ## The configured secondaries -/

structure DnsSecondary where
  name : List Char
  address : List Char
  sshHost : List Char
  updateHelper : List Char

/-- `[a-z][a-z0-9-]{0,31}` -/
def validTargetName : List Char → Bool
  | [] => false
  | c :: cs => c.isLower && cs.all (fun d => d.isLower || d.isDigit || d == '-') && cs.length ≤ 31

def validOctet (s : List Char) : Bool :=
  !s.isEmpty && s.all Char.isDigit && s.length ≤ 3 && (s.length == 1 || s.head? != some '0') &&
    s.foldl (fun n c => 10 * n + (c.toNat - 48)) 0 ≤ 255

def validIPv4 (s : List Char) : Bool :=
  (s.splitOn '.').length == 4 && (s.splitOn '.').all validOctet

def validSshHost (s : List Char) : Bool :=
  !s.isEmpty && s.all (fun c => c.isAlphanum || "_.@:[]-".toList.contains c) && s.head? != some '-'

def validHelper : List Char → Bool
  | '/' :: cs => !cs.isEmpty && cs.all (fun c => c.isAlphanum || "_.-/".toList.contains c) &&
      !(cs.splitOn '/').contains ['.', '.']
  | _ => false

/-- The loop of `secondary_targets`, with the addresses seen; `none` when it raises. -/
def secondaryLoop : List DnsSecondary → List (List Char) → Option (List DnsSecondary)
  | [], _ => some []
  | s :: rest, addresses =>
    if !validTargetName s.name || !validIPv4 s.address || !validSshHost s.sshHost ||
        !validHelper s.updateHelper then none
    else if addresses.contains s.address then none
    else (secondaryLoop rest (s.address :: addresses)).map (s :: ·)

def secondaryTargets (sections : List DnsSecondary) : Option (List DnsSecondary) :=
  match secondaryLoop (sections.insertionSort fun a b => a.name ≤ b.name) [] with
  | none => none
  | some [] => none
  | some targets => some targets

/-! ## The proof of the release helper -/

structure ReleaseState where
  phase : List Char
  desired : Option (List Char)
  applied : Option (List Char)

structure HelperResult where
  returncode : Int
  state : Option ReleaseState

def isHexLower (c : Char) : Bool := c.isDigit || ('a' ≤ c && c ≤ 'f')

def releaseProof (r : HelperResult) : Option (List Char) :=
  if r.returncode ≠ 0 then none
  else match r.state with
    | none => none
    | some s =>
      match s.applied with
      | none => none
      | some applied =>
        if s.phase ≠ "applied".toList ∨ s.desired ≠ some applied ∨
            ¬ (applied.length = 64 ∧ applied.all isHexLower = true) then none
        else some applied

/-! ## The program -/

inductive DnsTarget where
  | steel
  | primary
  | secondary (name : List Char)
  deriving DecidableEq, Repr

inductive TargetPhase where
  | retired
  | pending (desired : List Char)
  | applied (desired generation : List Char)
  | failed
  deriving DecidableEq, Repr

inductive RenderAnswer where
  | rendered
  | refused
  | raised
  deriving DecidableEq, Repr

inductive DnsOp where
  | incoming
  | render
  | sourceHash
  | status (target : DnsTarget) (phase : TargetPhase)
  | release
  | refresh (target : DnsSecondary)
  /-- remove the folder -/
  | cleanup

def DnsRes : DnsOp → Type
  | .incoming => Bool
  | .render => RenderAnswer
  | .sourceHash => Option (List Char)
  | .status _ _ => Bool
  | .release => Option HelperResult
  | .refresh _ => Option Int
  | .cleanup => Bool

abbrev DnsM : Type → Type := Prog DnsOp DnsRes

structure DnsCfg where
  sections : List DnsSecondary
  refreshTimeout : Nat

def localRelease : DnsM (Option (List Char)) :=
  perform DnsOp.release >>= fun (r : Option HelperResult) => pure (r.bind releaseProof)

def refreshSecondary (cfg : DnsCfg) (target : DnsSecondary) (desired : List Char) :
    DnsM (Option (List Char)) :=
  if ¬ (30 ≤ cfg.refreshTimeout ∧ cfg.refreshTimeout ≤ 600) then pure none
  else perform (DnsOp.refresh target) >>= fun (code : Option Int) =>
    pure (if code = some 0 then some desired else none)

def applyFailed (target : DnsTarget) : DnsM (Option Bool) :=
  perform (DnsOp.status target .failed) >>= fun (ok : Bool) =>
    pure (if ok = false then none else some false)

def applyTarget (target : DnsTarget) (desired : List Char) (operation : DnsM (Option (List Char))) :
    DnsM (Option Bool) :=
  perform (DnsOp.status target (.pending desired)) >>= fun (ok : Bool) =>
    if ok = false then pure none
    else operation >>= fun applied =>
      match applied with
      | none => applyFailed target
      | some generation =>
        perform (DnsOp.status target (.applied desired generation)) >>= fun (ok : Bool) =>
          if ok = false then applyFailed target else pure (some true)

def applySecondaries (cfg : DnsCfg) (primaryOk : Bool) (desired : List Char) :
    List DnsSecondary → Bool → DnsM (Option Bool)
  | [], secondariesOk => pure (some secondariesOk)
  | t :: rest, secondariesOk =>
    if primaryOk = false then
      perform (DnsOp.status (.secondary t.name) .failed) >>= fun (ok : Bool) =>
        if ok = false then pure none else applySecondaries cfg primaryOk desired rest false
    else
      applyTarget (.secondary t.name) desired (refreshSecondary cfg t desired) >>= fun r =>
        match r with
        | none => pure none
        | some ok => applySecondaries cfg primaryOk desired rest (ok && secondariesOk)

def applyTargets (cfg : DnsCfg) (targets : List DnsSecondary) (desired : List Char) :
    DnsM ApplyResult :=
  perform (DnsOp.status .steel .retired) >>= fun (ok : Bool) =>
    if ok = false then pure .raised
    else applyTarget .primary desired localRelease >>= fun p =>
      match p with
      | none => pure .raised
      | some primaryOk =>
        applySecondaries cfg primaryOk desired targets true >>= fun s =>
          match s with
          | none => pure .raised
          | some secondariesOk => pure (.returned (primaryOk && secondariesOk))

def applyRendering (cfg : DnsCfg) : DnsM ApplyResult :=
  perform DnsOp.render >>= fun (r : RenderAnswer) =>
    match r with
    | .raised => pure .raised
    | .refused => pure (.returned false)
    | .rendered =>
      match secondaryTargets cfg.sections with
      | none => pure .raised
      | some targets =>
        perform DnsOp.sourceHash >>= fun (hash : Option (List Char)) =>
          match hash with
          | none => pure .raised
          | some desired => applyTargets cfg targets desired

def dnsApply (cfg : DnsCfg) : DnsM ApplyResult :=
  perform DnsOp.incoming >>= fun (ok : Bool) =>
    if ok = false then pure .raised
    else applyRendering cfg >>= fun r =>
      perform DnsOp.cleanup >>= fun (ok : Bool) => pure (if ok = false then .raised else r)

/-! ## What a successful apply has done -/

def PrimaryProved (t : List (Event DnsOp DnsRes)) : Prop :=
  ∃ r generation, ⟨.release, some r⟩ ∈ t ∧ releaseProof r = some generation

def SecondaryProved (s : DnsSecondary) (t : List (Event DnsOp DnsRes)) : Prop :=
  ⟨.refresh s, some (0 : Int)⟩ ∈ t

variable {targets : List DnsSecondary} {t : List (Event DnsOp DnsRes)} {desired : List Char}
  {cfg : DnsCfg} {s : DnsSecondary} {target : DnsTarget} {generation : List Char}
  {sections : List DnsSecondary}

theorem mem_secondaryLoop {addresses : List (List Char)}
    (h : secondaryLoop sections addresses = some targets) : targets = sections := by
  induction sections generalizing addresses targets with
  | nil =>
    cases h
    rfl
  | cons s rest ih =>
    unfold secondaryLoop at h
    split at h
    · cases h
    split at h
    · cases h
    · obtain ⟨ts, hts, rfl⟩ := Option.map_eq_some_iff.1 h
      rw [ih hts]

theorem mem_secondaryTargets (h : secondaryTargets sections = some targets) (hs : s ∈ sections) :
    s ∈ targets := by
  unfold secondaryTargets at h
  split at h
  · cases h
  · cases h
  next ts _ hts =>
  cases h
  rw [mem_secondaryLoop hts]
  exact (mem_insertionSort _).2 hs

theorem applyFailed_ne_true {r : Option Bool} (h : Runs (applyFailed target) t r) :
    r ≠ some true := by
  obtain ⟨ok, _, _, hret⟩ := Runs.perform_bind_iff.1 h
  obtain ⟨_, rfl⟩ := Runs.ret_iff.1 hret
  split
  · exact fun h => (nomatch h)
  · exact fun h => (nomatch h)

theorem applyTarget_true {operation : DnsM (Option (List Char))}
    (h : Runs (applyTarget target desired operation) t (some true)) :
    ∃ t' generation, t' ⊆ t ∧ Runs operation t' (some generation) := by
  obtain ⟨ok, t₁, rfl, h₁⟩ := Runs.perform_bind_iff.1 h
  split at h₁
  · cases h₁
  obtain ⟨t₂, t₃, applied, rfl, hop, h₂⟩ := Runs.bind_iff.1 h₁
  cases applied with
  | none => exact absurd rfl (applyFailed_ne_true h₂)
  | some generation =>
    exact ⟨t₂, generation, fun e he => mem_cons_of_mem _ (mem_append_left _ he), hop⟩

theorem localRelease_some (h : Runs localRelease t (some generation)) : PrimaryProved t := by
  obtain ⟨r, t₁, rfl, hret⟩ := Runs.perform_bind_iff.1 h
  obtain ⟨_, hsome⟩ := Runs.ret_iff.1 hret
  obtain ⟨res, rfl, hproof⟩ := Option.bind_eq_some_iff.1 hsome.symm
  exact ⟨res, generation, mem_cons_self, hproof⟩

theorem refreshSecondary_some (h : Runs (refreshSecondary cfg s desired) t (some generation)) :
    SecondaryProved s t := by
  unfold refreshSecondary at h
  split at h
  · cases h
  obtain ⟨code, t₁, rfl, hret⟩ := Runs.perform_bind_iff.1 h
  obtain ⟨_, hsome⟩ := Runs.ret_iff.1 hret
  split at hsome
  · next hcode =>
    subst hcode
    exact mem_cons_self
  · cases hsome

theorem applySecondaries_true {primaryOk : Bool} {acc : Bool}
    (h : Runs (applySecondaries cfg primaryOk desired targets acc) t (some true)) :
    acc = true ∧ (primaryOk = true → ∀ s ∈ targets, SecondaryProved s t) := by
  induction targets generalizing acc t with
  | nil =>
    obtain ⟨_, hacc⟩ := Runs.ret_iff.1 h
    cases hacc
    exact ⟨rfl, fun _ _ hs => (nomatch hs)⟩
  | cons s rest ih =>
    unfold applySecondaries at h
    split at h
    · obtain ⟨ok, t₁, rfl, h₁⟩ := Runs.perform_bind_iff.1 h
      split at h₁
      · cases h₁
      · cases (ih h₁).1
    obtain ⟨t₁, t₂, r, rfl, ht, h₂⟩ := Runs.bind_iff.1 h
    cases r with
    | none => cases h₂
    | some ok =>
      obtain ⟨hacc, hrest⟩ := ih h₂
      rw [Bool.and_eq_true] at hacc
      obtain ⟨rfl, rfl⟩ := hacc
      refine ⟨rfl, fun hp s' hs' => ?_⟩
      rcases mem_cons.1 hs' with rfl | hs'
      · obtain ⟨t', generation, hsub, hop⟩ := applyTarget_true ht
        exact mem_append_left _ (hsub (refreshSecondary_some hop))
      · exact mem_append_right _ (hrest hp s' hs')

theorem applyTargets_true (h : Runs (applyTargets cfg targets desired) t (.returned true)) :
    PrimaryProved t ∧ ∀ s ∈ targets, SecondaryProved s t := by
  obtain ⟨ok, t₁, rfl, h₁⟩ := Runs.perform_bind_iff.1 h
  split at h₁
  · cases h₁
  obtain ⟨t₂, t₃, p, rfl, hp, h₂⟩ := Runs.bind_iff.1 h₁
  cases p with
  | none => cases h₂
  | some primaryOk =>
    obtain ⟨t₄, t₅, r, rfl, hr, h₃⟩ := Runs.bind_iff.1 h₂
    cases r with
    | none => cases h₃
    | some secondariesOk =>
      have hand := ApplyResult.returned.inj (Runs.ret_iff.1 h₃).2
      obtain ⟨rfl, rfl⟩ := Bool.and_eq_true_iff.1 hand.symm
      obtain ⟨t', generation, hsub, hop⟩ := applyTarget_true hp
      obtain ⟨res, g, hmem, hproof⟩ := localRelease_some hop
      refine ⟨⟨res, g, ?_, hproof⟩, fun s hs => ?_⟩
      · exact mem_cons_of_mem _ (mem_append_left _ (hsub hmem))
      · exact mem_cons_of_mem _ (mem_append_right _
          (mem_append_left _ ((applySecondaries_true hr).2 rfl s hs)))

def AllProved (cfg : DnsCfg) (t : List (Event DnsOp DnsRes)) : Prop :=
  ∃ before after, t = before ++ ⟨.render, .rendered⟩ :: after ∧ PrimaryProved after ∧
    ∀ s ∈ cfg.sections, SecondaryProved s after

theorem dnsApply_proved (h : Runs (dnsApply cfg) t (.returned true)) : AllProved cfg t := by
  obtain ⟨ok, t₁, rfl, h₁⟩ := Runs.perform_bind_iff.1 h
  split at h₁
  · cases h₁
  obtain ⟨t₂, t₃, r, rfl, hbody, h₂⟩ := Runs.bind_iff.1 h₁
  obtain ⟨clean, t₄, rfl, h₃⟩ := Runs.perform_bind_iff.1 h₂
  have hr : r = .returned true := by
    have hret := (Runs.ret_iff.1 h₃).2
    split at hret
    · cases hret
    · exact hret.symm
  subst hr
  obtain ⟨answer, t₅, rfl, h₅⟩ := Runs.perform_bind_iff.1 hbody
  cases answer with
  | raised | refused => cases h₅
  | rendered =>
    cases hts : secondaryTargets cfg.sections with
    | none =>
      rw [hts] at h₅
      cases h₅
    | some targets =>
      rw [hts] at h₅
      obtain ⟨hash, t₆, rfl, h₆⟩ := Runs.perform_bind_iff.1 h₅
      cases hash with
      | none => cases h₆
      | some desired =>
        obtain ⟨⟨res, g, hmem, hproof⟩, hsec⟩ := applyTargets_true h₆
        refine ⟨[⟨.incoming, ok⟩], _, rfl, ⟨res, g, ?_, hproof⟩, fun s hs => ?_⟩
        · exact mem_append_left _ (mem_cons_of_mem _ hmem)
        · exact mem_append_left _ (mem_cons_of_mem _ (hsec s (mem_secondaryTargets hts hs)))

/-- **Acknowledge only after apply.** A tag is acknowledged only behind an apply that began after
its delivery and returned `True`, in the order the tags came, and nothing behind a failed apply;
with the DNS applier, the apply has proved the primary and every secondary. -/
theorem acknowledged_after_apply :
    (∀ {Op : Type} {Res : Op → Type} (cfg : DeliveryCfg) (applyFn : Prog Op Res ApplyResult)
        (n : Nat) (t : Trace Res) (e : ConsumeEnd), Runs (consumeAfterApply cfg applyFn n) t e →
      (∀ a tag ok b, t = a ++ ⟨.ack tag, ok⟩ :: b → ∃ before during after,
        a = before ++ ⟨.begin, ()⟩ :: during ++ ⟨.finish (.returned true), ()⟩ :: after ∧
          tag ∈ delivered before ∧ Runs applyFn (applied during) (.returned true)) ∧
      acked t <+: delivered t ∧ ((delivered t).Nodup → (acked t).Nodup) ∧
      (∀ (a : Trace Res) (r : ApplyResult) (b : Trace Res), t = a ++ ⟨.finish r, ()⟩ :: b →
        r ≠ .returned true → acked b = [])) ∧
    (∀ (cfg : DeliveryCfg) (dns : DnsCfg) (n : Nat) (t : Trace DnsRes) (e : ConsumeEnd),
      Runs (consumeAfterApply cfg (dnsApply dns) n) t e →
      ∀ a tag ok b, t = a ++ ⟨.ack tag, ok⟩ :: b → ∃ before during after,
        a = before ++ ⟨.begin, ()⟩ :: during ++ after ∧ tag ∈ delivered before ∧
          AllProved dns (applied during)) := by
  constructor
  · intro Op Res cfg applyFn n t e h
    have hgood := consumeAfterApply_good h
    refine ⟨fun a tag ok b ht => (hgood a tag ok b ht).applied, hgood.acked_prefix, ?_, ?_⟩
    · exact fun hnodup => hnodup.sublist hgood.acked_prefix.sublist
    · exact fun a r b ht hr => hgood.acked_after_failure ht hr
  · intro cfg dns n t e h a tag ok b ht
    obtain ⟨before, during, after, ha, hin, hrun⟩ :=
      (consumeAfterApply_good h a tag ok b ht).applied
    exact ⟨before, during, _, ha, hin, dnsApply_proved hrun⟩

/-! ## One event -/

def neon : DnsSecondary :=
  ⟨"neon".toList, "10.0.0.10".toList, "dns@neon".toList, "/usr/local/sbin/update".toList⟩

def oneSecondary : DnsCfg := ⟨[neon], 150⟩

def generationName : List Char := replicate 64 'a'

def releasedState : HelperResult :=
  ⟨0, some ⟨"applied".toList, some generationName, some generationName⟩⟩

def neonAnswers : (o : DeliveryOp DnsOp) → DeliveryRes DnsRes o
  | .qos _ => true
  | .consume => .delivery 5
  | .isRunning => true
  | .monotonic => (0 : Nat)
  | .ack _ => true
  | .begin | .finish _ => ()
  | .app .incoming => true
  | .app .render => .rendered
  | .app .sourceHash => some ['h']
  | .app (.status _ _) => true
  | .app .release => some releasedState
  | .app (.refresh _) => some (0 : Int)
  | .app .cleanup => true
  | .wait => (0 : Nat)
  | .maintain => true

def neonTrace : Trace DnsRes :=
  ((consumeAfterApply ⟨1, 0, false⟩ (dnsApply oneSecondary) 1).answered neonAnswers).1

/-- One event that arrives after the first apply, and is acknowledged after the second. -/
theorem acknowledged_after_apply_neon :
    ∃ a b, Runs (consumeAfterApply ⟨1, 0, false⟩ (dnsApply oneSecondary) 1)
        (a ++ ⟨.ack 5, true⟩ :: b) .going ∧
      acked (a ++ ⟨.ack 5, true⟩ :: b) <+: delivered (a ++ ⟨.ack 5, true⟩ :: b) ∧
      ∃ before during after, a = before ++ ⟨.begin, ()⟩ :: during ++ after ∧
        5 ∈ delivered before ∧ AllProved oneSecondary (applied during) := by
  have hrun : Runs (consumeAfterApply ⟨1, 0, false⟩ (dnsApply oneSecondary) 1) neonTrace .going :=
    .answered neonAnswers _
  have hcut : neonTrace = neonTrace.dropLast.dropLast ++ ⟨.ack 5, true⟩ :: neonTrace.drop 31 := rfl
  rw [hcut] at hrun
  exact ⟨_, _, hrun, (acknowledged_after_apply.1 _ _ _ _ _ hrun).2.1,
    acknowledged_after_apply.2 _ _ _ _ _ hrun _ 5 true _ rfl⟩

end SolariNet
