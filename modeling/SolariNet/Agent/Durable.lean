/-
# Directives that have to survive a restart

`monitorHandleControlDurable` applies a directive to a copy of the configuration and makes the copy
current once it is saved.  How a target and a configuration blob are read are parameters here; the
file operations of a save succeed or fail as `SaveAnswers` says.

The copy is saved only where `monitorHandleControl` sets `applied`, which it does for SET_CONFIG and
PROVISION alone, and the save refuses an empty blob.  So an ADOPT_TARGET is acknowledged and its
copy is dropped, and a directive that only moves the epoch is refused.
-/
import SolariNet.Agent.Control

namespace SolariNet

/-! ## The configuration of a monitor -/

/-- Which file operations of a save succeed. -/
structure SaveAnswers where
  created : Bool
  written : Bool
  renamed : Bool
  directory : Bool

def SaveAnswers.all (a : SaveAnswers) : Bool := a.created && a.written && a.renamed && a.directory

structure MonitorTarget where
  targetId : CStr
  label : CStr

structure MonitorConfig (σ : Type) where
  settings : σ
  targets : List MonitorTarget
  ctrlStateFile : CStr
  spoolDb : CStr
  configEpoch : UInt64

def monitorMaxTargets : Nat := 64

def ctrlBlobMax : Nat := 60 * 1024

structure MonitorReader (σ : Type) where
  parseTarget : CStr → Except Status MonitorTarget
  scan : Bytes → Option ((σ → σ) × Option (List CStr))

section
variable {σ : Type} (m : MonitorReader σ)

def addSpec (targets : List MonitorTarget) (spec : CStr) : Status × List MonitorTarget :=
  match m.parseTarget spec with
  | .error st => (st, targets)
  | .ok t =>
    if targets.any (fun u => u.targetId = t.targetId) then (.ok, targets)
    else if monitorMaxTargets ≤ targets.length then (.errBufferFull, targets)
    else (.ok, targets ++ [t])

def monitorAddTarget (cfg : MonitorConfig σ) (spec : CStr) : Status × MonitorConfig σ :=
  ((addSpec m cfg.targets spec).1, { cfg with targets := (addSpec m cfg.targets spec).2 })

def monitorControlApplyBlob (cfg : MonitorConfig σ) (json : Bytes) : Status × MonitorConfig σ :=
  if json = [] then (.ok, cfg)
  else if ctrlBlobMax < json.length then (.errBufferFull, cfg)
  else
    match m.scan json with
    | none => (.errInvalidArg, cfg)
    | some (set, none) => (.ok, { cfg with settings := set cfg.settings })
    | some (set, some specs) =>
      (.ok, { cfg with
        settings := set cfg.settings
        targets := specs.foldl (fun ts spec => (addSpec m ts spec).2) [] })

def monitorControlStatePath (cfg : MonitorConfig σ) : CStr :=
  if cfg.ctrlStateFile ≠ [] then cfg.ctrlStateFile
  else if cfg.spoolDb ≠ [] then cfg.spoolDb ++ ".ctrl".toList
  else []

/-- The name of the temporary file always fits its buffer. -/
def monitorControlStateSave (a : SaveAnswers) (cfg : MonitorConfig σ) (_epoch : UInt64)
    (blob : Bytes) : Status :=
  if blob = [] ∨ ctrlBlobMax < blob.length then .errInvalidArg
  else if monitorControlStatePath cfg = [] then .errInvalidArg
  else if a.all then .ok
  else .errPlatform

structure Arrival (σ : Type) where
  epoch : UInt64
  cfg : MonitorConfig σ
  self : UInt64
  payload : Bytes
  cap : Nat

def Arrival.handled (d : Arrival σ) : ControlOutcome (MonitorConfig σ) :=
  monitorHandleControl (monitorControlApplyBlob m) (monitorAddTarget m) d.epoch d.cfg d.self
    d.payload d.cap

def Arrival.kept (a : SaveAnswers) (d : Arrival σ) : ControlOutcome (MonitorConfig σ) :=
  monitorHandleControlDurable (monitorControlApplyBlob m) (monitorAddTarget m)
    (monitorControlStateSave a) (fun cfg epoch => { cfg with configEpoch := epoch }) d.epoch d.cfg
    d.self d.payload d.cap

/-! ## What an acknowledgement promises -/

def Live (cfg : MonitorConfig σ) (spec : CStr) : Prop :=
  ∃ t, m.parseTarget spec = .ok t ∧ ∃ u ∈ cfg.targets, u.targetId = t.targetId

/-- An acknowledged directive is in effect, and one that `monitorHandleControl` accepts is refused
only if a file operation failed. -/
structure InEffect (a : SaveAnswers) (d : Arrival σ) : Prop where
  applied : (d.kept m a).rc = .ok → (d.kept m a).result.isSome →
    ∀ c, solariMsgParseControl d.payload = .ok c → (c.verb = Verb.adoptTarget →
        Live m (d.kept m a).cfg (copyBounded monitorTargetIdMax c.payload)) ∧
      (convergent c.verb → d.epoch < c.targetEpoch →
        (d.kept m a).appliedEpoch = c.targetEpoch ∧ (d.kept m a).cfg =
          { (monitorControlApplyBlob m d.cfg c.payload).2 with configEpoch := c.targetEpoch })
  accepted : (d.handled m).rc = .ok → a.all → (d.kept m a).rc = .ok

def Arrival.Directs (d : Arrival σ) (c : Control) : Prop :=
  solariMsgParseControl d.payload = .ok c ∧ (c.targetNode = 0 ∨ c.targetNode = d.self)

/-- A directive for this monitor that `monitorHandleControl` accepts adopts no new target and, if it
is new, has a blob and a file to be saved in. -/
def Savable (d : Arrival σ) : Prop :=
  ∀ c, d.Directs c → (d.handled m).rc = .ok →
    (c.verb = Verb.adoptTarget → (d.handled m).result.isSome →
      Live m d.cfg (copyBounded monitorTargetIdMax c.payload)) ∧
    (convergent c.verb → d.epoch < c.targetEpoch →
      c.payload ≠ [] ∧ monitorControlStatePath d.cfg ≠ [])

variable {m} {d : Arrival σ} {a : SaveAnswers} {c : Control}

theorem monitorControlApplyBlob_ok
    (h : (monitorControlApplyBlob m cfg json).1 = .ok) :
    json.length ≤ ctrlBlobMax ∧ monitorControlStatePath (monitorControlApplyBlob m cfg json).2 =
        monitorControlStatePath cfg := by
  unfold monitorControlApplyBlob at h ⊢
  split at h
  · next hnil => simp [hnil]
  split at h
  · cases h
  next hnil hle =>
  rw [if_neg hnil, if_neg hle]
  refine ⟨Nat.not_lt.1 hle, ?_⟩
  split <;> rfl

theorem solariTlvAppendAll_error {ts : List Tlv}
    (h : solariTlvAppendAll w ts = .error st) : st = .errBufferFull := by
  unfold solariTlvAppendAll at h
  induction ts generalizing w with
  | nil => cases h
  | cons t ts ih =>
    rw [List.foldlM_cons, solariTlvAppend] at h
    split at h
    · cases h
      rfl
    · exact ih h

theorem buildResult_error {verb : UInt8} {epoch : UInt64} {cap : Nat}
    (h : buildResult verb outcome epoch cap = .error st) : st = .errBufferFull := by
  unfold buildResult at h
  split at h
  · next hw =>
    cases h
    exact solariTlvAppendAll_error hw
  · cases h

theorem Arrival.handled_ok (hd : d.Directs c) (h : (d.handled m).rc = .ok) :
    ((d.handled m).applied = true ↔ convergent c.verb ∧ d.epoch < c.targetEpoch) ∧
    ((d.handled m).applied = true → (monitorControlApplyBlob m d.cfg c.payload).1 = .ok ∧
      (d.handled m).blob = c.payload ∧ (d.handled m).appliedEpoch = c.targetEpoch ∧
      (d.handled m).cfg = (monitorControlApplyBlob m d.cfg c.payload).2) := by
  have hnot : ¬ (c.targetNode ≠ 0 ∧ c.targetNode ≠ d.self) := by
    rw [← not_or]
    exact not_not.2 hd.2
  unfold handled monitorHandleControl controlHandle at h ⊢
  simp only [hd.1, if_neg hnot] at h ⊢
  generalize hr : buildResult _ _ _ _ = r at h ⊢
  cases r with
  | error st =>
    cases h.symm.trans (buildResult_error hr)
  | ok r =>
    rcases controlApply_cases _ _ _ d.cfg c with ⟨st, cfg', heq, hno⟩ | ⟨hv, hlt, hblob, heq⟩
    · rw [heq] at h ⊢
      refine ⟨⟨?_, fun hnew => absurd hnew (hno h)⟩, ?_⟩ <;> exact fun happ => by cases happ
    · rw [heq]
      exact ⟨iff_of_true rfl ⟨hv, hlt⟩, fun _ => ⟨hblob, rfl, rfl, rfl⟩⟩

theorem Arrival.addressed (h : (d.handled m).result.isSome ∨ (d.handled m).applied = true) :
    ∃ c, d.Directs c := by
  unfold handled monitorHandleControl controlHandle at h
  split at h
  · simp at h
  next c hc =>
  split at h
  · simp at h
  · next hnot => exact ⟨c, hc, not_not.1 fun hother => hnot (not_or.1 hother)⟩

theorem Arrival.kept_of_dropped (h : (d.handled m).rc ≠ .ok ∨ (d.handled m).applied = false) :
    d.kept m a = { d.handled m with appliedEpoch := d.epoch, cfg := d.cfg } := if_pos h

theorem Arrival.kept_of_applied (hd : d.Directs c) (h : (d.handled m).rc = .ok)
    (happ : (d.handled m).applied = true) :
    ((d.kept m a).rc = .ok ↔ c.payload ≠ [] ∧ monitorControlStatePath d.cfg ≠ [] ∧ a.all) ∧
    ((d.kept m a).rc = .ok → (d.kept m a).appliedEpoch = c.targetEpoch ∧ (d.kept m a).cfg =
      { (monitorControlApplyBlob m d.cfg c.payload).2 with configEpoch := c.targetEpoch }) := by
  obtain ⟨hblob, hb, he, hcfg⟩ := (handled_ok hd h).2 happ
  obtain ⟨hle, hpath⟩ := monitorControlApplyBlob_ok hblob
  have hsave : monitorControlStateSave a (d.handled m).cfg (d.handled m).appliedEpoch
      (d.handled m).blob = .ok ↔ c.payload ≠ [] ∧ monitorControlStatePath d.cfg ≠ [] ∧ a.all := by
    rw [hb, hcfg, monitorControlStateSave, hpath]
    by_cases hnil : c.payload = [] <;> by_cases hp : monitorControlStatePath d.cfg = [] <;>
      cases a.all <;> simp [hnil, hp, Nat.not_lt.2 hle]
  have hkept : d.kept m a = controlHandleDurable (d.handled m) (monitorControlStateSave a)
      (fun cfg epoch => { cfg with configEpoch := epoch }) d.epoch d.cfg d.cap := rfl
  rw [hkept, controlHandleDurable, if_neg (by simp [h, happ]), ← hsave]
  dsimp only
  split
  · next hfail => exact ⟨Iff.rfl, fun hok => absurd hok hfail⟩
  · next hdone => exact ⟨iff_of_true h (not_not.1 hdone), fun _ => ⟨he, by rw [hcfg, he]⟩⟩

theorem directive_in_effect_iff (m : MonitorReader σ) (d : Arrival σ) :
    (∀ a, InEffect m a d) ↔ Savable m d := by
  have hadopt {c : Control} (hd : d.Directs c) (hok : (d.handled m).rc = .ok)
      (hv : c.verb = Verb.adoptTarget) : (d.handled m).applied = false :=
    Bool.eq_false_iff.2 fun happ =>
      absurd (hv ▸ ((Arrival.handled_ok hd hok).1.1 happ).1) (by decide)
  constructor
  · intro h c hd hok
    obtain ⟨happlied, haccepted⟩ := h ⟨true, true, true, true⟩
    refine ⟨fun hv hres => ?_, fun hv hlt => ?_⟩
    · rw [Arrival.kept_of_dropped (.inr (hadopt hd hok hv))] at happlied
      exact (happlied hok hres c hd.1).1 hv
    · have happ := (Arrival.handled_ok hd hok).1.2 ⟨hv, hlt⟩
      obtain ⟨hnil, hpath, -⟩ := (Arrival.kept_of_applied hd hok happ).1.1 (haccepted hok rfl)
      exact ⟨hnil, hpath⟩
  · intro h a
    refine ⟨fun hrc hres c hc => ?_, fun hok ha => ?_⟩
    · have hok : (d.handled m).rc = .ok := by
        by_contra hbad
        rw [Arrival.kept_of_dropped (.inl hbad)] at hrc
        exact hbad hrc
      obtain ⟨c', hd⟩ : ∃ c, d.Directs c := by
        cases happ : (d.handled m).applied with
        | false =>
          rw [Arrival.kept_of_dropped (.inr happ)] at hres
          exact Arrival.addressed (.inl hres)
        | true => exact Arrival.addressed (.inr happ)
      cases hc.symm.trans hd.1
      refine ⟨fun hv => ?_, fun hv hlt => ?_⟩
      · rw [Arrival.kept_of_dropped (.inr (hadopt hd hok hv))] at hres ⊢
        exact (h c hd hok).1 hv hres
      · have happ := (Arrival.handled_ok hd hok).1.2 ⟨hv, hlt⟩
        exact (Arrival.kept_of_applied hd hok happ).2 hrc
    · cases happ : (d.handled m).applied with
      | false =>
        rw [Arrival.kept_of_dropped (.inr happ)]
        exact hok
      | true =>
        obtain ⟨c, hd⟩ := Arrival.addressed (.inr happ)
        obtain ⟨hv, hlt⟩ := (Arrival.handled_ok hd hok).1.1 happ
        obtain ⟨hnil, hpath⟩ := (h c hd hok).2 hv hlt
        exact (Arrival.kept_of_applied hd hok happ).1.2 ⟨hnil, hpath, ha⟩

end

/-! ## Two directives that go wrong -/

def plainReader : MonitorReader Unit := ⟨fun spec => .ok ⟨spec, []⟩, fun _ => some (id, none)⟩

def arriving (c : Control) : Arrival Unit :=
  ⟨0, ⟨(), [], [], "spool".toList, 0⟩, 7, encodeTlvs c.tlvs, 64⟩

/-- An adoption is acknowledged and forgotten; an epoch without a blob is refused, though every file
operation would succeed. -/
theorem adoption_dropped : ¬ InEffect plainReader ⟨true, true, true, true⟩
      (arriving { verb := Verb.adoptTarget, payload := textBytes "tcp:a:1".toList }) ∧
    ¬ InEffect plainReader ⟨true, true, true, true⟩
      (arriving { verb := Verb.setConfig, targetEpoch := 1 }) := by
  refine ⟨fun h => ?_, fun h => ?_⟩
  · obtain ⟨-, -, u, hu, -⟩ := (h.applied rfl rfl _ rfl).1 rfl
    cases hu
  · exact absurd (h.accepted rfl rfl) (by decide +kernel)

end SolariNet
