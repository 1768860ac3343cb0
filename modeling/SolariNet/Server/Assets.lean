/-
# The services of an adopted system

`assetAddCsvServices` reads a list such as `22,53,80` and adds a probe target for each port.  The
number of a run of digits is accumulated in an `int`, which wraps around at 32 bits.
-/
import SolariNet.Server.Discovery

namespace SolariNet

open List Lib Lib.Prog

/-! ## The model -/

structure ServiceTarget where
  targetId : CStr
  ip : CStr
  port : Int
  label : CStr
  segId : CStr
  assetId : UInt64
  probeType : CStr
  checkArg : Option CStr
  deriving DecidableEq

inductive AssetOp where
  | upsertProbeTarget (t : ServiceTarget)
  | dispatchTarget (spec : CStr)

abbrev AssetOp.Res : AssetOp → Type
  | .upsertProbeTarget _ => Bool
  | .dispatchTarget _ => Unit

instance : (o : AssetOp) → Inhabited o.Res
  | .upsertProbeTarget _ => ⟨true⟩
  | .dispatchTarget _ => ⟨()⟩

abbrev AssetM : Type → Type := Prog AssetOp AssetOp.Res

def probeTypeForPort (port : Int) : CStr :=
  if port ∈ [80, 3000, 8080, 9000] then "http".toList
  else if port = 389 then "ldap".toList
  else if port = 3306 then "mysql".toList
  else if port = 5672 then "amqp".toList
  else "tcp".toList

def defaultHttpCheckArgForPort (_ : Int) : CStr := "/|2xx".toList

def serviceTarget (ip : CStr) (port : Int) (name segId : CStr) (assetId : UInt64) :
    ServiceTarget where
  targetId := ("tcp:".toList ++ ip ++ ':' :: decimal port.toNat).take 159
  ip := ip
  port := port
  label := ((if name = [] then "tcp".toList else name) ++ " (".toList ++ ip ++ [')']).take 159
  segId := segId
  assetId := assetId
  probeType := probeTypeForPort port
  checkArg := if probeTypeForPort port = "http".toList then some (defaultHttpCheckArgForPort port)
    else none

def ServiceTarget.spec (t : ServiceTarget) : CStr :=
  (t.probeType ++ ':' :: t.ip ++ ':' :: decimal t.port.toNat ++
    (t.checkArg.map (':' :: ·)).getD [] ++ " : ".toList ++ t.label).take 319

def IsPort (port : Int) : Prop := 0 < port ∧ port ≤ 65535

instance (port : Int) : Decidable (IsPort port) := inferInstanceAs (Decidable (_ ∧ _))

def assetAddService (ip : CStr) (port : Int) (name segId : CStr) (assetId : UInt64) : AssetM Unit :=
  if port ≤ 0 ∨ 65535 < port then .ret ()
  else do
    let target := serviceTarget ip port name segId assetId
    let ok ← perform (.upsertProbeTarget target)
    if ok then perform (AssetOp.dispatchTarget target.spec) else .ret ()

/-- The value of an expression of type `int`, where an overflow wraps around. -/
def wrapInt (n : Int) : Int := n.bmod (2 ^ 32)

def accumulatePort (run : CStr) : Int :=
  run.foldl (fun port c => wrapInt (port * 10 + (c.toNat - '0'.toNat : Nat))) 0

def notDigit (c : Char) : Bool := !c.isDigit

theorem length_rest_lt {c : Char} {cs : CStr} :
    (((c :: cs).dropWhile notDigit).dropWhile Char.isDigit).length < (c :: cs).length := by
  have hle (p : Char → Bool) (l : CStr) : (l.dropWhile p).length ≤ l.length :=
    (dropWhile_suffix p).length_le
  by_cases hc : c.isDigit = true
  · rw [dropWhile_cons_of_neg (by simp [notDigit, hc]), dropWhile_cons_of_pos hc]
    exact Nat.lt_succ_of_le (hle _ cs)
  · rw [dropWhile_cons_of_pos (by simpa [notDigit] using hc)]
    exact Nat.lt_succ_of_le ((hle _ _).trans (hle _ cs))

def addPort (ip segId : CStr) (assetId : UInt64) (port : Int) : AssetM Unit :=
  if IsPort port then assetAddService ip port "tcp".toList segId assetId else .ret ()

def assetAddCsvServices (ip segId : CStr) (assetId : UInt64) : CStr → AssetM Unit
  | [] => .ret ()
  | c :: cs =>
    addPort ip segId assetId
      (accumulatePort (((c :: cs).dropWhile notDigit).takeWhile Char.isDigit)) >>= fun _ =>
        assetAddCsvServices ip segId assetId
          (((c :: cs).dropWhile notDigit).dropWhile Char.isDigit)
termination_by csv => csv.length
decreasing_by exact length_rest_lt

/-! ## What is upserted -/

def upserted (t : List (Event AssetOp AssetOp.Res)) : List ServiceTarget :=
  t.filterMap fun
    | ⟨.upsertProbeTarget x, _⟩ => some x
    | ⟨.dispatchTarget _, _⟩ => none

section
variable {ip name segId : CStr} {assetId : UInt64} {u : Unit}
  {t : List (Event AssetOp AssetOp.Res)}

theorem assetAddService_runs {port : Int}
    (h : Runs (assetAddService ip port name segId assetId) t u) :
    upserted t = if IsPort port then [serviceTarget ip port name segId assetId] else [] := by
  unfold assetAddService at h
  by_cases hport : IsPort port
  · rw [if_neg (by unfold IsPort at hport; omega)] at h
    obtain ⟨ok, t', ht, hrest⟩ := Runs.perform_bind_iff.1 h
    rw [if_pos hport, ht]
    cases ok with
    | true =>
      obtain ⟨r, t'', rfl, hend⟩ := Runs.call_iff.1 hrest
      cases hend
      rfl
    | false =>
      cases hrest
      rfl
  · rw [if_pos (by unfold IsPort at hport; omega)] at h
    cases h
    rw [if_neg hport]
    rfl

def csvTargets (ip segId : CStr) (assetId : UInt64) (csv : CStr) : List ServiceTarget :=
  (((Lib.words notDigit csv).map accumulatePort).filter fun port => IsPort port).map fun port =>
    serviceTarget ip port "tcp".toList segId assetId

theorem csvTargets_cons (csv : CStr) : csvTargets ip segId assetId csv =
    (if IsPort (accumulatePort ((csv.dropWhile notDigit).takeWhile Char.isDigit)) then
      [serviceTarget ip (accumulatePort ((csv.dropWhile notDigit).takeWhile Char.isDigit))
        "tcp".toList segId assetId] else []) ++
    csvTargets ip segId assetId ((csv.dropWhile notDigit).dropWhile Char.isDigit) := by
  unfold csvTargets
  rw [← words_dropWhile csv]
  cases hp : csv.dropWhile notDigit with
  | nil => rfl
  | cons d ds =>
    have hd : notDigit d = false := by
      have := head_dropWhile_not notDigit (by simp [hp] : csv.dropWhile notDigit ≠ [])
      simpa [hp] using this
    rw [words_run (q := Char.isDigit) (by simp [notDigit]) hd, map_cons, filter_cons]
    by_cases hport : IsPort (accumulatePort ((d :: ds).takeWhile Char.isDigit))
    · rw [if_pos hport, if_pos (decide_eq_true hport)]
      rfl
    · rw [if_neg hport, if_neg (by simpa using hport)]
      rfl

theorem csv_runs (h : Runs (assetAddCsvServices ip segId assetId csv) t u) :
    upserted t = csvTargets ip segId assetId csv := by
  induction csv using assetAddCsvServices.induct generalizing t with
  | case1 =>
    rw [assetAddCsvServices] at h
    cases h
    rfl
  | case2 c cs ih =>
    rw [assetAddCsvServices] at h
    obtain ⟨t₁, t₂, _, rfl, h₁, h₂⟩ := Runs.bind_iff.1 h
    unfold upserted
    rw [csvTargets_cons, filterMap_append]
    refine congrArg₂ (· ++ ·) ?_ (ih h₂)
    unfold addPort at h₁
    split at h₁
    · exact assetAddService_runs h₁
    next hport =>
    cases h₁
    rw [if_neg hport]
    rfl

end

/-! ## The value of a run -/

theorem wrapInt_step (v d : Nat) :
    wrapInt (wrapInt v * 10 + d) = wrapInt ((v * 10 + d : Nat) : Int) := by
  unfold wrapInt
  rw [← Int.bmod_add_bmod]
  simp

theorem accumulatePort_eq (run : CStr) : accumulatePort run = wrapInt (digitsValue run) := by
  have hfold : ∀ (cs : CStr) (v : Nat),
      cs.foldl (fun port c => wrapInt (port * 10 + (c.toNat - '0'.toNat : Nat))) (wrapInt v) =
        wrapInt (cs.foldl (fun v c => v * 10 + (c.toNat - '0'.toNat)) v : Nat) := by
    intro cs
    induction cs with
    | nil =>
      intro v
      rw [foldl_nil, foldl_nil]
    | cons c cs ih =>
      intro v
      rw [foldl_cons, foldl_cons, wrapInt_step, ih]
  exact hfold run 0

theorem wrapInt_of_isPort {n : Int} (h : IsPort n) : wrapInt n = n := by
  unfold IsPort at h
  exact Int.bmod_eq_of_le (by omega) (by omega)

def namedTargets (ip segId : CStr) (assetId : UInt64) (csv : CStr) : Set ServiceTarget :=
  {x | ∃ run ∈ Lib.words notDigit csv, IsPort (digitsValue run) ∧
    x = serviceTarget ip (digitsValue run) "tcp".toList segId assetId}

/-- **Service lists mean what they say** exactly if no value that wraps around to a port makes one
that is not listed. -/
theorem services_mean_what_they_say_iff (ip segId : CStr) (assetId : UInt64) (csv : CStr) :
    (∃ t, Runs (assetAddCsvServices ip segId assetId csv) t ()) ∧
    ∀ t, Runs (assetAddCsvServices ip segId assetId csv) t () →
      upserted t = csvTargets ip segId assetId csv ∧
      ({x | x ∈ upserted t} = namedTargets ip segId assetId csv ↔
        ∀ run ∈ Lib.words notDigit csv, IsPort (wrapInt (digitsValue run)) →
          ∃ other ∈ Lib.words notDigit csv,
            (digitsValue other : Int) = wrapInt (digitsValue run)) := by
  have hmem (x : ServiceTarget) : x ∈ csvTargets ip segId assetId csv ↔
      ∃ run ∈ Lib.words notDigit csv, IsPort (wrapInt (digitsValue run)) ∧
        x = serviceTarget ip (wrapInt (digitsValue run)) "tcp".toList segId assetId := by
    simp only [csvTargets, mem_map, mem_filter, decide_eq_true_eq, accumulatePort_eq]
    constructor
    · rintro ⟨port, ⟨⟨run, hrun, rfl⟩, hport⟩, rfl⟩
      exact ⟨run, hrun, hport, rfl⟩
    · rintro ⟨run, hrun, hport, rfl⟩
      exact ⟨_, ⟨⟨run, hrun, rfl⟩, hport⟩, rfl⟩
  refine ⟨?_, fun t ht => ⟨csv_runs ht, ?_⟩⟩
  · obtain ⟨t, _, ht⟩ := exists_runs (assetAddCsvServices ip segId assetId csv)
    exact ⟨t, ht⟩
  rw [csv_runs ht]
  constructor
  · intro h run hrun hport
    have hx : serviceTarget ip (wrapInt (digitsValue run)) "tcp".toList segId assetId ∈
        namedTargets ip segId assetId csv := h ▸ (hmem _).2 ⟨run, hrun, hport, rfl⟩
    obtain ⟨other, hother, -, heq⟩ := hx
    have hvalue := congrArg ServiceTarget.port heq
    simp only [serviceTarget] at hvalue
    exact ⟨other, hother, hvalue.symm⟩
  · intro h
    ext x
    constructor
    · intro hx
      obtain ⟨run, hrun, hport, rfl⟩ := (hmem x).1 hx
      obtain ⟨other, hother, heq⟩ := h run hrun hport
      rw [← heq] at hport ⊢
      exact ⟨other, hother, hport, rfl⟩
    · rintro ⟨run, hrun, hport, rfl⟩
      refine (hmem _).2 ⟨run, hrun, ?_⟩
      rw [wrapInt_of_isPort hport]
      exact ⟨hport, rfl⟩

/-- 2³² + 22 is taken for port 22. -/
theorem service_port_wraps :
    (Lib.words notDigit "4294967318".toList).map digitsValue = [4294967318] ∧
    csvTargets "10.0.0.1".toList [] 1 "4294967318".toList =
      [serviceTarget "10.0.0.1".toList 22 "tcp".toList [] 1] ∧
    ∃ t, Runs (assetAddCsvServices "10.0.0.1".toList [] 1 "4294967318".toList) t () ∧
      {x | x ∈ upserted t} ≠ namedTargets "10.0.0.1".toList [] 1 "4294967318".toList := by
  have htargets : csvTargets "10.0.0.1".toList [] 1 "4294967318".toList =
      [serviceTarget "10.0.0.1".toList 22 "tcp".toList [] 1] := by decide +kernel
  have hruns : (Lib.words notDigit "4294967318".toList).map digitsValue = [4294967318] := by
    decide +kernel
  refine ⟨hruns, htargets, ?_⟩
  obtain ⟨t, _, ht⟩ := exists_runs (assetAddCsvServices "10.0.0.1".toList [] 1 "4294967318".toList)
  refine ⟨t, ht, fun hsame => ?_⟩
  have hx : serviceTarget "10.0.0.1".toList 22 "tcp".toList [] 1 ∈ upserted t := by
    rw [csv_runs ht, htargets]
    exact mem_singleton_self _
  obtain ⟨run, hrun, hport, -⟩ := hsame.subset hx
  have hval : digitsValue run = 4294967318 := by
    have hmem := mem_map_of_mem (f := digitsValue) hrun
    exact mem_singleton.1 hmem
  rw [hval] at hport
  exact absurd hport.2 (by decide)

end SolariNet
