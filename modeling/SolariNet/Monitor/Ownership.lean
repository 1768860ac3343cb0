/-
# Who probes a target

Every node of the fleet gets a weight for a target, a hash of the target's id and the node's id.
The owner is the node of the greatest weight; among equal weights, the one with the greater id.

    monitorOwnsTarget     a monitor counts the nodes that outrank it (`monitorPeer.c`)
    provHrwTopOwner       the server scans for the greatest (`serverProvision.c`)

Both hash at most so many octets of the target's id, but not equally many: the server stops after
128, a monitor after 320.
-/
import Mathlib.Data.List.MinMax
import SolariNet.Wire.Crypto

namespace SolariNet

open List

/-! ## Weights -/

def serverTargetIdMax : Nat := 128

def monitorTargetIdMax : Nat := 320

def nodeOctets (nodeId : UInt64) : Bytes :=
  (List.range 8).map fun i => (nodeId >>> (8 * i).toUInt64).toUInt8

def cutWeight (cut : Nat) (targetId : Bytes) (nodeId : UInt64) : UInt64 :=
  solariFnv1a64 (targetId.take cut ++ nodeOctets nodeId)

def provHrwWeight : Bytes → UInt64 → UInt64 := cutWeight serverTargetIdMax

def hrwWeight : Bytes → UInt64 → UInt64 := cutWeight monitorTargetIdMax

/-! ## The two programs -/

/-- The loop of `provHrwTopOwner`: the best node so far, 0 if there is none, and its weight. -/
def topOwnerLoop (targetId : Bytes) : UInt64 × UInt64 → List UInt64 → UInt64 × UInt64
  | acc, [] => acc
  | (best, bestW), node :: fleet =>
    let w := provHrwWeight targetId node
    if best = 0 ∨ bestW < w ∨ w = bestW ∧ best < node then topOwnerLoop targetId (node, w) fleet
    else topOwnerLoop targetId (best, bestW) fleet

def provHrwTopOwner (targetId : Bytes) (fleet : List UInt64) : UInt64 :=
  (topOwnerLoop targetId (0, 0) fleet).1

/-- The loop of `monitorOwnsTarget`: how many nodes outrank `self`, and whether it was met. -/
def ownsLoop (self ws : UInt64) (targetId : Bytes) : Nat × Bool → List UInt64 → Nat × Bool
  | acc, [] => acc
  | (higher, selfInFleet), node :: fleet =>
    if node = self then ownsLoop self ws targetId (higher, true) fleet
    else
      let w := hrwWeight targetId node
      if ws < w ∨ w = ws ∧ self < node then
        ownsLoop self ws targetId (higher + 1, selfInFleet) fleet
      else ownsLoop self ws targetId (higher, selfInFleet) fleet

def monitorOwnsTarget (self : UInt64) (fleet : List UInt64) (targetId : Bytes) (k : UInt8) : Bool :=
  if fleet = [] ∨ k = 0 then false
  else
    let r := ownsLoop self (hrwWeight targetId self) targetId (0, false) fleet
    if !r.2 then false else decide (r.1 < k.toNat)

/-! ## Ranks -/

/-- Weight first, then the id: what both programs compare, as one number. -/
def hrwRank (cut : Nat) (targetId : Bytes) (node : UInt64) : Nat :=
  (cutWeight cut targetId node).toNat * 2 ^ 64 + node.toNat

def RanksFirst (cut : Nat) (targetId : Bytes) (fleet : List UInt64) (node : UInt64) : Prop :=
  ∀ m ∈ fleet, m ≠ node → hrwRank cut targetId m < hrwRank cut targetId node

section
variable {cut : Nat} {targetId : Bytes} {m n : UInt64}

theorem hrwRank_lt_iff : hrwRank cut targetId m < hrwRank cut targetId n ↔
    cutWeight cut targetId m < cutWeight cut targetId n ∨
      cutWeight cut targetId n = cutWeight cut targetId m ∧ m < n := by
  have hm := m.toNat_lt
  have hn := n.toNat_lt
  rw [UInt64.lt_iff_toNat_lt, UInt64.lt_iff_toNat_lt, ← UInt64.toNat_inj]
  unfold hrwRank
  omega

theorem hrwRank_inj (h : hrwRank cut targetId m = hrwRank cut targetId n) : m = n := by
  have hm := m.toNat_lt
  have hn := n.toNat_lt
  rw [← UInt64.toNat_inj]
  unfold hrwRank at h
  omega

variable {fleet : List UInt64}

theorem ranksFirst_of_le (h : ∀ m ∈ fleet, hrwRank cut targetId m ≤ hrwRank cut targetId n) :
    RanksFirst cut targetId fleet n := by
  intro m hm hne
  exact lt_of_le_of_ne (h m hm) fun heq => hne (hrwRank_inj heq)

theorem RanksFirst.unique (hm : RanksFirst cut targetId fleet m)
    (hn : RanksFirst cut targetId fleet n) (hmem : m ∈ fleet) (hnem : n ∈ fleet) : m = n := by
  by_contra hne
  exact lt_asymm (hm n hnem (Ne.symm hne)) (hn m hmem hne)

end

variable {fleet : List UInt64} {self : UInt64}

theorem topOwnerLoop_spec (targetId : Bytes) (h0 : 0 ∉ fleet) {best : UInt64} (hbest : best ≠ 0) :
    (topOwnerLoop targetId (best, provHrwWeight targetId best) fleet).1 ∈ best :: fleet ∧
      ∀ m ∈ best :: fleet, hrwRank serverTargetIdMax targetId m ≤ hrwRank serverTargetIdMax targetId
        (topOwnerLoop targetId (best, provHrwWeight targetId best) fleet).1 := by
  induction fleet generalizing best with
  | nil =>
    refine ⟨mem_cons_self, fun m hm => ?_⟩
    rw [mem_singleton.1 hm]
    exact le_refl _
  | cons node fleet ih =>
    have hnode : node ≠ 0 := fun h => h0 (h ▸ mem_cons_self)
    have hrest : (0 : UInt64) ∉ fleet := fun h => h0 (mem_cons_of_mem _ h)
    rw [topOwnerLoop]
    split
    · next hup =>
      have hlt : hrwRank serverTargetIdMax targetId best <
          hrwRank serverTargetIdMax targetId node := by
        refine hrwRank_lt_iff.2 ?_
        rcases hup with h | h | h
        · exact absurd h hbest
        · exact .inl h
        · exact .inr h
      obtain ⟨hmem, hmax⟩ := ih hrest hnode
      exact ⟨mem_cons_of_mem _ hmem,
        forall_mem_cons.2 ⟨hlt.le.trans (hmax node mem_cons_self), hmax⟩⟩
    · next hstay =>
      have hle : hrwRank serverTargetIdMax targetId node ≤
          hrwRank serverTargetIdMax targetId best :=
        not_lt.1 fun hlt => hstay (.inr (hrwRank_lt_iff.1 hlt))
      obtain ⟨hmem, hmax⟩ := ih hrest hbest
      obtain ⟨hfirst, hothers⟩ := forall_mem_cons.1 hmax
      refine ⟨?_, forall_mem_cons.2 ⟨hfirst, forall_mem_cons.2 ⟨hle.trans hfirst, hothers⟩⟩⟩
      rcases mem_cons.1 hmem with h | h
      · exact mem_cons.2 (.inl h)
      · exact mem_cons_of_mem _ (mem_cons_of_mem _ h)

theorem provHrwTopOwner_first (targetId : Bytes) (h0 : 0 ∉ fleet) (hne : fleet ≠ []) :
    provHrwTopOwner targetId fleet ∈ fleet ∧
      RanksFirst serverTargetIdMax targetId fleet (provHrwTopOwner targetId fleet) := by
  cases fleet with
  | nil => exact absurd rfl hne
  | cons node fleet =>
    have hnode : node ≠ 0 := fun h => h0 (h ▸ mem_cons_self)
    have hrest : (0 : UInt64) ∉ fleet := fun h => h0 (mem_cons_of_mem _ h)
    obtain ⟨hmem, hmax⟩ := topOwnerLoop_spec targetId hrest hnode
    exact ⟨hmem, ranksFirst_of_le hmax⟩

/-! ## Counting -/

theorem ownsLoop_spec (self : UInt64) (targetId : Bytes) (fleet : List UInt64) (higher : Nat)
    (seen : Bool) :
    ownsLoop self (hrwWeight targetId self) targetId (higher, seen) fleet =
      (higher + fleet.countP (fun m => hrwRank monitorTargetIdMax targetId self <
          hrwRank monitorTargetIdMax targetId m), seen || decide (self ∈ fleet)) := by
  induction fleet generalizing higher seen with
  | nil => simp [ownsLoop]
  | cons node fleet ih =>
    rw [ownsLoop]
    split
    · next hself =>
      subst hself
      rw [ih]
      simp
    next hself =>
    have hmem : decide (self ∈ node :: fleet) = decide (self ∈ fleet) := by
      simp [Ne.symm hself]
    simp only
    split
    · next hup =>
      have hlt : hrwRank monitorTargetIdMax targetId self <
          hrwRank monitorTargetIdMax targetId node := hrwRank_lt_iff.2 hup
      rw [ih, hmem, countP_cons, decide_eq_true hlt, if_pos rfl, Nat.add_assoc, Nat.add_comm 1]
    · next hdown =>
      have hnlt : ¬ hrwRank monitorTargetIdMax targetId self <
          hrwRank monitorTargetIdMax targetId node := fun h => hdown (hrwRank_lt_iff.1 h)
      rw [ih, hmem, countP_cons, decide_eq_false hnlt]
      rfl

theorem monitorOwnsTarget_iff {k : UInt8} :
    monitorOwnsTarget self fleet targetId k = true ↔ self ∈ fleet ∧
      fleet.countP (fun m => hrwRank monitorTargetIdMax targetId self <
        hrwRank monitorTargetIdMax targetId m) < k.toNat := by
  unfold monitorOwnsTarget
  split
  · next h =>
    rcases h with rfl | rfl
    · simp
    · simp
  · rw [ownsLoop_spec]
    simp

theorem monitorOwnsTarget_one (targetId : Bytes) (hself : self ∈ fleet) :
    monitorOwnsTarget self fleet targetId 1 = true ↔
      RanksFirst monitorTargetIdMax targetId fleet self := by
  simp only [monitorOwnsTarget_iff, hself, true_and, UInt8.toNat_one, Nat.lt_one_iff,
    countP_eq_zero, decide_eq_true_eq, not_lt]
  constructor
  · exact ranksFirst_of_le
  intro h m hm
  by_cases heq : m = self
  · rw [heq]
  · exact (h m hm heq).le

/-! ## One owner -/

/-- The node the server picks is the one member of the fleet that takes itself for the owner. -/
def OwnerAgreed (targetId : Bytes) (fleet : List UInt64) : Prop :=
  (fleet ≠ [] → provHrwTopOwner targetId fleet ∈ fleet) ∧
    ∀ n ∈ fleet, monitorOwnsTarget n fleet targetId 1 = true ↔ n = provHrwTopOwner targetId fleet

/-- The owner of an id that is hashed as a whole. -/
def rendezvousOwner (id : Bytes) (fleet : List UInt64) : Option UInt64 :=
  fleet.argmax fun n => (solariFnv1a64 (id ++ nodeOctets n)).toNat * 2 ^ 64 + n.toNat

theorem mem_rendezvousOwner {cut : Nat} {targetId : Bytes} {n : UInt64} :
    n ∈ rendezvousOwner (targetId.take cut) fleet ↔
      n ∈ fleet ∧ RanksFirst cut targetId fleet n := by
  have hrank : (fun n => (solariFnv1a64 (targetId.take cut ++ nodeOctets n)).toNat * 2 ^ 64 +
      n.toNat) = hrwRank cut targetId := rfl
  rw [rendezvousOwner, hrank, mem_argmax_iff]
  constructor
  · rintro ⟨hn, hmax, -⟩
    exact ⟨hn, ranksFirst_of_le hmax⟩
  · rintro ⟨hn, hfirst⟩
    have hmax (m : UInt64) (hm : m ∈ fleet) :
        hrwRank cut targetId m ≤ hrwRank cut targetId n := by
      by_cases heq : m = n
      · rw [heq]
      · exact (hfirst m hm heq).le
    exact ⟨hn, hmax, fun m hm hle => (hrwRank_inj ((hmax m hm).antisymm hle) ▸ le_rfl)⟩

/-- **The server and the fleet agree** on a target whose id has at most 128 octets, and on a longer
one exactly when its first 128 octets have the owner that its first 320 have. -/
theorem top_owner_agrees_iff (targetId : Bytes) (fleet : List UInt64) (h0 : 0 ∉ fleet) :
    (targetId.length ≤ serverTargetIdMax → OwnerAgreed targetId fleet) ∧
    (OwnerAgreed targetId fleet ↔ rendezvousOwner (targetId.take serverTargetIdMax) fleet =
      rendezvousOwner (targetId.take monitorTargetIdMax) fleet) := by
  have hpick {n : UInt64} (hn : n ∈ fleet) : RanksFirst serverTargetIdMax targetId fleet n ↔
      n = provHrwTopOwner targetId fleet := by
    obtain ⟨hmem, hfirst⟩ := provHrwTopOwner_first targetId h0 (ne_nil_of_mem hn)
    constructor
    · exact fun h => h.unique hfirst hn hmem
    · rintro rfl
      exact hfirst
  have hiff : OwnerAgreed targetId fleet ↔ rendezvousOwner (targetId.take serverTargetIdMax) fleet =
      rendezvousOwner (targetId.take monitorTargetIdMax) fleet := by
    constructor
    · rintro ⟨-, hown⟩
      refine Option.ext fun n => ?_
      rw [← Option.mem_def, ← Option.mem_def, mem_rendezvousOwner, mem_rendezvousOwner]
      refine and_congr_right fun hn => ?_
      rw [hpick hn, ← hown n hn, monitorOwnsTarget_one targetId hn]
    · intro hsame
      refine ⟨fun hne => (provHrwTopOwner_first targetId h0 hne).1, fun n hn => ?_⟩
      have hn' : n ∈ fleet ∧ RanksFirst serverTargetIdMax targetId fleet n ↔
          n ∈ fleet ∧ RanksFirst monitorTargetIdMax targetId fleet n := by
        rw [← mem_rendezvousOwner, hsame, mem_rendezvousOwner]
      rw [monitorOwnsTarget_one targetId hn, ← hpick hn]
      exact ⟨fun h => (hn'.2 ⟨hn, h⟩).2, fun h => (hn'.1 ⟨hn, h⟩).2⟩
  refine ⟨fun hlen => hiff.2 ?_, hiff⟩
  rw [take_of_length_le hlen, take_of_length_le (hlen.trans (by decide))]

/-- Three monitors and the target `nas`. -/
theorem top_owner_agrees_iff_short : (0 : UInt64) ∉ [1, 2, 3] ∧
    OwnerAgreed [0x6E, 0x61, 0x73] [1, 2, 3] :=
  ⟨by decide, (top_owner_agrees_iff _ _ (by decide)).1 (by decide)⟩

/-- **Two owners.**  For an id of 129 octets the server picks node 2, and node 1 takes itself for
the owner. -/
theorem long_id_two_owners : provHrwTopOwner (replicate 129 0x61) [1, 2] = 2 ∧
    monitorOwnsTarget 1 [1, 2] (replicate 129 0x61) 1 = true ∧
    ¬ OwnerAgreed (replicate 129 0x61) [1, 2] := by
  have hserver : provHrwTopOwner (replicate 129 0x61) [1, 2] = 2 := by decide +kernel
  have hmonitor : monitorOwnsTarget 1 [1, 2] (replicate 129 0x61) 1 = true := by
    decide +kernel
  refine ⟨hserver, hmonitor, fun h => ?_⟩
  have hsame := (h.2 1 mem_cons_self).1 hmonitor
  rw [hserver] at hsame
  cases hsame

end SolariNet
