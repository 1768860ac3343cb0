/-
# The fleet a monitor sees, and how it shares out the targets

`monitorPeer.c`: a monitor registers the peers it hears of, forgets those it has not heard of for
too long, and takes itself and the others for the fleet.
-/
import SolariNet.Lib.Top
import SolariNet.Monitor.Ownership

namespace SolariNet

open List Lib

/-! ## The registry -/

def monitorMaxFleet : Nat := 64

structure Peer where
  nodeId : UInt64
  lastHeardMs : Nat

def Peer.expired (nowMs ttlSec : Nat) (q : Peer) : Bool :=
  decide (q.lastHeardMs ≤ nowMs ∧ ttlSec * 1000 < nowMs - q.lastHeardMs)

/-- `monitorPeers` of a monitor: no peer is registered twice, and the monitor itself never is. -/
structure Peers (selfNodeId : UInt64) where
  peers : List Peer
  distinct : (selfNodeId :: peers.map Peer.nodeId).Nodup

def monitorPeersInit (selfNodeId : UInt64) : Peers selfNodeId := ⟨[], nodup_singleton _⟩

variable {selfNodeId : UInt64}

def monitorPeersHeard (p : Peers selfNodeId) (nodeId : UInt64) (nowMs : Nat) : Peers selfNodeId :=
  if hself : nodeId = 0 ∨ nodeId = selfNodeId then p
  else if hold : nodeId ∈ p.peers.map Peer.nodeId then
    -- the ids are distinct, so that this is the one entry of the node
    { peers := p.peers.map fun q => if q.nodeId = nodeId then { q with lastHeardMs := nowMs } else q
      distinct := by
        have hid : (Peer.nodeId ∘ fun q => if q.nodeId = nodeId then ⟨q.nodeId, nowMs⟩ else q) =
            Peer.nodeId := by
          funext q
          exact (apply_ite Peer.nodeId _ _ _).trans (ite_self _)
        rw [map_map, hid]
        exact p.distinct }
  else if p.peers.length < monitorMaxFleet then
    { peers := p.peers ++ [⟨nodeId, nowMs⟩]
      distinct := by
        rw [map_append, ← cons_append, nodup_append_comm]
        refine nodup_cons.2 ⟨fun h => ?_, p.distinct⟩
        exact (mem_cons.1 h).elim (fun h => hself (.inr h)) hold }
  else p

/-- The loop of `monitorPeersPrune`: the last peer takes the place of one that has expired. -/
def pruneLoop (expired : Peer → Bool) : List Peer → List Peer
  | [] => []
  | q :: qs =>
    if expired q then
      match _h : qs.getLast? with
      | none => []
      | some last => pruneLoop expired (last :: qs.dropLast)
    else q :: pruneLoop expired qs
termination_by l => l.length
decreasing_by
  · have := length_pos_of_mem (mem_of_getLast? _h)
    simp only [length_cons, length_dropLast]
    omega
  · exact Nat.lt_succ_self _

theorem pruneLoop_perm (expired : Peer → Bool) (l : List Peer) :
    pruneLoop expired l ~ l.filter (!expired ·) := by
  fun_induction pruneLoop expired l with
  | case1 => rfl
  | case2 q qs he hlast =>
    cases getLast?_eq_none_iff.1 hlast
    simp [he]
  | case3 q qs he last hlast ih =>
    have hqs : last :: qs.dropLast ~ qs := by
      conv_rhs => rw [← dropLast_append_getLast? last hlast]
      exact (perm_append_singleton _ _).symm
    rw [filter_cons_of_neg (by simp [he])]
    exact ih.trans (hqs.filter _)
  | case4 q qs he ih =>
    rw [filter_cons_of_pos (by simpa using he)]
    exact ih.cons q

def monitorPeersPrune (p : Peers selfNodeId) (nowMs ttlSec : Nat) : Peers selfNodeId :=
  { peers := pruneLoop (Peer.expired nowMs ttlSec) p.peers
    distinct := by
      refine (((pruneLoop_perm _ _).map _).cons _).nodup_iff.2 (p.distinct.sublist ?_)
      exact (filter_sublist.map _).cons_cons _ }

inductive PeerCall where
  | heard (nodeId : UInt64) (nowMs : Nat)
  | prune (nowMs ttlSec : Nat)

def peersAfter (selfNodeId : UInt64) (calls : List PeerCall) : Peers selfNodeId :=
  calls.foldl (fun p c => match c with
    | .heard nodeId nowMs => monitorPeersHeard p nodeId nowMs
    | .prune nowMs ttlSec => monitorPeersPrune p nowMs ttlSec) (monitorPeersInit selfNodeId)

def monitorPeersFleet (p : Peers selfNodeId) (nowMs ttlSec cap : Nat) : List UInt64 :=
  (selfNodeId :: (p.peers.filter (!Peer.expired nowMs ttlSec ·)).map Peer.nodeId).take cap

/-- By the calls: the last that heard of `n` was at `t`, it found `n` registered or room for it, and
no prune since then found it expired. -/
def LastHeard (self : UInt64) (calls : List PeerCall) (n : UInt64) (t : Nat) : Prop :=
  n ≠ 0 ∧ n ≠ self ∧ ∃ before after, calls = before ++ .heard n t :: after ∧
    (∀ t', .heard n t' ∉ after) ∧
    (∀ nowMs ttlSec, .prune nowMs ttlSec ∈ after → Peer.expired nowMs ttlSec ⟨n, t⟩ = false) ∧
    (n ∈ (peersAfter self before).peers.map Peer.nodeId ∨
      (peersAfter self before).peers.length < monitorMaxFleet)

section
variable {p : Peers selfNodeId} {n : UInt64} {t : Nat} {calls : List PeerCall} {c : PeerCall}

theorem mem_heard {m : UInt64} {nowMs : Nat} (h : n = m → m = 0 ∨ m = selfNodeId) :
    ⟨n, t⟩ ∈ (monitorPeersHeard p m nowMs).peers ↔ ⟨n, t⟩ ∈ p.peers := by
  unfold monitorPeersHeard
  split
  · rfl
  next hm =>
  have hne : n ≠ m := fun heq => hm (h heq)
  split
  · simp only [mem_map]
    constructor
    · rintro ⟨q, hq, heq⟩
      split at heq
      · next hid =>
        cases heq
        exact absurd hid hne
      · exact heq ▸ hq
    · exact fun hq => ⟨_, hq, if_neg hne⟩
  split
  · simp [hne]
  · rfl

theorem mem_heard_self {nowMs : Nat} (h : ¬ (n = 0 ∨ n = selfNodeId)) :
    ⟨n, t⟩ ∈ (monitorPeersHeard p n nowMs).peers ↔
      t = nowMs ∧ (n ∈ p.peers.map Peer.nodeId ∨ p.peers.length < monitorMaxFleet) := by
  rw [monitorPeersHeard, dif_neg h]
  split
  · next hold =>
    obtain ⟨q, hq, hid⟩ := mem_map.1 hold
    simp only [mem_map, hold, true_or, and_true]
    constructor
    · rintro ⟨r, -, heq⟩
      split at heq
      · cases heq
        rfl
      · next hr => exact absurd (congrArg Peer.nodeId heq) hr
    · rintro rfl
      exact ⟨q, hq, by rw [if_pos hid, hid]⟩
  next hnew =>
  have hout : (⟨n, t⟩ : Peer) ∉ p.peers := fun hq => hnew (mem_map.2 ⟨_, hq, rfl⟩)
  split
  · next hroom => simp [hout, hroom]
  · next hfull => simp [hout, hnew, hfull]

theorem peersAfter_concat (self : UInt64) (calls : List PeerCall) (c : PeerCall) :
    peersAfter self (calls ++ [c]) = match c with
      | .heard nodeId nowMs => monitorPeersHeard (peersAfter self calls) nodeId nowMs
      | .prune nowMs ttlSec => monitorPeersPrune (peersAfter self calls) nowMs ttlSec := by
  rw [peersAfter, foldl_append]
  rfl

theorem concat_eq_split {before after : List PeerCall} {x : PeerCall}
    (h : calls ++ [c] = before ++ x :: after) :
    after = [] ∧ before = calls ∧ x = c ∨
      ∃ rest, after = rest ++ [c] ∧ calls = before ++ x :: rest := by
  rcases eq_nil_or_concat' after with rfl | ⟨rest, c', rfl⟩
  · obtain ⟨rfl, hc⟩ := append_inj' h rfl
    cases hc
    exact .inl ⟨rfl, rfl, rfl⟩
  · rw [← cons_append, ← append_assoc] at h
    obtain ⟨rfl, hc⟩ := append_inj' h rfl
    cases hc
    exact .inr ⟨rest, rfl, rfl⟩

theorem lastHeard_concat (hc : ∀ t', c ≠ .heard n t') :
    LastHeard selfNodeId (calls ++ [c]) n t ↔ LastHeard selfNodeId calls n t ∧
      ∀ nowMs ttlSec, c = .prune nowMs ttlSec → Peer.expired nowMs ttlSec ⟨n, t⟩ = false := by
  constructor
  · rintro ⟨h0, hself, before, after, heq, hlast, hkept, hroom⟩
    rcases concat_eq_split heq with ⟨-, -, h⟩ | ⟨after, rfl, rfl⟩
    · exact absurd h.symm (hc t)
    simp only [mem_append, mem_singleton, not_or] at hlast hkept
    exact ⟨⟨h0, hself, before, after, rfl, fun t' => (hlast t').1,
      fun m s h => hkept m s (.inl h), hroom⟩, fun m s h => hkept m s (.inr h.symm)⟩
  · rintro ⟨⟨h0, hself, before, after, rfl, hlast, hkept, hroom⟩, hc'⟩
    refine ⟨h0, hself, before, after ++ [c], by simp, fun t' => ?_, fun m s h => ?_, hroom⟩
    · simpa [hlast t'] using (hc t').symm
    · rcases mem_append.1 h with h | h
      · exact hkept m s h
      · exact hc' m s (mem_singleton.1 h).symm

/-- **What is registered**, by the calls. -/
theorem mem_peersAfter : ⟨n, t⟩ ∈ (peersAfter selfNodeId calls).peers ↔
    LastHeard selfNodeId calls n t := by
  induction calls using reverseRecOn with
  | nil => simp [peersAfter, monitorPeersInit, LastHeard]
  | append_singleton calls c ih =>
    rw [peersAfter_concat]
    cases c with
    | prune nowMs ttlSec =>
      rw [lastHeard_concat (by simp), ← ih]
      simp only [monitorPeersPrune, (pruneLoop_perm _ _).mem_iff, mem_filter]
      simp
    | heard m nowMs =>
      by_cases hm : n = m ∧ ¬ (m = 0 ∨ m = selfNodeId)
      · obtain ⟨rfl, hm⟩ := hm
        rw [mem_heard_self hm]
        constructor
        · rintro ⟨rfl, hroom⟩
          exact ⟨fun h => hm (.inl h), fun h => hm (.inr h), calls, [],
            rfl, by simp, by simp, hroom⟩
        · rintro ⟨-, -, before, after, heq, hlast, -, hroom⟩
          -- this call is the last
          rcases concat_eq_split heq with ⟨-, rfl, h⟩ | ⟨after, rfl, -⟩
          · cases h
            exact ⟨rfl, hroom⟩
          · exact absurd (mem_append_right _ mem_cons_self) (hlast nowMs)
      · rw [mem_heard fun h => not_not.1 fun hn => hm ⟨h, hn⟩, ih]
        by_cases heq : n = m
        · -- neither is ever registered
          have hno : n = 0 ∨ n = selfNodeId := heq ▸ not_not.1 fun hn => hm ⟨heq, hn⟩
          exact iff_of_false (fun h => hno.elim h.1 h.2.1) fun h => hno.elim h.1 h.2.1
        · rw [lastHeard_concat (by simpa using fun h => absurd h.symm heq)]
          simp

end

/-! ## The owners of a target -/

def owners (targetId : Bytes) (k : UInt8) (fleet : List UInt64) : Finset UInt64 :=
  {n ∈ fleet.toFinset | monitorOwnsTarget n fleet targetId k = true}

theorem owners_eq_top {fleet : List UInt64} (h : fleet.Nodup) (targetId : Bytes) (k : UInt8) :
    owners targetId k fleet = top (hrwRank monitorTargetIdMax targetId) k.toNat fleet.toFinset := by
  refine Finset.filter_congr fun n hn => ?_
  rw [monitorOwnsTarget_iff, above, countP_eq_length_filter, ← toFinset_card_of_nodup (h.filter _)]
  simp [mem_toFinset.1 hn]

/-- **Rendezvous ownership.** The fleet is the monitor and the peers that were heard of and have not
expired. Of a fleet without duplicates, `k` members or all take themselves for
owners of a target; when one member goes, at most one other comes in its place. The order of a fleet
does not matter. -/
theorem rendezvous_exact : (∀ (self : UInt64) (calls : List PeerCall) (nowMs ttlSec cap : Nat),
      (peersAfter self calls).peers.length < cap →
      (monitorPeersFleet (peersAfter self calls) nowMs ttlSec cap).Nodup ∧
      ∀ n, n ∈ monitorPeersFleet (peersAfter self calls) nowMs ttlSec cap ↔ n = self ∨
        ∃ t, LastHeard self calls n t ∧ Peer.expired nowMs ttlSec ⟨n, t⟩ = false) ∧
    (∀ (targetId : Bytes) (k : UInt8) (fleet : List UInt64), fleet.Nodup →
      (owners targetId k fleet).card = min k.toNat fleet.length ∧
      ∀ m ∈ fleet, (m ∉ owners targetId k fleet →
          owners targetId k (fleet.erase m) = owners targetId k fleet) ∧
        (owners targetId k fleet).erase m ⊆ owners targetId k (fleet.erase m) ∧
        (owners targetId k (fleet.erase m) \ owners targetId k fleet).card ≤ 1) ∧
    ∀ (targetId : Bytes) (k : UInt8) (fleet fleet' : List UInt64), fleet ~ fleet' → ∀ n,
      monitorOwnsTarget n fleet targetId k = monitorOwnsTarget n fleet' targetId k := by
  refine ⟨fun self calls nowMs ttlSec cap hcap => ?_, fun targetId k fleet h => ?_,
    fun targetId k fleet fleet' h n => ?_⟩
  · have hlen := length_filter_le (!Peer.expired nowMs ttlSec ·) (peersAfter self calls).peers
    rw [monitorPeersFleet, take_of_length_le (by rw [length_cons, length_map]; omega)]
    refine ⟨(peersAfter self calls).distinct.sublist
      ((filter_sublist.map _).cons_cons _), fun n => ?_⟩
    simp only [mem_cons, mem_map, mem_filter, ← mem_peersAfter]
    refine or_congr_right ⟨?_, fun ⟨t, hq, hin⟩ => ⟨_, ⟨hq, by simp [hin]⟩, rfl⟩⟩
    rintro ⟨q, ⟨hq, hin⟩, rfl⟩
    exact ⟨q.lastHeardMs, hq, by simpa using hin⟩
  · have hf : (hrwRank monitorTargetIdMax targetId).Injective := fun _ _ => hrwRank_inj
    refine ⟨?_, fun m hm => ?_⟩
    · rw [owners_eq_top h, card_top hf, toFinset_card_of_nodup h]
    have hm := mem_toFinset.2 hm
    have hrest : (fleet.erase m).toFinset = fleet.toFinset.erase m := by
      ext n
      simp [h.mem_erase_iff]
    rw [owners_eq_top h, owners_eq_top (h.erase m), hrest]
    exact ⟨top_erase_of_notMem hm, erase_subset_top hm, card_top_new hf hm⟩
  · rw [Bool.eq_iff_iff, monitorOwnsTarget_iff, monitorOwnsTarget_iff, h.mem_iff, h.countP_eq]

/-- Of two peers the second is not heard of again, and expires. -/
def twoPeers : List PeerCall :=
  [.heard 2 0, .heard 3 0, .heard 0 0, .heard 2 50000, .prune 100000 60]

theorem rendezvous_exact_two :
    monitorPeersFleet (peersAfter 1 twoPeers) 100000 60 3 = [1, 2] ∧
    (∃ t, LastHeard 1 twoPeers 2 t ∧ Peer.expired 100000 60 ⟨2, t⟩ = false) ∧
    (owners [0x61] 2 [1, 2, 3]).card = 2 := by
  have hpeers : (peersAfter 1 twoPeers).peers = [⟨2, 50000⟩] := by
    simp [peersAfter, twoPeers, monitorPeersInit, monitorPeersHeard, monitorPeersPrune, pruneLoop,
      Peer.expired, monitorMaxFleet]
  have hfleet : monitorPeersFleet (peersAfter 1 twoPeers) 100000 60 3 = [1, 2] := by
    rw [monitorPeersFleet, hpeers]
    rfl
  obtain ⟨hparts, howners, -⟩ := rendezvous_exact
  obtain ⟨-, hmem⟩ := hparts 1 twoPeers 100000 60 3 (by rw [hpeers]; decide)
  refine ⟨hfleet, ((hmem 2).1 (by rw [hfleet]; decide)).resolve_left (by decide), ?_⟩
  exact (howners [0x61] 2 [1, 2, 3] (by decide)).1

end SolariNet
