/-
# Approval for static addresses

`routes/network_allocator.php`: an operator declares that addresses may be allocated in a network.
The route refuses a network that is not live or not enabled, that has not exactly one live IPv4
prefix, or whose prefix overlaps one of another live network.  Prefixes are texts, with whatever
host bits and spelling they were stored with, and two of them are compared by their packed bytes:
the whole bytes of the shorter prefix, then its remaining bits under a mask.
-/
import SolariNet.Dashboard.Auth
import SolariNet.Netdb.Select

namespace SolariNet.Dashboard.NetworkAllocator

open Lib List

/-! ## Prefixes -/

def ctypeDigit (s : CStr) : Bool := s ≠ [] && s.all Char.isDigit

def intval (s : CStr) : Nat := min (s.foldl (fun v c => v * 10 + (c.toNat - 48)) 0) (2 ^ 63 - 1)

/-- An octet has no leading zero. -/
def octet (s : CStr) : Option UInt8 :=
  if ctypeDigit s = true ∧ (s.head? = some '0' → s.length = 1) ∧ intval s ≤ 255 then
    some (UInt8.ofNat (intval s))
  else none

/-- `inet_pton` where it gives four bytes.  It stops at a NUL. -/
def inetPton (s : CStr) : Option Bytes :=
  match ((s.takeWhile (· ≠ '\x00')).splitOn '.').mapM octet with
  | some [a, b, c, d] => some [a, b, c, d]
  | _ => none

/-- `explode('/', $s, 2)` where it gives two parts. -/
def explodeSlash (s : CStr) : Option (CStr × CStr) :=
  match s.dropWhile (· ≠ '/') with
  | [] => none
  | _ :: rest => some (s.takeWhile (· ≠ '/'), rest)

/-- The packed address and the length of what `network_allocator_is_ipv4_cidr` accepts. -/
def ipv4Cidr (cidr : CStr) : Option (Bytes × Nat) :=
  match explodeSlash cidr with
  | none => none
  | some (ip, len) =>
    if ctypeDigit len = true ∧ intval len ≤ 32 then (inetPton ip).map (·, intval len) else none

def isIpv4Cidr (cidr : CStr) : Bool := (ipv4Cidr cidr).isSome

def samePrefix (common : Nat) (packedA packedB : Bytes) : Bool :=
  let wholeBytes := common / 8
  if packedA.take wholeBytes ≠ packedB.take wholeBytes then false
  else
    let remainingBits := common % 8
    if remainingBits = 0 then true
    else
      let mask : UInt8 := 0xff <<< UInt8.ofNat (8 - remainingBits)
      packedA.getD wholeBytes 0 &&& mask = packedB.getD wholeBytes 0 &&& mask

def ipv4Overlaps (a b : CStr) : Bool :=
  match ipv4Cidr a, ipv4Cidr b with
  | some (packedA, prefixA), some (packedB, prefixB) =>
    samePrefix (min prefixA prefixB) packedA packedB
  | _, _ => false

/-! ## The route -/

structure Approval where
  eligible : Bool
  approvedBy : Option CStr
  approvedAt : Option Nat
  deriving DecidableEq

/-- A row of `networks`; `facts` are the columns the route does not name. -/
structure Network (ρ : Type) where
  name : CStr
  enabled : Bool
  deleted : Bool
  approval : Approval
  updatedAt : Nat
  facts : ρ

structure Subnet where
  networkId : Option Nat
  cidr : CStr
  deleted : Bool

/-- The tables, and the networks whose change the triggers have put in `sor_outbox`. -/
structure Sor (ρ : Type) where
  networks : Nat → Option (Network ρ)
  subnets : List Subnet
  outbox : List Nat

variable {ρ : Type}

def Sor.own (t : Sor ρ) (id : Nat) : List CStr :=
  (t.subnets.filter fun s => s.networkId = some id ∧ s.deleted = false).map (·.cidr)

def Sor.others (t : Sor ρ) (id : Nat) : List (CStr × CStr) :=
  t.subnets.filterMap fun s =>
    if s.deleted = false ∧ s.networkId ≠ some id then
      (s.networkId.bind t.networks).bind fun n =>
        if n.deleted = false then some (n.name, s.cidr) else none
    else none

/-- `updated_at` is `ON UPDATE current_timestamp()`. -/
def Network.set (n : Network ρ) (a : Approval) (now : Nat) : Network ρ :=
  { n with approval := a, updatedAt := if a = n.approval then n.updatedAt else now }

/-- The update; `allocator_approved_by` takes 128 characters. -/
def Sor.save (t : Sor ρ) (id : Nat) (n : Network ρ) (a : Approval) (now : Nat) :
    Except ApiError (Sor ρ) :=
  if 128 < (a.approvedBy.getD []).length then
    .error ⟨"service_unavailable", "Network allocation approval could not be saved.".toList, 503⟩
  else .ok { t with
    networks := Function.update t.networks id (some (n.set a now)), outbox := t.outbox ++ [id] }

def conflict (message : CStr) : Except ApiError (Sor ρ) := .error ⟨"conflict", message, 409⟩

def notFound : Except ApiError (Sor ρ) :=
  .error ⟨"not_found", "Network is not live in the SoR.".toList, 404⟩

def approve (t : Sor ρ) (id : Nat) (n : Network ρ) (operator : CStr) (now : Nat) :
    Except ApiError (Sor ρ) :=
  if n.enabled = false then conflict "A disabled network cannot be approved.".toList
  else
    let own := (t.own id).filter isIpv4Cidr
    if own.length ≠ 1 then
      conflict ("Approval requires exactly one live IPv4 subnet; this network has ".toList ++
        (toString own.length).toList ++ ".".toList)
    else
      let overlaps := (t.others id).filter fun o => ipv4Overlaps (own.headD []) o.2
      if overlaps ≠ [] then
        conflict ("Overlapping SoR IPv4 prefixes must be reconciled first: ".toList ++
          ", ".toList.intercalate (overlaps.map fun o => o.1 ++ " (".toList ++ o.2 ++ ")".toList))
      else t.save id n ⟨true, some operator, some now⟩ now

structure Request where
  id : CStr
  eligible : Option Bool
  confirm : Bool
  operator : CStr

def eligibility (t : Sor ρ) (r : Request) (now : Nat) : Except ApiError (Sor ρ) :=
  if ctypeDigit r.id = false ∨ intval r.id < 1 then
    .error ⟨"bad_request", "Network id must be a positive integer.".toList, 400⟩
  else
    match r.eligible with
    | none => .error ⟨"bad_request", "eligible must be true or false.".toList, 400⟩
    | some eligible =>
      if r.confirm = false then
        .error ⟨"confirmation_required", "Explicit confirmation is required.".toList, 400⟩
      else
        match t.networks (intval r.id) with
        | none => notFound
        | some n =>
          if n.deleted = true then notFound
          else if eligible = true then approve t (intval r.id) n r.operator now
          else t.save (intval r.id) n ⟨false, none, none⟩ now

/-! ## Shared addresses -/

theorem and_mask : ∀ k < 8, 0 < k → ∀ b : UInt8,
    (b &&& 0xff <<< UInt8.ofNat k).toNat = b.toNat / 2 ^ k * 2 ^ k := by
  intro k hk hpos
  refine forall_byte ?_
  revert k
  decide +kernel

theorem mul_add_inj {k a b x y : Nat} (hx : x < k) (hy : y < k) :
    a * k + x = b * k + y ↔ a = b ∧ x = y := by
  have hk : 0 < k := by omega
  constructor
  · intro h
    have hdiv := congrArg (· / k) h
    simp only [Nat.mul_comm _ k, Nat.mul_add_div hk, Nat.div_eq_of_lt hx,
      Nat.div_eq_of_lt hy] at hdiv
    obtain rfl : a = b := by omega
    exact ⟨rfl, by omega⟩
  · rintro ⟨rfl, rfl⟩
    rfl

theorem samePrefix_cons_of_lt {a b : UInt8} {as bs : Bytes} {c : Nat} (hc : c < 8) :
    samePrefix c (a :: as) (b :: bs) = true ↔ a.toNat / 2 ^ (8 - c) = b.toNat / 2 ^ (8 - c) := by
  have hmask := and_mask (8 - c)
  have ha := a.toNat_lt
  have hb := b.toNat_lt
  rw [samePrefix, Nat.div_eq_of_lt hc, Nat.mod_eq_of_lt hc]
  by_cases h0 : c = 0
  · subst h0
    exact iff_of_true rfl (by rw [Nat.div_eq_of_lt ha, Nat.div_eq_of_lt hb])
  simp only [take_zero, ne_eq, not_true_eq_false, if_false, if_neg h0, getD_cons_zero,
    decide_eq_true_eq]
  rw [← UInt8.toNat_inj, hmask (by omega) (by omega), hmask (by omega) (by omega),
    Nat.mul_left_inj (Nat.two_pow_pos _).ne']

theorem samePrefix_cons {a b : UInt8} {as bs : Bytes} {c : Nat} :
    samePrefix (c + 8) (a :: as) (b :: bs) = true ↔ a = b ∧ samePrefix c as bs = true := by
  unfold samePrefix
  simp only [Nat.add_div_right c (by decide : 0 < 8), Nat.add_mod_right, take_succ_cons,
    getD_cons_succ, ne_eq, cons.injEq]
  by_cases h : a = b
  · simp [h]
  · simp [h]

/-- Bytes agree in their first bits iff they do as numbers. -/
theorem samePrefix_iff {as bs : Bytes} {c : Nat} (hlen : as.length = bs.length)
    (hc : c ≤ 8 * as.length) : samePrefix c as bs = true ↔
      ofBytes as / 2 ^ (8 * as.length - c) = ofBytes bs / 2 ^ (8 * as.length - c) := by
  induction as generalizing bs c with
  | nil =>
    obtain rfl : bs = [] := by simpa using hlen.symm
    obtain rfl : c = 0 := by simpa using hc
    simp [samePrefix]
  | cons a as ih =>
    cases bs with
    | nil => cases hlen
    | cons b bs =>
      have hlen : as.length = bs.length := by simpa using hlen
      have hpow : (256 : Nat) ^ as.length = 2 ^ (8 * as.length) := by rw [Nat.pow_mul]
      have hv := ofBytes_lt as
      have hw := ofBytes_lt bs
      rw [← hlen] at hw
      rw [length_cons] at hc ⊢
      rw [ofBytes, ofBytes, ← hlen]
      rcases Nat.lt_or_ge c 8 with h8 | h8
      · -- only bits of the first byte
        have hexp : 8 * (as.length + 1) - c = 8 * as.length + (8 - c) := by omega
        rw [samePrefix_cons_of_lt h8, hexp, Nat.pow_add, ← hpow, ← Nat.div_div_eq_div_mul,
          ← Nat.div_div_eq_div_mul, Nat.mul_comm a.toNat, Nat.mul_comm b.toNat,
          Nat.mul_add_div (Nat.pow_pos (by decide)), Nat.mul_add_div (Nat.pow_pos (by decide)),
          Nat.div_eq_of_lt hv, Nat.div_eq_of_lt hw, Nat.add_zero, Nat.add_zero]
      · obtain ⟨c, rfl⟩ := Nat.exists_eq_add_of_le' h8
        have hsplit : (256 : Nat) ^ as.length = 2 ^ c * 2 ^ (8 * as.length - c) := by
          rw [hpow, ← Nat.pow_add, Nat.add_sub_cancel' (by omega)]
        have hexp : 8 * (as.length + 1) - (c + 8) = 8 * as.length - c := by omega
        have hdiv : ∀ x y, (x * (256 : Nat) ^ as.length + y) / 2 ^ (8 * as.length - c) =
            x * 2 ^ c + y / 2 ^ (8 * as.length - c) := by
          intro x y
          rw [hsplit, ← Nat.mul_assoc, Nat.mul_comm _ (2 ^ (8 * as.length - c)),
            Nat.mul_add_div (Nat.two_pow_pos _)]
        have hlt : ∀ y, y < (256 : Nat) ^ as.length → y / 2 ^ (8 * as.length - c) < 2 ^ c :=
          fun y hy => Nat.div_lt_of_lt_mul (by rwa [Nat.mul_comm, ← hsplit])
        rw [samePrefix_cons, ih hlen (by omega), hexp, hdiv, hdiv,
          mul_add_inj (hlt _ hv) (hlt _ hw),
          UInt8.toNat_inj]

def denotes (cidr : CStr) : Option Net4 := (ipv4Cidr cidr).map fun p => ⟨ofBytes p.1, p.2⟩

theorem contains_iff {n : Net4} {x : Nat} : n.Contains x ↔ x / n.size = n.addr / n.size := by
  have hsize : 0 < n.size := Nat.two_pow_pos _
  rw [Net4.Contains, Net4.broadcastAddress, Net4.networkAddress, Nat.div_eq_iff hsize]

/-- Two networks share an address iff the shorter prefix is that of both. -/
theorem shared_iff {n m : Net4} (h : n.prefixLen ≤ m.prefixLen) :
    (∃ x, n.Contains x ∧ m.Contains x) ↔ n.addr / n.size = m.addr / n.size := by
  have hsize : n.size = m.size * 2 ^ (32 - n.prefixLen - (32 - m.prefixLen)) := by
    rw [Net4.size, Net4.size, ← Nat.pow_add]
    congr 1
    omega
  simp only [contains_iff]
  constructor
  · rintro ⟨x, hn, hm⟩
    rw [← hn, hsize, ← Nat.div_div_eq_div_mul, hm, Nat.div_div_eq_div_mul]
  · exact fun h => ⟨m.addr, h.symm, rfl⟩

theorem ipv4Cidr_spec {p : Bytes × Nat} (h : ipv4Cidr cidr = some p) :
    p.1.length = 4 ∧ p.2 ≤ 32 := by
  unfold ipv4Cidr at h
  split at h
  · cases h
  obtain ⟨⟨-, hlen⟩, h⟩ := Option.ite_none_right_eq_some.1 h
  obtain ⟨packed, hp, rfl⟩ := Option.map_eq_some_iff.1 h
  refine ⟨?_, hlen⟩
  unfold inetPton at hp
  split at hp
  · cases hp
    rfl
  · cases hp

theorem ipv4Overlaps_iff {n m : Net4} (ha : denotes a = some n)
    (hb : denotes b = some m) : ipv4Overlaps a b = true ↔ ∃ x, n.Contains x ∧ m.Contains x := by
  obtain ⟨⟨as, la⟩, hpa, rfl⟩ := Option.map_eq_some_iff.1 ha
  obtain ⟨⟨bs, lb⟩, hpb, rfl⟩ := Option.map_eq_some_iff.1 hb
  obtain ⟨hlas, hla⟩ := ipv4Cidr_spec hpa
  obtain ⟨hlbs, hlb⟩ := ipv4Cidr_spec hpb
  have hsame : ∀ c ≤ 32, samePrefix c as bs = true ↔
      ofBytes as / 2 ^ (32 - c) = ofBytes bs / 2 ^ (32 - c) := by
    intro c hc
    have h := samePrefix_iff (hlas.trans hlbs.symm) (c := c) (by omega)
    rwa [hlas] at h
  rw [ipv4Overlaps]
  simp only [hpa, hpb]
  rcases Nat.le_total la lb with h | h
  · rw [min_eq_left h, hsame la hla, shared_iff h]
    rfl
  · rw [min_eq_right h, hsame lb hlb, exists_congr fun x => and_comm, shared_iff h, eq_comm]
    rfl

/-! ## What is approved -/

variable {t t' : Sor ρ} {id now : Nat} {operator : CStr} {net : Network ρ}

/-- The network has exactly one live IPv4 prefix, and shares no address of it with a live subnet of
another live network. -/
def Sor.Alone (t : Sor ρ) (id : Nat) : Prop :=
  ∃ cidr own, (t.own id).filter (fun c => (denotes c).isSome) = [cidr] ∧ denotes cidr = some own ∧
    ∀ o ∈ t.others id, ∀ other, denotes o.2 = some other → ¬ ∃ x, own.Contains x ∧ other.Contains x

theorem isIpv4Cidr_eq : isIpv4Cidr = fun c => (denotes c).isSome :=
  funext fun c => by rw [isIpv4Cidr, denotes, Option.isSome_map]

theorem overlaps_eq_nil {l : List (CStr × CStr)}
    (h : denotes cidr = some own) : (l.filter fun o => ipv4Overlaps cidr o.2) = [] ↔
      ∀ o ∈ l, ∀ other, denotes o.2 = some other → ¬ ∃ x, own.Contains x ∧ other.Contains x := by
  rw [filter_eq_nil_iff]
  refine forall₂_congr fun o _ => ?_
  cases ho : denotes o.2 with
  | none =>
    have hnone := Option.map_eq_none_iff.1 ho
    simp [ipv4Overlaps, hnone]
  | some other => simp [ipv4Overlaps_iff h ho]

theorem save_ok : t.save id net a now = .ok t' ↔ (a.approvedBy.getD []).length ≤ 128 ∧
    t' = { t with
      networks := Function.update t.networks id (some (net.set a now))
      outbox := t.outbox ++ [id] } := by
  unfold Sor.save
  split
  · next h => simp [Nat.not_le.2 h]
  · next h => simp [Nat.not_lt.1 h, eq_comm]

theorem alone_iff : t.Alone id ↔ ((t.own id).filter isIpv4Cidr).length = 1 ∧ ((t.others id).filter
    fun o => ipv4Overlaps (((t.own id).filter isIpv4Cidr).headD []) o.2) = [] := by
  rw [isIpv4Cidr_eq]
  constructor
  · rintro ⟨cidr, own, hown, ho, h⟩
    rw [hown]
    exact ⟨rfl, (overlaps_eq_nil ho).2 h⟩
  · rintro ⟨hone, h⟩
    obtain ⟨cidr, hown⟩ := length_eq_one_iff.1 hone
    have hsome := (mem_filter.1 (hown ▸ mem_singleton_self cidr : cidr ∈ _)).2
    obtain ⟨own, ho⟩ := Option.isSome_iff_exists.1 hsome
    rw [hown] at h
    exact ⟨cidr, own, hown, ho, (overlaps_eq_nil ho).1 h⟩

theorem approve_ok : approve t id net operator now = .ok t' ↔ net.enabled = true ∧ t.Alone id ∧
    t.save id net ⟨true, some operator, some now⟩ now = .ok t' := by
  simp only [approve, conflict, guard_ok, alone_iff, and_assoc, ne_eq, not_not, Bool.not_eq_false]

theorem eligibility_ok : eligibility t r now = .ok t' ↔
    (ctypeDigit r.id = true ∧ 0 < intval r.id) ∧ r.confirm = true ∧ ∃ net,
      t.networks (intval r.id) = some net ∧ net.deleted = false ∧
        (r.eligible = some true ∧ approve t (intval r.id) net r.operator now = .ok t' ∨
          r.eligible = some false ∧ t.save (intval r.id) net ⟨false, none, none⟩ now = .ok t') := by
  rw [eligibility, guard_ok, not_or, Bool.not_eq_false, Nat.not_lt]
  refine and_congr_right fun _ => ?_
  cases r.eligible with
  | none =>
    refine iff_of_false nofun ?_
    rintro ⟨-, net, -, -, ⟨⟨⟩, -⟩ | ⟨⟨⟩, -⟩⟩
  | some eligible =>
    simp only [guard_ok, Bool.not_eq_false]
    refine and_congr_right fun _ => ?_
    cases t.networks (intval r.id) with
    | none => exact iff_of_false nofun nofun
    | some net =>
      simp only [notFound, guard_ok, Bool.not_eq_true, Option.some.injEq, exists_eq_left']
      refine and_congr_right fun _ => ?_
      cases eligible <;> simp only [Bool.false_eq_true, Bool.true_eq_false, if_false,
        if_true, true_and,
        false_and, or_false, false_or]

/-- **Approval is exact**, and touches only the row of the network. -/
theorem approval_exact (t : Sor ρ) (now : Nat) :
    (∀ id operator, (∃ t', eligibility t ⟨id, some true, true, operator⟩ now = .ok t') ↔
      (ctypeDigit id = true ∧ 0 < intval id) ∧ operator.length ≤ 128 ∧ t.Alone (intval id) ∧
        ∃ net, t.networks (intval id) = some net ∧ net.deleted = false ∧ net.enabled = true) ∧
    ∀ r t', eligibility t r now = .ok t' → ∃ net a, t.networks (intval r.id) = some net ∧
      t' = { t with
        networks := Function.update t.networks (intval r.id) (some { net with
          approval := a, updatedAt := if a = net.approval then net.updatedAt else now })
        outbox := t.outbox ++ [intval r.id] } := by
  refine ⟨fun id operator => ?_, fun r t' h => ?_⟩
  · constructor
    · rintro ⟨t', h⟩
      obtain ⟨hid, -, net, hnet, hlive, h | h⟩ := eligibility_ok.1 h
      · obtain ⟨henabled, halone, hsave⟩ := approve_ok.1 h.2
        exact ⟨hid, (save_ok.1 hsave).1, halone, net, hnet, hlive, henabled⟩
      · cases h.1
    · rintro ⟨hid, hop, halone, net, hnet, hlive, henabled⟩
      exact ⟨_, eligibility_ok.2 ⟨hid, rfl, net, hnet, hlive,
        .inl ⟨rfl, approve_ok.2 ⟨henabled, halone, save_ok.2 ⟨hop, rfl⟩⟩⟩⟩⟩
  · obtain ⟨-, -, net, hnet, -, h | h⟩ := eligibility_ok.1 h
    · exact ⟨net, _, hnet, (save_ok.1 (approve_ok.1 h.2).2.2).2⟩
    · exact ⟨net, _, hnet, (save_ok.1 h.2).2⟩

def lone : Sor Unit where
  networks id :=
    if id = 1 then some ⟨"core".toList, true, false, ⟨false, none, none⟩, 0, ()⟩ else none
  subnets := [⟨some 1, "10.0.0.9/024".toList, false⟩]
  outbox := []

/-- An approval stamps `updated_at` and queues a change; one by an operator whose name the column
does not hold is refused. -/
theorem lone_approved : ((eligibility lone ⟨['1'], some true, true, ['a']⟩ 5).toOption.map fun t =>
      ((t.networks 1).map (·.updatedAt), t.outbox)) = some (some 5, [1]) ∧
    (eligibility lone ⟨['1'], some true, true, replicate 129 'a'⟩ 5).isOk = false := by
  decide +kernel

end SolariNet.Dashboard.NetworkAllocator
