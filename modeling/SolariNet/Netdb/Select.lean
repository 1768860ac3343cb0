/-
# The next free static address

The pure layer of `netdb/sor/allocator.py`.  Addresses come out of `INET6` columns, where an IPv4
address is stored mapped; what is really IPv6 is refused (`_v4`).  A prefix is a text that parses
to an IPv4 network, to an IPv6 one, or not at all.
-/
import Mathlib.Data.List.Basic
import SolariNet.Wire.Basic

namespace SolariNet

open List

inductive Addr where
  | v4 (a : Nat)
  | v6 (a : Nat)
  deriving DecidableEq, Repr

/-- The order of `INET6`: an IPv4 address is compared as `::ffff:a.b.c.d`. -/
def Addr.value : Addr → Nat
  | .v4 a => 0xFFFF00000000 + a
  | .v6 a => a

structure Net4 where
  addr : Nat
  prefixLen : Nat

namespace Net4

def size (n : Net4) : Nat := 2 ^ (32 - n.prefixLen)

def networkAddress (n : Net4) : Nat := n.addr / n.size * n.size

def broadcastAddress (n : Net4) : Nat := n.networkAddress + n.size - 1

def hosts (n : Net4) : List Nat :=
  if 31 ≤ n.prefixLen then range' n.networkAddress n.size
  else range' (n.networkAddress + 1) (n.size - 2)

def overlaps (n m : Net4) : Bool :=
  n.networkAddress ≤ m.broadcastAddress && m.networkAddress ≤ n.broadcastAddress

def Contains (n : Net4) (a : Nat) : Prop := n.networkAddress ≤ a ∧ a ≤ n.broadcastAddress

variable {a : Nat}

theorem mem_hosts {n : Net4} : a ∈ n.hosts ↔ n.Contains a ∧
    (n.prefixLen < 31 → a ≠ n.networkAddress ∧ a ≠ n.broadcastAddress) := by
  have hsize : 0 < n.size := Nat.two_pow_pos _
  unfold hosts Contains broadcastAddress
  by_cases hwhole : 31 ≤ n.prefixLen
  · rw [if_pos hwhole, mem_range'_1]
    omega
  · rw [if_neg hwhole, mem_range'_1]
    omega

end Net4

/-- The text of a prefix, as `ipaddress.ip_network(text, strict=False)` reads it. -/
inductive Cidr where
  | v4 (net : Net4)
  | v6
  | malformed

inductive RangeKind where
  | dynamicPool
  | staticBlock
  | excluded
  | unknown (kind : CStr)
  deriving DecidableEq, Repr

structure DhcpRange where
  kind : RangeKind
  start : Addr
  stop : Addr
  deriving DecidableEq, Repr

def DhcpRange.Covers (r : DhcpRange) (a : Nat) : Prop :=
  r.start.value ≤ (Addr.v4 a).value ∧ (Addr.v4 a).value ≤ r.stop.value

inductive SelectError where
  | malformedCidr
  | v6Address (addr : Addr)
  | v6Subnet
  | unknownKind (kind : CStr)
  | reversed (r : DhcpRange)
  deriving DecidableEq, Repr

def Cidr.parse : Cidr → Except SelectError (Option Net4)
  | .v4 net => .ok (some net)
  | .v6 => .ok none
  | .malformed => .error .malformedCidr

def v4Of : Addr → Except SelectError Nat
  | .v4 a => .ok a
  | .v6 a => .error (.v6Address (.v6 a))

structure Span where
  static : Bool
  lo : Nat
  hi : Nat

def spanOf (r : DhcpRange) : Except SelectError Span :=
  match r.kind with
  | .unknown kind => .error (.unknownKind kind)
  | kind =>
    match v4Of r.start, v4Of r.stop with
    | .error e, _ => .error e
    | _, .error e => .error e
    | .ok lo, .ok hi =>
      if hi < lo then .error (.reversed r) else .ok ⟨kind = .staticBlock, lo, hi⟩

def inAny (ip : Nat) (spans : List Span) : Bool := spans.any fun s => s.lo ≤ ip && ip ≤ s.hi

def isFree (net : Net4) (gateway : Option Nat) (used : List Nat) (spans : List Span) (ip : Nat) :
    Bool :=
  let static := spans.filter (·.static)
  !(net.prefixLen < 31 && (ip == net.networkAddress || ip == net.broadcastAddress)) &&
    gateway != some ip && !used.contains ip && !inAny ip (spans.filter (!·.static)) &&
    (static.isEmpty || inAny ip static)

def selectAddress (cidr : Cidr) (gateway : Option Addr) (used : List Addr)
    (ranges : List DhcpRange) : Except SelectError (Option Nat) := do
  match ← cidr.parse with
  | none => throw .v6Subnet
  | some net =>
    let usedSet ← used.mapM v4Of
    let gw ← gateway.mapM v4Of
    let spans ← ranges.mapM spanOf
    return net.hosts.find? (isFree net gw usedSet spans)

/-! ## What is selected -/

theorem v4Of_eq_ok (h : v4Of addr = .ok a) : addr = .v4 a := by
  cases addr with
  | v4 b => cases h; rfl
  | v6 b => cases h

theorem spanOf_eq_ok (h : spanOf r = .ok s) :
    (s.static = true ↔ r.kind = .staticBlock) ∧ ∀ a, r.Covers a ↔ s.lo ≤ a ∧ a ≤ s.hi := by
  unfold spanOf at h
  split at h
  · cases h
  split at h
  · cases h
  · cases h
  next lo hi hlo hhi =>
  split at h
  · cases h
  cases h
  refine ⟨decide_eq_true_iff, fun a => ?_⟩
  rw [DhcpRange.Covers, v4Of_eq_ok hlo, v4Of_eq_ok hhi]
  simp only [Addr.value]
  omega

theorem mapM_ok {α β ε : Type} {f : α → Except ε β} {l : List α} {l' : List β}
    (h : l.mapM f = .ok l') :
    (∀ a ∈ l, ∃ b ∈ l', f a = .ok b) ∧ ∀ b ∈ l', ∃ a ∈ l, f a = .ok b := by
  induction l generalizing l' with
  | nil =>
    cases h
    exact ⟨by rintro a ⟨⟩, by rintro b ⟨⟩⟩
  | cons a l ih =>
    rw [mapM_cons] at h
    cases hb : f a with
    | error e =>
      rw [hb] at h
      cases h
    | ok b =>
      rw [hb] at h
      cases hl : l.mapM f with
      | error e =>
        rw [hl] at h
        cases h
      | ok bs =>
        rw [hl] at h
        cases h
        obtain ⟨hto, hfrom⟩ := ih hl
        refine ⟨forall_mem_cons.2 ⟨⟨b, mem_cons_self, hb⟩, fun x hx => ?_⟩,
          forall_mem_cons.2 ⟨⟨a, mem_cons_self, hb⟩, fun y hy => ?_⟩⟩
        · obtain ⟨y, hy, hxy⟩ := hto x hx
          exact ⟨y, mem_cons_of_mem _ hy, hxy⟩
        · obtain ⟨x, hx, hxy⟩ := hfrom y hy
          exact ⟨x, mem_cons_of_mem _ hx, hxy⟩

/-- The conditions on a static address of a subnet with the given gateway and live ranges. -/
structure Selectable (net : Net4) (gateway : Option Addr) (ranges : List DhcpRange) (a : Nat) :
    Prop where
  inside : net.Contains a
  not_gateway : gateway ≠ some (.v4 a)
  outside : ∀ r ∈ ranges, r.kind = .dynamicPool ∨ r.kind = .excluded → ¬ r.Covers a
  static : (∃ r ∈ ranges, r.kind = .staticBlock) → ∃ r ∈ ranges, r.kind = .staticBlock ∧ r.Covers a

variable {spans : List Span} {ranges : List DhcpRange}

theorem inAny_iff {ip : Nat} : inAny ip spans = true ↔ ∃ s ∈ spans, s.lo ≤ ip ∧ ip ≤ s.hi := by
  simp [inAny]

theorem inAny_forbidden_iff (hspans : ranges.mapM spanOf = .ok spans) :
    inAny a (spans.filter (!·.static)) = false ↔
      ∀ r ∈ ranges, r.kind = .dynamicPool ∨ r.kind = .excluded → ¬ r.Covers a := by
  rw [Bool.eq_false_iff, ne_eq, inAny_iff]
  constructor
  · intro hnone r hr hkind hcov
    obtain ⟨s, hs, hspan⟩ := (mapM_ok hspans).1 r hr
    obtain ⟨hstat, hcover⟩ := spanOf_eq_ok hspan
    have hdynamic : s.static = false := by
      rw [Bool.eq_false_iff, ne_eq, hstat]
      rcases hkind with hkind | hkind <;> rw [hkind] <;> exact nofun
    exact hnone ⟨s, mem_filter.2 ⟨hs, by simp [hdynamic]⟩, (hcover a).1 hcov⟩
  · rintro hout ⟨s, hs, hcov⟩
    obtain ⟨hs, hdynamic⟩ := mem_filter.1 hs
    obtain ⟨r, hr, hspan⟩ := (mapM_ok hspans).2 s hs
    obtain ⟨hstat, hcover⟩ := spanOf_eq_ok hspan
    have hkind : r.kind ≠ .staticBlock := by
      rw [ne_eq, ← hstat]
      simpa using hdynamic
    refine hout r hr ?_ ((hcover a).2 hcov)
    cases hk : r.kind with
    | dynamicPool => exact .inl rfl
    | excluded => exact .inr rfl
    | staticBlock => exact absurd hk hkind
    | unknown kind =>
      unfold spanOf at hspan
      rw [hk] at hspan
      cases hspan

theorem inAny_static_iff (hspans : ranges.mapM spanOf = .ok spans) :
    (spans.filter (·.static) = [] ∨ inAny a (spans.filter (·.static)) = true) ↔
      ((∃ r ∈ ranges, r.kind = .staticBlock) →
        ∃ r ∈ ranges, r.kind = .staticBlock ∧ r.Covers a) := by
  constructor
  · rintro hstatic ⟨r, hr, hkind⟩
    obtain ⟨s, hs, hspan⟩ := (mapM_ok hspans).1 r hr
    have hmem : s ∈ spans.filter (·.static) := mem_filter.2 ⟨hs, (spanOf_eq_ok hspan).1.2 hkind⟩
    rcases hstatic with hnil | hin
    · rw [hnil] at hmem
      cases hmem
    obtain ⟨s', hs', hcov⟩ := inAny_iff.1 hin
    obtain ⟨hs', hstat⟩ := mem_filter.1 hs'
    obtain ⟨r', hr', hspan'⟩ := (mapM_ok hspans).2 s' hs'
    obtain ⟨hkind', hcover⟩ := spanOf_eq_ok hspan'
    exact ⟨r', hr', hkind'.1 hstat, (hcover a).2 hcov⟩
  · intro hblock
    cases hfilter : spans.filter (·.static) with
    | nil => exact .inl rfl
    | cons s rest =>
      have hs : s ∈ spans.filter (·.static) := by
        rw [hfilter]
        exact mem_cons_self
      obtain ⟨hs, hstat⟩ := mem_filter.1 hs
      obtain ⟨r, hr, hspan⟩ := (mapM_ok hspans).2 s hs
      obtain ⟨r', hr', hkind', hcov⟩ := hblock ⟨r, hr, (spanOf_eq_ok hspan).1.1 hstat⟩
      obtain ⟨s', hs', hspan'⟩ := (mapM_ok hspans).1 r' hr'
      obtain ⟨hstat', hcover⟩ := spanOf_eq_ok hspan'
      refine .inr ?_
      rw [← hfilter]
      exact inAny_iff.2 ⟨s', mem_filter.2 ⟨hs', hstat'.2 hkind'⟩, (hcover a).1 hcov⟩

theorem isFree_iff {net : Net4} {gateway : Option Addr} {gw : Option Nat} {used : List Nat}
    (hgw : gateway.mapM v4Of = .ok gw) (hspans : ranges.mapM spanOf = .ok spans) :
    (a ∈ net.hosts ∧ isFree net gw used spans a = true) ↔ Selectable net gateway ranges a ∧
        (net.prefixLen < 31 → a ≠ net.networkAddress ∧ a ≠ net.broadcastAddress) ∧ a ∉ used := by
  have hgateway : gw ≠ some a ↔ gateway ≠ some (.v4 a) := by
    cases gateway with
    | none =>
      cases hgw
      simp
    | some addr =>
      cases addr with
      | v4 b =>
        cases hgw
        simp
      | v6 b => cases hgw
  rw [Net4.mem_hosts]
  simp only [isFree, Bool.and_eq_true, Bool.or_eq_true, Bool.not_eq_true', bne_iff_ne,
    List.isEmpty_iff, inAny_forbidden_iff hspans, inAny_static_iff hspans]
  constructor
  · rintro ⟨⟨hin, husable⟩, ⟨⟨⟨-, hgate⟩, hused⟩, hout⟩, hstatic⟩
    exact ⟨⟨hin, hgateway.1 hgate, hout, hstatic⟩, husable, by simpa using hused⟩
  · rintro ⟨⟨hin, hgate, hout, hstatic⟩, husable, hused⟩
    refine ⟨⟨hin, husable⟩, ⟨⟨⟨?_, hgateway.2 hgate⟩, by simpa using hused⟩, hout⟩, hstatic⟩
    simpa using husable

theorem selectAddress_eq_some {gateway : Option Addr} {used : List Addr}
    (h : selectAddress cidr gateway used ranges = .ok (some a)) :
    ∃ net, cidr = .v4 net ∧ Selectable net gateway ranges a ∧ .v4 a ∉ used := by
  cases cidr with
  | v6 | malformed => cases h
  | v4 net =>
    simp only [selectAddress, Cidr.parse, Bind.bind, Except.bind, pure, Except.pure] at h
    cases hused : used.mapM v4Of with
    | error e =>
      rw [hused] at h
      cases h
    | ok usedSet =>
    cases hgw : gateway.mapM v4Of with
    | error e =>
      rw [hused, hgw] at h
      cases h
    | ok gw =>
    cases hspans : ranges.mapM spanOf with
    | error e =>
      rw [hused, hgw, hspans] at h
      cases h
    | ok spans =>
    rw [hused, hgw, hspans] at h
    simp only [Except.ok.injEq] at h
    obtain ⟨hsel, -, hnot⟩ :=
      (isFree_iff hgw hspans).1 ⟨List.mem_of_find?_eq_some h, List.find?_some h⟩
    refine ⟨net, rfl, hsel, fun hmem => ?_⟩
    obtain ⟨b, hb, hab⟩ := (mapM_ok hused).1 _ hmem
    cases hab
    exact hnot hb

end SolariNet
