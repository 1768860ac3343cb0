/-
# Interface rates from SNMP counters

`serverSnmp.c`: a poll walks the names, the two octet counters and the states of the interfaces of
a device, merges the lines by interface, and stores for each interface its counters and the rates
since the sample in `gearInterfaceCurrent`.  A walk may fail, stop anywhere and leave interfaces
out; a counter that did not come is stored as 0, and the next poll takes that 0 for a sample.
-/
import SolariNet.Lib.Text
import SolariNet.Wire.Basic

namespace SolariNet

open Function Lib
open List hiding set

/-! ## Merging a walk -/

def serverSnmpMaxIfaces : Nat := 256

inductive SnmpOidKind where
  | name
  | inOctets
  | outOctets
  | status
  deriving DecidableEq

structure SnmpIface where
  ifIndex : Int
  inOctets : Option UInt64 := none
  outOctets : Option UInt64 := none

def snmpDigits (text : Bytes) : Bool := !text.isEmpty && text.all isDecimal

def snmpParseU64 (text : Bytes) : Option UInt64 :=
  if snmpDigits text && ofDecimal text < 2 ^ 64 then some (UInt64.ofNat (ofDecimal text)) else none

def snmpMergeValue (val : Bytes) : SnmpOidKind → Option (SnmpIface → SnmpIface)
  | .name => if val.length ≥ 96 then none else some id
  | .inOctets => (snmpParseU64 val).map fun c f => { f with inOctets := some c }
  | .outOctets => (snmpParseU64 val).map fun c f => { f with outOctets := some c }
  | .status =>
    if snmpDigits val && 1 ≤ ofDecimal val && ofDecimal val ≤ 7 then some id else none

def snmpSetIface (ifIndex : Int) (set : SnmpIface → SnmpIface) (room : Bool) :
    List SnmpIface → List SnmpIface
  | [] => if room then [set { ifIndex }] else []
  | f :: fs =>
    if f.ifIndex = ifIndex then set f :: fs else f :: snmpSetIface ifIndex set room fs

structure SnmpLine where
  kind : SnmpOidKind
  ifIndex : Int
  val : Bytes

def serverSnmpMergeIface (ifaces : List SnmpIface) (l : SnmpLine) : List SnmpIface :=
  if l.ifIndex ≤ 0 then ifaces
  else match snmpMergeValue l.val l.kind with
    | none => ifaces
    | some set => snmpSetIface l.ifIndex set (ifaces.length < serverSnmpMaxIfaces) ifaces

/-! ## Polls -/

/-- A poll: the lines of its walks, whether the first one ended well, and the queries of each
interface with their time. -/
structure SnmpPoll where
  connected : Bool
  walk : SnmpOidKind → List (Int × Bytes)
  exited : Bool
  selected : Int → Bool
  upserted : Int → Bool
  appended : Int → Bool
  selectAt : Int → Nat
  upsertAt : Int → Nat
  inRange : ∀ i, selectAt i < 2 ^ 40

namespace SnmpPoll

def lines (p : SnmpPoll) : List SnmpLine :=
  [.name, .inOctets, .outOctets, .status].flatMap fun kind =>
    (p.walk kind).map fun l => ⟨kind, l.1, l.2⟩

def ifaces (p : SnmpPoll) : List SnmpIface := p.lines.foldl serverSnmpMergeIface []

end SnmpPoll

structure GearRow where
  inOctets : UInt64
  outOctets : UInt64
  sampledAt : Nat
  source : SnmpPoll

structure StoredRate where
  ifIndex : Int
  inRateKbps : UInt64
  outRateKbps : UInt64
  prev : Option GearRow
  poll : SnmpPoll

structure GearTables where
  current : Int → Option GearRow
  log : List StoredRate

def snmpRate (cur prev : UInt64) (age : Nat) : UInt64 :=
  if cur ≥ prev then (cur - prev) * 8 / 1000 / UInt64.ofNat age else 0

def snmpRateSince (prev : Option GearRow) (old : GearRow → UInt64) (now : Nat) (cur : UInt64) :
    UInt64 :=
  match prev with
  | none => 0
  | some row => if row.sampledAt < now then snmpRate cur (old row) (now - row.sampledAt) else 0

def snmpStore (p : SnmpPoll) (s : GearTables) (f : SnmpIface) : GearTables :=
  if f.inOctets.isNone && f.outOctets.isNone then s
  else
    let prev := if p.selected f.ifIndex then s.current f.ifIndex else none
    let now := p.selectAt f.ifIndex
    let row : GearRow := ⟨f.inOctets.getD 0, f.outOctets.getD 0, p.upsertAt f.ifIndex, p⟩
    { current :=
        if p.upserted f.ifIndex then Function.update s.current f.ifIndex (some row) else s.current
      log :=
        if p.upserted f.ifIndex || p.appended f.ifIndex then
          ⟨f.ifIndex, snmpRateSince prev (·.inOctets) now row.inOctets,
            snmpRateSince prev (·.outOctets) now row.outOctets, prev, p⟩ :: s.log
        else s.log }

def serverSnmpPollGear (s : GearTables) (p : SnmpPoll) : GearTables :=
  if !p.connected || !p.exited || (p.walk .name).isEmpty then s else p.ifaces.foldl (snmpStore p) s

def gearAfter : List SnmpPoll → GearTables
  | [] => ⟨fun _ => none, []⟩
  | p :: ps => serverSnmpPollGear (gearAfter ps) p

/-! ## What the device reported -/

inductive SnmpFlow where
  | inbound
  | outbound

namespace SnmpFlow

def kind : SnmpFlow → SnmpOidKind
  | inbound => .inOctets
  | outbound => .outOctets

def octets : SnmpFlow → SnmpIface → Option UInt64
  | inbound, f => f.inOctets
  | outbound, f => f.outOctets

def stored : SnmpFlow → GearRow → UInt64
  | inbound, row => row.inOctets
  | outbound, row => row.outOctets

def rate : SnmpFlow → StoredRate → UInt64
  | inbound, r => r.inRateKbps
  | outbound, r => r.outRateKbps

def reading (d : SnmpFlow) (ifIndex : Int) (ls : List SnmpLine) : Option UInt64 :=
  ls.foldl (fun last l =>
    if l.kind = d.kind ∧ l.ifIndex = ifIndex then (snmpParseU64 l.val).or last else last) none

def reported (d : SnmpFlow) (p : SnmpPoll) (ifIndex : Int) : Option UInt64 :=
  d.reading ifIndex p.lines

theorem reading_append (d : SnmpFlow) (ifIndex : Int) (ls : List SnmpLine) (l : SnmpLine) :
    d.reading ifIndex (ls ++ [l]) =
      if l.kind = d.kind ∧ l.ifIndex = ifIndex then (snmpParseU64 l.val).or (d.reading ifIndex ls)
      else d.reading ifIndex ls := by
  rw [reading, foldl_append]
  rfl

end SnmpFlow

/-- A stored rate is 0, or it is the growth between the counters that the device reported in the
poll of the previous row and in this one. -/
def RateReal (r : StoredRate) (d : SnmpFlow) : Prop :=
  d.rate r ≠ 0 → ∃ row c₁ c₂, r.prev = some row ∧ d.reported row.source r.ifIndex = some c₁ ∧
    d.reported r.poll r.ifIndex = some c₂ ∧ c₁ ≤ c₂ ∧
    (d.rate r).toNat =
      (c₂.toNat - c₁.toNat) * 8 / 1000 / (r.poll.selectAt r.ifIndex - row.sampledAt)

/-- Where a rate is not 0, the poll of the previous row reported the counter, and it has grown by
less than 2⁶¹ octets since. -/
def Traceable (r : StoredRate) (d : SnmpFlow) : Prop :=
  d.rate r ≠ 0 → ∃ row c₁, r.prev = some row ∧ d.reported row.source r.ifIndex = some c₁ ∧
    ((d.reported r.poll r.ifIndex).getD 0).toNat - c₁.toNat < 2 ^ 61

/-! ## The merged interfaces -/

theorem snmpSetIface_cases (k : Int) (set : SnmpIface → SnmpIface) (room : Bool)
    (fs : List SnmpIface) :
    (∃ as f bs, fs = as ++ f :: bs ∧ f.ifIndex = k ∧
      snmpSetIface k set room fs = as ++ set f :: bs) ∨
      k ∉ fs.map (·.ifIndex) ∧
        snmpSetIface k set room fs = fs ++ if room then [set { ifIndex := k }] else [] := by
  induction fs with
  | nil => exact .inr ⟨not_mem_nil, rfl⟩
  | cons f fs ih =>
    rw [snmpSetIface]
    split
    · next hk => exact .inl ⟨[], f, fs, rfl, hk, rfl⟩
    next hk =>
    rcases ih with ⟨as, g, bs, rfl, hg, hset⟩ | ⟨hnew, hset⟩
    · exact .inl ⟨f :: as, g, bs, rfl, hg, by rw [hset]; rfl⟩
    refine .inr ⟨?_, by rw [hset]; rfl⟩
    rw [map_cons, mem_cons]
    exact fun h => h.elim (Ne.symm hk) hnew

structure Merged (ls : List SnmpLine) (fs : List SnmpIface) : Prop where
  distinct : (fs.map (·.ifIndex)).Nodup
  positive : ∀ f ∈ fs, 0 < f.ifIndex
  readings : ∀ f ∈ fs, ∀ d : SnmpFlow, d.octets f = d.reading f.ifIndex ls
  complete : fs.length < serverSnmpMaxIfaces → ∀ (d : SnmpFlow) (i : Int), 0 < i →
    d.reading i ls ≠ none → i ∈ fs.map (·.ifIndex)

theorem snmpMergeValue_sets {set : SnmpIface → SnmpIface}
    (h : snmpMergeValue val kind = some set) (f : SnmpIface) :
    (set f).ifIndex = f.ifIndex ∧ ∀ d : SnmpFlow, ∀ last,
      d.octets (set f) = if kind = d.kind then (snmpParseU64 val).or last else d.octets f := by
  cases kind with
  | name | status =>
    simp only [snmpMergeValue, Option.ite_none_left_eq_some, Option.ite_none_right_eq_some] at h
    obtain rfl := Option.some.inj h.2
    exact ⟨rfl, fun d _ => by cases d <;> rfl⟩
  | inOctets | outOctets =>
    obtain ⟨c, hc, rfl⟩ := Option.map_eq_some_iff.1 h
    refine ⟨rfl, fun d _ => ?_⟩
    rw [hc]
    cases d <;> rfl

theorem snmpMergeValue_none {d : SnmpFlow}
    (h : snmpMergeValue val d.kind = none) : snmpParseU64 val = none := by
  cases d <;> exact Option.map_eq_none_iff.1 h

theorem Merged.same {ls ls' : List SnmpLine} {fs : List SnmpIface} (h : Merged ls fs)
    (hr : ∀ (d : SnmpFlow) (i : Int), 0 < i → d.reading i ls' = d.reading i ls) :
    Merged ls' fs := by
  refine ⟨h.distinct, h.positive, fun f hf d => ?_, fun hroom d i hi hne => ?_⟩
  · rw [hr d _ (h.positive f hf)]
    exact h.readings f hf d
  · rw [hr d i hi] at hne
    exact h.complete hroom d i hi hne

theorem Merged.line {ls : List SnmpLine} {fs : List SnmpIface} (h : Merged ls fs) (l : SnmpLine) :
    Merged (ls ++ [l]) (serverSnmpMergeIface fs l) := by
  unfold serverSnmpMergeIface
  split
  · refine h.same fun d i hi => ?_
    rw [SnmpFlow.reading_append, if_neg (by omega)]
  next hl =>
  cases hv : snmpMergeValue l.val l.kind with
  | none =>
    refine h.same fun d i hi => ?_
    rw [SnmpFlow.reading_append]
    split
    · next hk =>
      rw [hk.1] at hv
      rw [snmpMergeValue_none hv, Option.none_or]
    · rfl
  | some set =>
    have hset (f : SnmpIface) := snmpMergeValue_sets hv f
    -- the entry that is set has the readings up to this line, the others keep theirs
    have hnew (f : SnmpIface) (hf : f.ifIndex = l.ifIndex)
        (hr : ∀ d : SnmpFlow, d.octets f = d.reading f.ifIndex ls) (d : SnmpFlow) :
        d.octets (set f) = d.reading (set f).ifIndex (ls ++ [l]) := by
      rw [(hset f).1, SnmpFlow.reading_append, (hset f).2 d (d.reading f.ifIndex ls), hr d]
      simp [hf]
    have hold (f : SnmpIface) (hf : f ∈ fs) (hne : f.ifIndex ≠ l.ifIndex) (d : SnmpFlow) :
        d.octets f = d.reading f.ifIndex (ls ++ [l]) := by
      rw [SnmpFlow.reading_append, if_neg fun hk => hne hk.2.symm]
      exact h.readings f hf d
    have hread {d : SnmpFlow} {i : Int} (hi : i ≠ l.ifIndex) (hr : d.reading i (ls ++ [l]) ≠ none) :
        d.reading i ls ≠ none := by
      rwa [SnmpFlow.reading_append, if_neg fun hk => hi hk.2.symm] at hr
    simp only
    obtain ⟨as, f, bs, rfl, hf, hlist⟩ | ⟨hk, hlist⟩ :=
      snmpSetIface_cases l.ifIndex set (fs.length < serverSnmpMaxIfaces) fs
    · have hmap : (as ++ set f :: bs).map (·.ifIndex) = (as ++ f :: bs).map (·.ifIndex) := by
        simp [(hset f).1]
      have hmem {g : SnmpIface} (hg : g ∈ as ++ set f :: bs) :
          g = set f ∨ g ∈ as ++ f :: bs ∧ g.ifIndex ≠ l.ifIndex := by
        have hd := h.distinct
        rw [map_append, map_cons, nodup_middle, nodup_cons, hf, ← map_append] at hd
        rw [mem_append, mem_cons, or_left_comm, ← mem_append] at hg
        refine hg.imp_right fun hg => ⟨?_, fun hgk => hd.1 (hgk ▸ mem_map_of_mem hg)⟩
        rw [mem_append, mem_cons, or_left_comm, ← mem_append]
        exact .inr hg
      rw [hlist]
      refine ⟨hmap ▸ h.distinct, fun g hg => ?_, fun g hg d => ?_, fun hroom d i hi hr => ?_⟩
      · rcases hmem hg with rfl | ⟨hg, -⟩
        · rw [(hset f).1]
          omega
        · exact h.positive g hg
      · rcases hmem hg with rfl | ⟨hg, hne⟩
        · exact hnew f hf (h.readings f (by simp)) d
        · exact hold g hg hne d
      · rw [hmap]
        by_cases hil : i = l.ifIndex
        · rw [hil, ← hf]
          exact mem_map_of_mem (by simp)
        · exact h.complete (by simpa using hroom) d i hi (hread hil hr)
    · rw [hlist]
      by_cases hroom : fs.length < serverSnmpMaxIfaces
      · have hunread (d : SnmpFlow) : d.octets { ifIndex := l.ifIndex } =
            d.reading l.ifIndex ls := by
          by_contra hne
          refine hk (h.complete hroom d _ (by omega) fun hnone => hne ?_)
          rw [hnone]
          cases d <;> rfl
        rw [if_pos (decide_eq_true hroom)]
        refine ⟨?_, forall_mem_append.2 ⟨h.positive, forall_mem_singleton.2 ?_⟩,
          forall_mem_append.2 ⟨fun g hg => ?_, forall_mem_singleton.2 (hnew _ rfl hunread)⟩,
          fun _ d i hi hr => ?_⟩
        · rw [map_append, nodup_append_comm, map_singleton, (hset _).1]
          exact nodup_cons.2 ⟨hk, h.distinct⟩
        · rw [(hset _).1]
          exact not_le.1 hl
        · exact hold g hg fun hgk => hk (hgk ▸ mem_map_of_mem hg)
        rw [map_append, map_singleton, (hset _).1, mem_append, mem_singleton]
        by_cases hil : i = l.ifIndex
        · exact .inr hil
        · exact .inl (h.complete hroom d i hi (hread hil hr))
      · rw [if_neg (by simpa using hroom), append_nil]
        exact ⟨h.distinct, h.positive, fun g hg => hold g hg fun hgk =>
          hk (hgk ▸ mem_map_of_mem hg), fun hr => absurd hr hroom⟩

theorem merged_walk (ls : List SnmpLine) : Merged ls (ls.foldl serverSnmpMergeIface []) := by
  induction ls using List.reverseRecOn with
  | nil => exact ⟨nodup_nil, nofun, nofun, fun _ _ _ _ h => absurd rfl h⟩
  | append_singleton ls l ih =>
    rw [foldl_append]
    exact ih.line l

/-! ## The stored samples -/

def GearRow.Sampled (row : GearRow) (ifIndex : Int) : Prop :=
  ∀ d : SnmpFlow, d.stored row = (d.reported row.source ifIndex).getD 0

structure Sampled (s : GearTables) : Prop where
  current : ∀ i row, s.current i = some row → row.Sampled i
  prev : ∀ r ∈ s.log, ∀ row, r.prev = some row → row.Sampled r.ifIndex
  rates : ∀ r ∈ s.log, ∀ d : SnmpFlow, d.rate r = snmpRateSince r.prev d.stored
    (r.poll.selectAt r.ifIndex) ((d.reported r.poll r.ifIndex).getD 0)

theorem Sampled.store (h : Sampled s)
    (hf : ∀ d : SnmpFlow, d.octets f = d.reported p f.ifIndex) : Sampled (snmpStore p s f) := by
  unfold snmpStore
  split
  · exact h
  have hin : f.inOctets.getD 0 = (SnmpFlow.reported .inbound p f.ifIndex).getD 0 :=
    congrArg (Option.getD · 0) (hf .inbound)
  have hout : f.outOctets.getD 0 = (SnmpFlow.reported .outbound p f.ifIndex).getD 0 :=
    congrArg (Option.getD · 0) (hf .outbound)
  refine ⟨fun i row hrow => ?_, ?_, ?_⟩
  · simp only at hrow
    split at hrow
    · by_cases hi : i = f.ifIndex
      · subst hi
        rw [update_self] at hrow
        cases hrow
        intro d
        cases d with
        | inbound => exact hin
        | outbound => exact hout
      · rw [update_of_ne hi] at hrow
        exact h.current i row hrow
    · exact h.current i row hrow
  · dsimp only
    split
    · refine forall_mem_cons.2 ⟨fun row hrow => ?_, h.prev⟩
      split at hrow
      · exact h.current _ row hrow
      · cases hrow
    · exact h.prev
  · dsimp only
    split
    · refine forall_mem_cons.2 ⟨fun d => ?_, h.rates⟩
      cases d with
      | inbound => exact congrArg (snmpRateSince _ _ _) hin
      | outbound => exact congrArg (snmpRateSince _ _ _) hout
    · exact h.rates

theorem sampled_after (ps : List SnmpPoll) : Sampled (gearAfter ps) := by
  induction ps with
  | nil => exact ⟨nofun, nofun, nofun⟩
  | cons p ps ih =>
    rw [gearAfter, serverSnmpPollGear]
    split
    · exact ih
    · exact List.foldlRecOn p.ifaces (snmpStore p) ih fun s hs f hf =>
        hs.store ((merged_walk p.lines).readings f hf)

/-! ## Real rates -/

theorem snmpRate_exact_iff {cur prev : UInt64} {age : Nat} (hle : prev ≤ cur) (hpos : 0 < age)
    (hage : age < 2 ^ 40) :
    (snmpRate cur prev age).toNat = (cur.toNat - prev.toNat) * 8 / 1000 / age ↔
      cur.toNat - prev.toNat < 2 ^ 61 := by
  have hval : (snmpRate cur prev age).toNat =
      (cur.toNat - prev.toNat) * 8 % 2 ^ 64 / (1000 * age) := by
    rw [snmpRate, if_pos hle, UInt64.toNat_div, UInt64.toNat_div, UInt64.toNat_mul,
      UInt64.toNat_sub_of_le _ _ hle, UInt64.toNat_ofNat_of_lt' (hage.trans (by decide)),
      Nat.div_div_eq_div_mul]
    rfl
  rw [hval, Nat.div_div_eq_div_mul]
  generalize cur.toNat - prev.toNat = n
  constructor
  · intro heq
    by_contra hn
    -- what the wrap takes away is more than one unit of the quotient
    have hmod : n * 8 % 2 ^ 64 ≤ n * 8 - 1000 * age := by omega
    have hdiv : n * 8 / (1000 * age) = (n * 8 - 1000 * age) / (1000 * age) + 1 :=
      Nat.div_eq_sub_div (by omega) (by omega)
    have hlt := Nat.div_le_div_right (c := 1000 * age) hmod
    rw [heq, hdiv] at hlt
    exact absurd hlt (Nat.not_succ_le_self _)
  · intro hn
    rw [Nat.mod_eq_of_lt (by omega)]

theorem real_iff_traceable {ps : List SnmpPoll} (hr : r ∈ (gearAfter ps).log)
    (d : SnmpFlow) : RateReal r d ↔ Traceable r d := by
  have hs := sampled_after ps
  have hrate {row : GearRow} {c₁ : UInt64} (hprev : r.prev = some row)
      (h₁ : d.reported row.source r.ifIndex = some c₁) :
      d.rate r = if row.sampledAt < r.poll.selectAt r.ifIndex then
        snmpRate ((d.reported r.poll r.ifIndex).getD 0) c₁
          (r.poll.selectAt r.ifIndex - row.sampledAt) else 0 := by
    have hstored : d.stored row = c₁ := by
      rw [hs.prev r hr row hprev d, h₁]
      rfl
    rw [hs.rates r hr d, hprev, ← hstored]
    rfl
  have hrange := r.poll.inRange r.ifIndex
  constructor
  · intro hreal hne
    obtain ⟨row, c₁, c₂, hprev, h₁, h₂, hle, hexact⟩ := hreal hne
    refine ⟨row, c₁, hprev, h₁, ?_⟩
    have hr' := hrate hprev h₁
    split at hr'
    · rw [hr', h₂] at hexact
      rw [h₂]
      exact (snmpRate_exact_iff hle (by omega) (by omega)).1 hexact
    · exact absurd hr' hne
  · intro htrace hne
    obtain ⟨row, c₁, hprev, h₁, hlt⟩ := htrace hne
    have hr' := hrate hprev h₁
    split at hr'
    · next hage =>
      have hle : c₁ ≤ (d.reported r.poll r.ifIndex).getD 0 := by
        by_contra hgt
        exact hne (hr'.trans (if_neg hgt))
      cases h₂ : d.reported r.poll r.ifIndex with
      | none =>
        -- a counter that did not come is 0, and so is its rate
        rw [h₂] at hr' hle
        have hzero : c₁ = 0 := UInt64.le_zero_iff.1 hle
        subst hzero
        exact absurd hr' (by simpa [snmpRate] using hne)
      | some c₂ =>
        rw [h₂] at hr' hle hlt
        refine ⟨row, c₁, c₂, hprev, h₁, rfl, hle, ?_⟩
        rw [hr']
        exact (snmpRate_exact_iff hle (by omega) (by omega)).2 hlt
    · exact absurd hr' hne

/-- **Rates come from real samples** exactly if every rate stored that is not 0 belongs to a counter
that the poll of the previous row reported and that grew by less than 2⁶¹ octets. -/
theorem rates_from_samples_iff (ps : List SnmpPoll) :
    (∀ r ∈ (gearAfter ps).log, ∀ d, RateReal r d) ↔ ∀ r ∈ (gearAfter ps).log, ∀ d, Traceable r d :=
  forall₂_congr fun _ hr => forall_congr' (real_iff_traceable hr)

def onePoll (minute : Fin 60) (ins outs : List (Int × Bytes)) : SnmpPoll where
  connected := true
  walk
    | .name => [(1, [0x65])]
    | .inOctets => ins
    | .outOctets => outs
    | .status => []
  exited := true
  selected _ := true
  upserted _ := true
  appended _ := true
  selectAt _ := minute.val * 60
  upsertAt _ := minute.val * 60
  inRange _ := by omega

/-- The walk of the inbound counters fails in the first poll.  The second one stores a rate as if
the interface had received all its octets within the minute. -/
theorem missing_counter_gives_rate :
    ∃ r ∈ (gearAfter [onePoll 1 [(1, decimal 1000000000)] [(1, decimal 9)],
        onePoll 0 [] [(1, decimal 5)]]).log, r.inRateKbps = 133333 ∧ ¬ RateReal r .inbound := by
  refine ⟨_, mem_cons_self, by decide +kernel, fun h => ?_⟩
  obtain ⟨row, c₁, -, hprev, h₁, -⟩ := h (by decide +kernel)
  cases hprev
  have hnone : SnmpFlow.inbound.reported (onePoll 0 [] [(1, decimal 5)]) 1 = none := by
    decide +kernel
  exact nomatch hnone.symm.trans h₁

end SolariNet
