/-
# The network-gear view

`topoAssembleNetGear` makes the rows of `/api/netgear` from the gear and the host edges in three
passes: the distinct gear, the nodes attached to each, and how far each is from the root of its
uplinks.  The last is a walk over the rows with a cap, since corrupt uplinks may run in a circle; it
knows a circle by coming back to where it started and leaves any other to the cap.
-/
import SolariNet.Lib.Chain
import SolariNet.Server.Tables

namespace SolariNet

open Lib.Chain

structure TopoGear where
  gearId : CStr
  name : CStr
  kind : CStr
  uplinkGearId : CStr

structure NetGearView extends TopoGear where
  attachedNodes : Nat
  uplinkDepth : Nat

def topoMaxUplinkHops : Nat := 64

def topoFindGear (rows : List NetGearView) (gearId : CStr) : Option Nat :=
  if gearId = [] then none else rows.findIdx? fun r => r.gearId = gearId

/-- The loop of `topoUplinkDepth`: `depth` and the first argument make up the cap. -/
def topoUplinkLoop (rows : List NetGearView) (start : Nat) : Nat → Nat → Nat → Nat
  | 0, depth, _ => depth
  | left + 1, depth, cur =>
    match rows[cur]? with
    | none => depth
    | some r =>
      if r.uplinkGearId = [] then depth
      else match topoFindGear rows r.uplinkGearId with
        | none => depth
        | some next =>
          if next = start then topoMaxUplinkHops
          else topoUplinkLoop rows start left (depth + 1) next

def topoUplinkDepth (rows : List NetGearView) (start : Nat) : Nat :=
  topoUplinkLoop rows start topoMaxUplinkHops 0 start

def topoDistinctGear (cap : Nat) (rows : List NetGearView) :
    List TopoGear → Status × List NetGearView
  | [] => (.ok, rows)
  | g :: gear =>
    if g.gearId = [] ∨ (topoFindGear rows g.gearId).isSome then topoDistinctGear cap rows gear
    else if cap ≤ rows.length then (.errBufferFull, rows)
    else topoDistinctGear cap (rows ++ [⟨g, 0, 0⟩]) gear

/-- Pass 2 for one gear: an edge counts if none before it is of the same node. -/
def topoAttachedNodes (gearId : CStr) (before : List LldpEdge) : List LldpEdge → Nat
  | [] => 0
  | e :: edges =>
    (if e.nodeId = 0 ∨ e.gearId ≠ gearId ∨
        before.any (fun k => k.nodeId = e.nodeId ∧ k.gearId = gearId) then 0 else 1) +
      topoAttachedNodes gearId (before ++ [e]) edges

def topoAssembleNetGear (gear : List TopoGear) (edges : List LldpEdge) (cap : Nat) :
    Status × List NetGearView :=
  match topoDistinctGear cap [] gear with
  | (.ok, rows) =>
    let counted := rows.map fun r => { r with attachedNodes := topoAttachedNodes r.gearId [] edges }
    -- the depths are read off ids and uplinks, which the third pass leaves alone
    (.ok, counted.mapIdx fun i r => { r with uplinkDepth := topoUplinkDepth counted i })
  | full => full

/-! ## What the view is of -/

def distinctGear (gear : List TopoGear) : List CStr :=
  ((gear.map (·.gearId)).filter (· ≠ [])).eraseDups

def attachedTo (edges : List LldpEdge) (id : CStr) : Finset UInt64 :=
  ((edges.filter (·.gearId = id)).map (·.nodeId)).toFinset.erase 0

def uplinkOf (gear : List TopoGear) (id : CStr) : Option CStr :=
  ((gear.find? (·.gearId = id)).map (·.uplinkGearId)).filter (· ∈ distinctGear gear)

variable {gear : List TopoGear} {edges : List LldpEdge} {rows : List NetGearView} {id : CStr}
  {g : TopoGear} {v : NetGearView} {cap i k : Nat}

theorem mem_distinctGear : id ∈ distinctGear gear ↔ id ≠ [] ∧ ∃ g ∈ gear, g.gearId = id := by
  simp [distinctGear, and_comm]

theorem distinctGear_append (gear more : List TopoGear) :
    distinctGear (gear ++ more) = distinctGear gear ++
      (((more.map (·.gearId)).filter (· ≠ [])).filter (· ∉ distinctGear gear)).eraseDups := by
  rw [distinctGear, List.map_append, List.filter_append, List.eraseDups_append]
  congr 2
  refine List.filter_congr fun id _ => ?_
  rw [decide_not, distinctGear]
  simp

theorem distinctGear_seen (hg : g.gearId = [] ∨ g.gearId ∈ distinctGear gear) :
    distinctGear (gear ++ [g]) = distinctGear gear := by
  rw [distinctGear_append]
  rcases hg with hg | hg <;> simp [hg]

theorem distinctGear_new (hg : ¬ (g.gearId = [] ∨ g.gearId ∈ distinctGear gear)) :
    distinctGear (gear ++ [g]) = distinctGear gear ++ [g.gearId] := by
  rw [not_or] at hg
  rw [distinctGear_append]
  simp [hg, List.eraseDups_cons]

structure FirstRows (gear : List TopoGear) (rows : List NetGearView) : Prop where
  ids : rows.map (·.gearId) = distinctGear gear
  first : ∀ v ∈ rows, gear.find? (·.gearId = v.gearId) = some v.toTopoGear

theorem topoFindGear_isSome (h : FirstRows gear rows) (id : CStr) :
    (topoFindGear rows id).isSome ↔ id ∈ distinctGear gear := by
  have hmem : id ∈ distinctGear gear ↔ _ := mem_distinctGear
  rw [← h.ids] at hmem ⊢
  unfold topoFindGear
  split <;> simp_all

theorem topoFindGear_some (h : topoFindGear rows id = some i) :
    ∃ v, rows[i]? = some v ∧ v.gearId = id := by
  unfold topoFindGear at h
  split at h
  · cases h
  · obtain ⟨hi, hv, -⟩ := List.findIdx?_eq_some_iff_getElem.1 h
    exact ⟨rows[i], List.getElem?_eq_getElem hi, of_decide_eq_true hv⟩

theorem FirstRows.seen (h : FirstRows gear rows)
    (hg : g.gearId = [] ∨ g.gearId ∈ distinctGear gear) : FirstRows (gear ++ [g]) rows := by
  refine ⟨h.ids.trans (distinctGear_seen hg).symm, fun v hv => ?_⟩
  rw [List.find?_append, h.first v hv, Option.some_or]

theorem FirstRows.push (h : FirstRows gear rows)
    (hg : ¬ (g.gearId = [] ∨ g.gearId ∈ distinctGear gear)) :
    FirstRows (gear ++ [g]) (rows ++ [⟨g, 0, 0⟩]) := by
  constructor
  · rw [distinctGear_new hg, List.map_append, h.ids, List.map_singleton]
  intro v hv
  rw [List.find?_append]
  rcases List.mem_append.1 hv with hv | hv
  · rw [h.first v hv, Option.some_or]
  cases List.mem_singleton.1 hv
  have hnew : gear.find? (·.gearId = g.gearId) = none := by
    refine List.find?_eq_none.2 fun r hr heq => hg (.inr (mem_distinctGear.2 ⟨?_, r, hr, ?_⟩))
    · exact fun hnil => hg (.inl hnil)
    · exact of_decide_eq_true heq
  simp [hnew]

theorem topoDistinctGear_spec (more : List TopoGear) (h : FirstRows gear rows)
    (hcap : (distinctGear (gear ++ more)).length ≤ cap) :
    ∃ out, topoDistinctGear cap rows more = (.ok, out) ∧ FirstRows (gear ++ more) out := by
  induction more generalizing gear rows with
  | nil => exact ⟨rows, rfl, by rwa [List.append_nil]⟩
  | cons g more ih =>
    rw [List.append_cons] at hcap ⊢
    rw [topoDistinctGear]
    simp only [topoFindGear_isSome h]
    split
    · next hg => exact ih (h.seen hg) hcap
    next hg =>
    have hroom : ¬ cap ≤ rows.length := by
      rw [distinctGear_append, distinctGear_new hg, ← h.ids] at hcap
      simp only [List.length_append, List.length_map, List.length_singleton] at hcap
      omega
    rw [if_neg hroom]
    exact ih (h.push hg) hcap

theorem attachedTo_snoc (edges : List LldpEdge) (e : LldpEdge) (id : CStr) :
    attachedTo (edges ++ [e]) id = if e.nodeId = 0 ∨ e.gearId ≠ id then attachedTo edges id
      else insert e.nodeId (attachedTo edges id) := by
  ext n
  by_cases hid : e.gearId = id <;> by_cases h0 : e.nodeId = 0 <;>
    grind [attachedTo, List.mem_toFinset]

theorem topoAttachedNodes_add (id : CStr) (before edges : List LldpEdge) :
    topoAttachedNodes id before edges + (attachedTo before id).card =
      (attachedTo (before ++ edges) id).card := by
  induction edges generalizing before with
  | nil => simp [topoAttachedNodes]
  | cons e edges ih =>
    rw [List.append_cons, ← ih, topoAttachedNodes, attachedTo_snoc]
    have hmem : before.any (fun k => k.nodeId = e.nodeId ∧ k.gearId = id) = true ∧ e.nodeId ≠ 0 ↔
        e.nodeId ∈ attachedTo before id := by
      simp [attachedTo]
      grind
    grind

/-! ## The depth of the uplinks -/

section
variable (h : FirstRows gear rows)
include h

theorem topoUplinkLoop_succ (hv : rows[i]? = some v) (start left depth : Nat) :
    uplinkOf gear v.gearId = none ∧ topoUplinkLoop rows start (left + 1) depth i = depth ∨
      ∃ next w, rows[next]? = some w ∧ uplinkOf gear v.gearId = some w.gearId ∧
        topoUplinkLoop rows start (left + 1) depth i = if next = start then topoMaxUplinkHops
          else topoUplinkLoop rows start left (depth + 1) next := by
  have hup : uplinkOf gear v.gearId = (some v.uplinkGearId).filter (· ∈ distinctGear gear) := by
    rw [uplinkOf, h.first v (List.mem_of_getElem? hv), Option.map_some]
  have hknown := topoFindGear_isSome h v.uplinkGearId
  have hne : v.uplinkGearId ∈ distinctGear gear ↔ _ := mem_distinctGear
  rw [topoUplinkLoop]
  cases hfind : topoFindGear rows v.uplinkGearId with
  | none => exact .inl (by simp_all)
  | some next =>
    obtain ⟨w, hw, hid⟩ := topoFindGear_some hfind
    exact .inr ⟨next, w, hw, by simp_all⟩

theorem topoUplinkLoop_ends {start left depth : Nat}
    (hs : rows[start]? = some s) (hv : rows[i]? = some v)
    (hk : EndsAfter (uplinkOf gear) v.gearId k)
    (hpass : ∀ n, climb (uplinkOf gear) (n + 1) v.gearId ≠ some s.gearId) :
    topoUplinkLoop rows start left depth i = depth + min k left := by
  induction left generalizing i v k depth with
  | zero => rw [Nat.min_zero, Nat.add_zero, topoUplinkLoop]
  | succ left ih =>
    rcases topoUplinkLoop_succ h hv start left depth with ⟨hnone, heq⟩ | ⟨next, w, hw, hup, heq⟩
    · have h0 : EndsAfter (uplinkOf gear) v.gearId 0 := ⟨v.gearId, rfl, hnone⟩
      rw [heq, hk.unique h0, Nat.zero_min, Nat.add_zero]
    obtain ⟨n, rfl, hn⟩ := hk.step hup
    have hstart : next ≠ start := by
      rintro rfl
      cases hs.symm.trans hw
      exact hpass 0 (climb_step hup 0)
    rw [heq, if_neg hstart, ih hw hn fun m => climb_step hup (m + 1) ▸ hpass (m + 1)]
    omega

theorem topoUplinkLoop_endless {start left depth : Nat}
    (hv : rows[i]? = some v) (hend : ∀ k, ¬ EndsAfter (uplinkOf gear) v.gearId k)
    (hsum : depth + left = topoMaxUplinkHops) :
    topoUplinkLoop rows start left depth i = topoMaxUplinkHops := by
  induction left generalizing i v depth with
  | zero => exact hsum
  | succ left ih =>
    rcases topoUplinkLoop_succ h hv start left depth with ⟨hnone, -⟩ | ⟨next, w, hw, hup, heq⟩
    · cases hend 0 ⟨v.gearId, rfl, hnone⟩
    rw [heq]
    split
    · rfl
    · refine ih hw (fun k ⟨root, hroot, hno⟩ => ?_) (by omega)
      exact hend (k + 1) ⟨root, (climb_step hup k).trans hroot, hno⟩

end

theorem uplink_ends_or_cyclic (gear : List TopoGear) (id : CStr) :
    (∃ k, EndsAfter (uplinkOf gear) id k) ∨ Cyclic (uplinkOf gear) id := by
  refine ends_or_cyclic (s := {x | x = id ∨ x ∈ distinctGear gear}) ?_ (.inl rfl) ?_
  · exact (List.finite_toSet (id :: distinctGear gear)).subset fun x hx => List.mem_cons.2 hx
  · intro x y hy
    exact .inr (of_decide_eq_true (Option.filter_eq_some_iff.1 hy).2)

theorem topoUplinkDepth_ends (h : FirstRows gear rows) (hv : rows[i]? = some v)
    (hk : EndsAfter (uplinkOf gear) v.gearId k) :
    topoUplinkDepth rows i = min k topoMaxUplinkHops := by
  refine (topoUplinkLoop_ends h hv hv hk fun n hn => ?_).trans (Nat.zero_add _)
  -- coming back to the start is a cycle, which has no end
  exact Cyclic.not_ends ⟨0, n + 1, Nat.succ_pos n, hn.symm, Option.some_ne_none _⟩ hk

theorem topoUplinkDepth_cap (h : FirstRows gear rows) (hv : rows[i]? = some v) :
    topoUplinkDepth rows i = topoMaxUplinkHops ↔ Cyclic (uplinkOf gear) v.gearId ∨
      ∃ k, topoMaxUplinkHops ≤ k ∧ EndsAfter (uplinkOf gear) v.gearId k := by
  rcases uplink_ends_or_cyclic gear v.gearId with ⟨k, hk⟩ | hcyc
  · rw [topoUplinkDepth_ends h hv hk, min_eq_right_iff]
    constructor
    · exact fun hle => .inr ⟨k, hle, hk⟩
    · rintro (hcyc | ⟨n, hle, hn⟩)
      · cases hcyc.not_ends hk
      · rwa [hk.unique hn]
  · refine iff_of_true ?_ (.inl hcyc)
    exact topoUplinkLoop_endless h hv (fun k => hcyc.not_ends) (Nat.zero_add _)

/-- **The network-gear view is exact.** Each distinct gear is there once, with the number of
distinct nodes that have an edge to it and the number of steps to a gear without a known uplink, up
to the cap. -/
theorem netgear_view_exact (gear : List TopoGear) (edges : List LldpEdge) (cap : Nat)
    (hcap : (distinctGear gear).length ≤ cap) :
    ∃ out, topoAssembleNetGear gear edges cap = (.ok, out) ∧
      out.map (·.gearId) = distinctGear gear ∧
      ∀ v ∈ out, gear.find? (·.gearId = v.gearId) = some v.toTopoGear ∧
        v.attachedNodes = (attachedTo edges v.gearId).card ∧
        (∀ k, EndsAfter (uplinkOf gear) v.gearId k → v.uplinkDepth = min k topoMaxUplinkHops) ∧
        (v.uplinkDepth = topoMaxUplinkHops ↔ Cyclic (uplinkOf gear) v.gearId ∨
          ∃ k, topoMaxUplinkHops ≤ k ∧ EndsAfter (uplinkOf gear) v.gearId k) := by
  have hnone : FirstRows [] [] := ⟨rfl, nofun⟩
  obtain ⟨rows, hrows, hfirst⟩ := topoDistinctGear_spec gear hnone hcap
  rw [topoAssembleNetGear, hrows]
  refine ⟨_, rfl, ?_⟩
  generalize hcounted : rows.map (fun r =>
    { r with attachedNodes := topoAttachedNodes r.gearId [] edges }) = counted
  have h : FirstRows gear counted := by
    subst hcounted
    refine ⟨?_, fun v hv => ?_⟩
    · rw [List.map_map]
      exact hfirst.ids
    · obtain ⟨r, hr, rfl⟩ := List.mem_map.1 hv
      exact hfirst.first r hr
  constructor
  · refine .trans (List.ext_getElem (by simp) fun i _ _ => ?_) h.ids
    simp
  intro v hv
  obtain ⟨i, hi, rfl⟩ := List.mem_mapIdx.1 hv
  have hget := List.getElem?_eq_getElem hi
  refine ⟨h.first counted[i] (List.getElem_mem hi), ?_,
    fun k => topoUplinkDepth_ends (v := counted[i]) h hget,
    topoUplinkDepth_cap (v := counted[i]) h hget⟩
  subst hcounted
  rw [List.getElem_map]
  exact topoAttachedNodes_add _ [] edges

/-- `a` has an uplink; `c` and `d` are each the other's. -/
def ringGear : List TopoGear :=
  [⟨['a'], [], [], ['b']⟩, ⟨['b'], [], [], []⟩, ⟨['c'], [], [], ['d']⟩, ⟨['d'], [], [], ['c']⟩]

def ringEdges : List LldpEdge := [7, 7, 8].map fun n => ⟨n, ['a'], [], [], false, 0, true⟩

theorem netgear_view_of_ring :
    ∃ out, topoAssembleNetGear ringGear ringEdges 4 = (.ok, out) ∧
      out.map (·.gearId) = [['a'], ['b'], ['c'], ['d']] ∧ ∀ v ∈ out,
        (v.gearId = ['a'] → v.attachedNodes = 2 ∧ v.uplinkDepth = 1) ∧
        (v.gearId = ['c'] → v.attachedNodes = 0 ∧ v.uplinkDepth = topoMaxUplinkHops) := by
  obtain ⟨out, hout, hids, hview⟩ := netgear_view_exact ringGear ringEdges 4 (by decide)
  refine ⟨out, hout, hids, fun v hv => ?_⟩
  obtain ⟨-, hattached, hdepth, hcap⟩ := hview v hv
  constructor
  · intro ha
    rw [ha] at hattached hdepth
    exact ⟨hattached.trans (by decide), hdepth 1 ⟨['b'], rfl, rfl⟩⟩
  · intro hc
    rw [hc] at hattached hcap
    exact ⟨hattached.trans (by decide), hcap.2 (.inl ⟨0, 2, by decide, rfl, by decide⟩)⟩

end SolariNet
