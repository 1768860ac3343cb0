/-
# The two provisioning validators

The control bridge (`solariCtl.c`) checks the arguments of a provisioning run with
hand-written scanners before it starts a helper; the helper (`provlib.py`) checks them
again with regular expressions.  Both are modelled here under the source's names, the
scanners as loops over a C string, the regular expressions as patterns of `Lib.Regex`
under `re.match`, whose `$` also matches before a final newline.
-/
import SolariNet.Lib.Regex
import SolariNet.Wire.Basic

namespace SolariNet

open List Lib

/-! ## The scanners of the bridge (`solariCtl.c`) -/

def ctlProvMaxStacks : Nat := 32
def ctlProvSlugMax : Nat := 48
def ctlProvPrincipalMax : Nat := 128

def ctlProvStacksCap : Nat := ctlProvMaxStacks * (ctlProvSlugMax + 1)

def isDigit (c : Char) : Bool := '0' ≤ c && c ≤ '9'
def isLower (c : Char) : Bool := 'a' ≤ c && c ≤ 'z'
def isUpper (c : Char) : Bool := 'A' ≤ c && c ≤ 'Z'

/-- The value of a digit behind the digits read so far.  At most ten digits are read, so
the `uint64_t` of the source does not wrap. -/
def ctlProvIdDigit (v : Nat) (c : Char) : Nat := v * 10 + (c.toNat - '0'.toNat)

def ctlProvIdLoop : CStr → Nat → Nat → Option Nat
  | [], _, v => some v
  | c :: s, n, v =>
    if !isDigit c || n ≥ 10 then none else ctlProvIdLoop s (n + 1) (ctlProvIdDigit v c)

def ctlProvValidId (s : CStr) : Option Nat :=
  match s with
  | [] => none
  | c :: _ =>
    if c < '1' || '9' < c then none
    else match ctlProvIdLoop s 0 0 with
      | none => none
      | some v => if v > 4294967295 then none else some v

def ctlProvSlugAlnum (c : Char) : Bool := isLower c || isDigit c

def ctlProvValidSlugN (s : CStr) : Bool :=
  match s with
  | [] => false
  | c :: t =>
    !(s.length > ctlProvSlugMax) && ctlProvSlugAlnum c &&
      t.all fun d => ctlProvSlugAlnum d || d == '-'

def ctlProvListed (out p : CStr) : Bool := out != [] && (out.splitOn ',').contains p

/-- The loop of `ctlProvValidStacks` over the pieces between the commas, with the output
buffer and the number of distinct slugs in it. -/
def ctlProvStacksLoop (cap : Nat) : List CStr → CStr → Nat → Option CStr
  | [], out, distinct => if distinct > 0 then some out else none
  | p :: ps, out, distinct =>
    if !ctlProvValidSlugN p then none
    else if ctlProvListed out p then ctlProvStacksLoop cap ps out distinct
    else if distinct + 1 > ctlProvMaxStacks then none
    else if out.length + (if out = [] then 0 else 1) + p.length + 1 > cap then none
    else ctlProvStacksLoop cap ps (if out = [] then p else out ++ ',' :: p) (distinct + 1)

def ctlProvValidStacks (s : CStr) (cap : Nat) : Option CStr :=
  if s = [] ∨ cap < ctlProvStacksCap then none
  else ctlProvStacksLoop cap (s.splitOn ',') [] 0

def ctlProvAlnum (c : Char) : Bool := isUpper c || isLower c || isDigit c

def ctlProvPrincipalChar (c : Char) : Bool :=
  ctlProvAlnum c || c == '.' || c == '_' || c == '@' || c == '+' || c == ':' || c == '-'

def ctlProvPrincipalLoop : Nat → CStr → Bool
  | n, [] => n > 0
  | n, c :: s =>
    if n ≥ ctlProvPrincipalMax then false
    else if (if n == 0 then !ctlProvAlnum c else !ctlProvPrincipalChar c) then false
    else ctlProvPrincipalLoop (n + 1) s

def ctlProvValidPrincipal (s : CStr) : Bool := ctlProvPrincipalLoop 0 s

def isLowerHex (c : Char) : Bool := isDigit c || ('a' ≤ c && c ≤ 'f')

def ctlProvMacLoop : Nat → CStr → Bool
  | i, [] => i == 17
  | i, c :: s =>
    i < 17 && (if i % 3 == 2 then c == ':' else isLowerHex c) && ctlProvMacLoop (i + 1) s

def ctlProvValidMac (s : CStr) : Bool := ctlProvMacLoop 0 s

/-! ## The patterns of the helper (`provlib.py`) -/

/-- `ID_RE`: `^[1-9][0-9]{0,9}$`. -/
def idRe : Regex := .seq (.cls fun c => '1' ≤ c && c ≤ '9') (.rep (.cls isDigit) 0 9)

/-- `SLUG_RE`: `^[a-z0-9][a-z0-9-]{0,47}$`. -/
def slugRe : Regex :=
  .seq (.cls fun c => isLower c || isDigit c)
    (.rep (.cls fun c => isLower c || isDigit c || c == '-') 0 47)

/-- `PRINCIPAL_RE`: `^[A-Za-z0-9][A-Za-z0-9._@+:-]{0,127}$`. -/
def principalRe : Regex :=
  .seq (.cls fun c => isUpper c || isLower c || isDigit c)
    (.rep (.cls fun c => isUpper c || isLower c || isDigit c || c == '.' || c == '_' || c == '@' ||
      c == '+' || c == ':' || c == '-') 0 127)

/-- `(:[0-9a-f]{2})`. -/
def macGroupRe : Regex := .seq (.cls (· == ':')) (.rep (.cls isLowerHex) 2 2)

/-- `MAC_RE`: `^[0-9a-f]{2}(:[0-9a-f]{2}){5}$`. -/
def macRe : Regex := .seq (.rep (.cls isLowerHex) 2 2) (.rep macGroupRe 5 5)

def maxStacks : Nat := 32

inductive ProvError where
  | text (msg : String)
  | invalidSlug (slug : CStr)
  deriving DecidableEq, Repr

def isPySpace (c : Char) : Bool := c == ' ' || ('\t' ≤ c && c ≤ '\r')

def pyInt (value : CStr) : Nat :=
  (((value.dropWhile isPySpace).reverse.dropWhile isPySpace).reverse).foldl ctlProvIdDigit 0

def parseId (value : CStr) (what : String) : Except ProvError Nat :=
  if !idRe.matchesLine value then .error (.text (what ++ " must be a positive decimal integer"))
  else if pyInt value > 4294967295 then .error (.text (what ++ " is out of range"))
  else .ok (pyInt value)

def parseStacksLoop : List CStr → List CStr → Except ProvError (List CStr)
  | [], out => .ok out
  | slug :: slugs, out =>
    if !slugRe.matchesLine slug then .error (.invalidSlug slug)
    else parseStacksLoop slugs (if slug ∈ out then out else out ++ [slug])

def parseStacks (value : CStr) : Except ProvError (List CStr) :=
  if value = [] then .error (.text "stacks must name at least one stack slug")
  else match parseStacksLoop (value.splitOn ',') [] with
    | .error e => .error e
    | .ok out =>
      if out.length > maxStacks then .error (.text "at most 32 stacks per run") else .ok out

def parseMac (value : CStr) : Except ProvError CStr :=
  if !macRe.matchesLine value then
    .error (.text "mac must be a lowercase colon-separated MAC address")
  else .ok value

def parsePrincipal (value : CStr) : Except ProvError CStr :=
  if !principalRe.matchesLine value then .error (.text "op must be a non-empty operator principal")
  else .ok value

/-! ## Each scanner accepts the language of its pattern -/

variable {s : CStr} {n : Nat} {l : List CStr}

theorem ctlProvValidSlugN_iff : ctlProvValidSlugN s = true ↔ s ∈ slugRe.lang := by
  cases s with
  | nil => simp [ctlProvValidSlugN, slugRe, Regex.mem_lang_lead]
  | cons c t =>
    have hlen : (!decide ((c :: t).length > ctlProvSlugMax)) = true ↔ t.length ≤ 47 := by
      rw [length_cons, ctlProvSlugMax, Bool.not_eq_true', decide_eq_false_iff_not]
      omega
    rw [slugRe, Regex.cons_mem_lead, and_left_comm, ← and_assoc]
    simp only [ctlProvValidSlugN, ctlProvSlugAlnum, Bool.and_eq_true, hlen, all_eq_true]

theorem ctlProvPrincipalLoop_iff (hn : 0 < n) (hmax : n ≤ ctlProvPrincipalMax) :
    ctlProvPrincipalLoop n s = true ↔
      s.length + n ≤ ctlProvPrincipalMax ∧ ∀ c ∈ s, ctlProvPrincipalChar c = true := by
  induction s generalizing n with
  | nil => simp [ctlProvPrincipalLoop, hn, hmax]
  | cons c s ih =>
    have hn0 : (n == 0) = false := by simpa using Nat.ne_of_gt hn
    simp only [ctlProvPrincipalLoop, hn0, length_cons, mem_cons, forall_eq_or_imp]
    by_cases hlt : n ≥ ctlProvPrincipalMax
    · simp only [hlt, if_true, Bool.false_eq_true, false_iff]
      intro h
      omega
    cases hc : ctlProvPrincipalChar c with
    | false => simp
    | true =>
      simp only [hlt, if_false, Bool.not_true, Bool.false_eq_true, true_and,
        ih (Nat.succ_pos n) (by omega)]
      rw [show s.length + (n + 1) = s.length + 1 + n by omega]

theorem ctlProvValidPrincipal_iff : ctlProvValidPrincipal s = true ↔ s ∈ principalRe.lang := by
  cases s with
  | nil => simp [ctlProvValidPrincipal, ctlProvPrincipalLoop, principalRe, Regex.mem_lang_lead]
  | cons c t =>
    rw [principalRe, Regex.cons_mem_lead]
    have hloop := ctlProvPrincipalLoop_iff (n := 1) (s := t) (by decide) (by decide)
    simp only [ctlProvPrincipalMax] at hloop
    cases hc : ctlProvAlnum c with
    | false =>
      have hstep : ctlProvValidPrincipal (c :: t) = false := by
        simp [ctlProvValidPrincipal, ctlProvPrincipalLoop, hc]
      rw [hstep]
      exact ⟨fun h => absurd h Bool.false_ne_true, fun h => absurd (hc.symm.trans h.1) (by simp)⟩
    | true =>
      have hstep : ctlProvValidPrincipal (c :: t) = ctlProvPrincipalLoop 1 t := by
        simp [ctlProvValidPrincipal, ctlProvPrincipalLoop, hc, ctlProvPrincipalMax]
      rw [hstep, hloop]
      exact ⟨fun ⟨hl, hall⟩ => ⟨hc, by omega, hall⟩, fun ⟨_, hl, hall⟩ => ⟨by omega, hall⟩⟩

theorem mem_hexPair {u : CStr} : u ∈ (Regex.rep (.cls isLowerHex) 2 2).lang ↔
    ∃ a b, u = [a, b] ∧ isLowerHex a = true ∧ isLowerHex b = true := by
  rw [Regex.mem_lang_cls_rep]
  constructor
  · rintro ⟨hlo, hhi, hall⟩
    obtain ⟨a, b, rfl⟩ := length_eq_two.1 (le_antisymm hhi hlo)
    exact ⟨a, b, rfl, hall a (by simp), hall b (by simp)⟩
  · rintro ⟨a, b, rfl, ha, hb⟩
    exact ⟨le_refl _, le_refl _, by simp [ha, hb]⟩

theorem mem_macGroupRe {u : CStr} :
    u ∈ macGroupRe.lang ↔ ∃ a b, u = [':', a, b] ∧ isLowerHex a = true ∧ isLowerHex b = true := by
  constructor
  · rintro ⟨_, ⟨c, hc, rfl⟩, w, hw, rfl⟩
    obtain ⟨a, b, rfl, hab⟩ := mem_hexPair.1 hw
    rw [beq_iff_eq] at hc
    exact ⟨a, b, by rw [hc]; rfl, hab⟩
  · rintro ⟨a, b, rfl, hab⟩
    exact ⟨[':'], ⟨':', rfl, rfl⟩, [a, b], mem_hexPair.2 ⟨a, b, rfl, hab⟩, rfl⟩

theorem mem_macGroupRe_pow (hn : n ≤ 5) {u : CStr} :
    u ∈ macGroupRe.lang ^ n ↔ ctlProvMacLoop (17 - 3 * n) u = true := by
  induction n generalizing u with
  | zero =>
    cases u <;> simp [ctlProvMacLoop]
  | succ n ih =>
    have h0 : (17 - 3 * (n + 1)) % 3 = 2 := by omega
    have h1 : (17 - 3 * (n + 1) + 1) % 3 = 0 := by omega
    have h2 : (17 - 3 * (n + 1) + 1 + 1) % 3 = 1 := by omega
    have h3 : 17 - 3 * (n + 1) + 1 + 1 + 1 = 17 - 3 * n := by omega
    rw [pow_succ']
    constructor
    · rintro ⟨_, hg, w, hw, rfl⟩
      obtain ⟨a, b, rfl, ha, hb⟩ := mem_macGroupRe.1 hg
      have hw' := (ih (by omega)).1 hw
      simp [ctlProvMacLoop, h3, ha, hb, hw']
      omega
    · intro h
      match u, h with
      | [], h | [_], h | [_, _], h => simp [ctlProvMacLoop] at h; omega
      | c :: a :: b :: w, h =>
        simp only [ctlProvMacLoop, h0, h1, h2, h3, if_true, Bool.and_eq_true, beq_iff_eq] at h
        obtain ⟨⟨_, rfl⟩, ⟨_, ha⟩, ⟨_, hb⟩, hw⟩ := h
        exact ⟨[':', a, b], mem_macGroupRe.2 ⟨a, b, rfl, by simpa using ha, by simpa using hb⟩,
          w, (ih (by omega)).2 hw, rfl⟩

theorem ctlProvValidMac_iff : ctlProvValidMac s = true ↔ s ∈ macRe.lang := by
  rw [ctlProvValidMac]
  constructor
  · intro h
    match s, h with
    | [], h | [_], h => simp [ctlProvMacLoop] at h
    | a :: b :: w, h =>
      simp only [ctlProvMacLoop, Bool.and_eq_true] at h
      obtain ⟨⟨_, ha⟩, ⟨_, hb⟩, hw⟩ := h
      exact ⟨[a, b], mem_hexPair.2 ⟨a, b, rfl, by simpa using ha, by simpa using hb⟩, w,
        ⟨5, le_refl 5, le_refl 5, (mem_macGroupRe_pow (le_refl 5)).2 hw⟩, rfl⟩
  · rintro ⟨v, hv, w, ⟨n, h5, h5', hw⟩, rfl⟩
    cases le_antisymm h5' h5
    obtain ⟨a, b, rfl, ha, hb⟩ := mem_hexPair.1 hv
    have hw' := (mem_macGroupRe_pow (le_refl 5)).1 hw
    simp [ctlProvMacLoop, ha, hb, hw']

theorem isDigit_of_lead {c : Char} (h : (decide ('1' ≤ c) && decide (c ≤ '9')) = true) :
    isDigit c = true := by
  simp only [isDigit, Bool.and_eq_true, decide_eq_true_eq] at h ⊢
  exact ⟨Char.le_trans (by decide) h.1, h.2⟩

theorem ctlProvIdLoop_eq_some {v w : Nat} (hn : n ≤ 10) : ctlProvIdLoop s n v = some w ↔
      s.length + n ≤ 10 ∧ (∀ c ∈ s, isDigit c = true) ∧ s.foldl ctlProvIdDigit v = w := by
  induction s generalizing n v with
  | nil => simp [ctlProvIdLoop, hn]
  | cons c s ih =>
    simp only [ctlProvIdLoop, length_cons, mem_cons, forall_eq_or_imp, foldl_cons]
    cases hc : isDigit c with
    | false => simp
    | true =>
      by_cases h10 : n ≥ 10
      · simp only [h10, decide_true, Bool.or_true, if_true, reduceCtorEq, false_iff]
        intro h
        omega
      · simp only [h10, Bool.not_true, decide_false, Bool.or_self, Bool.false_eq_true, if_false,
          ih (by omega : n + 1 ≤ 10), true_and]
        rw [show s.length + (n + 1) = s.length + 1 + n by omega]

theorem ctlProvValidId_eq_some :
    ctlProvValidId s = some n ↔ s ∈ idRe.lang ∧ s.foldl ctlProvIdDigit 0 = n ∧ n ≤ 4294967295 := by
  cases s with
  | nil => simp [ctlProvValidId, idRe, Regex.mem_lang_lead]
  | cons c t =>
    rw [idRe, Regex.cons_mem_lead]
    have hlead : (decide (c < '1') || decide ('9' < c)) =
        !(decide ('1' ≤ c) && decide (c ≤ '9')) := by
      simp only [← Char.not_le, decide_not, Bool.not_and]
    have hloop := fun w =>
      ctlProvIdLoop_eq_some (s := c :: t) (n := 0) (v := 0) (w := w) (by omega)
    simp only [ctlProvValidId, hlead]
    cases hc : (decide ('1' ≤ c) && decide (c ≤ '9')) with
    | false => simp
    | true =>
      simp only [Bool.not_true, Bool.false_eq_true, if_false]
      constructor
      · intro h
        cases hw : ctlProvIdLoop (c :: t) 0 0 with
        | none => simp [hw] at h
        | some w =>
          obtain ⟨hl, hall, hv⟩ := (hloop w).1 hw
          simp only [hw] at h
          obtain ⟨hmax, h⟩ := Option.ite_none_left_eq_some.1 h
          cases h
          rw [length_cons] at hl
          exact ⟨⟨trivial, by omega, (forall_mem_cons.1 hall).2⟩, hv, by omega⟩
      · rintro ⟨⟨_, hl, hall⟩, hv, hmax⟩
        have hw : ctlProvIdLoop (c :: t) 0 0 = some n :=
          (hloop n).2 ⟨by rw [length_cons]; omega, by simpa [isDigit_of_lead hc] using hall, hv⟩
        simp only [hw, if_neg (by omega : ¬ 4294967295 < n)]

/-! ## What the helper accepts -/

theorem digit_not_space {c : Char} (h : isDigit c = true) : isPySpace c = false := by
  simp only [isDigit, Bool.and_eq_true, decide_eq_true_eq] at h
  simp only [isPySpace, Bool.or_eq_false_iff, beq_eq_false_iff_ne, Bool.and_eq_false_iff,
    decide_eq_false_iff_not]
  refine ⟨?_, .inr ?_⟩
  · rintro rfl
    exact absurd h.1 (by decide)
  · intro hr
    exact absurd (Char.le_trans h.1 hr) (by decide)

theorem dropWhile_isPySpace {l : CStr} (h : ∀ c ∈ l, isDigit c = true) :
    l.dropWhile isPySpace = l := by
  cases l with
  | nil => rfl
  | cons c l => rw [dropWhile_cons_of_neg (by simp [digit_not_space (h c mem_cons_self)])]

theorem idRe_digits (h : s ∈ idRe.lang) : s ≠ [] ∧ ∀ c ∈ s, isDigit c = true := by
  obtain ⟨c, t, rfl, hc, _, hall⟩ := Regex.mem_lang_lead.1 h
  exact ⟨cons_ne_nil c t, forall_mem_cons.2 ⟨isDigit_of_lead hc, hall⟩⟩

theorem pyInt_of_idRe (h : s ∈ idRe.lang) :
    pyInt s = s.foldl ctlProvIdDigit 0 ∧ pyInt (s ++ ['\n']) = s.foldl ctlProvIdDigit 0 := by
  obtain ⟨hne, hall⟩ := idRe_digits h
  have hr : ∀ c ∈ s.reverse, isDigit c = true := fun c hc => hall c (mem_reverse.1 hc)
  have hfront : (s ++ ['\n']).dropWhile isPySpace = s ++ ['\n'] := by
    cases s with
    | nil => exact absurd rfl hne
    | cons c t =>
      rw [cons_append, dropWhile_cons_of_neg (by simp [digit_not_space (hall c mem_cons_self)])]
  constructor
  · rw [pyInt, dropWhile_isPySpace hall, dropWhile_isPySpace hr, reverse_reverse]
  · rw [pyInt, hfront, reverse_append, reverse_singleton, singleton_append,
      dropWhile_cons_of_pos (by decide), dropWhile_isPySpace hr, reverse_reverse]

theorem parseId_eq_ok {what : String} :
    parseId s what = .ok n ↔ ∃ t, (s = t ∨ s = t ++ ['\n']) ∧ ctlProvValidId t = some n := by
  have hval : idRe.matchesLine s = true ↔ ∃ t, (s = t ∨ s = t ++ ['\n']) ∧ t ∈ idRe.lang := by
    simp only [Regex.matchesLine_iff, or_and_right, exists_or, exists_eq_left', and_comm]
  have hint : ∀ t, (s = t ∨ s = t ++ ['\n']) → t ∈ idRe.lang →
      pyInt s = t.foldl ctlProvIdDigit 0 := by
    rintro t (rfl | rfl) ht
    · exact (pyInt_of_idRe ht).1
    · exact (pyInt_of_idRe ht).2
  simp only [ctlProvValidId_eq_some, parseId]
  constructor
  · intro h
    obtain ⟨hm, h⟩ := guard_ok.1 h
    obtain ⟨t, hst, ht⟩ := hval.1 (by simpa using hm)
    obtain ⟨hmax, h⟩ := guard_ok.1 h
    cases h
    exact ⟨t, hst, ht, (hint t hst ht).symm, by omega⟩
  · rintro ⟨t, hst, ht, hv, hmax⟩
    have hi := (hint t hst ht).trans hv
    have hm := hval.2 ⟨t, hst, ht⟩
    rw [if_neg (by simp [hm]), if_neg (by omega), hi]

theorem matchesLine_of_scanner {r : Regex} {f : CStr → Bool} (hf : ∀ s, f s = true ↔ s ∈ r.lang) :
    r.matchesLine s = true ↔ f s = true ∨ ∃ t, s = t ++ ['\n'] ∧ f t = true := by
  simp only [Regex.matchesLine_iff, hf, and_comm]

theorem parseMac_ok_iff : (∃ m, parseMac s = .ok m) ↔
    ctlProvValidMac s = true ∨ ∃ t, s = t ++ ['\n'] ∧ ctlProvValidMac t = true := by
  rw [← matchesLine_of_scanner fun _ => ctlProvValidMac_iff, parseMac]
  cases h : macRe.matchesLine s <;> simp

theorem parsePrincipal_ok_iff : (∃ p, parsePrincipal s = .ok p) ↔
    ctlProvValidPrincipal s = true ∨ ∃ t, s = t ++ ['\n'] ∧ ctlProvValidPrincipal t = true := by
  rw [← matchesLine_of_scanner fun _ => ctlProvValidPrincipal_iff, parsePrincipal]
  cases h : principalRe.matchesLine s <;> simp

/-! ## The stacks lists -/

def collapse (l ps : List CStr) : List CStr :=
  ps.foldl (fun l p => if p ∈ l then l else l ++ [p]) l

theorem collapse_cons (l ps : List CStr) (p : CStr) :
    collapse l (p :: ps) = collapse (if p ∈ l then l else l ++ [p]) ps := rfl

theorem length_le_collapse (l ps : List CStr) : l.length ≤ (collapse l ps).length := by
  induction ps generalizing l with
  | nil => exact le_refl _
  | cons p ps ih =>
    rw [collapse_cons]
    refine le_trans ?_ (ih _)
    split <;> simp

theorem nodup_collapse (ps : List CStr) (h : l.Nodup) : (collapse l ps).Nodup := by
  induction ps generalizing l with
  | nil => exact h
  | cons p ps ih =>
    rw [collapse_cons]
    refine ih ?_
    split
    · exact h
    next hp =>
    rw [← concat_eq_append]
    exact List.Nodup.concat hp h

theorem mem_collapse {ps : List CStr} : q ∈ collapse l ps ↔ q ∈ l ∨ q ∈ ps := by
  induction ps generalizing l with
  | nil => simp [collapse]
  | cons p ps ih =>
    rw [collapse_cons, ih, mem_cons]
    split
    · next hp =>
      refine or_congr_right' fun hq => (or_iff_right ?_).symm
      rintro rfl
      exact hq hp
    · simp [or_assoc]

theorem length_collapse (ps : List CStr) : (collapse [] ps).length = ps.toFinset.card := by
  rw [← toFinset_card_of_nodup (nodup_collapse ps nodup_nil)]
  congr 1
  ext q
  simp [mem_collapse]

variable {p : CStr}

theorem slug_no_comma (h : ctlProvValidSlugN p = true) : ',' ∉ p :=
  Regex.not_mem_of_lead (ctlProvValidSlugN_iff.1 h) (by decide) (by decide)

theorem slug_length (h : ctlProvValidSlugN p = true) : 0 < p.length ∧ p.length ≤ 48 := by
  obtain ⟨c, t, rfl, _, hl, _⟩ := Regex.mem_lang_lead.1 (ctlProvValidSlugN_iff.1 h)
  simp only [length_cons]
  omega

def joined (l : List CStr) : CStr := [','].intercalate l

theorem joined_concat (hl : l ≠ []) (p : CStr) : joined (l ++ [p]) = joined l ++ ',' :: p := by
  induction l with
  | nil => exact absurd rfl hl
  | cons q l ih =>
    cases l with
    | nil => simp [joined]
    | cons q' l =>
      have := ih (by simp)
      simp only [joined, cons_append, intercalate_cons_cons, append_assoc]
        at this ⊢
      rw [this]

theorem length_joined (hs : ∀ p ∈ l, ctlProvValidSlugN p = true) (hl : l ≠ []) :
    joined l ≠ [] ∧ (joined l).length + 1 ≤ 49 * l.length := by
  induction l using reverseRecOn with
  | nil => exact absurd rfl hl
  | append_singleton l p ih =>
    have hp := slug_length (hs p (by simp))
    by_cases hn : l = []
    · subst hn
      simp only [nil_append, joined, intercalate_singleton, length_singleton]
      exact ⟨length_pos_iff.1 hp.1, by omega⟩
    · have h := ih (fun q hq => hs q (by simp [hq])) hn
      rw [joined_concat hn]
      simp only [length_append, length_cons]
      exact ⟨by simp, by omega⟩

theorem ctlProvListed_joined (hs : ∀ p ∈ l, ctlProvValidSlugN p = true) (p : CStr) :
    ctlProvListed (joined l) p = decide (p ∈ l) := by
  by_cases hl : l = []
  · subst hl
    simp [ctlProvListed, joined]
  have hne := (length_joined hs hl).1
  have hsplit : (joined l).splitOn ',' = l :=
    splitOn_intercalate ',' (fun q hq => slug_no_comma (hs q hq)) hl
  simp [ctlProvListed, hne, hsplit]

theorem ctlProvStacksLoop_eq {cap : Nat} (hcap : ctlProvStacksCap ≤ cap) (ps : List CStr)
    (hs : ∀ p ∈ l, ctlProvValidSlugN p = true) (hl : l.length ≤ ctlProvMaxStacks) :
    ctlProvStacksLoop cap ps (joined l) l.length =
      if (∀ p ∈ ps, ctlProvValidSlugN p = true) ∧ (collapse l ps).length ≤ ctlProvMaxStacks ∧
          0 < (collapse l ps).length then some (joined (collapse l ps)) else none := by
  induction ps generalizing l with
  | nil => simp [ctlProvStacksLoop, collapse, hl]
  | cons p ps ih =>
    simp only [ctlProvStacksLoop, mem_cons, forall_eq_or_imp]
    cases hp : ctlProvValidSlugN p with
    | false => simp
    | true =>
      simp only [Bool.not_true, Bool.false_eq_true, true_and,
        ctlProvListed_joined hs, decide_eq_true_eq]
      by_cases hpl : p ∈ l
      · have hc : collapse l (p :: ps) = collapse l ps := by rw [collapse_cons, if_pos hpl]
        simp only [hpl, hc]
        exact ih hs hl
      have hc : collapse l (p :: ps) = collapse (l ++ [p]) ps := by
        rw [collapse_cons, if_neg hpl]
      simp only [hpl, if_false, hc]
      by_cases hmax : l.length + 1 > ctlProvMaxStacks
      · have hlong := length_le_collapse (l ++ [p]) ps
        rw [length_append, length_singleton] at hlong
        rw [if_pos hmax, if_neg]
        rintro ⟨_, hle, _⟩
        omega
      -- the new slug fits behind the others
      have hlp := slug_length hp
      have hbuf : (if joined l = [] then p else joined l ++ ',' :: p) = joined (l ++ [p]) := by
        by_cases hn : l = []
        · subst hn
          simp [joined]
        · rw [if_neg (length_joined hs hn).1, joined_concat hn]
      have hfit : ¬ (joined l).length + (if joined l = [] then 0 else 1) + p.length + 1 > cap := by
        unfold ctlProvStacksCap ctlProvMaxStacks ctlProvSlugMax at *
        by_cases hn : l = []
        · subst hn
          simp only [joined, intercalate_nil, if_true]
          omega
        · obtain ⟨hne, hj⟩ := length_joined hs hn
          rw [if_neg hne]
          omega
      rw [if_neg hmax, if_neg hfit, hbuf]
      have hlen : l.length + 1 = (l ++ [p]).length := by simp
      rw [hlen]
      exact ih (forall_mem_append.2 ⟨hs, forall_mem_singleton.2 hp⟩) (by rw [← hlen]; omega)

theorem ctlProvValidStacks_eq_some {cap : Nat} (hcap : ctlProvStacksCap ≤ cap) :
    ctlProvValidStacks s cap = some o ↔ (∀ p ∈ s.splitOn ',', ctlProvValidSlugN p = true) ∧
        (s.splitOn ',').toFinset.card ≤ ctlProvMaxStacks ∧
        joined (collapse [] (s.splitOn ',')) = o := by
  have hloop := ctlProvStacksLoop_eq hcap (s.splitOn ',') (l := []) (by simp) (by simp)
  rw [length_collapse] at hloop
  unfold ctlProvValidStacks
  by_cases hs : s = []
  · subst hs
    simp [ctlProvValidSlugN]
  rw [if_neg (by simp [hs, hcap])]
  rw [show ctlProvStacksLoop cap (s.splitOn ',') [] 0 = _ from hloop]
  simp [and_assoc]

theorem parseStacksLoop_eq_ok (ps l out : List CStr) : parseStacksLoop ps l = .ok out ↔
      (∀ p ∈ ps, slugRe.matchesLine p = true) ∧ collapse l ps = out := by
  induction ps generalizing l with
  | nil => simp [parseStacksLoop, collapse]
  | cons p ps ih =>
    simp only [parseStacksLoop, mem_cons, forall_eq_or_imp]
    cases hp : slugRe.matchesLine p with
    | false => simp
    | true =>
      simp only [Bool.not_true, Bool.false_eq_true, if_false, ih, true_and]
      rfl

def chomp (p : CStr) : CStr := if p.getLast? = some '\n' then p.dropLast else p

theorem newline_not_slug (h : ctlProvValidSlugN p = true) : '\n' ∉ p :=
  Regex.not_mem_of_lead (ctlProvValidSlugN_iff.1 h) (by decide) (by decide)

theorem chomp_of_not_mem (h : '\n' ∉ p) : chomp p = p := by
  rw [chomp, if_neg]
  intro hl
  exact h (List.mem_of_getLast? hl)

theorem slugRe_matchesLine_iff :
    slugRe.matchesLine p = true ↔ ctlProvValidSlugN (chomp p) = true := by
  rw [matchesLine_of_scanner fun _ => ctlProvValidSlugN_iff]
  constructor
  · rintro (h | ⟨t, rfl, ht⟩)
    · rwa [chomp_of_not_mem (newline_not_slug h)]
    · rwa [chomp, List.getLast?_concat, if_pos rfl, dropLast_concat]
  · intro h
    by_cases hl : p.getLast? = some '\n'
    · rw [chomp, if_pos hl] at h
      exact .inr ⟨p.dropLast, (List.dropLast_append_getLast? '\n' hl).symm, h⟩
    · rw [chomp, if_neg hl] at h
      exact .inl h

theorem parseStacks_eq_ok : parseStacks s = .ok l ↔
      (∀ p ∈ s.splitOn ',', ctlProvValidSlugN (chomp p) = true) ∧
        (s.splitOn ',').toFinset.card ≤ ctlProvMaxStacks ∧ collapse [] (s.splitOn ',') = l := by
  have hloop := parseStacksLoop_eq_ok (s.splitOn ',') []
  simp only [slugRe_matchesLine_iff] at hloop
  unfold parseStacks
  by_cases hs : s = []
  · subst hs
    simp [chomp, ctlProvValidSlugN]
  rw [if_neg hs]
  cases hp : parseStacksLoop (s.splitOn ',') [] with
  | error e =>
    simp only [reduceCtorEq, false_iff, not_and]
    intro hall _ hc
    rw [(hloop l).2 ⟨hall, hc⟩] at hp
    cases hp
  | ok out =>
    obtain ⟨hall, rfl⟩ := (hloop out).1 hp
    rw [← length_collapse]
    by_cases hmax : (collapse [] (s.splitOn ',')).length > maxStacks
    · simp [hmax, show ¬ (collapse [] (s.splitOn ',')).length ≤ ctlProvMaxStacks from
        Nat.not_le.2 hmax]
    simp only [hmax, if_false, Except.ok.injEq,
      show (collapse [] (s.splitOn ',')).length ≤ ctlProvMaxStacks from Nat.not_lt.1 hmax, true_and]
    exact ⟨fun h => ⟨hall, h⟩, fun h => h.2⟩

theorem newline_mem_splitOn : '\n' ∈ s ↔ ∃ p ∈ s.splitOn ',', '\n' ∈ p := by
  induction s with
  | nil => simp
  | cons c s ih =>
    rw [splitOn_cons_eq_if_modifyHead]
    by_cases hc : c = ','
    · subst hc
      simp [ih]
    obtain ⟨p, ps, hsp⟩ := exists_cons_of_ne_nil (splitOn_ne_nil ',' s)
    rw [hsp] at ih ⊢
    simp [hc, ih, or_assoc]

/-! ## Where the validators agree -/

/-- The strings `$` lets through with a newline behind a principal (so also an id, a MAC or one
slug), or behind a slug of a list. -/
def NewlineEnded (s : CStr) : Prop :=
  (∃ t, s = t ++ ['\n'] ∧ ctlProvValidPrincipal t = true) ∨
    ('\n' ∈ s ∧ (∀ p ∈ s.splitOn ',', ctlProvValidSlugN (chomp p) = true) ∧
      (s.splitOn ',').toFinset.card ≤ ctlProvMaxStacks)

theorem principal_of_id (h : ctlProvValidId s = some n) : ctlProvValidPrincipal s = true := by
  have hl := (ctlProvValidId_eq_some.1 h).1
  obtain ⟨_, hd⟩ := idRe_digits hl
  obtain ⟨c, t, rfl, _, hlen, _⟩ := Regex.mem_lang_lead.1 hl
  refine ctlProvValidPrincipal_iff.2 (Regex.mem_lang_lead.2 ⟨c, t, rfl, ?_, by omega, ?_⟩)
  · simp [hd c mem_cons_self]
  · intro d hdt
    simp [hd d (mem_cons_of_mem c hdt)]

theorem ctlProvMacLoop_chars {i : Nat} (h : ctlProvMacLoop i s = true) :
    s.length ≤ 17 ∧ ∀ c ∈ s, isLowerHex c = true ∨ c = ':' := by
  suffices hs : s.length + i = 17 ∧ ∀ c ∈ s, isLowerHex c = true ∨ c = ':' from
    ⟨by omega, hs.2⟩
  induction s generalizing i with
  | nil => simpa [ctlProvMacLoop] using h
  | cons c s ih =>
    simp only [ctlProvMacLoop, Bool.and_eq_true] at h
    obtain ⟨⟨_, hc⟩, hs⟩ := h
    obtain ⟨hl, hall⟩ := ih hs
    refine ⟨by rw [length_cons]; omega, ?_⟩
    simp only [mem_cons, forall_eq_or_imp]
    refine ⟨?_, hall⟩
    split at hc
    · exact .inr (by simpa using hc)
    · exact .inl hc

theorem alnum_of_isLowerHex {c : Char} (h : isLowerHex c = true) :
    (isUpper c || isLower c || isDigit c) = true := by
  simp only [isLowerHex, isLower, Bool.or_eq_true, Bool.and_eq_true, decide_eq_true_eq] at h ⊢
  rcases h with h | h
  · exact .inr h
  · exact .inl (.inr ⟨h.1, Char.le_trans h.2 (by decide)⟩)

theorem principal_of_mac (h : ctlProvValidMac s = true) : ctlProvValidPrincipal s = true := by
  obtain ⟨hl, hall⟩ := ctlProvMacLoop_chars h
  cases s with
  | nil => simp [ctlProvValidMac, ctlProvMacLoop] at h
  | cons c t =>
    have hc : isLowerHex c = true := by
      simp only [ctlProvValidMac, ctlProvMacLoop, Bool.and_eq_true] at h
      simpa using h.1.2
    rw [length_cons] at hl
    refine ctlProvValidPrincipal_iff.2
      (Regex.mem_lang_lead.2 ⟨c, t, rfl, alnum_of_isLowerHex hc, by omega, ?_⟩)
    intro d hd
    rcases hall d (mem_cons_of_mem c hd) with hx | rfl
    · simp [alnum_of_isLowerHex hx]
    · simp

theorem newline_not_principal : ctlProvValidPrincipal (t ++ ['\n']) = false := by
  rw [Bool.eq_false_iff]
  intro h
  exact Regex.not_mem_of_lead (d := '\n') (ctlProvValidPrincipal_iff.1 h) (by decide) (by decide)
    (by simp)

theorem not_newlineEnded_of_agree {cap : Nat} (hcap : ctlProvStacksCap ≤ cap)
    (hstacks : ∀ o, ctlProvValidStacks s cap = some o ↔ ∃ l, parseStacks s = .ok l ∧ joined l = o)
    (hprincipal : ctlProvValidPrincipal s = true ↔ ∃ p, parsePrincipal s = .ok p) :
    ¬ NewlineEnded s := by
  rintro (⟨t, rfl, ht⟩ | ⟨hnl, hall, hcard⟩)
  · have h := hprincipal.2 (parsePrincipal_ok_iff.2 (.inr ⟨t, rfl, ht⟩))
    rw [newline_not_principal] at h
    cases h
  · have h := (hstacks _).2 ⟨_, parseStacks_eq_ok.2 ⟨hall, hcard, rfl⟩, rfl⟩
    obtain ⟨hslug, _⟩ := (ctlProvValidStacks_eq_some hcap).1 h
    obtain ⟨p, hp, hpn⟩ := newline_mem_splitOn.1 hnl
    exact newline_not_slug (hslug p hp) hpn

/-- **Where the two languages are the same.** The four pairs of validators agree on `s` exactly when
`s` is not a word of theirs that only `$` lets through because of a newline. -/
theorem validators_agree_iff (s : CStr) (cap : Nat) (hcap : ctlProvStacksCap ≤ cap)
    (what : String) :
    ((∀ o, ctlProvValidStacks s cap = some o ↔
        ∃ l, parseStacks s = .ok l ∧ [','].intercalate l = o) ∧
      (∀ n, ctlProvValidId s = some n ↔ parseId s what = .ok n) ∧
      (ctlProvValidMac s = true ↔ ∃ m, parseMac s = .ok m) ∧
      (ctlProvValidPrincipal s = true ↔ ∃ p, parsePrincipal s = .ok p)) ↔ ¬ NewlineEnded s := by
  constructor
  · rintro ⟨hstacks, _, _, hprincipal⟩
    exact not_newlineEnded_of_agree hcap hstacks hprincipal
  intro hs
  -- a newline behind a principal is excluded, so `$` is the end of the string
  have hno : ∀ t, s = t ++ ['\n'] → ctlProvValidPrincipal t = true → False :=
    fun t hst ht => hs (.inl ⟨t, hst, ht⟩)
  refine ⟨fun o => ?_, fun n => ?_, ?_, ?_⟩
  · simp only [ctlProvValidStacks_eq_some hcap, parseStacks_eq_ok]
    by_cases hnl : '\n' ∈ s
    · constructor
      · rintro ⟨hslug, _⟩
        obtain ⟨p, hp, hpn⟩ := newline_mem_splitOn.1 hnl
        exact absurd hpn (newline_not_slug (hslug p hp))
      · rintro ⟨_, ⟨hall, hcard, _⟩, _⟩
        exact absurd (.inr ⟨hnl, hall, hcard⟩) hs
    · have hch : ∀ p ∈ s.splitOn ',', chomp p = p := fun p hp =>
        chomp_of_not_mem fun hpn => hnl (newline_mem_splitOn.2 ⟨p, hp, hpn⟩)
      constructor
      · rintro ⟨hslug, hcard, rfl⟩
        exact ⟨_, ⟨fun p hp => by rw [hch p hp]; exact hslug p hp, hcard, rfl⟩, rfl⟩
      · rintro ⟨_, ⟨hslug, hcard, rfl⟩, rfl⟩
        exact ⟨fun p hp => by rw [← hch p hp]; exact hslug p hp, hcard, rfl⟩
  · rw [parseId_eq_ok]
    constructor
    · intro h
      exact ⟨s, .inl rfl, h⟩
    · rintro ⟨t, rfl | hst, ht⟩
      · exact ht
      · exact (hno t hst (principal_of_id ht)).elim
  · rw [parseMac_ok_iff, or_iff_left]
    exact fun ⟨t, hst, ht⟩ => hno t hst (principal_of_mac ht)
  · rw [parsePrincipal_ok_iff, or_iff_left]
    exact fun ⟨t, hst, ht⟩ => hno t hst ht

theorem validators_agree_repeated : ctlProvStacksCap ≤ ctlProvStacksCap ∧
      ((∀ o, ctlProvValidStacks ['a', ',', 'b', ',', 'a'] ctlProvStacksCap = some o ↔
          ∃ l, parseStacks ['a', ',', 'b', ',', 'a'] = .ok l ∧ [','].intercalate l = o) ∧
        (∀ n, ctlProvValidId ['a', ',', 'b', ',', 'a'] = some n ↔
          parseId ['a', ',', 'b', ',', 'a'] "run" = .ok n) ∧
        (ctlProvValidMac ['a', ',', 'b', ',', 'a'] = true ↔
          ∃ m, parseMac ['a', ',', 'b', ',', 'a'] = .ok m) ∧
        (ctlProvValidPrincipal ['a', ',', 'b', ',', 'a'] = true ↔
          ∃ p, parsePrincipal ['a', ',', 'b', ',', 'a'] = .ok p)) := by
  refine ⟨le_refl _, (validators_agree_iff _ _ (le_refl _) _).2 ?_⟩
  rintro (⟨t, h, _⟩ | ⟨h, _⟩)
  · have hl := congrArg List.getLast? h
    simp at hl
  · simp at h

/-- The helper takes an id, a principal and a stacks list with a newline in them; the bridge
refuses all three. -/
theorem newline_splits_validators :
    (ctlProvValidId ['7', '\n'] = none ∧ parseId ['7', '\n'] "run" = .ok 7) ∧
      (ctlProvValidPrincipal ['7', '\n'] = false ∧ parsePrincipal ['7', '\n'] = .ok ['7', '\n']) ∧
      (ctlProvValidStacks ['a', '\n', ',', 'a'] ctlProvStacksCap = none ∧
        parseStacks ['a', '\n', ',', 'a'] = .ok [['a', '\n'], ['a']]) := by
  refine ⟨⟨?_, ?_⟩, ⟨?_, ?_⟩, ?_, ?_⟩ <;> decide

end SolariNet
