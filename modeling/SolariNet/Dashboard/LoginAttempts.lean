/-
# How often a password may be guessed

`Auth::login`: before a password is looked at, `consumeLocalAttempt` enters the attempt in the file
of its account name and source, which lists the attempts of the last 900 seconds, five at most.
The file is read, emptied and written again under a lock:

    lock    check             empty      write k                     verify
            refused, or       file is    the first k bytes of the    `password_verify`, with the
            entered as now    empty      list; all of it grants      lock released

A process can die between any two of these, and a write can stop after any number of bytes.  A
list that was cut short is no JSON, so that every later attempt is refused; a file that was left
empty has forgotten what was in it.
-/
import SolariNet.Dashboard.Dispatch

namespace SolariNet.Dashboard.LoginAttempts

open Lib List

/-! ## The file -/

def jsonEncode (ts : List Nat) : Bytes :=
  0x5B :: ([0x2C].intercalate (ts.map decimal) ++ [0x5D])

def readInt (s : Bytes) : Option Nat :=
  if s ≠ [] ∧ s.all isDecimal = true then some (ofDecimal s) else none

/-- `json_decode` of a list of times, which is never empty; a text of another kind does not get
into the file, and is read as none. -/
def jsonDecode (raw : Bytes) : Option (List Nat) :=
  if raw.head? = some 0x5B ∧ raw.getLast? = some 0x5D then
    (raw.tail.dropLast.splitOn 0x2C).mapM readInt
  else none

/-- An attempt at `t` still counts. -/
def recentAt (now t : Nat) : Bool := now < t + 900 ∧ t ≤ now

/-- The attempts that still count, if there is room for one more. -/
def recent (raw : Bytes) (now : Nat) : Option (List Nat) :=
  let old := jsonDecode raw
  if raw ≠ [] ∧ old = none then none
  else
    let recent := (old.getD []).filter (recentAt now)
    if 5 ≤ recent.length then none else some recent

theorem readInt_decimal (n : Nat) : readInt (decimal n) = some n := by
  have hall : (decimal n).all isDecimal = true := all_eq_true.2 fun c hc => isDecimal_of_mem hc
  rw [readInt, if_pos ⟨decimal_ne_nil n, hall⟩, ofDecimal_decimal]

theorem ne_bracket_of_mem_body (ts : List Nat) :
    ∀ c ∈ [(0x2C : UInt8)].intercalate (ts.map decimal), c ≠ 0x5D := by
  have hdec : ∀ t : Nat, ∀ c ∈ decimal t, c ≠ 0x5D := by
    rintro t c hc rfl
    exact absurd (isDecimal_of_mem hc) (by decide)
  induction ts with
  | nil => simp
  | cons t ts ih =>
    cases ts with
    | nil => simpa using hdec t
    | cons u ts =>
      intro c hc
      rw [map_cons, map_cons, intercalate_cons_cons, ← map_cons, mem_append, mem_append] at hc
      rcases hc with (hc | hc) | hc
      · exact hdec t c hc
      · rw [mem_singleton.1 hc]
        decide
      · exact ih c hc

theorem jsonDecode_encode {ts : List Nat} (hne : ts ≠ []) :
    jsonDecode (jsonEncode ts) = some ts := by
  have hsep : ∀ l ∈ ts.map decimal, (0x2C : UInt8) ∉ l := by
    intro l hl hc
    obtain ⟨t, -, rfl⟩ := mem_map.1 hl
    exact absurd (isDecimal_of_mem hc) (by decide)
  have hread : (ts.map decimal).mapM readInt = some ts := by
    rw [mapM_map]
    have hsome : readInt ∘ decimal = pure := funext readInt_decimal
    rw [hsome, mapM_pure, map_id']
    rfl
  have hlast : (jsonEncode ts).getLast? = some 0x5D := by
    rw [jsonEncode, ← cons_append, getLast?_concat]
  rw [jsonDecode, if_pos ⟨rfl, hlast⟩, jsonEncode, tail_cons, dropLast_concat,
    splitOn_intercalate _ hsep (by simpa using hne), hread]

/-- A list that was cut short is read as none. -/
theorem jsonDecode_take {ts : List Nat} {k : Nat} (h0 : k ≠ 0) (hk : k < (jsonEncode ts).length) :
    jsonDecode ((jsonEncode ts).take k) = none := by
  obtain ⟨k, rfl⟩ := Nat.exists_eq_succ_of_ne_zero h0
  have hlast : ((jsonEncode ts).take (k + 1)).getLast? ≠ some 0x5D := by
    have hle : k ≤ ([(0x2C : UInt8)].intercalate (ts.map decimal)).length := by
      simpa [jsonEncode] using hk
    rw [jsonEncode, take_succ_cons, take_append_of_le_length hle]
    intro h
    rcases mem_cons.1 (mem_of_getLast? h) with h | h
    · exact absurd h (by decide)
    · exact ne_bracket_of_mem_body ts _ (mem_of_mem_take h) rfl
  rw [jsonDecode, if_neg fun h => hlast h.2]

/-! ## The steps -/

/-- The file an attempt is entered in, before its name is hashed. -/
def rateKey (username source : CStr) : CStr := strtolower (trim username) ++ '\n' :: source

/-- A login that is entered in one file: one account name, up to case and surrounding blanks, and
one source. -/
structure Attempt (key : CStr) where
  username : CStr
  source : CStr
  password : CStr
  entered : rateKey username source = key

/-- Whether `verifyLocal` comes to `password_verify`; `users` are the names and hashes of the
credential file. -/
def Attempt.verifies {key : CStr} (a : Attempt key) (users : List (CStr × CStr)) : Bool :=
  trim a.username ≠ [] && a.password ≠ [] &&
    (users.find? fun u => u.1 = trim a.username).any fun u => u.2 ≠ []

/-- Where the holder of the lock is: `recent` and `now` are what it is about to write. -/
inductive Held where
  | locked
  | checked (recent : List Nat) (now : Nat)
  | emptied (recent : List Nat) (now : Nat)

/-- The file and its lock, the attempts that were granted and are still to be verified, when
attempts were granted, and for each verification when it was granted and made. -/
structure World (key : CStr) where
  now : Nat
  file : Bytes := []
  lock : Option (Attempt key × Held) := none
  pending : List (Attempt key × Nat) := []
  granted : List Nat := []
  verified : List (Nat × Nat) := []

inductive Event (key : CStr) where
  | tick (seconds : Nat)
  | lock (a : Attempt key)
  | check
  | empty
  | write (k : Nat)
  /-- The holder of the lock dies or gives up. -/
  | die
  | verify (k : Nat) (users : List (CStr × CStr))
  /-- An attempt dies that was granted. -/
  | drop (k : Nat)

variable {key : CStr}

def step (s : World key) : Event key → Option (World key)
  | .tick d => some { s with now := s.now + d }
  | .lock a => if s.lock.isNone then some { s with lock := some (a, .locked) } else none
  | .check =>
    match s.lock with
    | some (a, .locked) =>
      some { s with lock := (recent s.file s.now).map fun r => (a, .checked r s.now) }
    | _ => none
  | .empty =>
    match s.lock with
    | some (a, .checked r t) => some { s with file := [], lock := some (a, .emptied r t) }
    | _ => none
  | .write k =>
    match s.lock with
    | some (a, .emptied r t) =>
      let bytes := jsonEncode (r ++ [t])
      if k < bytes.length then some { s with file := bytes.take k, lock := none }
      else some { s with
        file := bytes, lock := none, pending := (a, t) :: s.pending, granted := s.granted ++ [t] }
    | _ => none
  | .die => if s.lock.isSome then some { s with lock := none } else none
  | .verify k users =>
    s.pending[k]?.map fun p => { s with
      pending := s.pending.eraseIdx k
      verified := if p.1.verifies users then (p.2, s.now) :: s.verified else s.verified }
  | .drop k => some { s with pending := s.pending.eraseIdx k }

/-- How many passwords were verified in the `span` seconds from `a` on. -/
def World.guesses (s : World key) (a span : Nat) : Nat :=
  s.verified.countP fun p => a ≤ p.2 ∧ p.2 < a + span

def Runs (P : World key → Event key → Prop) : World key → World key → Prop :=
  Relation.ReflTransGen fun s s' => ∃ e, P s e ∧ step s e = some s'

/-- Some of the list reaches the file once that is empty, and a password is verified at most `d`
seconds after its attempt was entered. -/
def Timely (d : Nat) (s : World key) : Event key → Prop
  | .write k => k ≠ 0
  | .die => ∀ a r t, s.lock ≠ some (a, .emptied r t)
  | .verify k _ => ∀ p ∈ s.pending[k]?, s.now ≤ p.2 + d
  | _ => True

/-! ## What the file remembers -/

section
variable (granted : List Nat) (now : Nat)

/-- The file lists what still counts, or no attempt gets past it. -/
def Remembers (file : Bytes) : Prop :=
  (file ≠ [] ∧ jsonDecode file = none) ∨ ∀ n, now ≤ n →
    ((jsonDecode file).getD []).filter (recentAt n) = granted.filter (recentAt n)

/-- `r` are the attempts that count at `t`, and there is room for one more. -/
structure Current (r : List Nat) (t : Nat) : Prop where
  past : ∀ x ∈ granted, x ≤ t
  now : t ≤ now
  eq : r = granted.filter (recentAt t)
  room : r.length < 5

/-- What the holder of the lock knows, and what the next one will find in the file. -/
def Holds (file : Bytes) : Option (Attempt key × Held) → Prop
  | none | some (_, .locked) => Remembers granted now file
  | some (_, .checked r t) => Remembers granted now file ∧ Current granted now r t
  | some (_, .emptied r t) => Current granted now r t

end

variable {granted r : List Nat} {now t k d : Nat} {file : Bytes}

theorem Holds.later {l : Option (Attempt key × Held)} {n : Nat} (h : Holds granted now file l)
    (hle : now ≤ n) : Holds granted n file l := by
  have hrem : Remembers granted now file → Remembers granted n file :=
    Or.imp_right fun hr m hm => hr m (hle.trans hm)
  have hcur : ∀ {r t}, Current granted now r t → Current granted n r t :=
    fun hc => ⟨hc.past, hc.now.trans hle, hc.eq, hc.room⟩
  rcases l with _ | ⟨a, _ | _ | _⟩
  · exact hrem h
  · exact hrem h
  · exact ⟨hrem h.1, hcur h.2⟩
  · exact hcur h

theorem Remembers.current (h : Remembers granted now file) (hpast : ∀ x ∈ granted, x ≤ now)
    (hr : recent file now = some r) : Current granted now r now := by
  unfold recent at hr
  simp only at hr
  split at hr
  · cases hr
  next hjson =>
  split at hr
  · cases hr
  next hroom =>
  cases hr
  rcases h with h | h
  · exact absurd h hjson
  · exact ⟨hpast, le_rfl, h _ le_rfl, Nat.lt_of_not_le hroom⟩

/-- One more is granted: what was granted in a window with it still counted when it was checked. -/
theorem Current.bound (h : Current granted now r t)
    (hb : ∀ a, granted.countP (fun x => a ≤ x ∧ x < a + 900) ≤ 5) (a : Nat) :
    (granted ++ [t]).countP (fun x => a ≤ x ∧ x < a + 900) ≤ 5 := by
  rw [countP_append, countP_singleton]
  split
  · next hin =>
    have hle : granted.countP (fun x => a ≤ x ∧ x < a + 900) ≤ granted.countP (recentAt t) := by
      refine countP_mono_left fun x hx hw => ?_
      have := h.past x hx
      simp only [recentAt, decide_eq_true_eq] at hin hw ⊢
      omega
    have hroom := h.room
    rw [h.eq, ← countP_eq_length_filter] at hroom
    omega
  · exact hb a

theorem Current.remembers (h : Current granted now r t) :
    Remembers (granted ++ [t]) now (jsonEncode (r ++ [t])) := by
  refine .inr fun n hn => ?_
  have hfilter : (granted.filter (recentAt t)).filter (recentAt n) =
      granted.filter (recentAt n) := by
    rw [filter_filter]
    refine filter_congr fun x hx => ?_
    have hx := h.past x hx
    have ht := h.now
    simp only [recentAt, ← Bool.decide_and, decide_eq_decide]
    omega
  rw [jsonDecode_encode (by simp), Option.getD_some, filter_append, filter_append, h.eq, hfilter]

/-! ## Runs -/

variable {s s' : World key}

/-- The invariant: the grants keep to the bound, and each is used for one verification at most. -/
structure Sound (d : Nat) (s : World key) : Prop where
  past : ∀ x ∈ s.granted, x ≤ s.now
  bound : ∀ a, s.granted.countP (fun x => a ≤ x ∧ x < a + 900) ≤ 5
  once : s.verified.map Prod.fst ++ s.pending.map Prod.snd <+~ s.granted
  late : ∀ p ∈ s.verified, p.1 ≤ p.2 ∧ p.2 ≤ p.1 + d
  held : Holds s.granted s.now s.file s.lock

theorem Sound.write (h : Sound d s) (hl : s.lock = some (a, .emptied r t))
    (hk : k ≠ 0) (hs : step s (.write k) = some s') : Sound d s' := by
  have hcur : Current s.granted s.now r t := by
    have hheld := h.held
    rwa [hl] at hheld
  simp only [step, hl] at hs
  split at hs
  · next hlt =>
    cases hs
    exact ⟨h.past, h.bound, h.once, h.late, .inl ⟨by simp [jsonEncode, hk], jsonDecode_take hk hlt⟩⟩
  · cases hs
    refine ⟨fun x hx => ?_, hcur.bound h.bound, ?_, h.late, hcur.remembers⟩
    · rcases mem_append.1 hx with hx | hx
      · exact h.past x hx
      · exact mem_singleton.1 hx ▸ hcur.now
    · exact perm_middle.subperm.trans
        (((subperm_cons t).2 h.once).trans (perm_append_singleton t s.granted).symm.subperm)

theorem Sound.step {e : Event key} (h : Sound d s) (he : Timely d s e)
    (hs : step s e = some s') : Sound d s' := by
  have hheld := h.held
  cases e with
  | tick k =>
    cases hs
    have hle := Nat.le_add_right s.now k
    exact ⟨fun x hx => (h.past x hx).trans hle, h.bound, h.once, h.late, Holds.later hheld hle⟩
  | lock a =>
    obtain ⟨hfree, ⟨⟩⟩ := Option.ite_none_right_eq_some.1 hs
    rw [Option.isNone_iff_eq_none.1 hfree] at hheld
    exact ⟨h.past, h.bound, h.once, h.late, hheld⟩
  | check =>
    simp only [LoginAttempts.step] at hs
    split at hs
    · next a hl =>
      cases hs
      rw [hl] at hheld
      refine ⟨h.past, h.bound, h.once, h.late, ?_⟩
      simp only
      cases hr : recent s.file s.now with
      | none => exact hheld
      | some r => exact ⟨hheld, hheld.current h.past hr⟩
    · cases hs
  | empty =>
    simp only [LoginAttempts.step] at hs
    split at hs
    · next a r t hl =>
      cases hs
      rw [hl] at hheld
      exact ⟨h.past, h.bound, h.once, h.late, hheld.2⟩
    · cases hs
  | write k =>
    cases hl : s.lock with
    | none => simp [LoginAttempts.step, hl] at hs
    | some p =>
      obtain ⟨a, _ | _ | ⟨r, t⟩⟩ := p
      · simp [LoginAttempts.step, hl] at hs
      · simp [LoginAttempts.step, hl] at hs
      · exact h.write hl he hs
  | die =>
    obtain ⟨-, ⟨⟩⟩ := Option.ite_none_right_eq_some.1 hs
    refine ⟨h.past, h.bound, h.once, h.late, ?_⟩
    cases hl : s.lock with
    | none => rwa [hl] at hheld
    | some p =>
      obtain ⟨a, _ | _ | ⟨r, t⟩⟩ := p
      · rwa [hl] at hheld
      · rw [hl] at hheld
        exact hheld.1
      · exact absurd hl (he a r t)
  | verify k users =>
    obtain ⟨p, hp, rfl⟩ := Option.map_eq_some_iff.1 hs
    obtain ⟨hk, hp'⟩ := List.getElem?_eq_some_iff.1 hp
    have hperm : p :: s.pending.eraseIdx k ~ s.pending := hp' ▸ getElem_cons_eraseIdx_perm hk
    have hmove : p.2 :: (s.verified.map Prod.fst ++ (s.pending.eraseIdx k).map Prod.snd) <+~
        s.granted := (perm_middle.symm.trans
          ((hperm.map Prod.snd).append_left _)).subperm.trans h.once
    have hgranted : p.2 ∈ s.granted := hmove.subset mem_cons_self
    refine ⟨h.past, h.bound, ?_, fun q hq => ?_, hheld⟩
    · simp only
      split
      · exact hmove
      · exact (sublist_cons_self _ _).subperm.trans hmove
    · simp only at hq
      split at hq
      · rcases mem_cons.1 hq with rfl | hq
        · exact ⟨h.past _ hgranted, he p hp⟩
        · exact h.late q hq
      · exact h.late q hq
  | drop k =>
    cases hs
    have hsub := (eraseIdx_sublist s.pending k).map Prod.snd
    exact ⟨h.past, h.bound, ((hsub.append_left _).subperm).trans h.once, h.late, hheld⟩

/-- **Five guesses in 900 seconds**, less the time a password waits for its verification, as long
as no attempt leaves the file empty. -/
theorem guesses_bounded {n : Nat} (hruns : Runs (Timely d) { now := n } s) (a : Nat) :
    s.guesses a (900 - d) ≤ 5 := by
  have h : Sound d s := by
    induction hruns with
    | refl => exact ⟨nofun, fun _ => by simp, by simp, nofun, .inr fun _ _ => rfl⟩
    | tail _ hstep ih =>
      obtain ⟨e, he, hs⟩ := hstep
      exact ih.step he hs
  calc s.guesses a (900 - d)
      ≤ s.verified.countP ((fun x => decide (a - d ≤ x ∧ x < a - d + 900)) ∘ Prod.fst) := by
        refine countP_mono_left fun p hp hin => ?_
        have hlate := h.late p hp
        simp only [Function.comp, decide_eq_true_eq] at hin ⊢
        omega
    _ = (s.verified.map Prod.fst).countP fun x => a - d ≤ x ∧ x < a - d + 900 := by
        rw [countP_map]
    _ ≤ s.granted.countP fun x => a - d ≤ x ∧ x < a - d + 900 :=
        ((sublist_append_left _ _).subperm.trans h.once).countP_le _
    _ ≤ 5 := h.bound _

instance (d : Nat) (s : World key) : (e : Event key) → Decidable (Timely d s e)
  | .write k => inferInstanceAs (Decidable (k ≠ 0))
  | .verify k _ => inferInstanceAs (Decidable (∀ p ∈ s.pending[k]?, s.now ≤ p.2 + d))
  | .die => match h : s.lock with
    | some (_, .emptied _ _) => isFalse fun hn => hn _ _ _ h
    | none | some (_, .locked) | some (_, .checked _ _) => isTrue fun _ _ _ => by simp [h]
  | .tick _ | .lock _ | .check | .empty | .drop _ => isTrue trivial

/-- A step that `P` allows. -/
def stepIf (P : World key → Event key → Prop) [∀ s e, Decidable (P s e)] (s : World key)
    (e : Event key) : Option (World key) :=
  if P s e then step s e else none

theorem runs_of_foldlM {P : World key → Event key → Prop} [∀ s e, Decidable (P s e)]
    {es : List (Event key)} (h : es.foldlM (stepIf P) s = some s') : Runs P s s' := by
  induction es generalizing s with
  | nil =>
    cases h
    exact .refl
  | cons e es ih =>
    obtain ⟨mid, he, h⟩ := Option.bind_eq_some_iff.1 h
    exact .head ⟨e, Option.ite_none_right_eq_some.1 he⟩ (ih h)

def home : CStr := "a\n::1".toList

def quiet : World home := { now := 1000 }

def guess : Attempt home := ⟨" A".toList, "::1".toList, ['x'], by decide⟩

/-- `n` attempts that get as far as to empty the file, with what each does next. -/
def attempts (n : Nat) (next : List (Event home)) : List (Event home) :=
  (replicate n ([.lock guess, .check, .empty] ++ next)).flatten

def verify : Event home := .verify 0 [(['A'], ['h'])]

/-- Five passwords are verified within five minutes, and the sixth attempt is refused. -/
theorem guesses_bounded_sixth : ∃ s, Runs (Timely 0) quiet s ∧ s.verified.length = 5 ∧
    (s.granted.length = 5 ∧ s.lock.isNone = true) ∧ s.guesses 1000 900 ≤ 5 := by
  have hplay : ((attempts 3 [.write 99, verify] ++ [Event.tick 300] ++
      attempts 2 [.write 99, verify] ++ [Event.lock guess, Event.check]).foldlM
        (stepIf (Timely 0)) quiet).map (fun s : World home =>
          (s.verified.length, s.granted.length, s.lock.isNone)) = some (5, 5, true) := by
    decide +kernel
  obtain ⟨s, hs, hplay⟩ := Option.map_eq_some_iff.1 hplay
  rw [Prod.mk.injEq, Prod.mk.injEq] at hplay
  obtain ⟨hverified, hrefused⟩ := hplay
  exact ⟨s, runs_of_foldlM hs, hverified, hrefused, guesses_bounded (runs_of_foldlM hs) _⟩

/-- An attempt dies with the file empty after four, and five more follow; and five passwords that
have waited for 899 seconds are verified with five that are entered then. -/
theorem guesses_past_five : (∃ s, Runs (fun _ _ => True) quiet s ∧ s.guesses 1000 1 = 9) ∧
      ∃ s, Runs (fun _ _ => True) quiet s ∧ s.guesses 1899 2 = 10 := by
  have hdie : ((attempts 4 [.write 99, verify] ++ attempts 1 [.die] ++
      attempts 5 [.write 99, verify]).foldlM (stepIf fun _ _ => True) quiet).map
        (World.guesses · 1000 1) = some 9 := by
    decide +kernel
  have hwait : ((attempts 5 [.write 99] ++ [Event.tick 899] ++ replicate 5 verify ++
      [Event.tick 1] ++ attempts 5 [.write 99, verify]).foldlM (stepIf fun _ _ => True)
        quiet).map (World.guesses · 1899 2) = some 10 := by
    decide +kernel
  obtain ⟨s, hs, hdie⟩ := Option.map_eq_some_iff.1 hdie
  obtain ⟨s', hs', hwait⟩ := Option.map_eq_some_iff.1 hwait
  exact ⟨⟨s, runs_of_foldlM hs, hdie⟩, s', runs_of_foldlM hs', hwait⟩

end SolariNet.Dashboard.LoginAttempts
