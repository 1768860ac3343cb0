/-
# What a replayed line dispatches

The columns of a queued request are put together into a line, and the line is taken apart again
by the parser of the socket.  Here is what that parser makes of the two lines a replay can handle,
the request itself (`replayLine`) and the confirmation of a decommission (`confirmLine`).
-/
import SolariNet.Ctl.Handle

namespace SolariNet

open List Lib

def lineDispatch (origin : Origin) (line : Bytes) : Option Dispatch :=
  match ctlSplitVerb (ctlTrimLine (cstr line)) 32 with
  | .error _ => none
  | .ok (verb, args) =>
    if ctlPeerMayInvoke origin.peerClass (ctlVerbPrivClass verb) && (ctlCheckRbac verb args).isOk
    then some ⟨origin, verb, handlerOperator verb args, args⟩ else none

def VerbReadsOperator (verb : Bytes) : Prop :=
  ctlVerbRequiresOperator verb = true ∨ verb ∈ [txt "APPROVE", txt "REJECT", txt "CONFIG_SET"]

instance (verb : Bytes) : Decidable (VerbReadsOperator verb) :=
  inferInstanceAs (Decidable (_ ∨ _))

structure Replayable (verb argsWire requestedBy : Bytes) : Prop where
  verb_ne : verb ≠ []
  verb_length : verb.length ≤ 31
  verb_bytes : ∀ c ∈ verb, c ≠ 0
  args_bytes : ∀ c ∈ argsWire, c ≠ 0
  by_ne : requestedBy ≠ []
  by_length : requestedBy.length ≤ 63
  by_bytes : ∀ c ∈ requestedBy, c ≠ 0

/-! ## Lines -/

variable {argsWire line verb : Bytes} {d : Dispatch} {cap n node scope token : Nat}

theorem not_isBlank_of_split (h : ctlSplitVerb line cap = .ok (verb, args)) :
    ∀ c ∈ verb, isBlank c = false := by
  obtain ⟨-, h⟩ := guard_ok.1 h
  obtain ⟨-, h⟩ := guard_ok.1 h
  cases h
  intro c hc
  simpa using mem_takeWhile_imp hc

variable {c : UInt8}

theorem ctlSplitVerb_spaced {rest : Bytes} (hne : verb ≠ [])
    (hblank : ∀ c ∈ verb, isBlank c = false) (hlen : verb.length < cap) (hc : isBlank c = false) :
    ctlSplitVerb (verb ++ 0x20 :: c :: rest) cap = .ok (verb, c :: rest) := by
  have hdrop : (verb ++ 0x20 :: c :: rest).dropWhile isBlank = verb ++ 0x20 :: c :: rest := by
    obtain ⟨v, vs, rfl⟩ := exists_cons_of_ne_nil hne
    exact dropWhile_cons_of_neg (by simp [hblank v mem_cons_self])
  have htake : (verb ++ 0x20 :: c :: rest).takeWhile (fun c => !isBlank c) = verb := by
    rw [takeWhile_append_of_pos (by simpa using hblank),
      takeWhile_cons_of_neg (by decide), append_nil]
  unfold ctlSplitVerb
  simp only [hdrop, htake]
  rw [if_neg (by simp), if_neg (Nat.not_le.2 hlen), drop_left]
  rw [dropWhile_cons_of_pos (by decide), dropWhile_cons_of_neg (by simp [hc])]

def replayArgs (opEnc argsWire : Bytes) : Bytes :=
  txt "op=" ++ (opEnc ++ if argsWire.isEmpty then [] else 0x20 :: argsWire)

variable {opEnc : Bytes}

theorem replayLine_eq (hop : opEnc ≠ []) (verb argsWire : Bytes) :
    replayLine verb opEnc argsWire = verb ++ 0x20 :: replayArgs opEnc argsWire := by
  unfold replayLine replayArgs
  rw [if_neg (by simp [hop])]
  split <;> simp [spaced]

theorem words_argument (key value : Bytes) (hkey : ∀ c ∈ key, isBlank c = false)
    (hvalue : ∀ c ∈ value, isBlank c = false) :
    words isBlank (key ++ 0x3D :: value) = [key ++ 0x3D :: value] ∧
      ∀ rest, words isBlank (key ++ 0x3D :: value ++ 0x20 :: rest) =
        (key ++ 0x3D :: value) :: words isBlank rest := by
  have hword : words isBlank (key ++ 0x3D :: value) = [key ++ 0x3D :: value] := by
    exact words_of_forall
      (forall_mem_append.2 ⟨hkey, forall_mem_cons.2 ⟨by decide, hvalue⟩⟩) (by simp)
  refine ⟨hword, fun rest => ?_⟩
  rw [words_append_cons _ _ (by decide), hword]
  rfl

theorem words_replayArgs (hop : ∀ c ∈ opEnc, isBlank c = false) :
    words isBlank (replayArgs opEnc argsWire) =
      (txt "op" ++ 0x3D :: opEnc) :: words isBlank argsWire := by
  obtain ⟨hword, hspaced⟩ := words_argument (txt "op") opEnc (by decide +kernel) hop
  unfold replayArgs
  split
  · next hargs =>
    rw [List.isEmpty_iff.1 hargs, append_nil]
    exact hword
  · exact hspaced argsWire

theorem trimLine_replayLine (hne : opEnc ≠ [])
    (hop : ∀ c ∈ opEnc, isTrimmed c = false) (verb argsWire : Bytes) :
    ctlTrimLine (replayLine verb opEnc argsWire) =
      replayLine verb opEnc (ctlTrimLine argsWire) := by
  have hhead : ctlTrimLine (verb ++ 0x20 :: (txt "op=" ++ opEnc)) =
      verb ++ 0x20 :: (txt "op=" ++ opEnc) := by
    obtain ⟨init, c, rfl⟩ : ∃ init c, opEnc = init ++ [c] :=
      ⟨_, _, (dropLast_append_getLast hne).symm⟩
    have hlast := trimEnd_concat_of_not (a := verb ++ 0x20 :: (txt "op=" ++ init))
      (hop c (mem_append_right _ mem_cons_self))
    simpa [ctlTrimLine] using hlast
  have hblank : ctlTrimLine (0x20 :: argsWire) =
      if ctlTrimLine argsWire = [] then [] else 0x20 :: ctlTrimLine argsWire :=
    trimEnd_append [0x20] argsWire
  rw [replayLine_eq hne, replayLine_eq hne]
  unfold replayArgs
  by_cases hargs : argsWire = []
  · have hnil : ctlTrimLine [] = [] := rfl
    subst hargs
    simpa [hnil] using hhead
  have hsplit : verb ++ 0x20 :: (txt "op=" ++ (opEnc ++ 0x20 :: argsWire)) =
      (verb ++ 0x20 :: (txt "op=" ++ opEnc)) ++ 0x20 :: argsWire := by
    simp
  rw [if_neg (by simp [hargs]), hsplit, ctlTrimLine, trimEnd_append]
  change (if ctlTrimLine (0x20 :: argsWire) = [] then ctlTrimLine _ else
    _ ++ ctlTrimLine (0x20 :: argsWire)) = _
  rw [hblank, hhead]
  by_cases htrim : ctlTrimLine argsWire = []
  · simp
  · simp

/-! ## The request -/

section
variable {verb argsWire requestedBy : Bytes}

theorem ctlPctEncode_requester (h : requestedBy.length ≤ 63) :
    ctlPctEncode requestedBy 192 = pctEncode isBare requestedBy := by
  have hlen := length_pctEncode_le isBare requestedBy
  exact if_pos (by omega)

theorem splitVerb_replay (h : Replayable verb argsWire requestedBy)
    (hblank : ∀ c ∈ verb, isBlank c = false) :
    ctlSplitVerb (ctlTrimLine (cstr (replayLine verb (pctEncode isBare requestedBy) argsWire))) 32 =
      .ok (verb, replayArgs (pctEncode isBare requestedBy) (ctlTrimLine argsWire)) := by
  have hne : pctEncode isBare requestedBy ≠ [] := pctEncode_ne_nil h.by_ne
  have hzero : ∀ c ∈ replayLine verb (pctEncode isBare requestedBy) argsWire, c ≠ 0 := by
    intro c hc
    simp only [replayLine_eq hne, replayArgs, mem_append, mem_cons] at hc
    rcases hc with hc | rfl | hc | hc | hc
    · exact h.verb_bytes c hc
    · decide
    · exact (show ∀ c ∈ txt "op=", c ≠ 0 by decide +kernel) c hc
    · exact ne_zero_of_encoded hc
    split at hc
    · cases hc
    rcases mem_cons.1 hc with rfl | hc
    · decide
    · exact h.args_bytes c hc
  rw [cstr_of_forall hzero, trimLine_replayLine hne fun _ => not_isTrimmed_of_encoded,
    replayLine_eq hne]
  exact ctlSplitVerb_spaced h.verb_ne hblank (Nat.lt_succ_of_le h.verb_length) (by decide)

def seenOperator (requestedBy : Bytes) : Bytes :=
  if (pctEncode isBare requestedBy).length < 64 then requestedBy else []

theorem handlerOperator_encoded {args : Bytes} {rest : List Bytes}
    (hby : ∀ c ∈ requestedBy, c ≠ 0)
    (hw : words isBlank args = (txt "op" ++ 0x3D :: pctEncode isBare requestedBy) :: rest)
    (verb : Bytes) : handlerOperator verb args =
      if VerbReadsOperator verb then some (seenOperator requestedBy) else none := by
  have hread : ctlArgStr args (txt "op") 64 =
      if 64 < (pctEncode isBare requestedBy).length + 1 then .error .errBufferFull
      else .ok requestedBy := ctlArgStr_encoded (by decide) hby hw
  unfold handlerOperator seenOperator
  by_cases hfit : (pctEncode isBare requestedBy).length < 64
  · rw [if_neg (show ¬ 64 < (pctEncode isBare requestedBy).length + 1 by omega)] at hread
    rw [hread, if_pos hfit]
    rfl
  · rw [if_pos (show 64 < (pctEncode isBare requestedBy).length + 1 by omega)] at hread
    rw [hread, if_neg hfit]
    rfl

theorem confirmSeen_replayArgs (hop : ∀ c ∈ opEnc, isBlank c = false)
    (args : Bytes) : confirmSeen (replayArgs opEnc args) = confirmSeen args :=
  confirmSeen_eq (ctlArgStr_miss (by decide) (by decide) (words_replayArgs hop))

theorem lineDispatch_replay (h : Replayable verb argsWire requestedBy)
    (hblank : ∀ c ∈ verb, isBlank c = false) {reqId : Nat}
    (hd : lineDispatch (.queue reqId)
      (replayLine verb (pctEncode isBare requestedBy) argsWire) = some d) :
    d.origin = .queue reqId ∧ d.verb = verb ∧
      d.operator = (if VerbReadsOperator verb then some (seenOperator requestedBy) else none) ∧
      confirmSeen d.args = confirmSeen (ctlTrimLine argsWire) := by
  have hop : ∀ c ∈ pctEncode isBare requestedBy, isBlank c = false := fun c hc =>
    isBlank_of_not_isTrimmed (not_isTrimmed_of_encoded hc)
  unfold lineDispatch at hd
  rw [splitVerb_replay h hblank] at hd
  obtain ⟨-, hd⟩ := Option.ite_none_right_eq_some.1 hd
  cases hd
  exact ⟨rfl, rfl, handlerOperator_encoded h.by_bytes (words_replayArgs hop) verb,
    confirmSeen_replayArgs hop _⟩

end

theorem not_isBlank_of_dispatch (h : lineDispatch origin line = some d) :
    ∀ c ∈ d.verb, isBlank c = false := by
  unfold lineDispatch at h
  split at h
  · cases h
  next hsplit =>
  obtain ⟨-, h⟩ := Option.ite_none_right_eq_some.1 h
  cases h
  exact not_isBlank_of_split hsplit

/-! ## The confirmation -/

def confirmArgs (node scope token : Nat) : Bytes :=
  spaced [txt "node=" ++ decimal node, txt "scope=0x" ++ hexText scope,
    txt "confirm=" ++ decimal token]

theorem confirmLine_eq (hop : opEnc ≠ []) (node scope token : Nat) :
    confirmLine opEnc node scope token =
      replayLine (txt "DECOMMISSION") opEnc (confirmArgs node scope token) := by
  rw [replayLine_eq hop]
  unfold confirmLine replayArgs confirmArgs
  simp [spaced]

theorem isDecimal_cases (h : isDecimal c = true) :
    c ≠ 0 ∧ c ≠ 0x25 ∧ isTrimmed c = false ∧ isSpace c = false ∧ c ≠ 0x2D ∧ c ≠ 0x2B := by
  have hall : ∀ c : UInt8, isDecimal c = true → c ≠ 0 ∧ c ≠ 0x25 ∧ isTrimmed c = false ∧
      isSpace c = false ∧ c ≠ 0x2D ∧ c ≠ 0x2B := forall_byte (by decide +kernel)
  exact hall c h

theorem strtoull_decimal (n : Nat) : strtoull (decimal n) = unsignedOf false n := by
  have hdigits : ∀ c ∈ decimal n, isDecimal c = true := fun _ => isDecimal_of_mem
  have hsign : splitSign (decimal n) = (false, decimal n) := by
    obtain ⟨c, s, hs⟩ := exists_cons_of_ne_nil (decimal_ne_nil n)
    obtain ⟨-, -, -, hspace, hminus, hplus⟩ := isDecimal_cases (hdigits c (hs ▸ mem_cons_self))
    unfold splitSign
    rw [hs, dropWhile_cons_of_neg (by simp [hspace])]
    simp only
    rw [if_neg hminus, if_neg hplus]
  unfold strtoull
  simp only [hsign]
  rw [if_neg (by simpa [decimal_ne_nil] using hdigits), ofDecimal_decimal]

theorem hexText_bytes (h : c ∈ hexText n) : c ≠ 0 ∧ isBlank c = false := by
  have hdigit : ∀ d < 16, UInt8.ofNat (if d < 10 then d + 48 else d + 87) ≠ 0 ∧
      isBlank (UInt8.ofNat (if d < 10 then d + 48 else d + 87)) = false := by decide
  unfold hexText at h
  split at h
  · rw [mem_singleton.1 h]
    decide
  rw [mem_reverse, mem_map] at h
  obtain ⟨d, hd, rfl⟩ := h
  exact hdigit d (Nat.digits_lt_base (by decide) hd)

theorem not_isBlank_of_decimal (h : c ∈ decimal n) : isBlank c = false :=
  isBlank_of_not_isTrimmed (isDecimal_cases (isDecimal_of_mem h)).2.2.1

theorem confirmSeen_confirmArgs {t : Nat}
    (h : confirmSeen (confirmArgs node scope token) = some t) : t = token := by
  have hhex : ∀ c ∈ txt "0x" ++ hexText scope, isBlank c = false := by
    exact forall_mem_append.2 ⟨by decide +kernel, fun _ hc => (hexText_bytes hc).2⟩
  have hnode := (words_argument (txt "node") (decimal node) (by decide +kernel)
    fun _ => not_isBlank_of_decimal).2
  have hscope := (words_argument (txt "scope") _ (by decide +kernel) hhex).2
  have hconfirm := (words_argument (txt "confirm") (decimal token) (by decide +kernel)
    fun _ => not_isBlank_of_decimal).1
  have hdecimal : cstr (pctDecode (decimal token)) = decimal token := by
    rw [pctDecode_of_forall fun c hc => (isDecimal_cases (isDecimal_of_mem hc)).2.1]
    exact cstr_of_forall fun c hc => (isDecimal_cases (isDecimal_of_mem hc)).1
  have hread : ctlArgStr (confirmArgs node scope token) (txt "confirm") 32 =
      if 32 < (decimal token).length + 1 then .error .errBufferFull else .ok (decimal token) := by
    have hargs : confirmArgs node scope token = txt "node" ++ 0x3D :: decimal node ++ 0x20 ::
        (txt "scope" ++ 0x3D :: (txt "0x" ++ hexText scope) ++ 0x20 ::
          (txt "confirm" ++ 0x3D :: decimal token)) := rfl
    rw [hargs, ctlArgStr_miss (by decide) (show txt "node" ≠ txt "confirm" by decide) (hnode _),
      ctlArgStr_miss (by decide) (show txt "scope" ≠ txt "confirm" by decide) (hscope _),
      ctlArgStr_hit (by decide) hconfirm, hdecimal]
  unfold confirmSeen ctlArgU64 at h
  rw [hread] at h
  by_cases hfit : 32 < (decimal token).length + 1
  · rw [if_pos hfit] at h
    cases h
  rw [if_neg hfit] at h
  simp only [strtoull_decimal, unsignedOf] at h
  by_cases hbig : 2 ^ 64 ≤ token
  · rw [if_pos hbig] at h
    cases h
  rw [if_neg hbig] at h
  simp only [Bool.false_eq_true, if_false] at h
  split at h
  · cases h
  · exact (Option.some.inj h).symm

theorem trimLine_confirmArgs (node scope token : Nat) :
    ctlTrimLine (confirmArgs node scope token) = confirmArgs node scope token := by
  obtain ⟨init, c, hinit⟩ : ∃ init c, decimal token = init ++ [c] :=
    ⟨_, _, (dropLast_append_getLast (decimal_ne_nil token)).symm⟩
  have hc : isDecimal c = true :=
    isDecimal_of_mem (hinit ▸ mem_append_right _ mem_cons_self)
  have hargs : confirmArgs node scope token = (txt "node=" ++ decimal node ++ 0x20 ::
      (txt "scope=0x" ++ hexText scope ++ 0x20 :: (txt "confirm=" ++ init))) ++ [c] := by
    simp [confirmArgs, spaced, hinit]
  rw [hargs]
  exact trimEnd_concat_of_not (isDecimal_cases hc).2.2.1

theorem confirmArgs_bytes (h : c ∈ confirmArgs node scope token) : c ≠ 0 := by
  have htext : ∀ c ∈ txt "node=" ++ txt "scope=0x" ++ txt "confirm=", c ≠ 0 := by decide +kernel
  simp only [mem_append] at htext
  simp only [confirmArgs, spaced, mem_append, mem_cons] at h
  rcases h with (h | h) | rfl | (h | h) | rfl | h | h
  · exact htext c (.inl (.inl h))
  · exact (isDecimal_cases (isDecimal_of_mem h)).1
  · decide
  · exact htext c (.inl (.inr h))
  · exact (hexText_bytes h).1
  · decide
  · exact htext c (.inr h)
  · exact (isDecimal_cases (isDecimal_of_mem h)).1

theorem lineDispatch_confirm (h : Replayable verb argsWire requestedBy)
    {reqId : Nat} (hd : lineDispatch (.queue reqId)
      (confirmLine (pctEncode isBare requestedBy) node scope token) = some d) :
    d.origin = .queue reqId ∧ d.verb = txt "DECOMMISSION" ∧
      d.operator = some (seenOperator requestedBy) ∧
      ∀ t, confirmSeen d.args = some t → t = token := by
  have hr : Replayable (txt "DECOMMISSION") (confirmArgs node scope token) requestedBy :=
    ⟨by decide +kernel, by decide +kernel, by decide +kernel, fun _ => confirmArgs_bytes, h.by_ne,
      h.by_length, h.by_bytes⟩
  rw [confirmLine_eq (pctEncode_ne_nil h.by_ne)] at hd
  obtain ⟨horigin, hverb, hop, hconfirm⟩ := lineDispatch_replay hr (by decide +kernel) hd
  refine ⟨horigin, hverb, hop, fun t ht => ?_⟩
  rw [hconfirm, trimLine_confirmArgs] at ht
  exact confirmSeen_confirmArgs ht

end SolariNet
