/-
# The text of the control socket

The pure helpers of `solariCtl.c`.  A request is a line `VERB k=v k=v …`; values are percent
coded.  A buffer of `cap` bytes holds at most `cap - 1` and a terminator.
-/
import SolariNet.Lib.Text
import SolariNet.Wire.Basic

namespace SolariNet

open List Lib

def ctlReqCap : Nat := 16384

def txt (s : String) : Bytes := s.toList.map fun c => UInt8.ofNat c.toNat

/-- What a C string holds: the bytes before the first zero. -/
def cstr (s : Bytes) : Bytes := s.takeWhile (· ≠ 0)

def isBlank (c : UInt8) : Bool := c == 0x20 || c == 0x09

def isTrimmed (c : UInt8) : Bool := c == 0x0A || c == 0x0D || c == 0x20 || c == 0x09

def ctlTrimLine (s : Bytes) : Bytes := trimEnd isTrimmed s

def isBare (c : UInt8) : Bool :=
  (0x41 ≤ c && c ≤ 0x5A) || (0x61 ≤ c && c ≤ 0x7A) || (0x30 ≤ c && c ≤ 0x39) ||
    c ∈ txt "._:/@-"

def ctlPctEncode (s : Bytes) (cap : Nat) : Bytes :=
  if (pctEncode isBare s).length < cap then pctEncode isBare s else []

/-! ## Arguments -/

def hasKey (key word : Bytes) : Bool :=
  word.contains 0x3D && word.takeWhile (· ≠ 0x3D) == key

def ctlArgStr (args key : Bytes) (cap : Nat) : Except Status Bytes :=
  match (words isBlank args).find? (hasKey key) with
  | none => .error .errTlvEnd
  | some word =>
    let value := word.drop (key.length + 1)
    if cap < value.length + 1 then .error .errBufferFull else .ok (cstr (pctDecode value))

def ctlArgRawSpan (args key : Bytes) : Option Bytes :=
  ((words isBlank args).find? (hasKey key)).map fun word => word.drop (key.length + 1)

def escapes : Bytes → Nat
  | [] | [_] | [_, _] => 0
  | c :: a :: b :: rest =>
    if c = 0x25 ∧ (hexVal a).isSome ∧ (hexVal b).isSome then escapes rest + 1
    else escapes (a :: b :: rest)

def ctlArgStrStrict (args key : Bytes) (cap : Nat) : Except Status Bytes :=
  match ctlArgStr args key cap with
  | .error st => .error st
  | .ok out =>
    match ctlArgRawSpan args key with
    | none => .error .errInvalidArg
    | some raw =>
      if out.length ≠ raw.length - 2 * escapes raw then .error .errInvalidArg else .ok out

def isSpace (c : UInt8) : Bool := c == 0x20 || (0x09 ≤ c && c ≤ 0x0D)

def splitSign (s : Bytes) : Bool × Bytes :=
  match s.dropWhile isSpace with
  | [] => (false, [])
  | c :: rest =>
    if c = 0x2D then (true, rest) else if c = 0x2B then (false, rest) else (false, c :: rest)

def unsignedOf (negative : Bool) (v : Nat) : Option Nat :=
  if 2 ^ 64 ≤ v then none else some (if negative then (2 ^ 64 - v) % 2 ^ 64 else v)

/-- `strtoull(s, &end, 10)` with `errno` and `end` checked. -/
def strtoull (s : Bytes) : Option Nat :=
  let n := splitSign s
  if n.2.isEmpty || !n.2.all isDecimal then none else unsignedOf n.1 (ofDecimal n.2)

def ctlArgU64 (args key : Bytes) : Except Status Nat :=
  match ctlArgStr args key 32 with
  | .error st => .error st
  | .ok buf =>
    match strtoull buf with
    | none => .error .errInvalidArg
    | some v => .ok v

def dropHexPrefix : Bytes → Bytes
  | 0x30 :: 0x78 :: rest | 0x30 :: 0x58 :: rest => rest
  | s => s

def ofHex (s : Bytes) : Option Nat :=
  (s.mapM hexVal).map fun ds => ds.foldl (fun v d => v * 16 + d.toNat) 0

/-- `strtoul(s, &end, 16)` with `errno` and `end` checked; it takes a `0x` of its own, and an empty
string for a number. -/
def strtoulHex (s : Bytes) : Option Nat :=
  if s.isEmpty then some 0
  else
    let n := splitSign s
    let digits := dropHexPrefix n.2
    if digits.isEmpty then none else (ofHex digits).bind (unsignedOf n.1)

def ctlArgU32Hex (args key : Bytes) : Except Status Nat :=
  match ctlArgStr args key 32 with
  | .error st => .error st
  | .ok buf =>
    if buf.isEmpty then .error .errInvalidArg
    else
      match strtoulHex (dropHexPrefix buf) with
      | none => .error .errInvalidArg
      | some v => .ok (v % 2 ^ 32)

def ctlSplitVerb (line : Bytes) (verbCap : Nat) : Except Status (Bytes × Bytes) :=
  let p := line.dropWhile isBlank
  if p.isEmpty then .error .errInvalidArg
  else
    let verb := p.takeWhile fun c => !isBlank c
    if verbCap ≤ verb.length then .error .errBufferFull
    else .ok (verb, (p.drop verb.length).dropWhile isBlank)

/-! ## Verbs and peers -/

def ctlVerbIsDestructive (verb : Bytes) : Bool :=
  verb ∈ [txt "DECOMMISSION", txt "RETIRE", txt "SIGN", txt "REVOKE_CERT", txt "DEPLOY",
    txt "FLEET_PROVISION", txt "FLEET_IMAGE", txt "IMAGE_REFRESH", txt "PROV_STAGE",
    txt "STACK_APPLY", txt "FLEET_UPDATES", txt "DISCOVER", txt "ENROLL_TOKEN",
    txt "ASSET_REMOVE", txt "TARGET_REMOVE", txt "LIFECYCLE_SET", txt "ASSET_PURGE",
    txt "POOL_DEL", txt "RULE_DEL"]

def ctlVerbRequiresOperator (verb : Bytes) : Bool :=
  ctlVerbIsDestructive verb ||
    verb ∈ [txt "ALERT_ACK", txt "CRIT_SET", txt "DISCOVER_STATUS", txt "REQUEST_GET"]

def ctlVerbMayRunOnStandby (verb : Bytes) : Bool :=
  verb ∈ [txt "PING", txt "REQUEST_GET", txt "DISCOVER_STATUS"]

inductive VerbClass where
  | ordinary
  | enqueue
  | privileged
  deriving DecidableEq, Repr

def ctlVerbIsDashboardOrdinary (verb : Bytes) : Bool :=
  verb ∈ [txt "PING", txt "DISCOVER_STATUS", txt "SURVEY", txt "ADOPT", txt "ASSET_SET",
    txt "ASSET_CREATE", txt "IGNORE", txt "POOL_NEW", txt "POOL_SET", txt "RULE_SET",
    txt "ALERT_ACK", txt "CRIT_SET", txt "ENROLL_SUBMIT", txt "ENROLL_ACK"]

def ctlVerbPrivClass (verb : Bytes) : VerbClass :=
  if verb ∈ [txt "REQUEST_SUBMIT", txt "REQUEST_GET"] then .enqueue
  else if ctlVerbIsDashboardOrdinary verb then .ordinary
  else .privileged

inductive PeerClass where
  | unknown
  | dashboard
  | operator
  deriving DecidableEq, Repr

def ctlPeerMayInvoke (peer : PeerClass) (vc : VerbClass) : Bool :=
  match peer with
  | .operator => true
  | .dashboard => vc != .privileged
  | .unknown => false

def ctlCheckRbac (verb args : Bytes) : Except Status Bytes :=
  if !ctlVerbRequiresOperator verb then .ok []
  else
    match ctlArgStr args (txt "op") 64 with
    | .error _ => .error .errAuthRole
    | .ok op => if op.isEmpty then .error .errAuthRole else .ok op

/-- The operator the branch of a verb works with; some verbs read it by themselves. -/
def handlerOperator (verb args : Bytes) : Option Bytes :=
  if ctlVerbRequiresOperator verb ∨ verb ∈ [txt "APPROVE", txt "REJECT", txt "CONFIG_SET"] then
    some (match ctlArgStr args (txt "op") 64 with
      | .error _ => []
      | .ok op => op)
  else none

def confirmSeen (args : Bytes) : Option Nat :=
  match ctlArgU64 args (txt "confirm") with
  | .error _ => none
  | .ok v => if v = 0 then none else some v

/-! ## Reading what was put together -/

theorem length_pctDecode (s : Bytes) : (pctDecode s).length + 2 * escapes s = s.length := by
  induction s using pctDecode.induct with
  | case1 | case2 | case3 => rfl
  | case4 a b rest hi lo hhi hlo ih =>
    rw [pctDecode, if_pos rfl, hhi, hlo, escapes, if_pos (by simp [hhi, hlo])]
    simp only [length_cons]
    omega
  | case5 a b rest hno ih =>
    have hesc : ¬ ((0x25 : UInt8) = 0x25 ∧ (hexVal a).isSome ∧ (hexVal b).isSome) := by
      rintro ⟨-, ha, hb⟩
      obtain ⟨hi, hhi⟩ := Option.isSome_iff_exists.1 ha
      obtain ⟨lo, hlo⟩ := Option.isSome_iff_exists.1 hb
      exact hno hi lo hhi hlo
    rw [pctDecode, if_pos rfl, escapes, if_neg hesc]
    split
    · next hi lo hhi hlo => exact absurd hlo (hno hi lo hhi)
    · simp only [length_cons] at ih ⊢
      omega
  | case6 c a b rest hc ih =>
    rw [pctDecode, if_neg hc, escapes, if_neg (fun h => hc h.1)]
    simp only [length_cons] at ih ⊢
    omega

variable {args key value s : Bytes} {cap : Nat}

theorem ctlArgStr_length (h : ctlArgStr args key cap = .ok value) : value.length < cap := by
  unfold ctlArgStr at h
  split at h
  · cases h
  next word _ =>
  simp only at h
  split at h
  · cases h
  cases h
  have hc : (cstr (pctDecode (word.drop (key.length + 1)))).length ≤
      (pctDecode (word.drop (key.length + 1))).length := (takeWhile_sublist _).length_le
  have hd := length_pctDecode (word.drop (key.length + 1))
  omega

theorem ctlArgStr_bytes (h : ctlArgStr args key cap = .ok value) : ∀ c ∈ value, c ≠ 0 := by
  unfold ctlArgStr at h
  split at h
  · cases h
  simp only at h
  split at h
  · cases h
  · cases h
    exact fun c hc => by simpa using mem_takeWhile_imp hc

theorem confirmSeen_eq
    (h : ctlArgStr args (txt "confirm") 32 = ctlArgStr args' (txt "confirm") 32) :
    confirmSeen args = confirmSeen args' := by
  unfold confirmSeen ctlArgU64
  rw [h]

theorem hasKey_append (hkey : 0x3D ∉ key) (key' : Bytes) :
    hasKey key' (key ++ 0x3D :: value) = decide (key = key') := by
  have hne : ∀ c ∈ key, decide (c ≠ 0x3D) = true := by
    intro c hc
    simp only [decide_eq_true_eq]
    rintro rfl
    exact hkey hc
  have htake : (key ++ 0x3D :: value).takeWhile (· ≠ 0x3D) = key := by
    rw [takeWhile_append_of_pos hne, takeWhile_cons_of_neg (by simp), append_nil]
  unfold hasKey
  rw [htake, contains_iff_mem.2 (mem_append_right _ mem_cons_self)]
  exact beq_eq_decide key key'

theorem ctlArgStr_hit {rest : List Bytes} (hkey : 0x3D ∉ key)
    (hw : words isBlank args = (key ++ 0x3D :: value) :: rest) :
    ctlArgStr args key cap =
      if cap < value.length + 1 then .error .errBufferFull else .ok (cstr (pctDecode value)) := by
  have hdrop : (key ++ 0x3D :: value).drop (key.length + 1) = value := by
    rw [← drop_drop, drop_left]
    rfl
  unfold ctlArgStr
  rw [hw, List.find?_cons_of_pos (by rw [hasKey_append hkey]; simp)]
  simp only [hdrop]

theorem ctlArgStr_miss {args' key' : Bytes} (hkey : 0x3D ∉ key) (hne : key ≠ key')
    (hw : words isBlank args = (key ++ 0x3D :: value) :: words isBlank args') :
    ctlArgStr args key' cap = ctlArgStr args' key' cap := by
  unfold ctlArgStr
  rw [hw, List.find?_cons_of_neg (by rw [hasKey_append hkey]; simpa using hne)]

/-! ### The bytes of an encoded value -/

theorem of_mem_encoded {P : UInt8 → Prop} (hbare : ∀ c, isBare c = true → P c) (hpct : P 0x25)
    (hhex : ∀ c < 16, P (hexDigit c)) {c : UInt8} (h : c ∈ pctEncode isBare s) : P c := by
  rcases mem_pctEncode h with hc | rfl | ⟨n, hn, rfl⟩
  · exact hbare c hc
  · exact hpct
  · exact hhex n hn

theorem not_isTrimmed_of_encoded {c : UInt8} (h : c ∈ pctEncode isBare s) : isTrimmed c = false :=
  of_mem_encoded (P := fun c => isTrimmed c = false) (forall_byte (by decide +kernel)) (by decide)
    (forall_byte (by decide +kernel)) h

theorem ne_zero_of_encoded {c : UInt8} (h : c ∈ pctEncode isBare s) : c ≠ 0 :=
  of_mem_encoded (P := fun c => c ≠ 0) (forall_byte (by decide +kernel)) (by decide)
    (forall_byte (by decide +kernel)) h

theorem isBlank_of_not_isTrimmed {c : UInt8} (h : isTrimmed c = false) : isBlank c = false := by
  unfold isTrimmed at h
  unfold isBlank
  simp only [Bool.or_eq_false_iff] at h ⊢
  exact ⟨h.1.2, h.2⟩

theorem cstr_of_forall (h : ∀ c ∈ s, c ≠ 0) : cstr s = s := by
  unfold cstr
  simpa using h

theorem ctlArgStr_encoded {rest : List Bytes} (hkey : 0x3D ∉ key) (hs : ∀ c ∈ s, c ≠ 0)
    (hw : words isBlank args = (key ++ 0x3D :: pctEncode isBare s) :: rest) :
    ctlArgStr args key cap =
      if cap < (pctEncode isBare s).length + 1 then .error .errBufferFull else .ok s := by
  rw [ctlArgStr_hit hkey hw, pctDecode_encode (by decide), cstr_of_forall hs]

end SolariNet
