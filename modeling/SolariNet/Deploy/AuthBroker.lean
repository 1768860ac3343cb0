/-
# The approval broker

`deploy/authbroker/authbrokerd.py`.  A request for approval is published to a device, which
answers with a signed response.  Both are authenticated over canonical bytes,

    request     a domain, then eleven fields, each behind its length
    response    another domain, then six fields, the last of them the digest of the request

and `Broker.request` waits, in a thread of its own, for the network thread to resolve it.

What a thread does to the broker's state is one operation of a `Prog` each: a turn under the
lock, a reading of the clock, waiting for the event of a request.  Signatures, SHA-256 and JSON
are those of a `Config`.
-/
import SolariNet.Lib.Prog
import SolariNet.Lib.Table
import SolariNet.Lib.Text
import SolariNet.Wire.Basic

namespace SolariNet.AuthBroker

open Lib

/-! ## Canonical bytes -/

def ascii (s : String) : Bytes := s.toList.map fun c => UInt8.ofNat c.toNat

def utf8 (s : String) : Bytes := s.toUTF8.data.toList

theorem utf8_injective : Function.Injective utf8 := by
  intro s t h
  exact String.toByteArray_inj.1 (ByteArray.ext (Array.toList_inj.1 h))

def protoVersion : Nat := 2
def requestDomain : Bytes := ascii "SOLARI-AUTH-REQUEST" ++ [0, 2]
def responseDomain : Bytes := ascii "SOLARI-AUTH-RESPONSE" ++ [0, 2]

def canonicalFields (domain : Bytes) (values : List Bytes) : Except String Bytes :=
  if ∀ v ∈ values, v.length ≤ 0xFFFFFFFF then .ok (domain ++ fields 4 values)
  else .error "canonical field too large"

variable {b : Bytes} {domain : Bytes} {e : Envelope} {values : List Bytes} {v : Nat} {x : PyVal}
  {c d i n q s : String}

theorem canonicalFields_ok (h : canonicalFields domain values = .ok b) :
    b = domain ++ fields 4 values ∧ ∀ v ∈ values, v.length < 256 ^ 4 := by
  unfold canonicalFields at h
  split at h
  · next hlen =>
    cases h
    exact ⟨rfl, fun v hv => lt_of_le_of_lt (hlen v hv) (by decide)⟩
  · cases h

theorem canonicalFields_inj {values' : List Bytes} (h : canonicalFields domain values = .ok b)
    (h' : canonicalFields domain values' = .ok b) :
    values = values' := by
  obtain ⟨hb, hlen⟩ := canonicalFields_ok h
  obtain ⟨hb', hlen'⟩ := canonicalFields_ok h'
  rw [hb] at hb'
  exact fields_inj (by decide) hlen hlen' (List.append_cancel_left hb')

/-- A value of a Python dictionary; what is neither text nor integer is `other`. -/
inductive PyVal where
  | missing
  | int (n : Int)
  | str (s : String)
  | other
  deriving DecidableEq, Repr

structure Envelope where
  v : PyVal
  kid : PyVal
  id : PyVal
  ts : PyVal
  ttl : PyVal
  action : PyVal
  subject : PyVal
  detail : PyVal
  sourceIp : PyVal
  nonce : PyVal
  device : PyVal

def Envelope.target (e : Envelope) : PyVal := if e.device = .missing then .str "" else e.device

def Envelope.signed (e : Envelope) : List PyVal :=
  [e.v, e.kid, e.id, e.ts, e.ttl, e.action, e.subject, e.detail, e.sourceIp, e.nonce, e.target]

def intField (ok : Int → Bool) (message : String) : PyVal → Except String Int
  | .int n => if ok n then .ok n else .error message
  | _ => .error message

def textField (name : String) (limit : Nat) : PyVal → Except String String
  | .str s =>
    if (utf8 s).length > limit then .error ("invalid request field: " ++ name) else .ok s
  | _ => .error ("invalid request field: " ++ name)

def check (ok : Bool) (message : String) : Except String Unit :=
  if ok then .ok () else .error message

/-- `re.fullmatch(r"[a-z0-9_-]{1,14}", kid)`. -/
def validKid (kid : String) : Bool :=
  1 ≤ kid.length && kid.length ≤ 14 &&
    kid.toList.all fun c => ('a' ≤ c && c ≤ 'z') || c.isDigit || c = '_' || c = '-'

def validId (id : String) : Bool :=
  id.length = 32 && id.toList.all fun c => c ∈ "0123456789abcdef".toList

def requestFields (e : Envelope) : Except String (List Bytes) := do
  let v ← intField (· = protoVersion) "unsupported request version" e.v
  let ts ← intField (0 < ·) "invalid request timestamp" e.ts
  let ttl ← intField (fun n => 1 ≤ n && n ≤ 120) "invalid request TTL" e.ttl
  let kid ← textField "kid" 14 e.kid
  let id ← textField "id" 32 e.id
  let action ← textField "action" 32 e.action
  let subject ← textField "subject" 128 e.subject
  let detail ← textField "detail" 256 e.detail
  let sourceIp ← textField "source_ip" 64 e.sourceIp
  let nonce ← textField "nonce" 64 e.nonce
  let device ← textField "device" 64 e.target
  check (validId id) "invalid request id"
  check (validKid kid) "invalid broker key ID"
  check (action ≠ "" && subject ≠ "" && nonce ≠ "") "missing request field"
  return [decimal v.toNat, utf8 kid, utf8 id, decimal ts.toNat, decimal ttl.toNat, utf8 action,
    utf8 subject, utf8 detail, utf8 sourceIp, utf8 nonce, utf8 device]

def canonicalRequest (e : Envelope) : Except String Bytes := do
  canonicalFields requestDomain (← requestFields e)

def canonicalResponse (version : Nat) (reqId decision nonce deviceId reqDigest : String) :
    Except String Bytes :=
  canonicalFields responseDomain
    [decimal version, utf8 reqId, utf8 decision, utf8 nonce, utf8 deviceId, utf8 reqDigest]

theorem intField_ok {ok : Int → Bool} {message : String} {n : Int}
    (h : intField ok message x = .ok n) : x = .int n ∧ ok n = true := by
  cases x with
  | int m =>
    simp only [intField] at h
    split at h
    · next hok =>
      cases h
      exact ⟨rfl, hok⟩
    · cases h
  | missing | str s | other => cases h

theorem textField_ok {name : String} {limit : Nat} (h : textField name limit x = .ok s) :
    x = .str s := by
  cases x with
  | str t =>
    obtain ⟨-, h⟩ := guard_ok.1 h
    cases h
    rfl
  | missing | int n | other => cases h

theorem requestFields_ok {vs : List Bytes} (h : requestFields e = .ok vs) :
    ∃ (ts ttl : Int) (kid id action subject detail sourceIp nonce device : String),
      e.signed = [.int protoVersion, .str kid, .str id, .int ts, .int ttl, .str action,
        .str subject, .str detail, .str sourceIp, .str nonce, .str device] ∧
      0 < ts ∧ 0 < ttl ∧
      vs = [decimal protoVersion, utf8 kid, utf8 id, decimal ts.toNat, decimal ttl.toNat,
        utf8 action, utf8 subject, utf8 detail, utf8 sourceIp, utf8 nonce, utf8 device] := by
  obtain ⟨v, hv, h⟩ := bind_ok h
  obtain ⟨ts, hts, h⟩ := bind_ok h
  obtain ⟨ttl, httl, h⟩ := bind_ok h
  obtain ⟨kid, hkid, h⟩ := bind_ok h
  obtain ⟨id, hid, h⟩ := bind_ok h
  obtain ⟨action, haction, h⟩ := bind_ok h
  obtain ⟨subject, hsubject, h⟩ := bind_ok h
  obtain ⟨detail, hdetail, h⟩ := bind_ok h
  obtain ⟨sourceIp, hsource, h⟩ := bind_ok h
  obtain ⟨nonce, hnonce, h⟩ := bind_ok h
  obtain ⟨device, hdevice, h⟩ := bind_ok h
  obtain ⟨-, -, h⟩ := bind_ok h
  obtain ⟨-, -, h⟩ := bind_ok h
  obtain ⟨-, -, h⟩ := bind_ok h
  cases h
  obtain ⟨hv, hv2⟩ := intField_ok hv
  obtain ⟨hts, hpos⟩ := intField_ok hts
  obtain ⟨httl, hrange⟩ := intField_ok httl
  have hv2 : v = protoVersion := by simpa using hv2
  subst hv2
  refine ⟨ts, ttl, kid, id, action, subject, detail, sourceIp, nonce, device, ?_, ?_, ?_, rfl⟩
  · rw [Envelope.signed, hv, hts, httl, textField_ok hkid, textField_ok hid, textField_ok haction,
      textField_ok hsubject, textField_ok hdetail, textField_ok hsource, textField_ok hnonce,
      textField_ok hdevice]
  · simpa using hpos
  · have : 1 ≤ ttl ∧ ttl ≤ 120 := by simpa using hrange
    omega

theorem decimal_injective : Function.Injective decimal := by
  intro m n h
  rw [← ofDecimal_decimal m, h, ofDecimal_decimal]

theorem decimal_toNat_inj {m n : Int} (hm : 0 < m) (hn : 0 < n)
    (h : decimal m.toNat = decimal n.toNat) : m = n := by
  have := decimal_injective h
  omega

/-- **The canonical bytes of a request determine its eleven fields.** -/
theorem canonicalRequest_inj (h : canonicalRequest e = .ok b)
    (h' : canonicalRequest e' = .ok b) : e.signed = e'.signed := by
  obtain ⟨vs, hvs, h⟩ := bind_ok h
  obtain ⟨vs', hvs', h'⟩ := bind_ok h'
  obtain ⟨ts, ttl, kid, id, action, subject, detail, sourceIp, nonce, device, he, hts, httl, rfl⟩ :=
    requestFields_ok hvs
  obtain ⟨ts', ttl', kid', id', action', subject', detail', sourceIp', nonce', device', he', hts',
    httl', rfl⟩ := requestFields_ok hvs'
  have heq := canonicalFields_inj h h'
  simp only [List.cons.injEq, and_true, true_and] at heq
  obtain ⟨h₁, h₂, h₃, h₄, h₅, h₆, h₇, h₈, h₉, h₁₀⟩ := heq
  rw [he, he', utf8_injective h₁, utf8_injective h₂, decimal_toNat_inj hts hts' h₃,
    decimal_toNat_inj httl httl' h₄, utf8_injective h₅, utf8_injective h₆, utf8_injective h₇,
    utf8_injective h₈, utf8_injective h₉, utf8_injective h₁₀]

/-- **The canonical bytes of a response determine what it says.** -/
theorem canonicalResponse_inj {v' : Nat} {i' c' n' d' q' : String}
    (h : canonicalResponse v i c n d q = .ok b) (h' : canonicalResponse v' i' c' n' d' q' = .ok b) :
    v = v' ∧ i = i' ∧ c = c' ∧ n = n' ∧ d = d' ∧ q = q' := by
  have heq := canonicalFields_inj h h'
  simp only [List.cons.injEq, and_true] at heq
  obtain ⟨h₁, h₂, h₃, h₄, h₅, h₆⟩ := heq
  exact ⟨decimal_injective h₁, utf8_injective h₂, utf8_injective h₃, utf8_injective h₄,
    utf8_injective h₅, utf8_injective h₆⟩

/-- **No byte string is both** a canonical request and a canonical response. -/
theorem canonicalRequest_ne_response (h : canonicalRequest e = .ok b) :
    canonicalResponse v i c n d q ≠ .ok b := by
  intro h'
  obtain ⟨vs, -, h⟩ := bind_ok h
  have hb := (canonicalFields_ok h).1
  rw [(canonicalFields_ok h').1] at hb
  -- the domains differ in their fifteenth octet
  have hoctet := congrArg (fun l : Bytes => l[14]?) hb
  rw [List.getElem?_append_left (by decide), List.getElem?_append_left (by decide)] at hoctet
  exact absurd hoctet (by decide)

/-! ## The broker -/

inductive Decision where
  | approve
  | deny
  deriving DecidableEq, Repr

def Decision.text : Decision → String
  | .approve => "approve"
  | .deny => "deny"

def Decision.ofText (s : String) : Option Decision :=
  if s = "approve" then some .approve else if s = "deny" then some .deny else none

theorem Decision.text_of_ofText {d : Decision} (h : Decision.ofText s = some d) : d.text = s := by
  unfold Decision.ofText at h
  split at h
  · next hs =>
    cases h
    exact hs.symm
  · split at h
    · next hs =>
      cases h
      exact hs.symm
    · cases h

structure Body where
  version : Option Int
  id : Option String
  decision : String
  deviceId : String
  nonce : String
  sig : String
  reqDigest : String

structure Config (K : Type) where
  topicPrefix : String
  requestTtl : Int
  /-- The request-signing key, as what signing with it gives. -/
  signingKey : Option (Bytes → String)
  signingKeyId : String
  devices : String → Option K
  verify : K → Bytes → String → Bool
  sha256 : Bytes → String
  loads : Bytes → Option Body

structure PendingCore where
  id : String
  nonce : String
  device : String
  created : Int
  ttl : Int
  reqDigest : String

structure Result where
  decision : Decision
  deviceId : String
  id : String
  deriving DecidableEq, Repr

structure Arrival where
  topic : String
  payload : Bytes

/-- The operations of the broker's threads. Whoever registers or looks up a `PendingRequest` has a
reference to it, also when it is no longer in `_pending`. -/
inductive BrokerOp where
  | isConnected
  | uuid
  | token
  | time
  | register (p : PendingCore)
  | publish (topic : String) (e : Envelope) (sig : String)
  | wait (ref : Nat) (ttl : Int)
  | pop (id : String)
  | result (ref : Nat)
  | arrive
  | lookup (id : String)
  | isSet (ref : Nat)
  | resolve (ref : Nat) (r : Result)

abbrev BrokerRes : BrokerOp → Type
  | .isConnected => Bool
  | .uuid => String
  | .token => String
  | .time => Int
  | .register _ => Nat
  | .publish _ _ _ => Bool
  | .wait _ _ => Bool
  | .pop _ => Unit
  | .result _ => Option Result
  | .arrive => Arrival
  | .lookup _ => Option (Nat × PendingCore)
  | .isSet _ => Bool
  | .resolve _ _ => Unit

abbrev BrokerProg : Type → Type := Prog BrokerOp BrokerRes

abbrev op (o : BrokerOp) : BrokerProg (BrokerRes o) := Prog.perform o

structure Ask where
  action : String
  subject : String
  detail : String
  sourceIp : String
  device : String
  ttl : Option Int

structure Asked where
  envelope : Envelope
  pending : PendingCore

/-- What a thread is left with; no result is a timeout. -/
inductive Memory where
  | fresh
  | raised (message : String)
  | returned (asked : Asked) (result : Option Result)

def second : Int := 1000000

def requestEnvelope (kid id nonce : String) (ts ttl : Int) (ask : Ask) : Envelope where
  v := .int protoVersion
  kid := .str kid
  id := .str id
  ts := .int ts
  ttl := .int ttl
  action := .str ask.action
  subject := .str ask.subject
  detail := .str ask.detail
  sourceIp := .str ask.sourceIp
  nonce := .str nonce
  device := .str ask.device

variable {K : Type}

def awaitAnswer (cfg : Config K) (ref : Nat) (asked : Asked) (sig : String) :
    BrokerProg Memory := do
  let reqId := asked.pending.id
  if (← op (.publish (cfg.topicPrefix ++ "/request/" ++ reqId) asked.envelope sig)) = false then
    op (.pop reqId)
    return .raised "unable to publish approval request"
  else
    let answered ← op (.wait ref asked.pending.ttl)
    op (.pop reqId)
    if answered = true then return .returned asked (← op (.result ref))
    else return .returned asked none

def request (cfg : Config K) (ask : Ask) : BrokerProg Memory := do
  match cfg.signingKey with
  | none => return .raised "approval request signing key is not configured"
  | some sign =>
    let ttl := ask.ttl.getD cfg.requestTtl
    if validKid cfg.signingKeyId = false then
      return .raised "approval request signing key ID is not configured"
    else if ¬ (1 ≤ ttl ∧ ttl ≤ 120) then
      return .raised "approval request TTL must be between 1 and 120 seconds"
    else if (← op .isConnected) = false then return .raised "MQTT broker is not connected"
    else
      let reqId ← op .uuid
      let nonce ← op .token
      let now ← op .time
      let e := requestEnvelope cfg.signingKeyId reqId nonce (now / second) ttl ask
      match canonicalRequest e with
      | .error message => return .raised message
      | .ok canonical =>
        let created ← op .time
        let p : PendingCore := ⟨reqId, nonce, ask.device, created, ttl, cfg.sha256 canonical⟩
        awaitAnswer cfg (← op (.register p)) ⟨e, p⟩ (sign canonical)

def topicId (topic : String) : Option String :=
  match topic.toList.splitOn '/' with
  | [_, kind, reqId] => if String.ofList kind = "response" then some (String.ofList reqId) else none
  | _ => none

/-- The checks of `_handle_response` that do not read the clock: version, id, nonce, decision,
digest. -/
def bodyChecks (reqId : String) (p : PendingCore) (b : Body) : Option Decision :=
  if b.version ≠ some (protoVersion : Int) then none
  else if b.id ≠ some reqId then none
  else if b.nonce ≠ p.nonce then none
  else
    match Decision.ofText b.decision with
    | none => none
    | some d => if b.reqDigest ≠ p.reqDigest then none else some d

def signatureChecks (cfg : Config K) (reqId : String) (p : PendingCore) (b : Body) : Bool :=
  match cfg.devices b.deviceId with
  | none => false
  | some key =>
    if p.device ≠ "" ∧ p.device ≠ b.deviceId then false
    else
      match canonicalResponse protoVersion reqId b.decision b.nonce b.deviceId b.reqDigest with
      | .error _ => false
      | .ok canonical => cfg.verify key canonical b.sig

def handleResponse (cfg : Config K) : BrokerProg Memory := do
  let msg ← op .arrive
  match topicId msg.topic with
  | none => return .fresh
  | some reqId =>
    match ← op (.lookup reqId) with
    | none => return .fresh
    | some (ref, p) =>
      if (← op (.isSet ref)) = true then return .fresh
      else
        match (cfg.loads msg.payload).bind fun b => (bodyChecks reqId p b).map (b, ·) with
        | none => return .fresh
        | some (b, d) =>
          if (← op .time) - p.created > p.ttl * second then return .fresh
          else if signatureChecks cfg reqId p b = false then return .fresh
          else
            op (.resolve ref ⟨d, b.deviceId, reqId⟩)
            return .fresh

end SolariNet.AuthBroker
