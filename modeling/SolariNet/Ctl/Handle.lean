/-
# Handling a request line, queueing one, replaying one

`ctlHandleLine` (`solariCtl.c`) up to the branch of the verb, with PING and REQUEST_SUBMIT in full;
the statements of `serverDbCtlRequestSubmit`, `Claim` and `Complete` (`serverDb.c`); and
`serverCtlQueuePoll`, which claims a queued request, puts its line together again and handles it
with the authority of an operator.

What these ask of their surroundings are operations (`CtlOp`): the role of the server, the
statements on `ctlRequest`, the branches of the other verbs.  Three operations only mark a place:

    submitted       a request was handed to the queue, with what that returned
    replaying       a claimed request is about to be handled
    dispatching     a line has passed every gate; its verb's branch follows
-/
import SolariNet.Ctl.Line
import SolariNet.Ctl.Queue
import SolariNet.Lib.Prog

namespace SolariNet

open Lib Lib.Prog

inductive Origin where
  | peer (c : PeerClass)
  | queue (reqId : Nat)
  deriving DecidableEq

def Origin.peerClass : Origin → PeerClass
  | .peer c => c
  | .queue _ => .operator

inductive InsertAnswer where
  | inserted (id : Nat)
  | duplicate
  | failed

structure Submission where
  origin : Origin
  verb : Bytes
  argsWire : Bytes
  requestedBy : Bytes
  key : Option Bytes
  result : Except Status Nat
  deriving DecidableEq

structure Dispatch where
  origin : Origin
  verb : Bytes
  operator : Option Bytes
  args : Bytes
  deriving DecidableEq

inductive CtlOp where
  | isActive
  | insertRequest (verb argsWire requestedBy : Bytes) (key : Option Bytes)
  | selectByKey (requestedBy key : Bytes)
  | claimOldest (claimedBy : Bytes)
  | selectById (id : Nat)
  | completeRequest (id : Nat) (ok : Bool) (text : Bytes)
  | submitted (s : Submission)
  | replaying (id : Nat)
  | dispatching (d : Dispatch)
  | handle (d : Dispatch)

abbrev CtlOp.Res : CtlOp → Type
  | .isActive => Bool
  | .insertRequest _ _ _ _ => InsertAnswer
  | .selectByKey _ _ | .selectById _ => Except Unit (Option CtlRequestRow)
  | .claimOldest _ => Except Unit (Option Nat)
  | .completeRequest _ _ _ => Except Unit Bool
  | .submitted _ | .replaying _ | .dispatching _ => Unit
  | .handle _ => Bytes

abbrev CtlM : Type → Type := Prog CtlOp CtlOp.Res

/-! ## Replies -/

def ctlReplyErr (code : Status) (message : String) : Bytes :=
  txt "ERR -" ++ decimal code.code ++ 0x20 :: txt message ++ [0x0A]

def ctlReplyOk (extra : Bytes) : Bytes :=
  if extra.isEmpty then txt "OK\n" else txt "OK " ++ extra ++ [0x0A]

/-! ## The queue statements -/

def serverDbCtlRequestSubmit (verb argsWire requestedBy : Bytes) (idemKey : Option Bytes) :
    CtlM (Except Status Nat) :=
  if verb.isEmpty || requestedBy.isEmpty then .ret (.error .errInvalidArg)
  else do
    let key := idemKey.filter fun k => !k.isEmpty
    match ← perform (CtlOp.insertRequest verb argsWire requestedBy key) with
    | .inserted id => .ret (.ok id)
    | .failed => .ret (.error .errDb)
    | .duplicate =>
      match key with
      | none => .ret (.error .errDb)
      | some k => do
          match ← perform (CtlOp.selectByKey requestedBy k) with
          | .error _ | .ok none => .ret (.error .errDb)
          | .ok (some row) =>
            -- `existingVerb` and `existingArgs` hold 31 and 16383 bytes
            if 31 < row.verb.length ∨ 16383 < row.argsWire.length then
              .ret (.error .errInvalidArg)
            else if row.verb ≠ verb ∨ row.argsWire ≠ argsWire then .ret (.error .errInvalidArg)
            else if row.id = 0 then .ret (.error .errDb)
            else .ret (.ok row.id)

def serverDbCtlRequestComplete (reqId : Nat) (ok : Bool) (resultText : Bytes) : CtlM Status :=
  if reqId = 0 then .ret .errInvalidArg
  else do
    match ← perform (CtlOp.completeRequest reqId ok resultText) with
    | .error _ => .ret .errDb
    | .ok false => .ret .errTlvEnd
    | .ok true => .ret .ok

structure ClaimedRequest where
  reqId : Nat
  verb : Bytes
  argsWire : Bytes
  requestedBy : Bytes

def serverDbCtlRequestClaim (claimedBy : Bytes) (verbCap argsCap requestedByCap : Nat) :
    CtlM (Except Status ClaimedRequest) := do
  match ← perform (CtlOp.claimOldest claimedBy) with
  | .error _ => .ret (.error .errDb)
  | .ok none => .ret (.error .errTlvEnd)
  | .ok (some claimedId) =>
    match ← perform (CtlOp.selectById claimedId) with
    | .error _ | .ok none => .ret (.error .errDb)
    | .ok (some row) =>
      if verbCap ≤ row.verb.length ∨ argsCap ≤ row.argsWire.length then do
        let _ ← serverDbCtlRequestComplete claimedId false
          (txt "stored request exceeds replay buffer")
        .ret (.error .errBufferFull)
      else .ret (.ok ⟨row.id, row.verb, row.argsWire, row.requestedBy.take (requestedByCap - 1)⟩)

/-! ## A request line -/

def argOrEmpty (args key : Bytes) (cap : Nat) : Bytes :=
  match ctlArgStr args key cap with
  | .error _ => []
  | .ok v => v

def enqueue (origin : Origin) (inner argsWire operator : Bytes) (key : Option Bytes) :
    CtlM Bytes := do
  let st ← serverDbCtlRequestSubmit inner argsWire operator key
  let _ ← perform (CtlOp.submitted ⟨origin, inner, argsWire, operator, key, st⟩)
  match st with
  | .error .errInvalidArg => .ret (ctlReplyErr .errInvalidArg
      "idempotency key conflicts with a different queued request")
  | .error st => .ret (ctlReplyErr st "enqueue failed")
  | .ok reqId => .ret (ctlReplyOk (txt "request=" ++ decimal reqId ++ txt " status=pending"))

def requestSubmit (origin : Origin) (args : Bytes) : CtlM Bytes :=
  let inner := argOrEmpty args (txt "verb") 32
  let operator := argOrEmpty args (txt "op") 64
  let argsWire := argOrEmpty args (txt "args") ctlReqCap
  let idem := argOrEmpty args (txt "idem") 128
  if inner.isEmpty then .ret (ctlReplyErr .errInvalidArg "verb required")
  else if ctlVerbPrivClass inner ≠ .privileged then
    .ret (ctlReplyErr .errInvalidArg "only privileged verbs may be queued")
  else if inner = txt "ENROLL_TOKEN" then
    .ret (ctlReplyErr .errAuthRole "enrollment tokens must be issued directly to the operator")
  else if operator.isEmpty then .ret (ctlReplyErr .errAuthRole "operator required")
  else if inner = txt "DECOMMISSION" ∧ (ctlArgStr argsWire (txt "confirm") 64).isOk then
    .ret (ctlReplyErr .errInvalidArg "confirmation tokens may not be queued")
  else enqueue origin inner argsWire operator (if idem.isEmpty then none else some idem)

def ctlDispatch (d : Dispatch) : CtlM Bytes := do
  let _ ← perform (CtlOp.dispatching d)
  if d.verb = txt "PING" then .ret (ctlReplyOk (txt "pong decommissionInline=1"))
  else if d.verb = txt "REQUEST_SUBMIT" then requestSubmit d.origin d.args
  else perform (CtlOp.handle d)

def ctlHandleLine (origin : Origin) (line : Bytes) : CtlM Bytes :=
  let line := ctlTrimLine (cstr line)
  if line.isEmpty then .ret (ctlReplyErr .errInvalidArg "empty request")
  else
    match ctlSplitVerb line 32 with
    | .error st => .ret (ctlReplyErr st "malformed request")
    | .ok (verb, args) =>
      let vc := ctlVerbPrivClass verb
      if !ctlPeerMayInvoke origin.peerClass vc then
        .ret (ctlReplyErr .errAuthRole (if vc = .privileged
          then "privileged verb must be queued via REQUEST_SUBMIT" else "not authorized"))
      else do
        let active ← perform CtlOp.isActive
        if !active && !ctlVerbMayRunOnStandby verb then
          .ret (ctlReplyErr .errLeaseLost "active server required")
        else
          match ctlCheckRbac verb args with
          | .error st => .ret (ctlReplyErr st "operator required")
          | .ok _ => ctlDispatch ⟨origin, verb, handlerOperator verb args, args⟩

/-! ## Replay -/

def spaced : List Bytes → Bytes
  | [] => []
  | [w] => w
  | w :: ws => w ++ 0x20 :: spaced ws

/-- The line of a queued request: our operator comes before the queued arguments. -/
def replayLine (verb opEnc argsWire : Bytes) : Bytes :=
  spaced ([verb] ++ (if opEnc.isEmpty then [] else [txt "op=" ++ opEnc]) ++
    if argsWire.isEmpty then [] else [argsWire])

def hexText (n : Nat) : Bytes :=
  if n = 0 then [0x30]
  else ((Nat.digits 16 n).map fun d => UInt8.ofNat (if d < 10 then d + 48 else d + 87)).reverse

def confirmLine (opEnc : Bytes) (node scope token : Nat) : Bytes :=
  spaced [txt "DECOMMISSION", txt "op=" ++ opEnc, txt "node=" ++ decimal node,
    txt "scope=0x" ++ hexText scope, txt "confirm=" ++ decimal token]

def dropNewline (reply : Bytes) : Bytes :=
  if reply.getLast? = some 0x0A then reply.dropLast else reply

def inlineConfirmation (argsWire reply : Bytes) : Option (Nat × Nat × Nat) :=
  if reply.take 3 ≠ txt "OK " then none
  else
    match ctlArgU64 (reply.drop 3) (txt "confirm"), ctlArgU64 argsWire (txt "node"),
        ctlArgU32Hex argsWire (txt "scope") with
    | .ok token, .ok node, .ok scope =>
      if token = 0 ∨ node = 0 then none else some (token, node, scope)
    | _, _, _ => none

/-- The second half of a queued DECOMMISSION that asks for it. -/
def confirmInline (r : ClaimedRequest) (opEnc reply : Bytes) : CtlM Bytes :=
  if r.verb = txt "DECOMMISSION" ∧ argOrEmpty r.argsWire (txt "inlineConfirm") 8 = txt "1" then
    match inlineConfirmation r.argsWire (dropNewline reply) with
    | none => .ret (ctlReplyErr .errAuthRole "decommission confirmation failed")
    | some (token, node, scope) =>
      let second := confirmLine opEnc node scope token
      if ctlReqCap ≤ second.length then
        .ret (ctlReplyErr .errAuthRole "decommission confirmation failed")
      else ctlHandleLine (.queue r.reqId) second
  else .ret reply

def ClaimedRequest.opEnc (r : ClaimedRequest) : Bytes := ctlPctEncode r.requestedBy 192

def replayRequest (r : ClaimedRequest) : CtlM Bytes := do
  let _ ← perform (CtlOp.replaying r.reqId)
  let reply ← ctlHandleLine (.queue r.reqId) (replayLine r.verb r.opEnc r.argsWire)
  confirmInline r r.opEnc reply

def serverCtlQueuePoll : CtlM Status := do
  match ← serverDbCtlRequestClaim (txt "solariServer") 48 ctlReqCap 128 with
  | .error st => .ret (if st = .errTlvEnd ∨ st = .errBufferFull then .errConnRetry else st)
  | .ok r =>
    if ctlReqCap ≤ (replayLine r.verb r.opEnc r.argsWire).length then do
      let _ ← serverDbCtlRequestComplete r.reqId false (txt "request line too long to replay")
      .ret .ok
    else do
      let reply ← replayRequest r
      let reply := dropNewline reply
      let _ ← serverDbCtlRequestComplete r.reqId (reply.take 2 == txt "OK") reply
      .ret .ok

end SolariNet
