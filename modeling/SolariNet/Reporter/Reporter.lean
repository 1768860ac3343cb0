/-
# The push-or-spool report transport

`solariReporter.c`: dial, frame, send or spool, drain.  What the reporter asks of its
surroundings — the request link, the push link, the spool, the entropy source, the clock —
are operations (`RepOp`), so each function of the source is a program over them and the
environment may answer as it likes.  The handle itself (`Reporter`) is passed along.
-/
import SolariNet.Lib.Prog
import SolariNet.Wire.Frame
import SolariNet.Wire.CrlReceipt

namespace SolariNet

open Lib

inductive RepOp where
  | dialAck (url : CStr)
  | sendAck (frame : Bytes)
  | recvAck
  | dialPush (url : CStr)
  | sendPush (frame : Bytes)
  | spoolPush (frame : Bytes)
  | spoolPeek
  | spoolAck (rowId : Nat)
  | spoolNack (rowId : Nat)
  | newSession
  | now
  | readCrlFile
  | returned (frame : Bytes) (rc : Status)

abbrev RepOp.Res : RepOp → Type
  | .dialAck _ | .sendAck _ | .dialPush _ | .sendPush _ => Status
  | .spoolPush _ | .spoolAck _ | .spoolNack _ => Status
  | .recvAck => Except Status Received
  | .spoolPeek => Except Status (Option (Nat × Bytes))
  | .newSession => Except Status Session
  | .now => UInt64
  | .readCrlFile => Option Bytes
  | .returned _ _ => Unit

abbrev RepM : Type → Type := Prog RepOp RepOp.Res

namespace Rep

abbrev dialAck (url : CStr) : RepM Status := Prog.perform (RepOp.dialAck url)
abbrev sendAck (frame : Bytes) : RepM Status := Prog.perform (RepOp.sendAck frame)
abbrev recvAck : RepM (Except Status Received) := Prog.perform RepOp.recvAck
abbrev dialPush (url : CStr) : RepM Status := Prog.perform (RepOp.dialPush url)
abbrev sendPush (frame : Bytes) : RepM Status := Prog.perform (RepOp.sendPush frame)
abbrev spoolPush (frame : Bytes) : RepM Status := Prog.perform (RepOp.spoolPush frame)
abbrev spoolPeek : RepM (Except Status (Option (Nat × Bytes))) := Prog.perform RepOp.spoolPeek
abbrev spoolAck (rowId : Nat) : RepM Status := Prog.perform (RepOp.spoolAck rowId)
abbrev spoolNack (rowId : Nat) : RepM Status := Prog.perform (RepOp.spoolNack rowId)
abbrev newSession : RepM (Except Status Session) := Prog.perform RepOp.newSession
abbrev now : RepM UInt64 := Prog.perform RepOp.now
abbrev readCrlFile : RepM (Option Bytes) := Prog.perform RepOp.readCrlFile
abbrev returned (frame : Bytes) (rc : Status) : RepM Unit :=
  Prog.perform (RepOp.returned frame rc)

end Rep

structure Reporter where
  primaryUrl : CStr
  failoverUrl : CStr
  ackUrl : CStr
  ackFailoverUrl : CStr
  useTls : Bool
  nodeId : UInt64
  seqNo : UInt32
  session : Session
  onFailover : Bool
  conn : Bool
  ackConn : Bool
  spool : Bool

/-! ## Opening -/

structure ReporterOpts where
  primaryUrl : CStr
  failoverUrl : CStr
  ackUrl : CStr
  ackFailoverUrl : CStr
  useTls : Bool
  nodeId : UInt64

def repUrlMax : Nat := 256

def copyField (cap : Nat) (src : CStr) : CStr := src.take (cap - 1)

/-- `strtoul(s, &end, 10)`, when it reads `s` to its end: blanks, a sign, digits; too large a
number is `ULONG_MAX`, a minus sign negates in the unsigned type. -/
def strtoulWhole (s : CStr) : Option Nat :=
  let s := s.dropWhile fun c => c = ' ' ∨ '\t' ≤ c ∧ c ≤ '\r'
  let digits := if s.head? = some '-' ∨ s.head? = some '+' then s.tail else s
  if digits.isEmpty ∨ !digits.all Char.isDigit then none
  else
    let v := digits.foldl (fun v c => v * 10 + (c.toNat - '0'.toNat)) 0
    if 2 ^ 64 ≤ v then some (2 ^ 64 - 1)
    else some (if s.head? = some '-' then (2 ^ 64 - v) % 2 ^ 64 else v)

def deriveAckUrl (primary : CStr) (cap : Nat) : Option CStr :=
  let back := primary.reverse.takeWhile (· ≠ ':')
  if back.length = primary.length ∨ back.isEmpty then none
  else
    let head := primary.take (primary.length - back.length)
    match strtoulWhole back.reverse with
    | none => none
    | some port =>
      if port = 0 ∨ 65535 ≤ port then none
      else if cap ≤ head.length + 6 then none
      else some (head ++ (toString (port + 1)).toList)

/-- The confirmation address: as configured, or derived; none when there is nothing to derive
it from. -/
def ackUrlOf (given base : CStr) : Option CStr :=
  if !given.isEmpty then some (copyField repUrlMax given)
  else if base.isEmpty then some []
  else deriveAckUrl base repUrlMax

def solariReporterOpen (opts : ReporterOpts) (session : Except Status Session) (spool : Bool) :
    Except Status Reporter :=
  match session with
  | .error _ => .error .errTls
  | .ok session =>
    match ackUrlOf opts.ackUrl opts.primaryUrl with
    | none => .error .errInvalidArg
    | some ackUrl =>
      match ackUrlOf opts.ackFailoverUrl (copyField repUrlMax opts.failoverUrl) with
      | none => .error .errInvalidArg
      | some ackFailoverUrl =>
        .ok { primaryUrl := copyField repUrlMax opts.primaryUrl
              failoverUrl := copyField repUrlMax opts.failoverUrl
              ackUrl := ackUrl
              ackFailoverUrl := ackFailoverUrl
              useTls := opts.useTls
              nodeId := opts.nodeId
              seqNo := 0
              session := session
              onFailover := false
              conn := false
              ackConn := false
              spool := spool }

theorem solariReporterOpen_ok {opts : ReporterOpts} {session : Except Status Session} {spool : Bool}
    {r : Reporter} (h : solariReporterOpen opts session spool = .ok r) :
    session = .ok r.session ∧ r.nodeId = opts.nodeId ∧ r.seqNo = 0 := by
  unfold solariReporterOpen at h
  split at h
  · cases h
  split at h
  · cases h
  split at h
  · cases h
  · cases h
    exact ⟨rfl, rfl, rfl⟩

/-- The ACK scan of `reporterSendConfirmed`: the status that ends it and
`haveAckSession`, started from the value the flag already has. -/
def scanAck (session : Session) (stop : Status) : Bool → List Tlv → Status × Bool
  | seen, [] => (stop, seen)
  | seen, t :: ts =>
    if t.type ≠ TlvType.reportSession then scanAck session stop seen ts
    else if seen ∨ t.value.length ≠ 16 ∨ t.value ≠ session.val then (.errConnRetry, seen)
    else scanAck session stop true ts

/-! ## Confirmed send -/

def serverPrefix : CStr := "server.".toList

def peerIsServer (useTls : Bool) (cn : Except Status CStr) : Bool :=
  if useTls then
    match cn with
    | .error _ => false
    | .ok cn => cn == "server".toList || serverPrefix.isPrefixOf cn
  else true

/-- What one reply does to a confirmed send: whether it settles the send, and
`haveAckSession` afterwards. -/
def ackVerdict (sent : FrameHeader) (session : Session) (seen : Bool) (rx : Bytes) : Bool × Bool :=
  match solariFrameParse rx with
  | .error _ => (false, seen)
  | .ok got =>
    if got.hdr.msgType = Msg.ack ∧ got.hdr.correlationId = sent.seqNo then
      let r := readTlvs got.payload
      let v := scanAck session r.2 seen r.1
      (v.1 == .errTlvEnd && v.2, v.2)
    else (false, seen)

def reporterDialAck (r : Reporter) (failover : Bool) : RepM (Status × Reporter) :=
  let url := if failover then r.ackFailoverUrl else r.ackUrl
  if url.isEmpty then .ret (.errConnRetry, r)
  else if r.ackConn then .ret (.ok, r)
  else do
    let rc ← Rep.dialAck url
    .ret (rc, { r with ackConn := rc == .ok })

def Reporter.closeAck (r : Reporter) : Reporter := { r with ackConn := false }

/-- One attempt of the loop of `reporterSendConfirmed`: whether it succeeded,
`haveAckSession` afterwards, and the handle. -/
def reporterAttempt (r : Reporter) (frame : Bytes) (sent : FrameHeader) (session : Session)
    (failover seen : Bool) : RepM (Bool × Bool × Reporter) := do
  let (rc, r) ← reporterDialAck r failover
  if rc ≠ .ok then .ret (false, seen, r.closeAck)
  else
    let rc ← Rep.sendAck frame
    if rc ≠ .ok then .ret (false, seen, r.closeAck)
    else
      let rx ← Rep.recvAck
      match rx with
      | .error _ => .ret (false, seen, r.closeAck)
      | .ok rx =>
        if !peerIsServer r.useTls rx.peerCn then .ret (false, seen, r.closeAck)
        else
          let v := ackVerdict sent session seen rx.bytes
          if v.1 then .ret (true, v.2, r) else .ret (false, v.2, r.closeAck)

/-- The two attempts of `reporterSendConfirmed`.  `haveAckSession` is set to false before
the first and passed on to the second. -/
def reporterConfirm (r : Reporter) (frame : Bytes) (sent : FrameHeader) (session : Session) :
    RepM (Status × Reporter) := do
  let first := r.onFailover && !r.ackFailoverUrl.isEmpty
  let (done, seen, r) ← reporterAttempt r frame sent session first false
  if done then .ret (.ok, r)
  else
    let (done, _, r) ← reporterAttempt r frame sent session (!first) seen
    if done then .ret (.ok, r) else .ret (.errConnRetry, r)

def sentSession (f : Frame) : Option Session :=
  if !isDurableReport f.hdr.msgType then none
  else match scanSession none (readTlvs f.payload).1 with
    | .error _ => none
    | .ok found => if (readTlvs f.payload).2 = .errTlvEnd then found else none

def reporterSendConfirmed (r : Reporter) (frame : Bytes) : RepM (Status × Reporter) :=
  match solariFrameParse frame with
  | .error _ => .ret (.errInvalidArg, r)
  | .ok f =>
    match sentSession f with
    | none => .ret (.errInvalidArg, r)
    | some session => reporterConfirm r frame f.hdr session

def dialUrl (r : Reporter) (url : CStr) (failover : Bool) : RepM (Status × Reporter) := do
  let rc ← Rep.dialPush url
  if rc = .ok then .ret (.ok, { r with conn := true, onFailover := failover })
  else .ret (.errConnRetry, r)

def solariReporterConnect (r : Reporter) : RepM (Status × Reporter) :=
  if r.conn then .ret (.ok, r)
  else do
    let (rc, r) ← if r.primaryUrl.isEmpty then .ret (.errConnRetry, r)
      else dialUrl r r.primaryUrl false
    if rc = .ok then .ret (.ok, r)
    else if r.failoverUrl.isEmpty then .ret (.errConnRetry, r)
    else dialUrl r r.failoverUrl true

/-! ## Framing -/

def uint32Max : UInt32 := 0xFFFFFFFF

/-- The session and sequence number of the next frame: at the end of the counter a new
session is drawn first. -/
def nextSeq (r : Reporter) : RepM (Except Status Reporter) :=
  if r.seqNo = uint32Max then do
    let s ← Rep.newSession
    match s with
    | .error st => .ret (.error st)
    | .ok s => .ret (.ok { r with session := s, seqNo := 1 })
  else .ret (.ok { r with seqNo := r.seqNo + 1 })

def reportPayload (r : Reporter) (payload : Bytes) (tlvCount : UInt16) (crlFile : Option Bytes) :
    Except Status TlvWriter := do
  let w ← solariTlvAppend ⟨payload, payload.length + 180, tlvCount⟩ (sessionTlv r.session)
  let receipt := reporterReadCrlReceipt crlFile
  if receipt.isEmpty then .ok w
  else solariTlvAppend w ⟨TlvType.crlActivation, receipt, length_reporterReadCrlReceipt crlFile⟩

/-- `solariReporterFrameCorr` from the clock on. -/
def frameNumbered (r : Reporter) (msgType flags : UInt8) (correlationId : UInt32) (payload : Bytes)
    (tlvCount : UInt16) (cap : Nat) : RepM (Except Status Bytes × Reporter) := do
  let time ← Rep.now
  let h : FrameHeader :=
    { msgType := msgType, flags := flags, tlvCount := tlvCount, sourceNodeId := r.nodeId,
      sendTimeUnixMs := time, seqNo := r.seqNo, correlationId := correlationId }
  if isDurableReport msgType then
    if solariMaxFrame - 180 < payload.length ∨ tlvCount = 0xFFFF then
      .ret (.error .errBufferFull, r)
    else
      let crlFile ← Rep.readCrlFile
      match reportPayload r payload tlvCount crlFile with
      | .error st => .ret (.error st, r)
      | .ok w => .ret (solariFrameBuild { h with tlvCount := w.count } w.buf cap, r)
  else .ret (solariFrameBuild h payload cap, r)

def solariReporterFrameCorr (r : Reporter) (msgType flags : UInt8) (correlationId : UInt32)
    (payload : Bytes) (tlvCount : UInt16) (cap : Nat) : RepM (Except Status Bytes × Reporter) := do
  match ← nextSeq r with
  | .error st => .ret (.error st, r)
  | .ok r => frameNumbered r msgType flags correlationId payload tlvCount cap

/-! ## Sending and draining -/

def Reporter.dropConn (r : Reporter) (rc : Status) : Reporter :=
  if rc = .errConnFatal then { r with conn := false } else r

def reporterDrain : Nat → Reporter → RepM (Status × Reporter)
  | 0, r => .ret (.ok, r)
  | n + 1, r => do
      match ← Rep.spoolPeek with
      | .error st => .ret (st, r)
      | .ok none => .ret (.ok, r)
      | .ok (some (rowId, f)) =>
        let (rc, r) ← match solariFrameParse f with
          | .error st => .ret (st, r)
          | .ok p =>
            if isDurableReport p.hdr.msgType then reporterSendConfirmed r f
            else if r.conn then do
              let rc ← Rep.sendPush f
              .ret (rc, r)
            else .ret (.errConnRetry, r)
        if rc = .ok then
          let rc ← Rep.spoolAck rowId
          if rc ≠ .ok then .ret (rc, r) else reporterDrain n r
        else
          let _ ← Rep.spoolNack rowId
          .ret (.ok, r.dropConn rc)

def repDrainMax : Nat := 64

def solariReporterDrain (r : Reporter) : RepM (Status × Reporter) :=
  if r.spool then reporterDrain repDrainMax r else .ret (.ok, r)

def reporterSpool (r : Reporter) (frame : Bytes) (unspooled : Status) : RepM (Status × Reporter) :=
  if r.spool then do
    let rc ← Rep.spoolPush frame
    .ret (rc, r)
  else .ret (unspooled, r)

def solariReporterSend (r : Reporter) (frame : Bytes) : RepM (Status × Reporter) :=
  match solariFrameParse frame with
  | .error st => .ret (st, r)
  | .ok f =>
    if isDurableReport f.hdr.msgType then do
      let (rc, r) ← reporterSendConfirmed r frame
      if rc = .ok then
        let (_, r) ← solariReporterDrain r
        .ret (.ok, r)
      else reporterSpool r frame rc
    else if r.conn then do
      let rc ← Rep.sendPush frame
      if rc = .ok then
        let (_, r) ← solariReporterDrain r
        .ret (.ok, r)
      else reporterSpool (r.dropConn rc) frame .errConnRetry
    else reporterSpool r frame .errConnRetry

end SolariNet
