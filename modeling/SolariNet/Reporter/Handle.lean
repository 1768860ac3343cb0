/-
# What sending leaves of the handle

Dialling, sending and draining change the connections of a reporter and nothing else: its node, its
session and its counter stay.  Only framing moves the counter (`Reporter.Framing`).
-/
import SolariNet.Reporter.Reporter

namespace SolariNet

open Lib Lib.Prog

def Reporter.SameId (r r' : Reporter) : Prop :=
  r'.nodeId = r.nodeId ∧ r'.session = r.session ∧ r'.seqNo = r.seqNo

theorem Reporter.SameId.rfl {r : Reporter} : r.SameId r := ⟨.refl _, .refl _, .refl _⟩

theorem Reporter.SameId.trans {r r' r'' : Reporter} (h : r.SameId r') (h' : r'.SameId r'') :
    r.SameId r'' :=
  ⟨h'.1.trans h.1, h'.2.1.trans h.2.1, h'.2.2.trans h.2.2⟩

theorem reporterDialAck_sameId (r : Reporter) (failover : Bool) :
    (reporterDialAck r failover).Returns fun x => r.SameId x.2 := by
  unfold reporterDialAck
  dsimp only
  generalize (if failover then r.ackFailoverUrl else r.ackUrl) = url
  split
  · exact .rfl
  split
  · exact .rfl
  · exact Returns.perform_bind fun rc => ⟨rfl, rfl, rfl⟩

theorem reporterAttempt_sameId (r : Reporter) (frame : Bytes) (sent : FrameHeader)
    (session : Session) (failover seen : Bool) :
    (reporterAttempt r frame sent session failover seen).Returns fun x => r.SameId x.2.2 := by
  refine Returns.bind (reporterDialAck_sameId r failover) fun x hx => ?_
  dsimp only
  split
  · exact hx
  refine Returns.perform_bind fun rc => ?_
  split
  · exact hx
  refine Returns.perform_bind fun rx => ?_
  cases rx with
  | error st => exact hx
  | ok rx =>
    dsimp only
    split
    · exact hx
    split
    · exact hx
    · exact hx

theorem reporterSendConfirmed_sameId (r : Reporter) (frame : Bytes) :
    (reporterSendConfirmed r frame).Returns fun x => r.SameId x.2 := by
  unfold reporterSendConfirmed
  split
  · exact .rfl
  split
  · exact .rfl
  refine Returns.bind (reporterAttempt_sameId r frame _ _ _ _) fun x hx => ?_
  dsimp only
  split
  · exact hx
  refine Returns.bind (reporterAttempt_sameId _ frame _ _ _ _) fun y hy => ?_
  split
  · exact hx.trans hy
  · exact hx.trans hy

theorem Reporter.sameId_dropConn (r : Reporter) (rc : Status) : r.SameId (r.dropConn rc) := by
  unfold dropConn
  split
  · exact ⟨rfl, rfl, rfl⟩
  · exact .rfl

def drainDeliver (r : Reporter) (f : Bytes) : RepM (Status × Reporter) :=
  match solariFrameParse f with
  | .error st => .ret (st, r)
  | .ok p =>
    if isDurableReport p.hdr.msgType then reporterSendConfirmed r f
    else if r.conn then do
      let rc ← Rep.sendPush f
      .ret (rc, r)
    else .ret (.errConnRetry, r)

theorem reporterDrain_succ (k : Nat) (r : Reporter) :
    reporterDrain (k + 1) r = Rep.spoolPeek >>= fun x => match x with
      | .error st => .ret (st, r)
      | .ok none => .ret (.ok, r)
      | .ok (some (rowId, f)) => drainDeliver r f >>= fun y =>
        if y.1 = .ok then Rep.spoolAck rowId >>= fun rc =>
          if rc ≠ .ok then .ret (rc, y.2) else reporterDrain k y.2
        else Rep.spoolNack rowId >>= fun _ => .ret (.ok, y.2.dropConn y.1) := by
  refine congrArg (Rep.spoolPeek >>= ·) (funext fun x => ?_)
  cases x with
  | error st => rfl
  | ok row =>
    cases row with
    | none => rfl
    | some row =>
      obtain ⟨rowId, f⟩ := row
      dsimp only
      unfold drainDeliver
      cases solariFrameParse f with
      | error st => rfl
      | ok p =>
        dsimp only
        split
        · rfl
        split
        · rfl
        · rfl

theorem drainDeliver_sameId (r : Reporter) (f : Bytes) :
    (drainDeliver r f).Returns fun x => r.SameId x.2 := by
  unfold drainDeliver
  split
  · exact .rfl
  split
  · exact reporterSendConfirmed_sameId r f
  split
  · exact Returns.perform_bind fun rc => .rfl
  · exact .rfl

theorem reporterDrain_sameId (k : Nat) (r : Reporter) :
    (reporterDrain k r).Returns fun x => r.SameId x.2 := by
  induction k generalizing r with
  | zero => exact .rfl
  | succ k ih =>
    rw [reporterDrain_succ]
    refine Returns.perform_bind fun x => ?_
    cases x with
    | error st => exact .rfl
    | ok row =>
      cases row with
      | none => exact .rfl
      | some row =>
        refine Returns.bind (drainDeliver_sameId r row.2) fun y hy => ?_
        split
        · refine Returns.perform_bind fun rc => ?_
          split
          · exact hy
          · exact (ih y.2).mono fun z hz => hy.trans hz
        · exact Returns.perform_bind fun _ => hy.trans (y.2.sameId_dropConn y.1)

theorem solariReporterDrain_sameId (r : Reporter) :
    (solariReporterDrain r).Returns fun x => r.SameId x.2 := by
  unfold solariReporterDrain
  split
  · exact reporterDrain_sameId _ r
  · exact .rfl

theorem reporterSpool_sameId (r : Reporter) (frame : Bytes) (st : Status) :
    (reporterSpool r frame st).Returns fun x => r.SameId x.2 := by
  unfold reporterSpool
  split
  · exact Returns.perform_bind fun rc => .rfl
  · exact .rfl

theorem solariReporterSend_sameId (r : Reporter) (frame : Bytes) :
    (solariReporterSend r frame).Returns fun x => r.SameId x.2 := by
  unfold solariReporterSend
  split
  · exact .rfl
  split
  · refine Returns.bind (reporterSendConfirmed_sameId r frame) fun x hx => ?_
    dsimp only
    split
    · exact Returns.bind (solariReporterDrain_sameId x.2) fun y hy => hx.trans hy
    · exact (reporterSpool_sameId x.2 frame x.1).mono fun y hy => hx.trans hy
  · split
    · refine Returns.perform_bind fun rc => ?_
      split
      · exact Returns.bind (solariReporterDrain_sameId r) fun y hy => hy
      · exact (reporterSpool_sameId _ frame _).mono fun y hy => (r.sameId_dropConn rc).trans hy
    · exact reporterSpool_sameId r frame _

theorem solariReporterConnect_sameId (r : Reporter) :
    (solariReporterConnect r).Returns fun x => r.SameId x.2 := by
  have hdial (r : Reporter) (url : CStr) (failover : Bool) :
      (dialUrl r url failover).Returns fun x => r.SameId x.2 := by
    refine Returns.perform_bind fun rc => ?_
    split
    · exact ⟨rfl, rfl, rfl⟩
    · exact .rfl
  unfold solariReporterConnect
  split
  · exact .rfl
  have hnext (x : Status × Reporter) (hx : r.SameId x.2) :
      Returns (fun x => r.SameId x.2) (if x.1 = .ok then (.ret (.ok, x.2) : RepM _)
        else if x.2.failoverUrl.isEmpty then .ret (.errConnRetry, x.2)
        else dialUrl x.2 x.2.failoverUrl true) := by
    split
    · exact hx
    split
    · exact hx
    · exact (hdial _ _ _).mono fun y hy => hx.trans hy
  split
  · exact hnext (.errConnRetry, r) .rfl
  · exact Returns.bind (hdial _ _ _) hnext

end SolariNet
