/-
# Who is active

The state machine around the lease row (`serverLease.c`).  A tick claims the lease, decides the role
from the result, and drives the three listeners to it; when a listener cannot be bound it gives the
role and the lease up again and stays away for a lifetime of the lease.

What other processes can see of a server are its sockets and its role, so binding, closing and the
assignment of the role are operations (`LoopOp`), beside those of the handlers (`SrvOp`).
-/
import SolariNet.Server.Ops

namespace SolariNet

open Lib Lib.Prog

inductive ServerRoleState where
  | standby
  | active
  deriving DecidableEq, Repr

inductive LoopOp where
  | srv (o : SrvOp)
  | close (l : Listener)
  | setRole (r : ServerRoleState)
  | tickBegins
  | claimReturned (r : Except Status (Bool × Nat))
  | boot

abbrev LoopOp.Res : LoopOp → Type
  | .srv o => SrvOp.Res o
  | _ => Unit

abbrev LoopM : Type → Type := Prog LoopOp LoopOp.Res

abbrev loop (o : LoopOp) : LoopM o.Res := Prog.perform o

def onServer {α : Type} : SrvM α → LoopM α
  | .ret a => .ret a
  | .call o k => .call (LoopOp.srv o) fun r => onServer (k r)

theorem onServer_lease_bind {α : Type} (o : LeaseOp) (f : o.Res → LeaseM α) :
    onServer (onLease (perform o >>= f)) =
      (loop (.srv (.lease o)) >>= fun r => onServer (onLease (f r))) := rfl

theorem onServer_uses {α : Type} {P : SrvOp → Prop} {p : SrvM α} (h : p.Uses P) :
    (onServer p).Uses fun o => ∃ s, o = .srv s ∧ P s := by
  induction p with
  | ret a => trivial
  | call o k ih => exact ⟨⟨o, rfl, h.1⟩, fun r => ih r (h.2 r)⟩

structure LeaseCfg where
  leaseTtlSec : UInt32
  leaseRenewSec : UInt32
  url : Listener → CStr

structure LeaseCtx where
  role : ServerRoleState
  epoch : Nat
  leaseRetryAfterMs : UInt64
  bound : Listener → Bool

def LeaseCtx.init : LeaseCtx := ⟨.standby, 0, 0, fun _ => false⟩

def serverLeaseDecide (wasActive : Bool) : Except Status (Bool × Nat) → ServerRoleState × Status
  | .ok (won, _) => (if won then .active else .standby, .ok)
  | .error claimRc => (.standby, if wasActive then .errLeaseLost else claimRc)

def serverLeaseBindOne (cfg : LeaseCfg) (l : Listener) (m : LeaseCtx) : LoopM (Status × LeaseCtx) :=
  if m.bound l then .ret (.ok, m)
  else if cfg.url l = [] then .ret (.ok, m)
  else do
    let rc ← loop (.srv (.bind l))
    if rc ≠ .ok then .ret (rc, m)
    else .ret (.ok, { m with bound := Function.update m.bound l true })

def serverLeaseUnbindOne (l : Listener) (m : LeaseCtx) : LoopM LeaseCtx :=
  if !m.bound l then .ret m
  else do
    loop (.close l)
    .ret { m with bound := Function.update m.bound l false }

def serverLeaseUnbindAll (m : LeaseCtx) : LoopM LeaseCtx := do
  let m ← serverLeaseUnbindOne .ingest m
  let m ← serverLeaseUnbindOne .control m
  serverLeaseUnbindOne .pub m

/-- A listener that cannot be bound takes the others down with it. -/
def bindOrUnbindAll (cfg : LeaseCfg) (l : Listener) (m : LeaseCtx)
    (next : LeaseCtx → LoopM (Status × LeaseCtx)) : LoopM (Status × LeaseCtx) := do
  let r ← serverLeaseBindOne cfg l m
  if r.1 ≠ .ok then do
    let m ← serverLeaseUnbindAll r.2
    .ret (r.1, m)
  else next r.2

def serverApplyRole (cfg : LeaseCfg) (m : LeaseCtx) : ServerRoleState → LoopM (Status × LeaseCtx)
  | .active =>
    bindOrUnbindAll cfg .ingest m fun m =>
    bindOrUnbindAll cfg .control m fun m =>
    bindOrUnbindAll cfg .pub m fun m => do
      loop (.setRole .active)
      .ret (.ok, { m with role := .active })
  | .standby => do
      let m ← serverLeaseUnbindAll m
      loop (.setRole .standby)
      .ret (.ok, { m with role := .standby })

structure TickResult where
  status : Status
  state : ServerRoleState
  epoch : Nat

def leaseWaits (m : LeaseCtx) : LoopM Bool :=
  if m.leaseRetryAfterMs = 0 then .ret false
  else do
    let nowMs ← loop (.srv .monotonicMs)
    .ret (nowMs < m.leaseRetryAfterMs)

/-- The role could not be taken: the lease that was won is given back, and not asked for again
before its lifetime is over. -/
def leaseBackOff (cfg : LeaseCfg) (self : UInt64) (claim : Except Status (Bool × Nat))
    (m : LeaseCtx) : LoopM LeaseCtx :=
  match claim with
  | .ok (true, epoch) => do
      let _ ← onServer (onLease (serverDbLeaseRelease self epoch))
      let nowMs ← loop (.srv .monotonicMs)
      .ret { m with leaseRetryAfterMs := nowMs + cfg.leaseTtlSec.toUInt64 * 1000 }
  | _ => .ret m

def adoptEpoch (role : ServerRoleState) (claim : Except Status (Bool × Nat)) (m : LeaseCtx) :
    LeaseCtx :=
  match role, claim with
  | .active, .ok (_, epoch) => { m with epoch := epoch }
  | _, _ => m

def leaseElect (cfg : LeaseCfg) (self : UInt64) (m : LeaseCtx) : LoopM (TickResult × LeaseCtx) := do
  let claim ← onServer (onLease (serverDbLeaseClaim self cfg.leaseTtlSec))
  loop (.claimReturned claim)
  let d := serverLeaseDecide (m.role == .active) claim
  let a ← serverApplyRole cfg m d.1
  if a.1 ≠ .ok then do
    let s ← serverApplyRole cfg a.2 .standby
    let m ← leaseBackOff cfg self claim s.2
    .ret (⟨a.1, .standby, m.epoch⟩, m)
  else
    let m := adoptEpoch d.1 claim a.2
    .ret (⟨d.2, d.1, m.epoch⟩, m)

def serverLeaseTick (cfg : LeaseCfg) (self : UInt64) (m : LeaseCtx) :
    LoopM (TickResult × LeaseCtx) := do
  loop .tickBegins
  let waits ← leaseWaits m
  if waits then .ret (⟨.errLeaseLost, .standby, m.epoch⟩, m)
  else leaseElect cfg self { m with leaseRetryAfterMs := 0 }

end SolariNet
