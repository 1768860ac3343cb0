/-
# The watchdog sibling

`clientWatchdog.c`: a second process of the agent.  Every interval it looks whether the client is
alive; if so it pushes a heartbeat under the agent's node id, numbered by a counter of its own
that starts at zero with the process.  If the client is gone it starts a new one and ends.

What the process asks of its surroundings are operations (`WatchdogOp`), so one turn of the loop
is a program.
-/
import SolariNet.Lib.Prog
import SolariNet.Wire.Frame

namespace SolariNet

open Lib Lib.Prog

inductive WatchdogOp where
  | sleepMs (ms : UInt32)
  | processAlive
  | connect
  | now
  | send (frame : Bytes)
  | spawnSelf

abbrev WatchdogOp.Res : WatchdogOp → Type
  | .sleepMs _ => Unit
  | .processAlive => Except Status Bool
  | .connect => Bool
  | .now => UInt64
  | .send _ | .spawnSelf => Status

abbrev WatchdogM : Type → Type := Prog WatchdogOp WatchdogOp.Res

structure Watchdog where
  conn : Bool
  seq : UInt32

def clientWatchdogSupervisedGone : WatchdogM Bool := do
  match ← perform WatchdogOp.processAlive with
  | .error _ => .ret true
  | .ok alive => .ret !alive

def heartbeatHeader (nodeId : UInt64) (seq : UInt32) (time : UInt64) : FrameHeader :=
  { msgType := Msg.watchdog, tlvCount := 0, sourceNodeId := nodeId, sendTimeUnixMs := time,
    seqNo := seq }

def clientWatchdogBuildHeartbeat (nodeId : UInt64) (seq : UInt32) (cap : Nat) :
    WatchdogM (Except Status Bytes) := do
  let time ← perform WatchdogOp.now
  .ret (solariFrameBuild (heartbeatHeader nodeId seq time) [] cap)

def watchdogBeat (nodeId : UInt64) (seq : UInt32) : WatchdogM Watchdog := do
  match ← clientWatchdogBuildHeartbeat nodeId (seq + 1) 64 with
  | .error _ => .ret ⟨true, seq + 1⟩
  | .ok frame =>
    let rc ← perform (WatchdogOp.send frame)
    .ret ⟨rc != .errConnFatal, seq + 1⟩

def watchdogConnected (w : Watchdog) : WatchdogM Bool :=
  if w.conn then .ret true else perform WatchdogOp.connect

/-- One turn of the loop of `clientWatchdogMain`: the process ends with a code, or goes on. -/
def watchdogTurn (interval : UInt32) (nodeId : UInt64) (w : Watchdog) :
    WatchdogM (Except Int Watchdog) := do
  let _ ← perform (WatchdogOp.sleepMs ((if interval = 0 then 5 else interval) * 1000))
  if ← clientWatchdogSupervisedGone then
    let rc ← perform WatchdogOp.spawnSelf
    .ret (.error (if rc = .ok then 0 else 1))
  else
    let conn ← watchdogConnected w
    if conn then
      let w ← watchdogBeat nodeId w.seq
      .ret (.ok w)
    else .ret (.ok ⟨false, w.seq⟩)

/-! ## What is sent -/

abbrev WatchdogTrace : Type := List (Event WatchdogOp WatchdogOp.Res)

def sentFrames (t : WatchdogTrace) : List Bytes :=
  t.filterMap fun e => match e with
    | ⟨.send frame, _⟩ => some frame
    | _ => none

theorem sentFrames_append (t u : WatchdogTrace) :
    sentFrames (t ++ u) = sentFrames t ++ sentFrames u := List.filterMap_append

theorem heartbeat_framed (nodeId : UInt64) (seq : UInt32) (time : UInt64) :
    Framed (heartbeatHeader nodeId seq time) [] := by
  refine ⟨by decide, ?_, rfl⟩
  simp [frameValidateHeader, heartbeatHeader, unsupportedFlags]

variable {t : WatchdogTrace}

theorem clientWatchdogBuildHeartbeat_runs {nodeId : UInt64} {seq : UInt32}
    (h : Runs (clientWatchdogBuildHeartbeat nodeId seq 64) t res) :
    ∃ time, t = [⟨.now, time⟩] ∧ res = .ok (frameBytes (heartbeatHeader nodeId seq time) []) := by
  obtain ⟨time, t', rfl, hret⟩ := Runs.perform_bind_iff.1 h
  cases hret
  refine ⟨time, rfl, solariFrameBuild_of_framed (heartbeat_framed nodeId seq time) ?_⟩
  decide

theorem watchdogBeat_runs {nodeId : UInt64} {seq : UInt32}
    (h : Runs (watchdogBeat nodeId seq) t w) :
    w.seq = seq + 1 ∧
      ∃ time, sentFrames t = [frameBytes (heartbeatHeader nodeId (seq + 1) time) []] := by
  obtain ⟨t₁, t₂, res, rfl, hb, hsend⟩ := Runs.bind_iff.1 h
  obtain ⟨time, rfl, rfl⟩ := clientWatchdogBuildHeartbeat_runs hb
  obtain ⟨rc, t₃, rfl, hret⟩ := Runs.perform_bind_iff.1 hsend
  cases hret
  exact ⟨rfl, time, rfl⟩

theorem watchdogTurn_sent {interval : UInt32} {nodeId : UInt64}
    (h : Runs (watchdogTurn interval nodeId w) t (.ok w')) :
    (sentFrames t = [] ∧ w'.seq = w.seq) ∨ w'.seq = w.seq + 1 ∧
      ∃ time, sentFrames t = [frameBytes (heartbeatHeader nodeId (w.seq + 1) time) []] := by
  obtain ⟨_, t₁, rfl, h₁⟩ := Runs.perform_bind_iff.1 h
  obtain ⟨t₂, t₃, gone, rfl, hgone, h₃⟩ := Runs.bind_iff.1 h₁
  have hsent₂ : sentFrames t₂ = [] := by
    obtain ⟨alive, t', rfl, hret⟩ := Runs.perform_bind_iff.1 hgone
    cases alive <;> rw [(Runs.ret_iff.1 hret).1] <;> rfl
  split at h₃
  · obtain ⟨rc, t', rfl, hret⟩ := Runs.perform_bind_iff.1 h₃
    cases hret
  obtain ⟨t₄, t₅, conn, rfl, hconn, h₅⟩ := Runs.bind_iff.1 h₃
  have hsent₄ : sentFrames t₄ = [] := by
    unfold watchdogConnected at hconn
    split at hconn
    · rw [(Runs.ret_iff.1 hconn).1]
      rfl
    obtain ⟨c, t', rfl, hret⟩ := Runs.call_iff.1 hconn
    rw [(Runs.ret_iff.1 hret).1]
    rfl
  have hsent (e : Event WatchdogOp WatchdogOp.Res) (he : sentFrames [e] = []) :
      sentFrames (e :: (t₂ ++ (t₄ ++ t₅))) = sentFrames t₅ := by
    rw [← List.singleton_append, sentFrames_append, sentFrames_append, sentFrames_append, he,
      hsent₂, hsent₄]
    rfl
  split at h₅
  · obtain ⟨t₆, t₇, w'', rfl, hbeat, hret⟩ := Runs.bind_iff.1 h₅
    obtain ⟨rfl, hw⟩ := Runs.ret_iff.1 hret
    cases hw
    obtain ⟨hseq, time, hframe⟩ := watchdogBeat_runs hbeat
    refine .inr ⟨hseq, time, ?_⟩
    rw [hsent _ rfl, List.append_nil, hframe]
  · obtain ⟨rfl, hw⟩ := Runs.ret_iff.1 h₅
    cases hw
    exact .inl ⟨hsent _ rfl, rfl⟩

end SolariNet
