/-
# Staging a reimage and finishing it

`prov-stage.py` opens a run, cancels the other open runs of the machine and has `fleet-provision.sh`
write the boot profile of the machine's MAC; `prov-finish.py` runs on a timer, completes the runs
whose installation has started to answer, fails those that time out, and sweeps up profiles that are
armed for a run that has ended.

    prov_runs          queued → running → succeeded | failed | cancelled, forward only
    profile.env        names the run that the files of a MAC belong to
    mac-<MAC>.ipxe     arms the profile: the machine wipes itself at its next network boot
    named locks        one for each MAC, held around every write to its files; one for each run

Both programs are calls of `Lib.Calls` over operations (`FleetOp`) that can fail.  Rows of
`prov_runs` of another mode than `reimage` are left out.
-/
import SolariNet.Lib.Calls
import SolariNet.Lib.Text

namespace SolariNet.Fleet

open Lib

/-! ## Runs -/

abbrev RunId : Type := Nat

abbrev Mac : Type := String

inductive RunStatus where
  | queued
  | running
  | succeeded
  | failed
  | cancelled
  deriving DecidableEq, Repr

namespace RunStatus

def terminal : RunStatus → Bool
  | succeeded | failed | cancelled => true
  | queued | running => false

def forward : RunStatus → RunStatus → Bool
  | queued, running | queued, failed | queued, cancelled => true
  | running, succeeded | running, failed | running, cancelled => true
  | _, _ => false

theorem terminal_of_forward (h : forward a b = true) : a.terminal = false := by
  cases a with
  | queued | running => rfl
  | succeeded | failed | cancelled => cases b <;> cases h

theorem terminal_of_not_cancellable (h : forward a cancelled = false) :
    a.terminal = true := by
  cases a with
  | queued | running => cases h
  | succeeded | failed | cancelled => rfl

def text : RunStatus → String
  | queued => "queued"
  | running => "running"
  | succeeded => "succeeded"
  | failed => "failed"
  | cancelled => "cancelled"

end RunStatus

structure RunRow where
  entity : Nat
  dryRun : Bool
  status : RunStatus

def detailStaging : String := "staging netboot install"

def clip (detail : String) : String :=
  String.ofList (([' '].intercalate (words Char.isWhitespace detail.toList)).take 255)

def cut (n : Nat) (detail : String) : String := String.ofList (detail.toList.take n)

/-! ### The number of the attempt in a detail -/

def digits (t : List Char) : List Char × List Char := t.span Char.isDigit

def eat (w : String) (t : List Char) : Option (List Char) :=
  if w.toList.isPrefixOf t then some (t.drop w.length) else none

/-- `\(attempt ([0-9]+) of [0-9]+\)` at the start of the text. -/
def attemptAt (t : List Char) : Option Nat := do
  let (number, rest) := digits (← eat "(attempt " t)
  let (total, rest) := digits (← eat " of " rest)
  let _ ← eat ")" rest
  if number = [] ∨ total = [] then none
  else some (number.foldl (fun n c => n * 10 + (c.toNat - '0'.toNat)) 0)

def lastAttempt : List Char → Option Nat
  | [] => none
  | c :: cs =>
    if c = '\n' then none
    else match lastAttempt cs with
      | some n => some n
      | none => attemptAt (c :: cs)

def attemptOf (detail : String) : Option Nat := (eat "installed; " detail.toList).bind lastAttempt

example : attemptOf "installed; apply pass (attempt 2 of 3)" = some 2 := by decide +kernel

/-! ## Operations -/

inductive FleetLock where
  | mac (m : Mac)
  | finish (run : RunId)
  deriving DecidableEq, Repr

inductive File where
  | ipxe
  | xml
  | preseed
  | stackJson
  | userData
  | metaData
  | profileEnv
  | finishedEnv (run : RunId)
  | disarmedEnv (run : RunId)
  | disarmedIpxe (run : RunId)
  deriving DecidableEq, Repr

inductive Script where
  | stage (run : RunId)
  | clean (run : RunId)
  deriving DecidableEq, Repr

inductive Distro where
  | debian
  | ubuntu
  | opensuse
  deriving DecidableEq, Repr

structure Target where
  distro : Distro
  family : String
  arch : String

structure Record where
  run : RunId
  entity : Nat
  cfgkey : Mac
  family : String
  arch : String

structure PendingRow where
  id : RunId
  entity : Nat
  detail : String
  age : Nat

inductive LockAnswer where
  | got
  | refused
  | error
  deriving DecidableEq

inductive Advanced where
  | done
  | missing
  | notForward (current : RunStatus)
  | refused (message : String)
  | error

inductive Gate (α : Type) where
  | ran (a : α)
  | stopped (status : Option RunStatus)
  | error

inductive RecordAnswer where
  | found (rec : Record)
  | absent
  | malformed
  | unreadable

/-- The operations.  `openRun` is told the MAC only for the history; `ready` and `sharedFiles` are
the parts of `fleet-provision.sh` that write no file of the MAC. -/
inductive FleetOp where
  | prepare
  | openRun (entity : Nat) (mac : Mac)
  | selectOpen (entity : Nat) (except : RunId)
  | status (run : RunId)
  | advance (run : RunId) (status : RunStatus) (detail : String)
  | setDetail (run : RunId) (detail : String)
  | setRunningDetail (run : RunId) (detail : String)
  | step (run : RunId) (detail : String)
  | bootstrap (run : RunId) (detail : String)
  | probeFacts (run : RunId) (detail : String)
  | playbook (run : RunId) (check : Bool) (detail : String)
  | pendingRuns (only : Option RunId)
  | selectTerminal (runs : List RunId)
  | getLock (l : FleetLock)
  | releaseLock (l : FleetLock)
  | close
  | requireStore
  | writeVars (run : RunId)
  | writeRecord (run : RunId) (rec : Record)
  | readRecord (run : RunId)
  | readMarker (run : RunId)
  | forget (run : RunId)
  | spawn (run : RunId) (mac : Mac)
  | ready
  | sharedFiles
  | mkdir (mac : Mac)
  | put (mac : Mac) (f : File) (run : RunId)
  | rm (s : Script) (mac : Mac) (fs : List File)
  | mv (s : Script) (mac : Mac) (source target : File)
  | test (mac : Mac) (f : File)
  | grepRun (mac : Mac) (run : RunId)
  | owner (mac : Mac)
  | glob

abbrev FleetRes : FleetOp → Type
  | .prepare => Option Target
  | .openRun _ _ => Option RunId
  | .selectOpen _ _ => Option (List RunId)
  | .status _ => Option (Option RunStatus)
  | .advance _ _ _ => Advanced
  | .setDetail _ _ => Bool
  | .setRunningDetail _ _ => Bool
  | .step _ _ => Gate Unit
  | .bootstrap _ _ => Gate Bool
  | .probeFacts _ _ => Gate (Option (String × String))
  | .playbook _ _ _ => Gate Bool
  | .pendingRuns _ => Option (List PendingRow)
  | .selectTerminal _ => Option (List RunId)
  | .getLock _ => LockAnswer
  | .releaseLock _ => Unit
  | .close => Unit
  | .requireStore => Bool
  | .writeVars _ => Bool
  | .writeRecord _ _ => Bool
  | .readRecord _ => RecordAnswer
  | .readMarker _ => Option (Option RunId)
  | .forget _ => Unit
  | .spawn _ _ => Bool
  | .ready => Bool
  | .sharedFiles => Bool
  | .mkdir _ => Bool
  | .put _ _ _ => Bool
  | .rm _ _ _ => Bool
  | .mv _ _ _ _ => Bool
  | .test _ _ => Option Bool
  | .grepRun _ _ => Option Bool
  | .owner _ => Option (Option RunId)
  | .glob => Option (List Mac)

inductive FleetErr where
  | prov (message : String)
  | macBusy (message : String)
  | retry (why : String)
  | superseded (why : String)
  | other (type : String)
  deriving DecidableEq, Repr

abbrev FleetM : Type → Type := Call FleetOp FleetRes FleetErr

open Call

abbrev act (o : FleetOp) : FleetM (FleetRes o) := op o

def databaseError : FleetErr := .other "OperationalError"

/-! ## `provlib.py` -/

def macLock {α : Type} (mac : Mac) (shown : String) (body : FleetM α) : FleetM α := do
  match ← act (.getLock (.mac mac)) with
  | .got => after body (.releaseLock (.mac mac))
  | .refused =>
    throw (.macBusy s!"another provisioning step holds MAC {shown}; try again shortly")
  | .error => throw databaseError

def advanceRun (run : RunId) (status : RunStatus) (detail : String) : FleetM Unit := do
  match ← act (.advance run status detail) with
  | .done => return ()
  | .missing => throw (.prov s!"prov_runs {run} does not exist")
  | .notForward current =>
    throw (.prov (s!"prov_runs {run}: " ++ current.text ++ " -> " ++ status.text ++
      " is not a forward move"))
  | .refused message => throw (.prov message)
  | .error => throw databaseError

def runStatus (run : RunId) : FleetM (Option RunStatus) := do
  getOr (← act (.status run)) databaseError

inductive How where
  | finish
  | disarm
  deriving DecidableEq, Repr

def How.marker : How → RunId → File
  | finish, run => .finishedEnv run
  | disarm, run => .disarmedEnv run

inductive Word where
  | done
  | already
  | foreign
  deriving DecidableEq, Repr

def unstagingFailed (mac : Mac) : FleetErr := .prov s!"un-staging {mac} failed"

def probe (e : FleetErr) (x : FleetM (Option Bool)) : FleetM Bool := do
  getOr (← x) e

def command (e : FleetErr) (x : FleetM Bool) : FleetM Unit := do
  require ((← x) = true) e

def keepIpxe (run : RunId) (mac : Mac) (how : How) : FleetM Unit := do
  if how = .disarm then
    if ← probe (unstagingFailed mac) (act (.test mac .ipxe)) then
      command (unstagingFailed mac) (act (.mv (.clean run) mac .ipxe (.disarmedIpxe run)))

def removeProfile (run : RunId) (mac : Mac) (how : How) : FleetM Word := do
  keepIpxe run mac how
  command (unstagingFailed mac) (act (.rm (.clean run) mac [.ipxe, .xml, .preseed, .stackJson]))
  command (unstagingFailed mac) (act (.rm (.clean run) mac [.userData, .metaData]))
  command (unstagingFailed mac) (act (.mv (.clean run) mac .profileEnv (how.marker run)))
  return .done

def unstageProfile (run : RunId) (mac : Mac) (how : How) : FleetM Word := do
  if ← probe (unstagingFailed mac) (act (.test mac (.finishedEnv run))) then return .already
  else if ← probe (unstagingFailed mac) (act (.test mac (.disarmedEnv run))) then return .already
  else if ← probe (unstagingFailed mac) (act (.test mac .profileEnv)) then
    if ← probe (unstagingFailed mac) (act (.grepRun mac run)) then removeProfile run mac how
    else return .foreign
  else return .foreign

def profileOwner (mac : Mac) : FleetM (Option RunId) := do
  getOr (← act (.owner mac)) (.prov s!"cannot read the {mac} profile owner")

def isStale (owner : RunId) (own : Option RunId) : FleetM Bool := do
  if own = some owner then return true
  else
    match ← runStatus owner with
    | none => return false
    | some status => return status.terminal

def disarmStaleProfile (mac : Mac) (own : Option RunId) : FleetM (Option RunId) :=
  macLock mac mac do
    match ← profileOwner mac with
    | none => return none
    | some owner =>
      if ← isStale owner own then
        let _ ← unstageProfile owner mac .disarm
        return some owner
      else return none

def cannotList : FleetErr := .prov "cannot list armed boot profiles"

def armedFor (mac : Mac) : FleetM (Option RunId) := do
  if ← probe cannotList (act (.test mac .profileEnv)) then
    if ← probe cannotList (act (.test mac .ipxe)) then
      getOr (← act (.owner mac)) cannotList
    else return none
  else return none

def armedAmong : List Mac → FleetM (List (Mac × RunId))
  | [] => return []
  | mac :: macs => do
      let owner ← armedFor mac
      let rest ← armedAmong macs
      match owner with
      | none => return rest
      | some run => return (mac, run) :: rest

def armedProfiles : FleetM (List (Mac × RunId)) := do
  armedAmong (← getOr (← act .glob) cannotList)

/-! ## `fleet-provision.sh` -/

def provisionFailed : FleetErr := .prov "fleet-provision failed (exit 1)"

def putConfig (run : RunId) (mac : Mac) : Distro → FleetM Unit
  | .debian => command provisionFailed (act (.put mac .preseed run))
  | .opensuse => command provisionFailed (act (.put mac .xml run))
  | .ubuntu => do
      command provisionFailed (act (.put mac .userData run))
      command provisionFailed (act (.put mac .metaData run))

/-- The script with `--run-id`: the old boot profile goes first, the new one comes last. -/
def fleetProvision (run : RunId) (mac : Mac) (distro : Distro) : FleetM Unit := do
  command provisionFailed (act .ready)
  command provisionFailed (act (.rm (.stage run) mac [.ipxe]))
  putConfig run mac distro
  command provisionFailed (act .sharedFiles)
  command provisionFailed (act (.mkdir mac))
  command provisionFailed (act (.put mac .profileEnv run))
  command provisionFailed (act (.rm (.stage run) mac [.stackJson]))
  command provisionFailed (act (.put mac .ipxe run))

/-! ## `prov-stage.py` -/

structure StageArgs where
  entity : Nat
  mac : Mac

def colons (mac : Mac) : String :=
  String.ofList (mac.toList.map fun c => if c = '-' then ':' else c)

def supersedeEach (run : RunId) : List RunId → FleetM Unit
  | [] => return ()
  | old :: rest => do
      tryCatch (advanceRun old .cancelled s!"superseded by run {run}") fun e =>
        match e with
        | .prov _ | .macBusy _ => return ()
        | e => throw e
      supersedeEach run rest

def supersede (entity : Nat) (run : RunId) : FleetM Unit := do
  supersedeEach run (← getOr (← act (.selectOpen entity run)) databaseError)

def publishRun (run : RunId) (rec : Record) : FleetM Unit := do
  command (.prov "sh failed") (act (.writeVars run))
  command (.prov "sh failed") (act (.writeRecord run rec))

def stage (run : RunId) (mac : Mac) (distro : Distro) : FleetM Unit := do
  command (.prov "provisioning image store not mounted") (act .requireStore)
  command (.prov "cannot run fleet-provision") (act (.spawn run mac))
  fleetProvision run mac distro

def setRunningDetail (run : RunId) (detail : String) : FleetM Unit :=
  command databaseError (act (.setRunningDetail run detail))

def FleetErr.detail : FleetErr → String
  | .prov message | .macBusy message => message
  | .retry _ => "internal error: Retry"
  | .superseded _ => "internal error: Superseded"
  | .other type => s!"internal error: {type}"

def bestEffort {α : Type} (x : FleetM α) : FleetM Unit :=
  tryCatch (do let _ ← x; return ()) fun _ => return ()

def giveUp (run : RunId) (mac : Mac) (e : FleetErr) : FleetM Nat := do
  bestEffort (advanceRun run .failed e.detail)
  match e with
  | .macBusy _ => return 1
  | .prov _ => do
      bestEffort (disarmStaleProfile mac (some run))
      return 1
  | e => do
      bestEffort (disarmStaleProfile mac (some run))
      throw e

def stageRun (args : StageArgs) (target : Target) (run : RunId) : FleetM Nat :=
  tryCatch
    (do
      supersede args.entity run
      publishRun run ⟨run, args.entity, args.mac, target.family, target.arch⟩
      macLock args.mac (colons args.mac) (stage run args.mac target.distro)
      setRunningDetail run "staged; awaiting netboot install"
      return 0)
    (giveUp run args.mac)

def provStage (args : StageArgs) : FleetM Nat :=
  after
    (do
      match ← act .prepare with
      | none => return 1
      | some target =>
        let run ← getOr (← act (.openRun args.entity args.mac)) databaseError
        stageRun args target run)
    .close

/-! ## `prov-finish.py` -/

/-- `SOLARI_PROV_INSTALL_TIMEOUT`, in seconds and as it is shown in hours, and
`SOLARI_PROV_APPLY_ATTEMPTS`. -/
structure FinishConfig where
  installTimeout : Nat
  timeoutHours : String
  attempts : Nat

inductive Outcome where
  | staging
  | failed
  | waiting
  | busy
  | superseded
  | retry
  | succeeded
  deriving DecidableEq, Repr

def pendingRuns (only : Option RunId) : FleetM (List PendingRow) := do
  getOr (← act (.pendingRuns only)) databaseError

def setDetail (run : RunId) (detail : String) : FleetM Unit :=
  command databaseError (act (.setDetail run detail))

def finish (run : RunId) (status : RunStatus) (detail : String) : FleetM Unit :=
  tryCatch (advanceRun run status detail) fun e =>
    match e with
    | .prov _ | .macBusy _ => return ()
    | e => throw e

def unstage (run : RunId) (mac : Mac) (how : How) : FleetM Word :=
  macLock mac mac (unstageProfile run mac how)

def passed {α : Type} : Gate α → FleetM α
  | .ran a => return a
  | .stopped none => throw (.superseded "run is gone")
  | .stopped (some status) => throw (.superseded ("run is " ++ status.text))
  | .error => throw databaseError

def asRetry {α : Type} (x : FleetM α) : FleetM α :=
  tryCatch x fun e =>
    match e with
    | .prov message => throw (.retry message)
    | e => throw e

def applyStacks (rec : Record) (run : RunId) (suffix : String) : FleetM Unit := do
  let ready ← passed (← act (.bootstrap run ("installed; bootstrapping python3" ++ suffix)))
  require (ready = true) (.retry "python3 bootstrap failed")
  let facts ← passed (← act (.probeFacts run ("installed; checking facts" ++ suffix)))
  let (family, arch) ← getOr facts (.retry "cannot read the facts")
  require ((family, arch) = (rec.family, rec.arch)) (.retry
    ("installed system reports " ++ family ++ "/" ++ arch ++ ", expected " ++ rec.family ++ "/" ++
      rec.arch))
  let checked ← passed (← act (.playbook run true ("installed; check pass" ++ suffix)))
  require (checked = true) (.retry "stack check pass failed")
  let applied ← passed (← act (.playbook run false ("installed; apply pass" ++ suffix)))
  require (applied = true) (.retry "stack apply pass failed")

def complete (rec : Record) (run : RunId) (suffix : String) : FleetM Unit := do
  passed (← act (.step run ("installed; applying stacks" ++ suffix)))
  let word ← asRetry (unstage run rec.cfgkey .finish)
  require (word ≠ .foreign) (.superseded "a newer staging owns the boot profile")
  applyStacks rec run suffix

def retry (cfg : FinishConfig) (run : RunId) (n : Nat) (why : String) : FleetM Outcome := do
  let why := cut 160 why
  let count := s!"(attempt {n} of " ++ toString cfg.attempts ++ ")"
  if cfg.attempts ≤ n then
    finish run .failed ("installed; " ++ why ++ "; stacks not applied " ++ count)
    return .failed
  else
    setDetail run ("installed; " ++ why ++ "; retrying " ++ count)
    return .retry

def settle (cfg : FinishConfig) (run : RunId) (started : Nat) (e : FleetErr) : FleetM Outcome :=
  match e with
  | .macBusy message => do
      setDetail run ("installed; " ++ message ++ "; deferred" ++
        if started = 0 then "" else s!" (attempt {started} of " ++ toString cfg.attempts ++ ")")
      return .busy
  | .superseded why => do
      finish run .cancelled ("superseded: " ++ why ++ "; stacks not applied")
      return .superseded
  | .retry why => retry cfg run (started + 1) why
  | e => throw e

def completeRun (cfg : FinishConfig) (rec : Record) (run : RunId) (started : Nat) :
    FleetM Outcome := do
  let ended ← tryCatch
    (do
      complete rec run (s!" (attempt {started + 1} of " ++ toString cfg.attempts ++ ")")
      return none)
    (fun e => some <$> settle cfg run started e)
  match ended with
  | some outcome => return outcome
  | none =>
    finish run .succeeded "installed; stacks applied"
    act (.forget run)
    return .succeeded

def countAttempt (cfg : FinishConfig) (run : RunId) (installed : Bool) (n : Nat) : FleetM Unit :=
  if installed then
    setDetail run (s!"installed; probing host (attempt {n} of " ++ toString cfg.attempts ++ ")")
  else return ()

def probeRun (cfg : FinishConfig) (rec : Record) (run : RunId) (installed : Bool)
    (started : Nat) : FleetM Outcome := do
  if cfg.attempts ≤ started then
    finish run .failed (s!"installed; stacks not applied (attempt {started} of " ++
      toString cfg.attempts ++ " ended without a result)")
    return .failed
  else
    countAttempt cfg run installed (started + 1)
    let marker ← getOr (← act (.readMarker run)) (.prov "cannot probe the host")
    if marker = some run then completeRun cfg rec run started
    else if installed then retry cfg run (started + 1) "installed host not reachable"
    else return .waiting

def timeOut (cfg : FinishConfig) (rec : Record) (run : RunId) : FleetM Outcome := do
  let word ← unstage run rec.cfgkey .disarm
  finish run .failed ("install not detected within " ++ cfg.timeoutHours ++ " h; boot profile " ++
    (if word = .foreign then "left to the newer staging" else "disarmed") ++
    "; re-stage to retry")
  return .failed

def process (cfg : FinishConfig) (row : PendingRow) : FleetM Outcome := do
  let installed := "installed;".toList.isPrefixOf row.detail.toList
  let timedOut := !installed && decide (cfg.installTimeout < row.age)
  if row.detail = detailStaging ∧ timedOut = false then return .staging
  else
    match ← act (.readRecord row.id) with
    | .unreadable => throw (.prov "cannot read the run record")
    | .malformed => do
        finish row.id .failed "run record is malformed or does not match the run"
        return .failed
    | .absent => do
        finish row.id .failed
          (if row.detail = detailStaging then
            "staging never completed (no run record); re-stage to retry"
          else "staged before completion tracking (no run record); re-stage to retry")
        return .failed
    | .found rec =>
      if ¬ (rec.run = row.id ∧ rec.entity = row.entity) then do
        finish row.id .failed "run record is malformed or does not match the run"
        return .failed
      else if timedOut then timeOut cfg rec row.id
      else probeRun cfg rec row.id installed ((attemptOf row.detail).getD 0)

def processLocked (cfg : FinishConfig) (run : RunId) : FleetM Nat :=
  tryCatch
    (do
      match ← pendingRuns (some run) with
      | [] => return 0
      | fresh :: _ => do
          let _ ← process cfg fresh
          return 0)
    fun e =>
      match e with
      | .macBusy _ => return 0
      | _ => return 1

def processEach (cfg : FinishConfig) : List PendingRow → FleetM Nat
  | [] => return 0
  | row :: rows => do
      match ← act (.getLock (.finish row.id)) with
      | .error => throw databaseError
      | .refused => processEach cfg rows
      | .got =>
        let rc ← after (processLocked cfg row.id) (.releaseLock (.finish row.id))
        let rest ← processEach cfg rows
        return max rc rest

def sweepEach (done : List RunId) : List (Mac × RunId) → FleetM Nat
  | [] => return 0
  | (mac, run) :: rest => do
      if run ∈ done then
        let owner ← tryCatch (disarmStaleProfile mac none) fun e =>
          match e with
          | .macBusy _ => return none
          | e => throw e
        let n ← sweepEach done rest
        return if owner.isSome then n + 1 else n
      else sweepEach done rest

def sweepArmed : FleetM Nat := do
  let armed ← armedProfiles
  if armed = [] then return 0
  else
    let done ← getOr (← act (.selectTerminal (armed.map (·.2)))) databaseError
    sweepEach done armed

/-- `main` after the connection is open, for the runs of this mode: the exit code. -/
def provFinish (cfg : FinishConfig) (only : Option RunId) : FleetM Nat :=
  after
    (do
      let rows ← pendingRuns only
      let rc ← processEach cfg rows
      tryCatch
        (do
          let _ ← sweepArmed
          return rc)
        fun _ => return 1)
    .close

end SolariNet.Fleet
