/-
# Generate, publish and activate a CRL

The three programs under `deploy/crl`.  `generate_crl.py` signs the revocation ledger of one issuer
into a file, `publish_crl.py` puts that file where it is served, and `activate_crl.py` fetches it
and installs it behind the trusted certificates of a service.  A CRL is its DER form; what OpenSSL
reads off it is a parameter (`X509`).

    generate   ledger            →  output file      under the lock of the output file
    publish    output file       →  public file      under the lock of the public file
    activate   the served file   →  active bundle    under the lock of the bundle

Each program is a call of `Lib.Calls` over operations (`CrlOp`) that can fail.
-/
import Mathlib.Data.List.DropRight
import SolariNet.Lib.Calls
import SolariNet.Lib.Text
import SolariNet.Wire.Basic

namespace SolariNet.Crl

open List Lib

/-! ## The ledger -/

structure LedgerRow where
  serial : String
  reason : String
  revokedAt : Int
  deriving DecidableEq, Repr

/-- `serial.upper().lstrip("0") or "0"`. -/
def canonicalSerial (serial : String) : String :=
  let digits := (serial.toList.map Char.toUpper).dropWhile (· = '0')
  if digits = [] then "0" else String.ofList digits

def serialsOf (rows : List LedgerRow) : List String := rows.map fun r => canonicalSerial r.serial

def canonicalRows : List LedgerRow → List String → Except String (List LedgerRow)
  | [], _ => .ok []
  | row :: rows, seen =>
    let canonical := canonicalSerial row.serial
    if canonical ∈ seen then .error "revocation ledger repeats a serial for the configured CA"
    else do
      let rest ← canonicalRows rows (canonical :: seen)
      return ⟨canonical, row.reason, row.revokedAt⟩ :: rest

def bySerial (a b : LedgerRow) : Bool := a.serial ≤ b.serial

def readRows (rows : List LedgerRow) : Except String (List LedgerRow) := do
  return (← canonicalRows rows []).mergeSort bySerial

theorem canonicalSerial_idem (s : String) :
    canonicalSerial (canonicalSerial s) = canonicalSerial s := by
  unfold canonicalSerial
  simp only
  split
  · rfl
  next hne =>
  have hmap : ((s.toList.map Char.toUpper).dropWhile (· = '0')).map Char.toUpper =
      (s.toList.map Char.toUpper).dropWhile (· = '0') := by
    refine (map_congr_left fun c hc => ?_).trans (map_id _)
    obtain ⟨d, -, rfl⟩ := mem_map.1 (dropWhile_subset _ hc)
    exact toUpper_toUpper d
  rw [String.toList_ofList, hmap, dropWhile_idempotent, if_neg hne]

theorem canonicalRows_serials {rows read : List LedgerRow} {seen : List String}
    (h : canonicalRows rows seen = .ok read) : serialsOf read = serialsOf rows := by
  induction rows generalizing seen read with
  | nil =>
    cases h
    rfl
  | cons row rows ih =>
    obtain ⟨-, h⟩ := guard_ok.1 h
    obtain ⟨rest, hrest, h⟩ := bind_ok h
    cases h
    have htail := ih hrest
    simp only [serialsOf] at htail
    simp only [serialsOf, map_cons, canonicalSerial_idem, htail]

theorem readRows_serials {rows read : List LedgerRow} (h : readRows rows = .ok read)
    (s : String) : s ∈ serialsOf read ↔ s ∈ serialsOf rows := by
  obtain ⟨canonical, hcanonical, h⟩ := bind_ok h
  cases h
  rw [← canonicalRows_serials hcanonical, serialsOf, serialsOf, mem_map, mem_map]
  simp only [mem_mergeSort]

/-! ## OpenSSL -/

/-- What OpenSSL reads off a CRL; the serials are canonical, times in milliseconds. -/
structure X509 where
  number : Bytes → Option Nat
  serials : Bytes → List String
  lastUpdate : Bytes → Int
  nextUpdate : Bytes → Int

def minute : Int := 60000
def hour : Int := 60 * minute
def day : Int := 24 * hour

structure IndexLine where
  revokedAt : Int
  reason : Option String
  serial : String

def reasons : List String :=
  ["unspecified", "keyCompromise", "affiliationChanged", "superseded", "cessationOfOperation"]

def isSerial (s : String) : Bool :=
  1 ≤ s.length && s.length ≤ 40 &&
    s.toList.all fun c => c.isDigit || ('a' ≤ c && c ≤ 'f') || ('A' ≤ c && c ≤ 'F')

def crlIndex (now : Int) (revocations : List LedgerRow) : Except String (List IndexLine) :=
  (revocations.mergeSort bySerial).mapM fun row =>
    if isSerial row.serial = false ∨ row.reason ∉ reasons ∨ row.revokedAt ≤ 0 then
      .error "revocation ledger contains malformed serial, reason, or time"
    else if row.revokedAt > now + minute then
      .error "revocation ledger contains a future timestamp"
    else
      let serial := canonicalSerial row.serial
      .ok ⟨row.revokedAt, if row.reason = "unspecified" then none else some row.reason,
        if serial.length % 2 = 1 then "0" ++ serial else serial⟩

/-! ## Operations -/

inductive CrlLock where
  | output
  | served
  | active
  deriving DecidableEq, Repr

inductive Check where
  | configured
  | inventoryComplete
  | otherIssuers
  | verifies (crl : Bytes)
  | synced
  | published (number : Nat)
  | issuerInBundle (base : Bytes)
  | fits (base crl : Bytes)
  | receiptMode
  | withinBudget
  | restarted (service : String)
  deriving DecidableEq, Repr

structure Bundle where
  base : Bytes
  crls : List Bytes
  deriving DecidableEq, Repr

structure Receipt where
  number : Nat
  crl : Bytes
  deriving DecidableEq, Repr

/-- The operations.  `start` and `activated` do nothing; they mark where a generation starts and
where an activation has succeeded. -/
inductive CrlOp where
  | start
  | check (c : Check)
  | now
  | selectRevocations
  | insertState
  | updateNumber
  | gencrl (index : List IndexLine) (number : Nat) (hours : Int)
  | lock (l : CrlLock)
  | unlock (l : CrlLock)
  | readOutput
  | replaceOutput (crl : Bytes)
  | readPublic
  | replacePublic (crl : Bytes)
  | fetch
  | readBase
  | readActive
  | replaceActive (b : Bundle)
  | unlinkActive
  | readReceipt
  | writeReceipt (r : Receipt)
  | activated

abbrev CrlRes : CrlOp → Type
  | .start => Unit
  | .check _ => Bool
  | .now => Int
  | .selectRevocations => Option (List LedgerRow)
  | .insertState => Bool
  | .updateNumber => Option Nat
  | .gencrl _ _ _ => Option Bytes
  | .lock _ => Bool
  | .unlock _ => Unit
  | .readOutput => Option Bytes
  | .replaceOutput _ => Bool
  | .readPublic => Option Bytes
  | .replacePublic _ => Bool
  | .fetch => Option Bytes
  | .readBase => Option Bytes
  | .readActive => Option Bundle
  | .replaceActive _ => Bool
  | .unlinkActive => Bool
  | .readReceipt => Option Receipt
  | .writeReceipt _ => Bool
  | .activated => Unit

abbrev CrlM : Type → Type := Call CrlOp CrlRes String

open Call

abbrev act (o : CrlOp) : CrlM (CrlRes o) := op o

def check (c : Check) (message : String) : CrlM Unit := do
  require ((← act (.check c)) = true) message

/-- A body under `flock`; closing the file gives the lock back however the body ends. -/
def withLock {α : Type} (l : CrlLock) (body : CrlM α) : CrlM α := do
  require ((← act (.lock l)) = true) "cannot open the lock file"
  after body (.unlock l)

/-! ## `generate_crl.py` -/

def readLedger : CrlM (List LedgerRow) := do
  check .inventoryComplete "certificate inventory became incomplete during CRL generation"
  let rows ← getOr (← act .selectRevocations) "mariadb failed"
  match readRows rows with
  | .error e => throw e
  | .ok read => return read

def allocateNumber : CrlM Nat := do
  require ((← act .insertState) = true) "mariadb failed"
  let number ← getOr (← act .updateNumber) "could not allocate a monotonic CRL number"
  require (1 ≤ number ∧ number < 2 ^ 64) "allocated CRL number is outside supported range"
  return number

def verifyCandidate (ssl : X509) (crl : Bytes) (expected : Nat) (revocations : List LedgerRow)
    (hours : Int) : CrlM Unit := do
  check (.verifies crl) "openssl failed"
  let number ← getOr (ssl.number crl) "generated CRL has no parseable CRL number"
  let now ← act .now
  require (number = expected) "generated CRL number differs from allocated"
  require (ssl.serials crl ⊆ serialsOf revocations ∧ serialsOf revocations ⊆ ssl.serials crl)
    "generated CRL revoked serial set differs from the database ledger"
  require (now - 5 * minute ≤ ssl.lastUpdate crl ∧ ssl.lastUpdate crl ≤ now + 2 * minute)
    "generated CRL thisUpdate is outside the permitted clock-skew bound"
  require (now < ssl.nextUpdate crl ∧ ssl.nextUpdate crl ≤ now + hours * hour + 2 * minute)
    "generated CRL freshness interval is outside the configured bound"

def checkOutput (ssl : X509) (number : Nat) : CrlM Unit := do
  match ← act .readOutput with
  | none => return ()
  | some old =>
    check (.verifies old) "openssl failed"
    let oldNumber ← getOr (ssl.number old) "generated CRL has no parseable CRL number"
    require (oldNumber < number) "allocated CRL number would roll back the existing publication"

def generateLocked (ssl : X509) (hours : Int) (revocations : List LedgerRow) : CrlM Unit := do
  let number ← allocateNumber
  checkOutput ssl number
  match crlIndex (← act .now) revocations with
  | .error e => throw e
  | .ok index =>
    let candidate ← getOr (← act (.gencrl index number hours)) "openssl failed"
    verifyCandidate ssl candidate number revocations hours
    let again ← readLedger
    require (again = revocations) "revocation ledger changed during CRL generation; retry"
    require ((← act (.replaceOutput candidate)) = true) "cannot replace the CRL"
    check .synced "cannot sync the output directory"
    check (.published number) "published CRL state could not be committed monotonically"

def generate (ssl : X509) (hours : Int) (permitOtherIssuers : Bool) : CrlM Unit := do
  act .start
  require (1 ≤ hours ∧ hours ≤ 168) "CRL lifetime must be from 1 through 168 hours"
  check .configured "CA certificate and private key do not match"
  let revocations ← readLedger
  let others ← act (.check .otherIssuers)
  require (others = false ∨ permitOtherIssuers = true)
    ("ledger has other issuing CAs; run a CRL generation for every issuer, " ++
      "using --permit-other-issuers for each per-CA run")
  withLock .output (generateLocked ssl hours revocations)

/-! ## `publish_crl.py` -/

def crlInfo (ssl : X509) (crl : Bytes) (requireFresh : Bool) : CrlM Nat := do
  check (.verifies crl) "source CRL issuer does not match the configured CA"
  let number ← getOr (ssl.number crl) "source CRL has no parseable CRL number"
  let now ← act .now
  let last := ssl.lastUpdate crl
  let next := ssl.nextUpdate crl
  require (last ≤ now + 2 * minute) "source CRL thisUpdate is in the future"
  require (last < next ∧ next - last ≤ 7 * day)
    "source CRL validity interval is invalid or exceeds seven days"
  require (requireFresh = true → now + hour < next ∧ next - now ≤ 7 * day)
    "source CRL is expired, too close to expiry, or exceeds a seven-day lifetime"
  return number

def checkPublic (ssl : X509) (crl : Bytes) (number : Nat) : CrlM Bool := do
  match ← act .readPublic with
  | none => return true
  | some old =>
    let oldNumber ← crlInfo ssl old false
    require (¬ (number < oldNumber ∨ number = oldNumber ∧ crl ≠ old))
      "refusing CRL number rollback or conflicting same-number CRL"
    return number ≠ oldNumber

def publish (ssl : X509) : CrlM Bool := do
  check .configured "source and issuer CA must be regular files"
  let crl ← getOr (← act .readOutput) "source and issuer CA must be regular files"
  let number ← crlInfo ssl crl true
  withLock .served do
    if ← checkPublic ssl crl number then
      require ((← act (.replacePublic crl)) = true) "cannot replace the public CRL"
      check .synced "cannot sync the public directory"
      return true
    else return false

/-! ## `activate_crl.py` -/

structure ActivateArgs where
  service : String
  timeout : Int
  minValid : Int
  maxLifetime : Int

def allowedServices : List String :=
  ["solari-client.service", "solari-monitor.service", "solari-server.service",
    "solarinet-server.service"]

def validateCrl (ssl : X509) (args : ActivateArgs) (crl base : Bytes) : CrlM Nat := do
  check (.issuerInBundle base) "issuer CA certificate is not present in the immutable base bundle"
  check (.verifies crl) "CRL issuer does not match the configured issuer CA"
  let number ← getOr (ssl.number crl) "CRL has no parseable CRL number"
  let now ← act .now
  let last := ssl.lastUpdate crl
  let next := ssl.nextUpdate crl
  require (last ≤ now + 2 * minute) "CRL thisUpdate is in the future"
  require (now + args.minValid < next) "CRL is expired or too close to expiry"
  require (last < next ∧ next - last ≤ args.maxLifetime)
    "CRL validity interval exceeds the configured maximum"
  return number

def checkActive (ssl : X509) (old : Option Bundle) (crl : Bytes) (number : Nat) : CrlM Bool := do
  match (old.map (·.crls)).getD [] with
  | [] => return false
  | [prev] =>
    check (.verifies prev) "active bundle CRL signature verification failed"
    let oldNumber ← getOr (ssl.number prev) "CRL has no parseable CRL number"
    require (¬ (number < oldNumber ∨ number = oldNumber ∧ crl ≠ prev))
      "CRL number rollback or conflicting same-number CRL refused"
    return number = oldNumber
  | _ => throw "active bundle contains multiple CRLs; use one updater per issuer bundle"

def reconcile (service : String) (receipt : Receipt) : CrlM Bool := do
  let written ← act .readReceipt
  if written = some receipt then
    if (← act (.check .receiptMode)) = true then
      act .activated
      return false
    else
      require ((← act (.writeReceipt receipt)) = true) "cannot write the activation receipt"
      act .activated
      return true
  else
    check (.restarted service) "systemctl failed"
    require ((← act (.writeReceipt receipt)) = true) "cannot write the activation receipt"
    act .activated
    return true

def rollBack (service : String) (old : Option Bundle) : CrlM Bool := do
  match old with
  | none => require ((← act .unlinkActive) = true) "bundle rollback failed"
  | some b =>
    require ((← act (.replaceActive b)) = true) "bundle rollback failed"
    check .synced "bundle rollback failed"
  check (.restarted service) "rollback restart also failed"
  throw "activation failed; previous bundle restored"

def install (service : String) (old : Option Bundle) (new : Bundle) (receipt : Receipt) :
    CrlM Bool := do
  check .withinBudget "CRL validation exceeded its 120-second operation budget"
  require ((← act (.replaceActive new)) = true)
    "activation failed before active bundle replacement; active trust state is unchanged"
  if (← act (.check .synced)) = false then rollBack service old
  else if (← act (.check (.restarted service))) = false then rollBack service old
  else
    require ((← act (.writeReceipt receipt)) = true)
      "the CRL is active, but the activation receipt write failed; the next run will reconcile it"
    act .activated
    return true

def activateLocked (ssl : X509) (args : ActivateArgs) : CrlM Bool := do
  require (args.service ∈ allowedServices) "service is not in the SolariNet activation allowlist"
  require (0 < args.timeout ∧ 0 ≤ args.minValid ∧ 0 < args.maxLifetime)
    "timeout and CRL lifetime bounds must be positive"
  let crl ← getOr (← act .fetch) "CRL response is empty or exceeds the 1 MiB limit"
  let base ← getOr (← act .readBase) "base CA bundle contains no PEM certificates"
  let number ← validateCrl ssl args crl base
  check (.fits base crl) "combined active CA bundle exceeds the 4 MiB limit"
  let old ← act .readActive
  let same ← checkActive ssl old crl number
  if same = true ∧ old = some ⟨base, [crl]⟩ then reconcile args.service ⟨number, crl⟩
  else install args.service old ⟨base, [crl]⟩ ⟨number, crl⟩

def activate (ssl : X509) (args : ActivateArgs) : CrlM Bool :=
  withLock .active (activateLocked ssl args)

end SolariNet.Crl
