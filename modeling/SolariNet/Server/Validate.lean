/-
# Who may send what

`serverIngestValidate` admits a frame in three steps: the sender's certificate name must be
enrolled under the frame's node id, the name must agree with the enrollment (`role.host`, or
the bare host of an older certificate), and the message type must be one the role may send.
A frame that is not a report is then checked against the replay guard (`Server.Dedup`).

Role labels compare exactly, host names without case (`strcasecmp`).
-/
import SolariNet.Server.Dedup
import SolariNet.Server.Ops
import SolariNet.Wire.Frame

namespace SolariNet

open Lib Lib.Prog

def sameNoCase (a b : CStr) : Bool := a.map Char.toLower == b.map Char.toLower

def Role.label : Role → CStr
  | .client => "client".toList
  | .monitor => "monitor".toList
  | .server => "server".toList

abbrev IngestRole : Type := Option Role

def serverIngestRoleFromCn (cn : CStr) : IngestRole :=
  let label := cn.takeWhile (· ≠ '.')
  if label = Role.label .client then some .client
  else if label = Role.label .monitor then some .monitor
  else if label = Role.label .server then some .server
  else none

def cnHost (cn : CStr) : Option CStr :=
  match cn.dropWhile (· ≠ '.') with
  | [] => none
  | _ :: host => some host

def serverCnMax : Nat := 256

def serverIngestHelloMatchesIdentity (role : Role) (hostFqdn peerCertCn : CStr) : Bool :=
  if hostFqdn = [] ∨ peerCertCn = [] then false
  else if sameNoCase hostFqdn peerCertCn then true
  else
    let labelDot := role.label ++ ['.']
    if serverCnMax ≤ (labelDot ++ hostFqdn).length then false
    else if !labelDot.isPrefixOf peerCertCn then false
    else
      let certHost := peerCertCn.drop labelDot.length
      !certHost.isEmpty && sameNoCase hostFqdn certHost

def clientMaySend (msgType : UInt8) : Bool :=
  msgType ∈ [Msg.hello, Msg.clientReport, Msg.watchdog, Msg.discoveryAdvert, Msg.topologyReport,
    Msg.surveyResp, Msg.controlResult, Msg.whoIsPrimary, Msg.ack, Msg.error]

def serverIngestRoleMaySend (role : IngestRole) (msgType : UInt8) : Bool :=
  match role with
  | some .monitor => msgType == Msg.monitorReport || clientMaySend msgType
  | some .client => clientMaySend msgType
  | some .server => msgType ∈ [Msg.hello, Msg.whoIsPrimary, Msg.ack, Msg.error]
  | none => false

/-- The role a sender is treated as: that of its enrollment, if its name agrees with it. -/
def effectiveRole (cn : CStr) (enrolledRole : Role) (enrolledHost : CStr) : IngestRole :=
  if sameNoCase cn enrolledHost then some enrolledRole
  else
    match cnHost cn with
    | none => none
    | some host =>
      if !sameNoCase host enrolledHost then none
      else
        match serverIngestRoleFromCn cn with
        | none => none
        | some role => if role ≠ enrolledRole then none else some role

def serverIngestValidate (t : Dedup) (hdr : FrameHeader) (peerCertCn : CStr) :
    SrvM (Status × Dedup) :=
  if peerCertCn = [] then .ret (.errAuthRole, t)
  else do
    match ← srv (.nodeIdentity hdr.sourceNodeId peerCertCn) with
    | .error st => .ret (st, t)
    | .ok (enrolledRole, enrolledHost) =>
      let role := effectiveRole peerCertCn enrolledRole enrolledHost
      if !serverIngestRoleMaySend role hdr.msgType then .ret (.errAuthRole, t)
      else
        let nowMs ← srv .now
        if isDurableReport hdr.msgType then .ret (.ok, t)
        else
          let r := serverDedupSeen t hdr.sourceNodeId hdr.seqNo nowMs
          .ret (if r.1 then .errConnRetry else .ok, r.2)

/-! ## Soundness -/

/-- The certificate name is the enrolled host, or the enrolled role's label, a dot and the
enrolled host; hosts compare without case. -/
def NamedBy (cn : CStr) (role : Role) (host : CStr) : Prop :=
  sameNoCase cn host = true ∨ ∃ h, cn = role.label ++ '.' :: h ∧ sameNoCase h host = true

structure Admits (row : NodeRow) (cn : CStr) (msgType : UInt8) : Prop where
  certificate : row.certCn = cn
  active : row.state ≠ .retired
  name : NamedBy cn row.role row.hostFqdn
  maySend : serverIngestRoleMaySend (some row.role) msgType = true

variable {cn host : CStr} {db db' : Db} {t t' : Dedup} {hdr : FrameHeader} {role : Role}
  {rc : Status} {nodeId : UInt64}

theorem serverIngestRoleFromCn_eq_some (h : serverIngestRoleFromCn cn = some role) :
    cn.takeWhile (· ≠ '.') = role.label := by
  unfold serverIngestRoleFromCn at h
  simp only at h
  split at h
  · next hl => cases h; exact hl
  split at h
  · next hl => cases h; exact hl
  split at h
  · next hl => cases h; exact hl
  · cases h

theorem eq_of_cnHost (h : cnHost cn = some host) : cn = cn.takeWhile (· ≠ '.') ++ '.' :: host := by
  unfold cnHost at h
  cases hd : cn.dropWhile (· ≠ '.') with
  | nil => rw [hd] at h; cases h
  | cons c rest =>
    rw [hd] at h
    cases h
    have hc : c = '.' := by
      have := List.head?_dropWhile_not (· ≠ '.') cn
      rw [hd] at this
      simpa using this
    subst hc
    rw [← hd]
    exact (List.takeWhile_append_dropWhile).symm

theorem effectiveRole_eq_some (h : effectiveRole cn enrolled host = some role) :
    role = enrolled ∧ NamedBy cn enrolled host := by
  unfold effectiveRole at h
  split at h
  · next hs => cases h; exact ⟨rfl, .inl hs⟩
  split at h
  · cases h
  next h' hh =>
  obtain ⟨hs, h⟩ := Option.ite_none_left_eq_some.1 h
  split at h
  · cases h
  next r hr =>
  obtain ⟨hne, h⟩ := Option.ite_none_left_eq_some.1 h
  cases h
  cases not_not.1 hne
  refine ⟨rfl, .inr ⟨h', ?_, by simpa using hs⟩⟩
  rw [← serverIngestRoleFromCn_eq_some hr]
  exact eq_of_cnHost hh

theorem serverDbNodeIdentity_eq_ok (h : serverDbNodeIdentity db nodeId cn = .ok (role, host)) :
    ∃ row, db.node.find? nodeId = some row ∧ row.certCn = cn ∧ row.state ≠ .retired ∧
      row.role = role ∧ row.hostFqdn = host := by
  obtain ⟨-, h⟩ := guard_ok.1 h
  split at h
  · cases h
  next row hrow =>
  split at h
  · next hc =>
    cases h
    exact ⟨row, hrow, hc.1, hc.2.1, rfl, rfl⟩
  · cases h

theorem nodeIdentity_error (h : dbSem (.nodeIdentity nodeId cn) db (.error st) db') :
    st ≠ .ok ∧ st ≠ .errConnRetry := by
  obtain ⟨h | h, -⟩ := h
  · unfold serverDbNodeIdentity at h
    split at h
    · cases h; decide
    split at h
    · cases h; decide
    split at h
    · cases h
    · cases h; decide
  · cases h; decide

section
variable (h : Exec dbSem (serverIngestValidate t hdr cn) db (rc, t') db')
include h

theorem serverIngestValidate_cases : (rc ≠ .ok ∧ rc ≠ .errConnRetry ∧ t' = t) ∨
    (∃ row, db.node.find? hdr.sourceNodeId = some row ∧ Admits row cn hdr.msgType) ∧
      (rc = .ok ∧ t' = t ∨ isDurableReport hdr.msgType = false ∧ ∃ nowMs,
        rc = (if (serverDedupSeen t hdr.sourceNodeId hdr.seqNo nowMs).1 then
          .errConnRetry else .ok) ∧
          t' = (serverDedupSeen t hdr.sourceNodeId hdr.seqNo nowMs).2) := by
  unfold serverIngestValidate at h
  split at h
  · cases h
    exact .inl ⟨by decide, by decide, rfl⟩
  obtain ⟨r, s, ho, hk⟩ := Exec.perform_bind_iff.1 h
  cases r with
  | error st =>
    cases hk
    exact .inl ⟨(nodeIdentity_error ho).1, (nodeIdentity_error ho).2, rfl⟩
  | ok identity =>
    obtain ⟨role, host⟩ := identity
    have hid : serverDbNodeIdentity db hdr.sourceNodeId cn = .ok (role, host) := by
      rcases ho.1 with ho | ho
      · exact ho.symm
      · cases ho
    obtain ⟨row, hrow, hcn, hstate, rfl, rfl⟩ := serverDbNodeIdentity_eq_ok hid
    simp only at hk
    split at hk
    · cases hk
      exact .inl ⟨by decide, by decide, rfl⟩
    next hmay =>
    rw [Bool.not_eq_true, Bool.not_eq_eq_eq_not] at hmay
    cases he : effectiveRole cn row.role row.hostFqdn with
    | none => rw [he] at hmay; cases hmay
    | some role =>
      obtain ⟨rfl, hname⟩ := effectiveRole_eq_some he
      rw [he] at hmay
      refine .inr ⟨⟨row, hrow, hcn, hstate, hname, hmay⟩, ?_⟩
      obtain ⟨nowMs, s', -, hk⟩ := Exec.perform_bind_iff.1 hk
      split at hk
      · cases hk
        exact .inl ⟨rfl, rfl⟩
      next hd =>
      cases hk
      exact .inr ⟨Bool.eq_false_iff.2 hd, nowMs, rfl, rfl⟩

theorem serverIngestValidate_admits (hrc : rc = .ok ∨ rc = .errConnRetry) :
    ∃ row, db.node.find? hdr.sourceNodeId = some row ∧ Admits row cn hdr.msgType := by
  rcases serverIngestValidate_cases h with ⟨hok, hretry, -⟩ | ⟨hrow, -⟩
  · exact (hrc.elim hok hretry).elim
  · exact hrow

end

/-- **Authorization of the ingest.**  Whatever the tables and the certificate name, a frame
is accepted only if the enrollment of its node admits its message type under that name. -/
theorem serverIngestValidate_sound (db : Db) (t : Dedup) (hdr : FrameHeader) (cn : CStr)
    {t' : Dedup} {db' : Db} (h : Exec dbSem (serverIngestValidate t hdr cn) db (.ok, t') db') :
    ∃ row, db.node.find? hdr.sourceNodeId = some row ∧ Admits row cn hdr.msgType :=
  serverIngestValidate_admits h (.inl rfl)

/-! ### A report of one enrolled client -/

def enrolledClient (cn : CStr) : NodeRow :=
  { nodeId := 7, role := .client, hostFqdn := "host".toList, certCn := cn, configEpoch := 0
    state := .up, criticality := 2 }

def enrolledDb (cn : CStr) : Db :=
  { Db.empty with node := ⟨[enrolledClient cn], List.nodup_singleton _⟩ }

def reportHeader : FrameHeader :=
  { msgType := Msg.clientReport, tlvCount := 0, sourceNodeId := 7, sendTimeUnixMs := 0, seqNo := 1 }

theorem serverIngestValidate_sound_enrolled :
    ∃ row, (enrolledDb "client.host".toList).node.find? 7 = some row ∧
      Admits row "client.host".toList Msg.clientReport :=
  serverIngestValidate_sound _ Dedup.empty reportHeader _
    (.of_run dbAnswers_sem _ (enrolledDb "client.host".toList))

/-- A certificate name that differs from the enrolled host in case is accepted. -/
theorem validate_admits_other_case : ∃ (db : Db) (row : NodeRow) (cn : CStr) (t : Dedup),
      Exec dbSem (serverIngestValidate t reportHeader cn) db (.ok, t) db ∧
      db.node.find? reportHeader.sourceNodeId = some row ∧
      cn ≠ row.hostFqdn ∧ cn ≠ row.role.label ++ '.' :: row.hostFqdn :=
  ⟨enrolledDb "HOST".toList, enrolledClient "HOST".toList, "HOST".toList, Dedup.empty,
    .of_run dbAnswers_sem _ _, rfl, by decide, by decide⟩

end SolariNet
