/-
# Clients and the probe tables

A client watches its own host; what is probed, and with which result, is for monitors to say.
Frames of nodes enrolled as clients, admitted and dispatched one after the other, are followed
here against `probeCurrent`, `probeHistory` and `probeTarget`.

Most message types cannot reach these tables (`Server.Footprint`).  Two come close:

    DISCOVERY_ADVERT   with `autoEnroll` a host is adopted at once.  Adoption reads the row
                       back and makes a probe target of a service; the row just written is
                       the one read, and it is a host (`upsertDiscovered_kind`)
    SURVEY_RESP        clients may send it, and it is handled as a monitor report
-/
import SolariNet.Server.Footprint

namespace SolariNet

open Lib Lib.Prog

structure ProbesKept (db db' : Db) : Prop where
  current : db'.probeCurrent = db.probeCurrent
  history : db'.probeHistory = db.probeHistory
  target : db'.probeTarget = db.probeTarget

theorem ProbesKept.refl (db : Db) : ProbesKept db db := ⟨rfl, rfl, rfl⟩

variable {db db' : Db} {rc : Status} {cfg : ServerCfg} {payload : Bytes}

theorem ProbesKept.trans (h : ProbesKept db db₁) (h' : ProbesKept db₁ db₂) :
    ProbesKept db db₂ :=
  ⟨h'.1.trans h.1, h'.2.trans h.2, h'.3.trans h.3⟩

/-! ## Runs -/

/-- One frame of a node enrolled as a client, admitted (as a replay, on the request link) and
dispatched; whatever the process remembers. -/
def ClientFrame (cfg : ServerCfg) (hdr : FrameHeader) (payload : Bytes) (db db' : Db) : Prop :=
  ∃ row db₁ epoch cn rc t st, ∃ m m' : IngestState,
    db.node.find? hdr.sourceNodeId = some row ∧ row.role = .client ∧
      Exec dbSem (serverIngestValidate m.dedup hdr cn) db (rc, t) db₁ ∧
      (rc = .ok ∨ rc = .errConnRetry) ∧
      Exec dbSem (serverIngestDispatch cfg epoch { m with dedup := t } hdr payload cn) db₁
        (st, m') db'

inductive ClientRun (cfg : ServerCfg) (allowed : FrameHeader → Bytes → Prop) : Db → Db → Prop where
  | refl (db : Db) : ClientRun cfg allowed db db
  | frame {db db₁ db₂ : Db} {hdr : FrameHeader} {payload : Bytes}
      (h : ClientRun cfg allowed db db₁) (ha : allowed hdr payload)
      (hf : ClientFrame cfg hdr payload db₁ db₂) : ClientRun cfg allowed db db₂

def SurveyProbes (hdr : FrameHeader) (payload : Bytes) : Prop :=
  hdr.msgType = Msg.surveyResp ∧
    ∃ rep, solariMsgParseMonitorReport payload = .ok rep ∧ rep.probes ≠ []

/-! ## Statements -/

def SrvOp.SparesProbes : SrvOp → Prop
  | .writeMonitorReport _ rep _ => rep.probes = []
  | .upsertProbeTarget _ => False
  | _ => True

theorem reportReceipt_keepsProbes {nodeId : UInt64}
    (h : reportReceipt db nodeId receipt = .ok db₁) : ProbesKept db db₁ := by
  rcases reportReceipt_eq_ok h with ⟨-, rfl⟩ | ⟨-, t, -, rfl⟩
  · exact .refl _
  · exact ⟨rfl, rfl, rfl⟩

theorem dbSem_sparesProbes (ho : o.SparesProbes) (h : dbSem o db r db') :
    ProbesKept db db' := by
  refine dbSem_keeps h (.refl db) ?_
  cases o with
  | upsertProbeTarget t => exact absurd ho id
  | writeMonitorReport n rep receipt =>
    refine txnAnswer_keeps (.refl db) fun db₁ hb => ?_
    obtain ⟨-, db₂, hr, rfl⟩ := monitorReportTxn_eq_ok hb
    rw [show rep.probes = [] from ho]
    exact reportReceipt_keepsProbes hr
  | writeClientReport n rep receipt =>
    refine txnAnswer_keeps (.refl db) fun db₁ hb => ?_
    obtain ⟨-, db₂, t, hr, -, rfl⟩ := clientReportTxn_eq_ok hb
    exact (reportReceipt_keepsProbes hr).trans ⟨rfl, rfl, rfl⟩
  | controlDirectiveAdd row =>
    refine txnAnswer_keeps (.refl db) fun db₁ hb => ?_
    obtain ⟨t, rfl⟩ := serverDbControlDirectiveAdd_eq_ok hb
    exact ⟨rfl, rfl, rfl⟩
  | controlResultApply o =>
    refine txnAnswer_keeps (.refl db) fun db₁ hb => ?_
    obtain ⟨t, c, rfl⟩ := controlResultTxn_eq_ok hb
    exact ⟨rfl, rfl, rfl⟩
  | decommissionAck n g =>
    refine txnAnswer_keeps (.refl db) fun db₁ hb => ?_
    obtain ⟨t, -, rfl⟩ := decommissionAckTxn_eq_ok hb
    exact ⟨rfl, rfl, rfl⟩
  | upsertDiscovered e =>
    obtain ⟨t, ht⟩ := serverDbUpsertDiscovered_eq db e
    exact ht ▸ ⟨rfl, rfl, rfl⟩
  | lease o => cases o <;> exact .refl db
  | _ => exact ⟨rfl, rfl, rfl⟩

theorem keepsProbes_of_uses {α : Type} {p : SrvM α} {a : α} (hx : Exec dbSem p db a db')
    (hp : p.Uses SrvOp.SparesProbes) : ProbesKept db db' :=
  hx.preserves (J := ProbesKept db) (fun _ _ _ _ ho h hk => hk.trans (dbSem_sparesProbes ho h)) hp
    (.refl db)

/-! ## Adverts -/

theorem upsertDiscovered_kind
    (h : serverDbGetDiscovered (serverDbUpsertDiscovered db e).2
      (serverDbUpsertDiscovered db e).1 = .ok e') : e'.kind = e.kind := by
  unfold serverDbGetDiscovered at h
  split at h
  · cases h
  next r hr =>
  cases h
  have hmem := List.mem_of_find?_eq_some hr
  have hid : r.discId = (serverDbUpsertDiscovered db e).1 := by
    simpa using List.find?_some hr
  unfold serverDbUpsertDiscovered at hmem hid
  cases hq : findDiscovered db e with
  | none =>
    -- a new row: every older one has a smaller id
    simp only [hq] at hmem hid
    rcases Serial.mem_push.1 hmem with hold | rfl
    · have hlt := (db.discovered.bounded r hold).2
      exact absurd hid (Nat.ne_of_lt hlt)
    · rfl
  | some q =>
    simp only [hq] at hmem hid
    have hkey : q.entity.key = e.key := by
      simpa using List.find?_some hq
    obtain ⟨r₀, hr₀, rfl⟩ := List.mem_map.1 hmem
    have hr₀id : r₀.discId = q.discId := by
      by_cases hc : r₀.discId = q.discId
      · exact hc
      · rw [if_neg hc] at hid
        exact hid
    have heq := Serial.eq_of_id hr₀ (List.mem_of_find?_eq_some hq) hr₀id
    subst heq
    rw [if_pos rfl]
    exact congrArg Prod.snd hkey

theorem serverDiscoveryAdopt_host {discId : Nat}
    (hkind : ∀ e, serverDbGetDiscovered db discId = .ok e → e.kind = .host)
    (hx : Exec dbSem (serverDiscoveryAdopt discId spec) db rc db') : ProbesKept db db' := by
  unfold serverDiscoveryAdopt at hx
  split at hx
  · exact keepsProbes_of_uses hx trivial
  obtain ⟨r, db₁, ⟨hq, rfl⟩, hx⟩ := Exec.perform_bind_iff.1 hx
  cases r with
  | error st => exact keepsProbes_of_uses hx trivial
  | ok e =>
    have hhost : e.kind = .host := by
      rcases hq with hq | hq
      · exact hkind e hq.symm
      · cases hq
    refine keepsProbes_of_uses hx (.perform_bind trivial fun _ => Uses.bind ?_ fun rc => ?_)
    · unfold adoptRoute
      rw [if_neg (by rw [hhost]; decide)]
      exact .perform_bind trivial fun _ => .perform trivial
    · split
      · exact .perform_bind trivial fun _ => trivial
      · trivial

theorem discPersistEntity_keepsProbes {e : DiscEntity}
    (hx : Exec dbSem (discPersistEntity cfg e) db rc db') : ProbesKept db db' := by
  unfold discPersistEntity at hx
  split at hx
  · exact keepsProbes_of_uses hx trivial
  obtain ⟨r, db₁, ⟨-, rfl⟩, hx⟩ := Exec.perform_bind_iff.1 hx
  cases r with
  | error st => exact keepsProbes_of_uses hx trivial
  | ok known =>
    cases known with
    | true => exact keepsProbes_of_uses hx trivial
    | false =>
      obtain ⟨r, db₂, hup, hx⟩ := Exec.perform_bind_iff.1 hx
      refine (dbSem_sparesProbes (o := .upsertDiscovered e) trivial hup).trans ?_
      cases r with
      | error st => exact keepsProbes_of_uses hx trivial
      | ok discId =>
        simp only at hx
        split at hx
        · next hauto =>
          obtain ⟨rc', db₃, hadopt, hret⟩ := Exec.bind_iff.1 hx
          cases hret
          refine serverDiscoveryAdopt_host ?_ hadopt
          -- the upsert succeeded, so its row is there
          obtain ⟨rc, htxn, hr⟩ := hup
          by_cases hrc : rc = .ok
          · subst hrc
            cases hr
            cases htxn with
            | refused h => cases h
            | committed h =>
              cases h
              intro e' he'
              exact (upsertDiscovered_kind he').trans hauto.2
          · rw [if_neg hrc] at hr
            cases hr
        · exact keepsProbes_of_uses hx trivial

theorem Advert.flush_keepsProbes {a : Advert} (hx : Exec dbSem (a.flush cfg) db rc db') :
    ProbesKept db db' := by
  unfold Advert.flush at hx
  split at hx
  · exact keepsProbes_of_uses hx trivial
  obtain ⟨rc', db₁, hp, hret⟩ := Exec.bind_iff.1 hx
  cases hret
  exact discPersistEntity_keepsProbes hp

theorem discAdvertLoop_keepsProbes {stop : Status} {ts : List Tlv} {a : Advert}
    (hx : Exec dbSem (discAdvertLoop cfg stop a ts) db rc db') : ProbesKept db db' := by
  induction ts generalizing a db with
  | nil =>
    unfold discAdvertLoop at hx
    split at hx
    · exact Advert.flush_keepsProbes hx
    · exact keepsProbes_of_uses hx trivial
  | cons t ts ih =>
    unfold discAdvertLoop at hx
    split at hx
    · split at hx
      · exact ih hx
      · exact ih hx
    split at hx
    · obtain ⟨rc', db₁, hflush, hx⟩ := Exec.bind_iff.1 hx
      refine (Advert.flush_keepsProbes hflush).trans ?_
      split at hx
      · exact keepsProbes_of_uses hx trivial
      · exact ih hx
    · split at hx
      · exact ih hx
      · exact ih hx

theorem serverDiscoveryOnAdvert_keepsProbes
    (hx : Exec dbSem (serverDiscoveryOnAdvert cfg payload) db rc db') : ProbesKept db db' := by
  unfold serverDiscoveryOnAdvert at hx
  split at hx
  · exact keepsProbes_of_uses hx trivial
  · obtain ⟨nowMs, db₁, hnow, hx⟩ := Exec.perform_bind_iff.1 hx
    exact (dbSem_sparesProbes (o := .now) trivial hnow).trans (discAdvertLoop_keepsProbes hx)

/-! ## Frames -/

theorem minor_sparesProbes {o : SrvOp} (ho : o.isMinor = true) : o.SparesProbes := by
  cases o <;> trivial

variable {hdr : FrameHeader}

theorem serverIngestDispatch_advert {epoch : UInt64}
    (h : hdr.msgType = Msg.discoveryAdvert) :
    serverIngestDispatch cfg epoch m hdr payload cn =
      keeping m (serverDiscoveryOnAdvert cfg payload) := by
  unfold serverIngestDispatch
  rw [h]
  rfl

theorem Footprint.sparesProbes (h : Footprint cfg hdr payload o)
    (hmay : clientMaySend hdr.msgType = true) (hsurvey : ¬ SurveyProbes hdr payload)
    (hadvert : hdr.msgType ≠ Msg.discoveryAdvert) : o.SparesProbes := by
  cases h with
  | clientReport _ _ _ => trivial
  | @monitorReport rep receipt ht hp _ =>
    rcases ht with ht | ht
    · rw [ht] at hmay
      exact absurd hmay (by decide)
    · by_contra hne
      exact hsurvey ⟨ht, rep, hp, hne⟩
  | discovery ht _ => exact absurd ht hadvert
  | result _ | ack _ => trivial
  | minor ho => exact minor_sparesProbes ho

theorem clientFrame_keepsProbes (hf : ClientFrame cfg hdr payload db db')
    (hsurvey : ¬ SurveyProbes hdr payload) : ProbesKept db db' := by
  obtain ⟨row, db₁, epoch, cn, rc, t, st, m, m', hrow, hrole, hval, hrc, hdisp⟩ := hf
  obtain ⟨row', hrow', hadmits⟩ := serverIngestValidate_admits hval hrc
  have hmay : clientMaySend hdr.msgType = true := by
    have h := hadmits.maySend
    rw [hrow] at hrow'
    cases hrow'
    rw [hrole] at h
    exact h
  have hkept : ProbesKept db db₁ := by
    refine keepsProbes_of_uses hval (serverIngestValidate_uses ?_ _ _)
    intro o ho _
    exact minor_sparesProbes ho
  refine hkept.trans ?_
  by_cases hadvert : hdr.msgType = Msg.discoveryAdvert
  · rw [serverIngestDispatch_advert hadvert] at hdisp
    obtain ⟨rc', db₂, hx, hret⟩ := Exec.bind_iff.1 hdisp
    cases hret
    exact serverDiscoveryOnAdvert_keepsProbes hx
  · exact keepsProbes_of_uses hdisp ((serverIngestDispatch_uses _ _ _ _ _ _).mono
      fun o ho => ho.sparesProbes hmay hsurvey hadvert)

/-- **Client isolation.**  Frames of clients leave the probe tables as they are, as long as
none of them is a survey response that carries a probe result. -/
theorem client_isolation (cfg : ServerCfg) {db db' : Db}
    (h : ClientRun cfg (fun hdr payload => ¬ SurveyProbes hdr payload) db db') :
    ProbesKept db db' := by
  induction h with
  | refl => exact .refl _
  | frame _ ha hf ih => exact ih.trans (clientFrame_keepsProbes hf ha)

/-! ### Frames of one client -/

def plainCfg : ServerCfg := ⟨true, true, false⟩

def clientHeader (msgType : UInt8) (tlvCount : UInt16) : FrameHeader :=
  { msgType := msgType, tlvCount := tlvCount, sourceNodeId := 7, sendTimeUnixMs := 0, seqNo := 1 }

set_option maxRecDepth 20000

/-- A report of a client stores a row of its host. -/
theorem client_isolation_report : ∃ db',
    ClientFrame plainCfg (clientHeader Msg.clientReport 1) (encodeTlvs [sessionTlv zeroSession])
        (enrolledDb "host".toList) db' ∧
      db'.hostHistory.length = 1 ∧ ProbesKept (enrolledDb "host".toList) db' := by
  have hframe : ClientFrame plainCfg (clientHeader Msg.clientReport 1)
      (encodeTlvs [sessionTlv zeroSession]) (enrolledDb "host".toList) _ :=
    ⟨_, _, 0, "host".toList, .ok, _, _, .empty, _, rfl, rfl, .of_run dbAnswers_sem _ _, .inl rfl,
      .of_run dbAnswers_sem _ _⟩
  refine ⟨_, hframe, by decide +kernel, client_isolation plainCfg (.frame (.refl _) ?_ hframe)⟩
  intro hs
  exact absurd hs.1 (by decide)

def surveyTlvs : List Tlv :=
  [sessionTlv zeroSession, ⟨TlvType.probeResult, List.replicate 42 0, by decide⟩]

/-- A survey response of a client writes the probe it carries. -/
theorem client_survey_writes_probe : ∃ db db',
    ClientFrame plainCfg (clientHeader Msg.surveyResp 2) (encodeTlvs surveyTlvs) db db' ∧
      ¬ ProbesKept db db' := by
  refine ⟨enrolledDb "host".toList, _, ⟨_, _, 0, "host".toList, .ok, _, _, .empty, _, rfl, rfl,
    .of_run dbAnswers_sem _ _, .inl rfl, .of_run dbAnswers_sem _ _⟩, ?_⟩
  intro h
  exact absurd (congrArg List.length h.history) (by decide +kernel)

end SolariNet
