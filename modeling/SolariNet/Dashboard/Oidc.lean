/-
# How long a provider's word counts

`lib/Oidc.php` behind `Auth::current`.  A session opened through the identity provider keeps its
role for 60 seconds; then the provider is asked again, with a new access token if the old one has
run out.  Whatever goes wrong leaves a viewer, and an answer for another subject ends the session.

A read request writes its session back before its handler runs and goes on with a copy.  What a
later reading of the same request does to the copy is lost, the end of the session included.
-/
import SolariNet.Dashboard.Dispatch

namespace SolariNet.Dashboard.Oidc

/-! ## Roles -/

structure Config where
  enabled : Bool
  insecureSkipVerify : Bool := false
  defaultRole : CStr := "viewer".toList
  operatorGroups : List CStr := []
  adminGroups : List CStr := ["domain admins".toList]

/-- What is read of a set of claims; `realmRoles` is `realm_access.roles`. -/
structure Claims where
  sub : Option CStr
  groups : List CStr := []
  realmRoles : List CStr := []

def gatherGroups (c : Claims) : List CStr :=
  (c.groups ++ c.realmRoles).map (·.dropWhile (· = '/'))

def intersectsCI (held want : List CStr) : Bool :=
  want.any fun w => (held.map fun v => strtolower (trim v)).contains (strtolower (trim w))

def viewer : CStr := "viewer".toList

def roles : List CStr := [viewer, "operator".toList, "admin".toList]

def roleForClaims (claims : Claims) (config : Config) : CStr :=
  let memberships := gatherGroups claims
  let role := strtolower (if emptyText config.defaultRole then viewer else config.defaultRole)
  let role := if role ∈ roles then role else viewer
  let role := if intersectsCI memberships config.operatorGroups then "operator".toList else role
  if intersectsCI memberships config.adminGroups then "admin".toList else role

/-! ## The recheck -/

/-- `$_SESSION`; `subject` is a field of the principal. -/
structure WebSession extends Session where
  subject : CStr := []
  checkedAt : Option Int := none
  accessToken : CStr := []
  refreshToken : CStr := []
  accessExpiresAt : Int := 0

/-- The answer of the token endpoint; a new refresh token may be absent, or not be a text. -/
structure TokenAnswer where
  accessToken : Option CStr
  tokenType : Option CStr
  expiresIn : Option Int
  refreshToken : Option (Option CStr)

/-- A call of `current`: what it finds, the seconds between its looks at the clock, and what the
provider answers, if it does. -/
structure Reading where
  env : WebEnv
  config : Config
  toCheck : Nat := 0
  toRefresh : Nat := 0
  toAnswer : Nat := 0
  token : CStr → Option TokenAnswer
  userInfo : CStr → Option Claims

def isSafeHeaderToken (token : CStr) : Bool :=
  token ≠ [] ∧ token.length ≤ 16384 ∧ token.all fun c => 0x1F < c.toNat ∧ c.toNat ≠ 0x7F

def refreshAccessToken (r : Reading) (now : Int) (s : WebSession) : Option WebSession := do
  guard (isSafeHeaderToken s.refreshToken)
  let tokens ← r.token s.refreshToken
  let access ← tokens.accessToken
  guard (isSafeHeaderToken access)
  guard (tokens.tokenType.map strtolower = some "bearer".toList)
  let expiresIn ← tokens.expiresIn
  guard (1 ≤ expiresIn ∧ expiresIn ≤ 86400)
  let rotated ← tokens.refreshToken.getD (some s.refreshToken)
  let rotated := if rotated = [] then s.refreshToken else rotated
  guard (isSafeHeaderToken rotated)
  return { s with
    accessToken := access, refreshToken := rotated, accessExpiresAt := now + expiresIn }

def setSessionRole (p : Principal) (role : CStr) (checkedAt : Int) (s : WebSession) : WebSession :=
  { s with principal := some { p with role }, checkedAt := some checkedAt }

/-- The session with the access token that UserInfo is asked with. -/
def renewed (r : Reading) (now : Int) (s : WebSession) : Option WebSession :=
  if s.accessExpiresAt ≤ now + 10 then refreshAccessToken r (now + r.toRefresh) s else some s

/-- `revalidateCurrentSession` where the last check is too old; no session is the end of it. -/
def recheck (r : Reading) (now : Int) (p : Principal) (s : WebSession) : Option WebSession :=
  let fail (s : WebSession) := some (setSessionRole p viewer now s)
  if r.config.insecureSkipVerify = true then fail s
  else
    match renewed r now s with
    | none => fail s
    | some s =>
      match if isSafeHeaderToken s.accessToken = true then r.userInfo s.accessToken else none with
      | none => fail s
      | some claims =>
        if claims.sub ≠ some s.subject then none
        else some (setSessionRole p (roleForClaims claims r.config) now s)

def revalidateCurrentSession (r : Reading) (now : Int) (p : Principal) (s : WebSession) :
    Option WebSession :=
  if r.config.enabled = false ∨ s.subject = [] then none
  else if s.checkedAt.any (fun c => c ≤ now ∧ now - c < 60) = true then some s
  else recheck r now p s

abbrev oidc : CStr := "oidc".toList

/-- `Auth::current`: the answer, and the session behind it. -/
def current (r : Reading) (now : Int) (s : WebSession) : Option Principal × WebSession :=
  match s.principal with
  | none => (none, s)
  | some p =>
    if sessionExpired p s.toSession now = true then (none, {})
    else if p.source = oidc then
      match revalidateCurrentSession r (now + r.toCheck) p s with
      | none => (none, {})
      | some s => (s.principal, { s with seenAt := some now })
    else
      match checkSource r.env 0 p with
      | none => (none, {})
      | some q => (some q, { s with principal := some q, seenAt := some now })

/-! ## What the provider is asked, and what it says -/

/-- Whether the provider is asked: for a session of its own that is not at its end, if the last
check is not less than 60 seconds ago. -/
def asks (r : Reading) (now : Int) (x : WebSession) : Bool :=
  x.principal.any fun p => p.source = oidc && !sessionExpired p x.toSession now &&
    (r.config.enabled && x.subject ≠ [] &&
      !x.checkedAt.any fun c => c ≤ now + r.toCheck ∧ now + r.toCheck - c < 60)

/-- The answer of UserInfo to the access token of the session, or to the one the token endpoint has
given for it. -/
def said (r : Reading) (now : Int) (x : WebSession) : Option Claims :=
  if r.config.insecureSkipVerify = true then none
  else (renewed r now x).bind fun x =>
    if isSafeHeaderToken x.accessToken = true then r.userInfo x.accessToken else none

/-- The provider is asked, and names another subject. -/
def namesOther (r : Reading) (now : Int) (x : WebSession) : Bool :=
  asks r now x && (said r (now + r.toCheck) x).any fun claims => claims.sub ≠ some x.subject

/-- What the role of a session rests on. -/
inductive Check where
  | never
  | login (config : Config) (claims : Claims)
  | asked (r : Reading) (x : WebSession)

/-- A check gives the role: the claims of the login, or a UserInfo answer for the subject to the
access token of the session or to a new one; otherwise the role is viewer. -/
def Check.Gives (subject role : CStr) : Check → Prop
  | .never => False
  | .login config claims =>
    claims.sub.getD [] = subject ∧ role = strtolower (roleForClaims claims config)
  | .asked r x => role = viewer ∨ ∃ token claims,
    (token = x.accessToken ∨ ∃ tokens, r.token x.refreshToken = some tokens ∧
      tokens.accessToken = some token) ∧
    r.userInfo token = some claims ∧ claims.sub = some subject ∧
    role = roleForClaims claims r.config

/-! ## Logins and requests -/

/-- What has been: the last login and its subject, the last use, the last check and when it was
made, and whether an answer for another subject has come since the login. -/
structure History where
  now : Int
  loginAt : Int := now
  subject : CStr := []
  usedAt : Int := now
  last : Int × Check := (now, .never)
  revoked : Bool := false

/-- One session, and what a read request that has closed it goes on with. -/
structure World extends History where
  stored : WebSession := {}
  copy : Option WebSession := none

inductive Event where
  | tick (d : Nat)
  /-- The password of an account was right; the file gives it this role. -/
  | login (username : CStr) (role : Option CStr) (d : Nat)
  /-- An ID token was verified, and came with these tokens. -/
  | callback (config : Config) (username : CStr) (claims : Claims) (access refresh : CStr)
      (expiresAt : Int) (d d' : Nat)
  | read (r : Reading)
  | closeReadSession
  | finish
  | logout

def World.session (s : World) : WebSession := s.copy.getD s.stored

def History.after (g : History) (r : Reading) (x : WebSession) (answer : Option Principal) :
    History :=
  { g with
    now := g.now + r.toCheck + r.toRefresh + r.toAnswer
    usedAt := if answer.isSome then max g.usedAt g.now else g.usedAt
    last := if asks r g.now x then (g.now + r.toCheck, .asked r x) else g.last
    revoked := g.revoked || namesOther r g.now x }

def step (s : World) : Event → World
  | .tick d => { s with now := s.now + d }
  | .login username role d => { s with
      now := s.now + d
      stored := { s.stored with
        principal := some ⟨username, strtolower (role.getD "admin".toList), "local".toList⟩
        createdAt := some s.now, seenAt := some (s.now + d), subject := [] }
      copy := none, loginAt := s.now, usedAt := s.now + d, revoked := false }
  | .callback config username claims access refresh expiresAt d d' =>
    let role := strtolower (roleForClaims claims config)
    let subject := claims.sub.getD []
    { s with
      now := s.now + d + d'
      stored := { s.stored with
        principal := some ⟨username, role, oidc⟩
        createdAt := some s.now, seenAt := some (s.now + d), checkedAt := some (s.now + d + d')
        subject, accessToken := access, refreshToken := refresh, accessExpiresAt := expiresAt }
      copy := none, loginAt := s.now, subject, usedAt := s.now + d
      last := (s.now + d + d', .login config claims), revoked := false }
  | .read r =>
    let v := current r s.now s.session
    { s.after r s.session v.1 with
      stored := if s.copy.isSome then s.stored else v.2
      copy := s.copy.map fun _ => v.2 }
  | .closeReadSession => { s with copy := some s.session }
  | .finish => { s with copy := none }
  | .logout => if s.copy.isSome then { s with copy := some {} } else { s with stored := {} }

def Runs (P : World → Event → Prop) : World → World → Prop :=
  Relation.ReflTransGen fun s s' => ∃ e, P s e ∧ s' = step s e

/-- UserInfo does not answer for another subject while a request has closed its session. -/
def Revokes (s : World) : Event → Prop
  | .read r => s.copy.isSome → namesOther r s.now s.session = false
  | _ => True

/-! ## What a reading can do -/

section
variable (r : Reading) (now : Int) (x : WebSession)

inductive Reads : Option Principal × WebSession → Prop
  | nobody (hp : x.principal = none) (hasks : asks r now x = false) : Reads (none, x)
  | ended (hasks : asks r now x = true → namesOther r now x = true) : Reads (none, {})
  | other {p q : Principal} (hp : x.principal = some p) (hs : p.source ≠ oidc)
      (hasks : asks r now x = false) (hq : checkSource r.env 0 p = some q) :
      Reads (some q, { x with principal := some q, seenAt := some now })
  | fresh {p : Principal} {c : Int} (hp : x.principal = some p) (hs : p.source = oidc)
      (hasks : asks r now x = false) (hexp : sessionExpired p x.toSession now = false)
      (hc : x.checkedAt = some c) (h60 : now + r.toCheck - c < 60) :
      Reads (some p, { x with principal := some p, seenAt := some now })
  | rechecked {p : Principal} {x' : WebSession} {role : CStr}
      (hp : x.principal = some p) (hs : p.source = oidc) (hasks : asks r now x = true)
      (hother : namesOther r now x = false) (hexp : sessionExpired p x.toSession now = false)
      (hstale : ∀ c, x.checkedAt = some c → c ≤ now + r.toCheck → 60 ≤ now + r.toCheck - c)
      (hx : x'.subject = x.subject ∧ x'.createdAt = x.createdAt)
      (hgives : (Check.asked r x).Gives x.subject role) :
      Reads (some { p with role },
        { setSessionRole p role (now + r.toCheck) x' with seenAt := some now })

end

variable {r : Reading} {now : Int} {x : WebSession} {p : Principal} {s : World}

theorem renewed_keeps {x' : WebSession} (h : renewed r now x = some x') :
    (x'.subject = x.subject ∧ x'.createdAt = x.createdAt) ∧
      (x'.accessToken = x.accessToken ∨ ∃ tokens, r.token x.refreshToken = some tokens ∧
        tokens.accessToken = some x'.accessToken) := by
  unfold renewed at h
  split at h
  · simp only [refreshAccessToken, Option.bind_eq_bind, Option.bind_eq_some_iff] at h
    obtain ⟨-, -, tokens, htokens, access, haccess, -, -, -, -, n, -, -, -, rotated, -,
      -, -, h⟩ := h
    cases h
    exact ⟨⟨rfl, rfl⟩, .inr ⟨tokens, htokens, haccess⟩⟩
  · cases h
    exact ⟨⟨rfl, rfl⟩, .inl rfl⟩

/-- A recheck ends the session if UserInfo answers for another subject, and sets a role else. -/
theorem recheck_cases (r : Reading) (now : Int) (p : Principal) (x : WebSession) :
    (recheck r now p x = none ∧ ∃ claims, said r now x = some claims ∧
      claims.sub ≠ some x.subject) ∨
    ∃ x' role, recheck r now p x = some (setSessionRole p role now x') ∧
      (∀ claims, said r now x = some claims → claims.sub = some x.subject) ∧
      (x'.subject = x.subject ∧ x'.createdAt = x.createdAt) ∧
      (Check.asked r x).Gives x.subject role := by
  unfold recheck said
  by_cases hskip : r.config.insecureSkipVerify = true
  · simp only [if_pos hskip]
    exact .inr ⟨x, _, rfl, nofun, ⟨rfl, rfl⟩, .inl rfl⟩
  simp only [if_neg hskip]
  cases hx : renewed r now x with
  | none => exact .inr ⟨x, _, rfl, nofun, ⟨rfl, rfl⟩, .inl rfl⟩
  | some x' =>
    obtain ⟨hkeep, htoken⟩ := renewed_keeps hx
    simp only [Option.bind_some]
    cases ha : if isSafeHeaderToken x'.accessToken = true then r.userInfo x'.accessToken
      else none with
    | none => exact .inr ⟨x', _, rfl, nofun, hkeep, .inl rfl⟩
    | some claims =>
      simp only [hkeep.1]
      by_cases hsub : claims.sub = some x.subject
      · have huser := (Option.ite_none_right_eq_some.1 ha).2
        refine .inr ⟨x', _, if_neg (not_not.2 hsub), fun _ h => ?_, hkeep,
          .inr ⟨_, claims, htoken, huser, hsub, rfl⟩⟩
        exact Option.some.inj h ▸ hsub
      · exact .inl ⟨if_pos hsub, claims, rfl, hsub⟩

theorem reads_current (r : Reading) (now : Int) (x : WebSession) :
    Reads r now x (current r now x) := by
  unfold current
  cases hp : x.principal with
  | none => exact .nobody hp (by simp [asks, hp])
  | some p =>
    simp only
    split
    · next hexp => exact .ended (by simp [asks, hp, hexp])
    next hexp =>
    have hexp := Bool.eq_false_of_not_eq_true hexp
    split
    · next hs =>
      have hasks : asks r now x = (r.config.enabled && x.subject ≠ [] &&
          !x.checkedAt.any fun c => c ≤ now + r.toCheck ∧ now + r.toCheck - c < 60) := by
        simp [asks, hp, hs, hexp]
      rw [revalidateCurrentSession]
      by_cases hoff : r.config.enabled = false ∨ x.subject = []
      · rw [if_pos hoff]
        refine .ended fun h => ?_
        rw [hasks] at h
        rcases hoff with hoff | hoff <;> simp [hoff] at h
      have hon : (r.config.enabled && decide (x.subject ≠ [])) = true := by simpa using hoff
      rw [if_neg hoff]
      cases hc : x.checkedAt.any fun c => c ≤ now + r.toCheck ∧ now + r.toCheck - c < 60 with
      | true =>
        rw [hon, hc] at hasks
        obtain ⟨c, hc, hnow⟩ := (Option.any_eq_true _ _).1 hc
        rw [if_pos rfl]
        simp only [hp]
        exact .fresh hp hs hasks hexp hc (of_decide_eq_true hnow).2
      | false =>
        rw [hon, hc] at hasks
        have hstale (c : Int) (hx : x.checkedAt = some c) (hle : c ≤ now + r.toCheck) :
            60 ≤ now + r.toCheck - c := by
          rw [hx] at hc
          exact not_lt.1 fun hlt => of_decide_eq_false hc ⟨hle, hlt⟩
        rw [if_neg Bool.false_ne_true]
        obtain ⟨h, claims, hsaid, hsub⟩ | ⟨x', role, h, hsub, hx, hgives⟩ :=
          recheck_cases r (now + r.toCheck) p x
        · rw [h]
          exact .ended fun _ => by simp [namesOther, hasks, hsaid, hsub]
        · rw [h]
          refine .rechecked hp hs hasks ?_ hexp hstale hx hgives
          rw [namesOther, hasks]
          cases hsaid : said r (now + r.toCheck) x with
          | none => rfl
          | some claims => simp [hsub claims hsaid]
    · next hs =>
      have hasks : asks r now x = false := by simp [asks, hp, hs]
      cases hq : checkSource r.env 0 p with
      | none => exact .ended fun h => absurd h (Bool.eq_false_iff.1 hasks)
      | some q => exact .other hp hs hasks hq

theorem checkSource_some (hs : p.source ≠ oidc)
    (h : checkSource env 0 p = some q) : q.source = p.source ∧ (p.source = "local".toList →
      env.localLoginEnabled 0 = true ∧ ∃ role name, q.role = strtolower role ∧ q.role ∈ roles ∧
        env.users.find? (fun u => u.1 = q.username) = some (name, some role)) := by
  unfold checkSource at h
  split at h
  · split at h
    · cases h
    next hon =>
    split at h
    · next name role hfind =>
      obtain ⟨hmem, ⟨⟩⟩ := Option.ite_none_right_eq_some.1 h
      exact ⟨rfl, fun _ => ⟨Bool.eq_true_of_not_eq_false hon, role, name, rfl, hmem, hfind⟩⟩
    · cases h
  · next hl =>
    cases h
    exact ⟨rfl, fun hl' => absurd hl' hl⟩

/-! ## What a session rests on -/

/-- The role of a session that need not be checked is what the last check came to. -/
structure Good (g : History) (x : WebSession) : Prop where
  past : ∀ c, x.checkedAt = some c → c ≤ g.now
  ages : ∀ p, x.principal = some p →
    x.createdAt = some g.loginAt ∧ (∃ n, x.seenAt = some n ∧ n ≤ g.usedAt) ∧ g.revoked = false
  role : ∀ p, x.principal = some p → p.source = oidc → x.subject = g.subject ∧ ∃ c,
    x.checkedAt = some c ∧ (g.now - c < 60 → c ≤ g.last.1 ∧ g.last.2.Gives g.subject p.role)

theorem good_empty (g : History) : Good g {} := ⟨nofun, nofun, nofun⟩

variable {g h : History} {y x' : WebSession} {answer : Option Principal}

theorem Good.advance (hx : Good g x) (hnow : g.now ≤ h.now) (hused : g.usedAt ≤ h.usedAt)
    (hlogin : h.loginAt = g.loginAt ∧ h.subject = g.subject ∧ h.revoked = g.revoked)
    (hlast : ∀ p c, x.principal = some p → p.source = oidc → x.checkedAt = some c →
      h.now - c < 60 → h.last = g.last) : Good h x := by
  obtain ⟨hat, hsubject, hrevoked⟩ := hlogin
  refine ⟨fun c hc => (hx.past c hc).trans hnow, fun p hp => ?_, fun p hp hs => ?_⟩
  · obtain ⟨hcreated, ⟨n, hn, hle⟩, hr⟩ := hx.ages p hp
    exact ⟨hat ▸ hcreated, ⟨n, hn, hle.trans hused⟩, hrevoked.trans hr⟩
  obtain ⟨hsub, c, hc, hb⟩ := hx.role p hp hs
  refine ⟨hsub.trans hsubject.symm, c, hc, fun h60 => ?_⟩
  rw [hlast p c hp hs hc h60, hsubject]
  exact hb (by omega)

theorem le_after (g : History) (r : Reading) (x : WebSession) (answer : Option Principal) :
    g.now + r.toCheck ≤ (g.after r x answer).now := by
  simp only [History.after]
  omega

theorem last_after (hasks : asks r g.now x = false) : (g.after r x answer).last = g.last := by
  simp [History.after, hasks]

theorem revoked_after (hother : namesOther r g.now x = false) :
    (g.after r x answer).revoked = g.revoked := by
  simp [History.after, hother]

theorem namesOther_of_not (hasks : asks r now x = false) : namesOther r now x = false := by
  rw [namesOther, hasks, Bool.false_and]

/-- The session that is read. -/
theorem Good.read (hx : Good g x) (hr : Reads r g.now x (answer, x')) :
    Good (g.after r x answer) x' := by
  have hnow := le_after g r x answer
  have hlater : g.now ≤ (g.after r x answer).now := by omega
  cases hr with
  | nobody hp =>
    exact ⟨fun c hc => (hx.past c hc).trans hlater, fun p hp' => (nomatch hp.symm.trans hp'),
      fun p hp' => (nomatch hp.symm.trans hp')⟩
  | ended => exact good_empty _
  | @other p q hp hs hasks hq =>
    obtain ⟨hcreated, -, hrevoked⟩ := hx.ages p hp
    refine ⟨fun c hc => (hx.past c hc).trans hlater, fun _ _ =>
      ⟨hcreated, ⟨_, rfl, le_max_right _ _⟩,
      (revoked_after (namesOther_of_not hasks)).trans hrevoked⟩, fun q' hq' hs' => ?_⟩
    cases hq'
    exact absurd ((checkSource_some hs hq).1.symm.trans hs') hs
  | @fresh p c hp hs hasks =>
    have hg := hx.advance hlater (le_max_left _ _)
      ⟨rfl, rfl, revoked_after (namesOther_of_not hasks)⟩ fun _ _ _ _ _ _ => last_after hasks
    obtain ⟨hcreated, -, hrevoked⟩ := hg.ages p hp
    exact ⟨hg.past, fun _ _ => ⟨hcreated, ⟨_, rfl, le_max_right _ _⟩, hrevoked⟩,
      fun q hq => hg.role q (hp.trans hq)⟩
  | @rechecked p x' role hp hs hasks hother _ _ hkeep hgives =>
    obtain ⟨hcreated, -, hrevoked⟩ := hx.ages p hp
    obtain ⟨hsub, -⟩ := hx.role p hp hs
    refine ⟨fun c hc => ?_, fun _ _ => ⟨hkeep.2.trans hcreated, ⟨_, rfl, le_max_right _ _⟩,
      (revoked_after hother).trans hrevoked⟩,
      fun q hq _ => ⟨hkeep.1.trans hsub, _, rfl, fun _ => ?_⟩⟩
    · cases hc
      exact hnow
    · cases hq
      simp only [History.after, hasks, if_true]
      exact ⟨le_rfl, hsub ▸ hgives⟩

/-- The stored session, while its copy is read: a recheck due for the copy is due for both. -/
theorem Good.beside (hy : Good g y) (hx : Good g x) (hr : Reads r g.now x (answer, x'))
    (hother : namesOther r g.now x = false)
    (hle : ∀ c c', y.checkedAt = some c → x.checkedAt = some c' → c ≤ c') :
    Good (g.after r x answer) y ∧
      ∀ c c', y.checkedAt = some c → x'.checkedAt = some c' → c ≤ c' := by
  have hnow := le_after g r x answer
  have hused : g.usedAt ≤ (g.after r x answer).usedAt := by
    simp only [History.after]
    split <;> omega
  have hgood (hlast : ∀ c, y.checkedAt = some c → (g.after r x answer).now - c < 60 →
      asks r g.now x = false) : Good (g.after r x answer) y :=
    hy.advance (by omega) hused ⟨rfl, rfl, revoked_after hother⟩
      fun _ c _ _ hc h60 => last_after (hlast c hc h60)
  cases hr with
  | nobody _ hasks => exact ⟨hgood fun _ _ _ => hasks, hle⟩
  | ended hasks =>
    exact ⟨hgood fun _ _ _ => Bool.eq_false_iff.2 fun h =>
      (nomatch (hasks h).symm.trans hother), nofun⟩
  | other _ _ hasks => exact ⟨hgood fun _ _ _ => hasks, hle⟩
  | fresh _ _ hasks => exact ⟨hgood fun _ _ _ => hasks, hle⟩
  | @rechecked p _ _ hp hs _ _ _ hstale =>
    obtain ⟨-, c', hc', -⟩ := hx.role p hp hs
    have hpast := hx.past c' hc'
    have hdue := hstale c' hc' (by omega)
    refine ⟨hgood fun c hc h60 => ?_, fun c n hc hn => ?_⟩
    · have := hle c c' hc hc'
      omega
    · cases hn
      have := hle c c' hc hc'
      omega

/-! ## Runs -/

structure Inv (s : World) : Prop where
  stored : Good s.toHistory s.stored
  copy : ∀ x, s.copy = some x → Good s.toHistory x ∧
    ∀ c c', s.stored.checkedAt = some c → x.checkedAt = some c' → c ≤ c'

theorem Inv.session (h : Inv s) : Good s.toHistory s.session ∧
    ∀ c c', s.stored.checkedAt = some c → s.session.checkedAt = some c' → c ≤ c' := by
  cases hc : s.copy with
  | none =>
    rw [World.session, hc, Option.getD_none]
    exact ⟨h.stored, fun c c' h h' => (Option.some.inj (h.symm.trans h')).le⟩
  | some x =>
    rw [World.session, hc, Option.getD_some]
    exact h.copy x hc

theorem Inv.read (hs : Inv s) (he : Revokes s (.read r)) : Inv (step s (.read r)) := by
  have hreads := reads_current r s.now s.session
  have hgood := hs.session.1.read hreads
  cases hc : s.copy with
  | none =>
    refine ⟨?_, fun x hx => ?_⟩ <;> simp only [Oidc.step, hc] at *
    · exact hgood
    · cases hx
  | some y =>
    obtain ⟨hstored, hle⟩ :=
      hs.stored.beside hs.session.1 hreads (he (by rw [hc]; rfl)) hs.session.2
    refine ⟨?_, fun x hx => ?_⟩ <;> simp only [Oidc.step, hc] at *
    · exact hstored
    · cases hx
      exact ⟨hgood, hle⟩

theorem local_ne_oidc : "local".toList ≠ oidc := by decide

theorem Inv.step {e : Event} (hs : Inv s) (he : Revokes s e) : Inv (step s e) := by
  cases e with
  | tick d =>
    have hlater {x : WebSession} (hx : Good s.toHistory x) :
        Good (Oidc.step s (.tick d)).toHistory x :=
      hx.advance (by simp only [Oidc.step]; omega) le_rfl ⟨rfl, rfl, rfl⟩ fun _ _ _ _ _ _ => rfl
    exact ⟨hlater hs.stored, fun x hx => ⟨hlater (hs.copy x hx).1, (hs.copy x hx).2⟩⟩
  | login username role d =>
    refine ⟨⟨fun c hc => ?_, fun _ _ => ⟨rfl, ⟨_, rfl, le_rfl⟩, rfl⟩, fun p hp h => ?_⟩, nofun⟩
    · have := hs.stored.past c hc
      simp only [Oidc.step]
      omega
    · cases hp
      exact absurd h local_ne_oidc
  | callback config username claims access refresh expiresAt d d' =>
    refine ⟨⟨fun c hc => ?_, fun _ _ => ⟨rfl, ⟨_, rfl, le_rfl⟩, rfl⟩, fun p hp _ => ?_⟩, nofun⟩
    · cases hc
      exact le_rfl
    · cases hp
      exact ⟨rfl, _, rfl, fun _ => ⟨le_rfl, rfl, rfl⟩⟩
  | read r => exact hs.read he
  | closeReadSession =>
    refine ⟨hs.stored, fun x hx => ?_⟩
    cases hx
    exact hs.session
  | finish => exact ⟨hs.stored, nofun⟩
  | logout =>
    simp only [Oidc.step]
    split
    · refine ⟨hs.stored, fun x hx => ?_⟩
      cases hx
      exact ⟨good_empty _, nofun⟩
    · next hc => exact ⟨good_empty _, fun x hx => absurd (Option.isSome_of_eq_some hx) hc⟩

theorem Good.ages_lt (hx : Good g x) (hp : x.principal = some p) (hs : p.source = oidc)
    (h : sessionExpired p x.toSession now = false) :
    g.revoked = false ∧ now - g.loginAt < 3600 ∧ now - g.usedAt < 1800 := by
  obtain ⟨hcreated, ⟨n, hn, hle⟩, hrevoked⟩ := hx.ages p hp
  simp only [sessionExpired, hcreated, hn, hs, if_true, decide_eq_false_iff_not, oidcMaxSec,
    idleMaxSec] at h
  exact ⟨hrevoked, by omega⟩

/-- **Privileges are fresh**, if UserInfo does not answer for another subject while a request has
closed its session. -/
theorem privileges_fresh {t : Int} (hruns : Runs Revokes { now := t } s) (r : Reading)
    {q : Principal} (hq : (current r s.now s.session).1 = some q) :
    (q.source = oidc →
      ((step s (.read r)).revoked = false ∧ s.now - s.loginAt < 3600 ∧ s.now - s.usedAt < 1800) ∧
      s.now + r.toCheck - (step s (.read r)).last.1 < 60 ∧
      (step s (.read r)).last.2.Gives s.subject q.role) ∧
    (q.source = "local".toList → r.env.localLoginEnabled 0 = true ∧
      ∃ role name, q.role = strtolower role ∧ q.role ∈ roles ∧
        r.env.users.find? (fun u => u.1 = q.username) = some (name, some role)) := by
  have hinv : Inv s := by
    clear hq
    induction hruns with
    | refl => exact ⟨good_empty _, nofun⟩
    | tail _ hstep ih =>
      obtain ⟨e, he, rfl⟩ := hstep
      exact ih.step he
  have hx := hinv.session.1
  have hreads := reads_current r s.now s.session
  simp only [step]
  generalize current r s.now s.session = v at hq hreads
  cases hreads with
  | nobody => cases hq
  | ended => cases hq
  | other _ hs _ hcheck =>
    cases hq
    obtain ⟨hsame, hlocal⟩ := checkSource_some hs hcheck
    exact ⟨fun h => absurd (hsame.symm.trans h) hs, fun h => hlocal (hsame.symm.trans h)⟩
  | fresh hp hs hasks hexp hc h60 =>
    cases hq
    obtain ⟨-, c', hc', hb⟩ := hx.role _ hp hs
    obtain rfl := Option.some.inj (hc.symm.trans hc')
    obtain ⟨hle, hgives⟩ := hb (by omega)
    obtain ⟨hrevoked, hages⟩ := hx.ages_lt hp hs hexp
    rw [last_after hasks, revoked_after (namesOther_of_not hasks)]
    exact ⟨fun _ => ⟨⟨hrevoked, hages⟩, (sub_le_sub_left hle _).trans_lt h60, hgives⟩,
      fun h => absurd (h.symm.trans hs) local_ne_oidc⟩
  | @rechecked p _ _ hp hs hasks hother hexp _ _ hgives =>
    cases hq
    obtain ⟨hsub, -⟩ := hx.role p hp hs
    obtain ⟨hrevoked, hages⟩ := hx.ages_lt hp hs hexp
    rw [revoked_after hother]
    refine ⟨fun _ => ⟨⟨hrevoked, hages⟩, ?_⟩, fun h => absurd (h.symm.trans hs) local_ne_oidc⟩
    simp only [History.after, hasks, if_true, sub_self]
    exact ⟨by decide, hsub ▸ hgives⟩

theorem runs_foldl (es : List Event) (s : World) : Runs (fun _ _ => True) s (es.foldl step s) := by
  induction es generalizing s with
  | nil => exact .refl
  | cons e es ih => exact .head ⟨e, trivial, rfl⟩ (ih _)

def admins : Claims := { sub := some ['s'], groups := ["/Domain Admins".toList] }

def signIn : Event := .callback { enabled := true } ['a'] admins ['t'] [] 9999 0 0

def answered (claims : Option Claims) : Reading :=
  ⟨quietEnv, { enabled := true }, 0, 0, 0, fun _ => none, fun _ => claims⟩

/-- A minute after the login the provider is asked again, and answers. -/
theorem privileges_fresh_rechecked : ∃ s q, Runs Revokes { now := 0 } s ∧
    asks (answered (some admins)) s.now s.session = true ∧
    (current (answered (some admins)) s.now s.session).1 = some q ∧ q.role = "admin".toList ∧
    (Check.asked (answered (some admins)) s.session).Gives ['s'] q.role := by
  let s := step (step { now := 0 } signIn) (.tick 60)
  have hruns : Runs Revokes { now := 0 } s :=
    (Relation.ReflTransGen.single ⟨signIn, trivial, rfl⟩).tail ⟨.tick 60, trivial, rfl⟩
  have hasks : asks (answered (some admins)) s.now s.session = true := by decide +kernel
  have hrole : ((current (answered (some admins)) s.now s.session).1.map fun q =>
      (q.source, q.role)) = some (oidc, "admin".toList) := by decide +kernel
  obtain ⟨q, hq, hrole⟩ := Option.map_eq_some_iff.1 hrole
  obtain ⟨hs, hrole⟩ := Prod.mk.injEq .. ▸ hrole
  have hgives := ((privileges_fresh hruns (answered (some admins)) hq).1 hs).2.2
  simp only [step, History.after, hasks, if_true] at hgives
  exact ⟨s, q, hruns, hasks, hq, hrole, hgives⟩

/-- The answer for another subject comes to a read request that has begun 59 seconds after the
login; the session goes on, and the next answer makes an admin of it. -/
theorem session_survives_revocation : ∃ s, Runs (fun _ _ => True) { now := 0 } s ∧
    s.revoked = true ∧ ((current (answered (some admins)) s.now s.session).1.map fun q =>
      (q.source, q.role)) = some (oidc, "admin".toList) :=
  ⟨_, runs_foldl [signIn, .tick 59, .read (answered none), .closeReadSession, .tick 1,
    .read (answered (some { sub := some ['x'] })), .finish] _, by decide +kernel, by decide +kernel⟩

end SolariNet.Dashboard.Oidc
