/-
# Sessions of the dashboard API

`lib/Auth.php` and `lib/Operator.php`: who the caller of a request is.  A request reads its
session many times, and each reading (`current`) checks it again: its age, how long it has been
idle, that a local account still exists, that an identity provider still vouches for it.  What
the reading answers is then what the caller may do.

The answers of the outside world (the clock, the credential file, the identity provider, fresh
tokens) are those of a `WebEnv`, one for each reading, so that nothing is assumed about a request
that outlives its session.
-/
import SolariNet.Lib.Text
import SolariNet.Wire.Basic

namespace SolariNet.Dashboard

def strtolower (s : CStr) : CStr := s.map Char.toLower
def strtoupper (s : CStr) : CStr := s.map Char.toUpper

@[simp] theorem strtoupper_strtoupper (s : CStr) : strtoupper (strtoupper s) = strtoupper s := by
  rw [strtoupper, strtoupper, List.map_map]
  exact List.map_congr_left fun c _ => Lib.toUpper_toUpper c

structure Principal where
  username : CStr
  role : CStr
  source : CStr

/-- `$_SESSION`, as far as the policy reads it; a value of another type is absent. -/
structure Session where
  principal : Option Principal := none
  createdAt : Option Int := none
  seenAt : Option Int := none
  csrf : Option CStr := none

structure UrlParts where
  scheme : Option CStr := none
  host : Option CStr := none
  port : Option Nat := none

/-- The world around a request; what can change in its course is asked by the number of the
reading. -/
structure WebEnv where
  time : Nat → Int
  localLoginEnabled : Nat → Bool
  users : List (CStr × Option CStr)
  /-- `Oidc::revalidateCurrentSession`: the principal it leaves, or its refusal. -/
  revalidate : Nat → Principal → Option Principal
  newCsrfToken : Nat → CStr
  parseUrl : CStr → UrlParts
  urlPath : CStr → Option CStr
  allowedOriginsVar : CStr

structure ApiError where
  code : String
  message : CStr
  status : Nat

structure AuthState where
  session : Session
  reads : Nat := 0
  readSessionClosed : Bool := false
  answered : List Principal := []

abbrev Api : Type → Type := StateT AuthState (Except ApiError)

/-! ## Reading the session -/

def idleMaxSec : Int := 1800
def absoluteMaxSec : Int := 28800
def oidcMaxSec : Int := 3600

def sessionExpired (p : Principal) (s : Session) (now : Int) : Bool :=
  match s.createdAt, s.seenAt with
  | some created, some seen =>
    let absolute := if p.source = "oidc".toList then oidcMaxSec else absoluteMaxSec
    decide (created > now ∨ seen > now ∨ now - created ≥ absolute ∨ now - seen ≥ idleMaxSec)
  | _, _ => true

/-- The check of a principal against where it comes from; `none` ends the session. -/
def checkSource (env : WebEnv) (k : Nat) (p : Principal) : Option Principal :=
  if p.source = "local".toList then
    if env.localLoginEnabled k = false then none
    else
      match env.users.find? fun u => u.1 = p.username with
      | some (_, some role) =>
        if strtolower role ∈ ["viewer".toList, "operator".toList, "admin".toList] then
          some { p with role := strtolower role }
        else none
      | _ => none
  else if p.source = "oidc".toList then env.revalidate k p
  else some p

def current (env : WebEnv) : Api (Option Principal) := fun st =>
  let next := { st with reads := st.reads + 1 }
  match st.session.principal with
  | none => .ok (none, next)
  | some p =>
    if sessionExpired p st.session (env.time st.reads) = true then
      .ok (none, { next with session := {} })
    else
      match checkSource env st.reads p with
      | none => .ok (none, { next with session := {} })
      | some q =>
        .ok (some q,
          { next with
            session := { st.session with principal := some q, seenAt := env.time st.reads }
            answered := q :: st.answered })

/-- The session has a principal, has not expired, and its source still vouches for it. -/
def LiveSession (env : WebEnv) (st : AuthState) : Prop :=
  ∃ p, st.session.principal = some p ∧
    sessionExpired p st.session (env.time st.reads) = false ∧ (checkSource env st.reads p).isSome

def requireSession (env : WebEnv) : Api Principal := do
  match ← current env with
  | some p => return p
  | none => throw ⟨"unauthorized", "Authentication required.".toList, 401⟩

def emptyText (s : CStr) : Bool := s = [] ∨ s = ['0']

def csrfToken (env : WebEnv) : Api CStr := do
  match ← current env with
  | none => return []
  | some _ =>
    let st ← get
    match st.session.csrf.filter (! emptyText ·) with
    | some token => return token
    | none =>
      let token := env.newCsrfToken st.reads
      set { st with session := { st.session with csrf := some token } }
      return token

def closeReadSession (env : WebEnv) : Api Unit := do
  if (← get).readSessionClosed = false then
    if (← current env).isSome then
      let _ ← csrfToken env
    modify fun st => { st with readSessionClosed := true }

/-! ## The operator -/

def operatorName (env : WebEnv) : Api CStr := do
  match ← current env with
  | none => return []
  | some p => return p.username

def operatorRole (env : WebEnv) : Api CStr := do
  match ← current env with
  | none => return "viewer".toList
  | some p => return strtolower p.role

def privilegedRoles : List CStr := ["operator".toList, "admin".toList]

def requireOperator (env : WebEnv) : Api CStr := do
  let denied : ApiError :=
    ⟨"forbidden", "This action requires an authenticated operator role.".toList, 403⟩
  let name ← operatorName env
  if name = [] then throw denied
  else if (← operatorRole env) ∈ privilegedRoles then return name
  else throw denied

def requireAdmin (env : WebEnv) : Api CStr := do
  let denied : ApiError :=
    ⟨"forbidden", "This action requires an authenticated admin role.".toList, 403⟩
  let name ← operatorName env
  if name = [] then throw denied
  else if (← operatorRole env) = "admin".toList then return name
  else throw denied

/-! ## What the gates have seen -/

variable {st st' : AuthState} {env : WebEnv} {name : CStr}

theorem Api.bind_ok {α β : Type} {x : Api α} {f : α → Api β} {b : β}
    (h : (x >>= f) st = .ok (b, st')) : ∃ a mid, x st = .ok (a, mid) ∧ f a mid = .ok (b, st') := by
  have hbind : (x >>= f) st = (x st >>= fun r => f r.1 r.2) := rfl
  rw [hbind] at h
  cases hx : x st with
  | error e =>
    rw [hx] at h
    cases h
  | ok r =>
    rw [hx] at h
    exact ⟨r.1, r.2, rfl, h⟩

theorem Api.bind_run {α β : Type} {x : Api α} {mid : AuthState} {a : α} (h : x st = .ok (a, mid))
    (f : α → Api β) : (x >>= f) st = f a mid := by
  have hbind : (x >>= f) st = (x st >>= fun r => f r.1 r.2) := rfl
  rw [hbind, h]
  rfl

theorem current_ok {r : Option Principal} (h : current env st = .ok (r, st')) :
    st.answered ⊆ st'.answered ∧
      ∀ p, r = some p → p ∈ st'.answered ∧ st'.session.csrf = st.session.csrf ∧
        LiveSession env st := by
  unfold current at h
  cases hp : st.session.principal with
  | none =>
    simp only [hp] at h
    obtain ⟨rfl, rfl⟩ := h
    exact ⟨List.Subset.refl _, fun p hr => nomatch hr⟩
  | some p =>
    simp only [hp] at h
    split at h
    · obtain ⟨rfl, rfl⟩ := h
      exact ⟨List.Subset.refl _, fun p hr => nomatch hr⟩
    next hexp =>
    cases hq : checkSource env st.reads p with
    | none =>
      simp only [hq] at h
      obtain ⟨rfl, rfl⟩ := h
      exact ⟨List.Subset.refl _, fun p hr => nomatch hr⟩
    | some q =>
      simp only [hq] at h
      obtain ⟨rfl, rfl⟩ := h
      refine ⟨List.subset_cons_self _ _, fun p hr => ?_⟩
      cases hr
      exact ⟨List.mem_cons_self, rfl, p, hp, Bool.eq_false_iff.2 hexp, by rw [hq]; rfl⟩

theorem current_eq_some (hp : st.session.principal = some p)
    (hexp : sessionExpired p st.session (env.time st.reads) = false)
    (hq : checkSource env st.reads p = some q) :
    current env st = .ok (some q,
      { st with
        session := { st.session with principal := some q, seenAt := env.time st.reads }
        reads := st.reads + 1
        answered := q :: st.answered }) := by
  unfold current
  simp only [hp, hexp, hq, if_neg Bool.false_ne_true]

theorem requireSession_ok {p : Principal} (h : requireSession env st = .ok (p, st')) :
    p ∈ st'.answered ∧ LiveSession env st := by
  obtain ⟨r, mid, hr, h⟩ := Api.bind_ok h
  cases r with
  | none => cases h
  | some q =>
    cases h
    obtain ⟨hseen, -, hlive⟩ := (current_ok hr).2 p rfl
    exact ⟨hseen, hlive⟩

theorem csrfToken_ok (h : csrfToken env st = .ok (token, st')) :
    st.answered ⊆ st'.answered ∧ (token ≠ [] → st'.session.csrf = some token) := by
  obtain ⟨r, mid, hr, h⟩ := Api.bind_ok h
  have hseen := (current_ok hr).1
  cases r with
  | none =>
    cases h
    exact ⟨hseen, fun hne => absurd rfl hne⟩
  | some q =>
    obtain ⟨s, mid', hs, h⟩ := Api.bind_ok h
    cases hs
    cases ht : mid.session.csrf.filter (! emptyText ·) with
    | some t =>
      simp only [ht] at h
      cases h
      exact ⟨hseen, fun _ => (Option.filter_eq_some_iff.1 ht).1⟩
    | none =>
      simp only [ht] at h
      cases h
      exact ⟨hseen, fun _ => rfl⟩

theorem closeReadSession_ok (h : closeReadSession env st = .ok ((), st')) :
    st.answered ⊆ st'.answered := by
  obtain ⟨s, mid, hs, h⟩ := Api.bind_ok h
  cases hs
  split at h
  · obtain ⟨r, mid₁, hr, h⟩ := Api.bind_ok h
    have hseen := (current_ok hr).1
    split at h
    · obtain ⟨t, mid₂, ht, h⟩ := Api.bind_ok h
      cases h
      exact List.Subset.trans hseen (csrfToken_ok ht).1
    · cases h
      exact hseen
  · cases h
    exact List.Subset.refl _

theorem operatorName_ok (h : operatorName env st = .ok (name, st')) :
    st.answered ⊆ st'.answered ∧ (name ≠ [] → st'.session.csrf = st.session.csrf) := by
  obtain ⟨r, mid, hr, h⟩ := Api.bind_ok h
  obtain ⟨hseen, hans⟩ := current_ok hr
  cases r with
  | none =>
    cases h
    exact ⟨hseen, fun hne => absurd rfl hne⟩
  | some q =>
    cases h
    exact ⟨hseen, fun _ => (hans q rfl).2.1⟩

theorem operatorRole_ok (h : operatorRole env st = .ok (role, st')) :
    st.answered ⊆ st'.answered ∧ (role ≠ "viewer".toList →
      (∃ p ∈ st'.answered, strtolower p.role = role) ∧ st'.session.csrf = st.session.csrf) := by
  obtain ⟨r, mid, hr, h⟩ := Api.bind_ok h
  obtain ⟨hseen, hans⟩ := current_ok hr
  cases r with
  | none =>
    cases h
    exact ⟨hseen, fun hne => absurd rfl hne⟩
  | some q =>
    cases h
    exact ⟨hseen, fun _ => ⟨⟨q, (hans q rfl).1, rfl⟩, (hans q rfl).2.1⟩⟩

theorem requireRole_ok {denied : ApiError} {P : CStr → Prop} [DecidablePred P]
    (hviewer : ¬ P "viewer".toList)
    (h : (do
      let name ← operatorName env
      if name = [] then throw denied
      else if P (← operatorRole env) then return name
      else throw denied : Api CStr) st = .ok (name, st')) :
    (∃ p ∈ st'.answered, P (strtolower p.role)) ∧ st'.session.csrf = st.session.csrf ∧
      st.answered ⊆ st'.answered := by
  obtain ⟨n, mid, hn, h⟩ := Api.bind_ok h
  obtain ⟨hseen, hcsrf⟩ := operatorName_ok hn
  split at h
  · cases h
  next hne =>
  obtain ⟨role, mid', hrole, h⟩ := Api.bind_ok h
  obtain ⟨hseen', hans⟩ := operatorRole_ok hrole
  split at h
  · next hpass =>
    cases h
    have hne' : role ≠ "viewer".toList := by
      rintro rfl
      exact hviewer hpass
    obtain ⟨⟨p, hp, hpr⟩, hcsrf'⟩ := hans hne'
    exact ⟨⟨p, hp, hpr ▸ hpass⟩, hcsrf'.trans (hcsrf hne), List.Subset.trans hseen hseen'⟩
  · cases h

theorem requireOperator_ok (h : requireOperator env st = .ok (name, st')) :
    (∃ p ∈ st'.answered, strtolower p.role ∈ privilegedRoles) ∧
      st'.session.csrf = st.session.csrf ∧ st.answered ⊆ st'.answered :=
  requireRole_ok (by decide) h

theorem requireAdmin_ok (h : requireAdmin env st = .ok (name, st')) :
    (∃ p ∈ st'.answered, strtolower p.role = "admin".toList) ∧
      st'.session.csrf = st.session.csrf ∧ st.answered ⊆ st'.answered :=
  requireRole_ok (P := (· = "admin".toList)) (by decide) h

end SolariNet.Dashboard
