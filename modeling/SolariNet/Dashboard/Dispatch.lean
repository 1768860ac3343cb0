/-
# Default-deny dispatch

`lib/Router.php` and `lib/Policy.php`.  The router takes the first route that fits the path and
the method, asks the policy, and runs the handler.  The policy resolves the level a route needs

    declared               that level; an unknown one is met by nobody
    not declared           `operator` for a method that writes, `session` otherwise

and asks for the caller's origin and token when the method writes.  The methods that write are
`POST`, `PUT`, `PATCH` and `DELETE`; the comment over the policy says that all but `GET`, `HEAD`
and `OPTIONS` are.

A compiled pattern is a function from paths to captures, since nothing depends on how it was
written; `parse_url` is the environment's.
-/
import SolariNet.Dashboard.Auth

namespace SolariNet.Dashboard

open List

structure Policy where
  auth : Option CStr := none
  csrf : Option CStr := none

structure Route where
  method : CStr
  regex : CStr → Option (List CStr)
  vars : List CStr
  policy : Policy

structure Request where
  method : CStr
  uri : CStr
  host : CStr := []
  https : Bool := true
  origin : CStr := []
  referer : CStr := []
  secFetchSite : CStr := []
  csrf : CStr := []

/-! ## Policy -/

def writeMethods : List CStr := ["POST".toList, "PUT".toList, "PATCH".toList, "DELETE".toList]
def readMethods : List CStr := ["GET".toList, "HEAD".toList, "OPTIONS".toList]

def isWrite (method : CStr) : Bool := strtoupper method ∈ writeMethods

def Policy.declared (p : Policy) : Option CStr := p.auth.filter (· ≠ [])

def resolveAuth (method : CStr) (p : Policy) : CStr :=
  match p.declared with
  | some level => level
  | none => if isWrite method = true then "operator".toList else "session".toList

def isCsrfBridged (p : Policy) (caller : Option Principal) (req : Request) : Bool :=
  match caller with
  | none => false
  | some c =>
    p.csrf = some "panel-service".toList ∧ req.origin = [] ∧ req.referer = [] ∧
      req.secFetchSite = [] ∧ c.source = "local".toList ∧ c.username = "panel".toList ∧
      c.role = "viewer".toList

/-- `Policy::originOf`, which `normalizeOrigin` is for a text that is not empty. -/
def originOf (env : WebEnv) (url : CStr) : CStr :=
  match (env.parseUrl url).scheme, (env.parseUrl url).host with
  | some scheme, some host =>
    if host = [] then []
    else
      strtolower scheme ++ "://".toList ++ strtolower host ++
        match (env.parseUrl url).port with
        | some port => ':' :: (Nat.repr port).toList
        | none => []
  | _, _ => []

def normalizeOrigin (env : WebEnv) (origin : CStr) : CStr :=
  if origin = [] then [] else originOf env origin

def requestOrigin (env : WebEnv) (req : Request) : CStr :=
  if req.origin ≠ [] then normalizeOrigin env req.origin
  else if req.referer ≠ [] then originOf env req.referer
  else []

def selfOrigin (req : Request) : CStr :=
  if req.host = [] then []
  else (if req.https then "https://".toList else "http://".toList) ++ strtolower req.host

def trim (s : CStr) : CStr :=
  let blank (c : Char) : Bool := c ∈ [' ', '\t', '\n', '\r', '\x00', '\x0B']
  ((s.dropWhile blank).reverse.dropWhile blank).reverse

def allowedOrigins (env : WebEnv) (req : Request) : List CStr :=
  let own := if selfOrigin req ≠ [] then [selfOrigin req] else []
  let extra := (env.allowedOriginsVar.splitOn ',').map fun e => normalizeOrigin env (trim e)
  own ++ if env.allowedOriginsVar ≠ [] then extra.filter (· ≠ []) else []

def originAllowed (origin : CStr) (allowed : List CStr) : Bool := origin ≠ [] ∧ origin ∈ allowed

def tokenOk (sent stored : CStr) : Bool := sent ≠ [] ∧ stored ≠ [] ∧ stored = sent

def enforceCsrf (env : WebEnv) (req : Request) : Api Unit := do
  if originAllowed (requestOrigin env req) (allowedOrigins env req) = false then
    throw ⟨"forbidden",
      "Cross-origin or missing Origin on a state-changing request.".toList, 403⟩
  else if tokenOk req.csrf (← csrfToken env) = false then
    throw ⟨"forbidden", "Missing or invalid CSRF token.".toList, 403⟩

def enforceLevel (env : WebEnv) (path level : CStr) : Api Unit := do
  if level = "session".toList then return ()
  else if level = "operator".toList then let _ ← requireOperator env
  else if level = "admin".toList then let _ ← requireAdmin env
  else throw ⟨"forbidden", "Unrecognized policy for ".toList ++ path ++ ['.'], 403⟩

def checkCsrf (env : WebEnv) (req : Request) (method : CStr) (p : Policy) : Api Unit := do
  if isWrite method = true then
    if isCsrfBridged p (← current env) req = false then enforceCsrf env req

def enforce (env : WebEnv) (req : Request) (method path : CStr) (p : Policy) : Api Unit := do
  if resolveAuth method p = "public".toList then return ()
  else
    let _ ← requireSession env
    if strtoupper method ∈ readMethods then closeReadSession env
    checkCsrf env req method p
    enforceLevel env path (resolveAuth method p)

/-! ## Router -/

def strpos (pat : CStr) : CStr → Option CStr
  | [] => if pat = [] then some [] else none
  | c :: s => if pat.isPrefixOf (c :: s) then some (c :: s) else strpos pat s

def normalizePath (env : WebEnv) (uri : CStr) : CStr :=
  match env.urlPath uri with
  | none => ['/']
  | some path =>
    if path = [] then ['/']
    else
      match strpos "/api/".toList path with
      | some tail => tail
      | none => if "/api".toList.isSuffixOf path then "/api".toList else path

def rawurldecode : CStr → CStr
  | '%' :: a :: b :: s =>
    match hexDigit a, hexDigit b with
    | some x, some y => Char.ofNat (16 * x + y) :: rawurldecode s
    | _, _ => '%' :: rawurldecode (a :: b :: s)
  | c :: s => c :: rawurldecode s
  | [] => []
where
  hexDigit (c : Char) : Option Nat :=
    if c.isDigit then some (c.toNat - '0'.toNat)
    else if 'a' ≤ c ∧ c ≤ 'f' then some (c.toNat - 'a'.toNat + 10)
    else if 'A' ≤ c ∧ c ≤ 'F' then some (c.toNat - 'A'.toNat + 10)
    else none

def selectRoute (table : List Route) (method path : CStr) : Option (Route × List CStr) :=
  table.findSome? fun r =>
    if r.method = method ∨ r.method = ['*'] then (r.regex path).map fun m => (r, m) else none

def dispatch (env : WebEnv) (table : List Route) (req : Request) :
    Api (Route × List (CStr × CStr)) := do
  let method := strtoupper req.method
  let path := normalizePath env req.uri
  match selectRoute table method path with
  | some (r, m) =>
    enforce env req method path r.policy
    return (r, r.vars.zip (m.map rawurldecode))
  | none =>
    if table.any fun r => (r.regex path).isSome then
      throw ⟨"method_not_allowed",
        "Method ".toList ++ method ++ " not allowed for ".toList ++ path, 405⟩
    else throw ⟨"not_found", "No route for ".toList ++ path, 404⟩

/-! ## What a caller must have shown -/

def MeetsLevel (level role : CStr) : Prop :=
  level = "session".toList ∨ (level = "operator".toList ∧ strtolower role ∈ privilegedRoles) ∨
    (level = "admin".toList ∧ strtolower role = "admin".toList)

def CsrfProof (env : WebEnv) (req : Request) (st : AuthState) : Prop :=
  originAllowed (requestOrigin env req) (allowedOrigins env req) = true ∧
    ∃ token, st.session.csrf = some token ∧ tokenOk req.csrf token = true

/-- What the request has shown that begins in `st` and is let pass in `st'`. -/
structure Authorized (env : WebEnv) (req : Request) (p : Policy) (st st' : AuthState) : Prop where
  live : LiveSession env st
  level : ∀ l, p.declared = some l → ∃ c ∈ st'.answered, MeetsLevel l c.role
  undeclared : p.declared = none → strtoupper req.method ∉ readMethods →
    ∃ c ∈ st'.answered, strtolower c.role ∈ privilegedRoles
  csrf : strtoupper req.method ∉ readMethods →
    CsrfProof env req st' ∨ ∃ c ∈ st'.answered, isCsrfBridged p (some c) req = true

variable {env : WebEnv} {req : Request} {st st' : AuthState} {method level : CStr} {p : Policy}

theorem enforceCsrf_ok (h : enforceCsrf env req st = .ok ((), st')) :
    st.answered ⊆ st'.answered ∧ CsrfProof env req st' := by
  unfold enforceCsrf at h
  split at h
  · cases h
  next horigin =>
  obtain ⟨token, mid, ht, h⟩ := Api.bind_ok h
  split at h
  · cases h
  next htoken =>
  cases h
  have hok : tokenOk req.csrf token = true := by simpa using htoken
  have hne : token ≠ [] := by
    rintro rfl
    simp [tokenOk] at hok
  obtain ⟨hseen, hcsrf⟩ := csrfToken_ok ht
  exact ⟨hseen, by simpa using horigin, token, hcsrf hne, hok⟩

theorem checkCsrf_ok (h : checkCsrf env req method p st = .ok ((), st')) :
    st.answered ⊆ st'.answered ∧ (isWrite method = true →
      CsrfProof env req st' ∨ ∃ c ∈ st'.answered, isCsrfBridged p (some c) req = true) := by
  unfold checkCsrf at h
  split at h
  · obtain ⟨r, mid, hr, h⟩ := Api.bind_ok h
    obtain ⟨hseen, hans⟩ := current_ok hr
    split at h
    · obtain ⟨hseen', hproof⟩ := enforceCsrf_ok h
      exact ⟨List.Subset.trans hseen hseen', fun _ => .inl hproof⟩
    next hbridge =>
    cases h
    refine ⟨hseen, fun _ => .inr ?_⟩
    cases r with
    | none => simp [isCsrfBridged] at hbridge
    | some c => exact ⟨c, (hans c rfl).1, by simpa using hbridge⟩
  · next hread =>
    cases h
    exact ⟨List.Subset.refl _, fun hw => absurd hw hread⟩

theorem enforceLevel_ok (h : enforceLevel env path level st = .ok ((), st'))
    (hlive : st.answered ≠ []) :
    (∃ c ∈ st'.answered, MeetsLevel level c.role) ∧ st'.session.csrf = st.session.csrf ∧
      st.answered ⊆ st'.answered := by
  unfold enforceLevel at h
  split at h
  · next hs =>
    cases h
    obtain ⟨c, hc⟩ := exists_mem_of_ne_nil _ hlive
    exact ⟨⟨c, hc, .inl hs⟩, rfl, List.Subset.refl _⟩
  split at h
  · next ho =>
    obtain ⟨name, mid, hn, h⟩ := Api.bind_ok h
    cases h
    obtain ⟨⟨c, hc, hrole⟩, hrest⟩ := requireOperator_ok hn
    exact ⟨⟨c, hc, .inr (.inl ⟨ho, hrole⟩)⟩, hrest⟩
  · split at h
    · next ha =>
      obtain ⟨name, mid, hn, h⟩ := Api.bind_ok h
      cases h
      obtain ⟨⟨c, hc, hrole⟩, hrest⟩ := requireAdmin_ok hn
      exact ⟨⟨c, hc, .inr (.inr ⟨ha, hrole⟩)⟩, hrest⟩
    · cases h

/-- **What the policy has checked** when it lets a request pass. -/
theorem enforce_ok (h : enforce env req method path p st = .ok ((), st'))
    (hpublic : resolveAuth method p ≠ "public".toList) :
    LiveSession env st ∧ (∃ c ∈ st'.answered, MeetsLevel (resolveAuth method p) c.role) ∧
      (isWrite method = true →
        CsrfProof env req st' ∨ ∃ c ∈ st'.answered, isCsrfBridged p (some c) req = true) := by
  unfold enforce at h
  rw [if_neg hpublic] at h
  obtain ⟨c, mid, hc, h⟩ := Api.bind_ok h
  obtain ⟨hmem, hlive⟩ := requireSession_ok hc
  obtain ⟨mid₁, hseen₁, h⟩ : ∃ mid₁, mid.answered ⊆ mid₁.answered ∧
      (checkCsrf env req method p >>= fun _ => enforceLevel env path (resolveAuth method p))
        mid₁ = .ok ((), st') := by
    split at h
    · obtain ⟨u, mid₁, hclose, h⟩ := Api.bind_ok h
      exact ⟨mid₁, closeReadSession_ok hclose, h⟩
    · exact ⟨mid, List.Subset.refl _, h⟩
  obtain ⟨u, mid₂, hcsrf, h⟩ := Api.bind_ok h
  obtain ⟨hseen₂, hproof⟩ := checkCsrf_ok hcsrf
  obtain ⟨hmeets, hkept, hseen₃⟩ := enforceLevel_ok h (ne_nil_of_mem (hseen₂ (hseen₁ hmem)))
  refine ⟨hlive, hmeets, fun hw => ?_⟩
  rcases hproof hw with ⟨ho, token, ht, hok⟩ | ⟨c, hc, hb⟩
  · exact .inl ⟨ho, token, hkept.trans ht, hok⟩
  · exact .inr ⟨c, hseen₃ hc, hb⟩

/-! ## Default deny -/

def listedMethods : List CStr := readMethods ++ writeMethods

/-- For requests with this method, over this table: a handler runs only if its route is declared
public or the caller has shown what the route asks for. -/
def DispatchSafe (table : List Route) (method : CStr) : Prop :=
  ∀ env req st r ps st', req.method = method → st.answered = [] →
    dispatch env table req st = .ok ((r, ps), st') →
      r.policy.auth = some "public".toList ∨ Authorized env req r.policy st st'

def reachableLevels : List CStr := ["session".toList, "operator".toList, "admin".toList]

def Selects (table : List Route) (method : CStr) (r : Route) : Prop :=
  ∃ env uri m, selectRoute table (strtoupper method) (normalizePath env uri) = some (r, m)

theorem dispatch_ok {table : List Route} {ps : List (CStr × CStr)}
    (h : dispatch env table req st = .ok ((r, ps), st')) :
    Selects table req.method r ∧
      enforce env req (strtoupper req.method) (normalizePath env req.uri) r.policy st =
        .ok ((), st') := by
  unfold dispatch at h
  cases hsel : selectRoute table (strtoupper req.method) (normalizePath env req.uri) with
  | none =>
    simp only [hsel] at h
    split at h
    · cases h
    · cases h
  | some rm =>
    obtain ⟨r', m⟩ := rm
    simp only [hsel] at h
    obtain ⟨u, mid, he, h⟩ := Api.bind_ok h
    cases h
    exact ⟨⟨env, req.uri, m, hsel⟩, he⟩

theorem resolveAuth_declared (h : p.declared = some level) : resolveAuth method p = level := by
  rw [resolveAuth, h]

theorem resolveAuth_undeclared (h : p.declared = none) : resolveAuth method p =
      if isWrite method = true then "operator".toList else "session".toList := by
  rw [resolveAuth, h]

theorem public_of_resolveAuth (h : resolveAuth method p = "public".toList) :
    p.auth = some "public".toList := by
  cases hd : p.declared with
  | some level =>
    rw [resolveAuth_declared hd] at h
    rw [h] at hd
    exact (Option.filter_eq_some_iff.1 hd).1
  | none =>
    rw [resolveAuth_undeclared hd] at h
    split at h
    · exact absurd h (by decide)
    · exact absurd h (by decide)

theorem isWrite_of_listed (h : strtoupper method ∈ listedMethods)
    (hread : strtoupper method ∉ readMethods) : isWrite (strtoupper method) = true := by
  rw [isWrite, strtoupper_strtoupper]
  rcases mem_append.1 h with hr | hw
  · exact absurd hr hread
  · exact decide_eq_true hw

theorem dispatchSafe_of_listed {table : List Route} (h : strtoupper method ∈ listedMethods) :
    DispatchSafe table method := by
  intro env req st r ps st' rfl _ hd
  obtain ⟨-, he⟩ := dispatch_ok hd
  by_cases hpub : resolveAuth (strtoupper req.method) r.policy = "public".toList
  · exact .inl (public_of_resolveAuth hpub)
  obtain ⟨hlive, ⟨c, hc, hmeets⟩, hcsrf⟩ := enforce_ok he hpub
  refine .inr ⟨hlive, fun l hl => ?_, fun hl hread => ?_, fun hread => ?_⟩
  · rw [resolveAuth_declared hl] at hmeets
    exact ⟨c, hc, hmeets⟩
  · rw [resolveAuth_undeclared hl, if_pos (isWrite_of_listed h hread)] at hmeets
    rcases hmeets with heq | ⟨-, hrole⟩ | ⟨heq, -⟩
    · exact absurd heq (by decide)
    · exact ⟨c, hc, hrole⟩
    · exact absurd heq (by decide)
  · exact hcsrf (isWrite_of_listed h hread)

theorem level_reachable (h : MeetsLevel level role) : level ∈ reachableLevels := by
  rcases h with rfl | ⟨rfl, -⟩ | ⟨rfl, -⟩ <;> decide

/-! ## A caller with every role and no header -/

def rootAdmin : Principal := ⟨"root".toList, "admin".toList, "directory".toList⟩

def rootSession : Session := { principal := some rootAdmin, createdAt := some 0, seenAt := some 0 }

def frozenEnv (env : WebEnv) : WebEnv := { env with time := fun _ => 0 }

def RootOnly (st : AuthState) : Prop :=
  st.session = rootSession ∧ ∀ c ∈ st.answered, c = rootAdmin

theorem RootOnly.current (env : WebEnv) (h : RootOnly st) :
    ∃ st', Dashboard.current (frozenEnv env) st = .ok (some rootAdmin, st') ∧ RootOnly st' := by
  obtain ⟨hs, hans⟩ := h
  have hp : st.session.principal = some rootAdmin := by rw [hs, rootSession]
  have hexp : sessionExpired rootAdmin st.session 0 = false := by
    rw [hs]
    decide
  have hsrc : checkSource (frozenEnv env) st.reads rootAdmin = some rootAdmin := by
    simp [checkSource, rootAdmin]
  refine ⟨_, current_eq_some hp hexp hsrc, ?_, fun c hc => ?_⟩
  · rw [hs]
    rfl
  · rcases mem_cons.1 hc with rfl | hc
    · rfl
    · exact hans c hc

theorem RootOnly.enforceLevel (env : WebEnv) (path : CStr) (h : RootOnly st)
    (hlevel : level ∈ reachableLevels) :
    ∃ st', Dashboard.enforceLevel (frozenEnv env) path level st = .ok ((), st') ∧ RootOnly st' := by
  -- the name and the role of the two gates are one reading each
  obtain ⟨st₁, h₁, hr₁⟩ := h.current env
  obtain ⟨st₂, h₂, hr₂⟩ := hr₁.current env
  have hname : operatorName (frozenEnv env) st = .ok (rootAdmin.username, st₁) := Api.bind_run h₁ _
  have hrole : operatorRole (frozenEnv env) st₁ = .ok (strtolower rootAdmin.role, st₂) :=
    Api.bind_run h₂ _
  have hop : requireOperator (frozenEnv env) st = .ok (rootAdmin.username, st₂) :=
    (Api.bind_run hname _).trans (Api.bind_run hrole _)
  have hadm : requireAdmin (frozenEnv env) st = .ok (rootAdmin.username, st₂) :=
    (Api.bind_run hname _).trans (Api.bind_run hrole _)
  simp only [reachableLevels, mem_cons, not_mem_nil, or_false] at hlevel
  rcases hlevel with rfl | rfl | rfl
  · exact ⟨st, rfl, h⟩
  · exact ⟨st₂, Api.bind_run hop _, hr₂⟩
  · exact ⟨st₂, Api.bind_run hadm _, hr₂⟩

theorem not_isWrite (h : strtoupper method ∉ listedMethods) :
    isWrite (strtoupper method) = false := by
  rw [isWrite, strtoupper_strtoupper]
  exact decide_eq_false fun hw => h (mem_append_right _ hw)

theorem RootOnly.enforce (env : WebEnv) (path : CStr) (h : RootOnly st)
    (hm : strtoupper req.method ∉ listedMethods)
    (hlevel : resolveAuth (strtoupper req.method) p ∈ reachableLevels) :
    ∃ st', Dashboard.enforce (frozenEnv env) req (strtoupper req.method) path p st =
      .ok ((), st') ∧ RootOnly st' := by
  obtain ⟨st₁, h₁, hr₁⟩ := h.current env
  obtain ⟨st₂, h₂, hr₂⟩ := hr₁.enforceLevel env path hlevel
  have hpublic : resolveAuth (strtoupper req.method) p ≠ "public".toList := by
    intro hp
    rw [hp] at hlevel
    exact absurd hlevel (by decide)
  have hread : strtoupper (strtoupper req.method) ∉ readMethods := by
    rw [strtoupper_strtoupper]
    exact fun hr => hm (mem_append_left _ hr)
  have hsession : requireSession (frozenEnv env) st = .ok (rootAdmin, st₁) := Api.bind_run h₁ _
  have hcsrf : checkCsrf (frozenEnv env) req (strtoupper req.method) p st₁ = .ok ((), st₁) := by
    rw [checkCsrf, if_neg (by rw [not_isWrite hm]; decide)]
    rfl
  refine ⟨st₂, ?_, hr₂⟩
  unfold Dashboard.enforce
  rw [if_neg hpublic, Api.bind_run hsession, if_neg hread]
  exact (Api.bind_run hcsrf _).trans h₂

/-- **Default deny, exactly.** A table is safe for a method iff the policy knows the method, or
every route the method can select declares `public` or a level that nobody meets. -/
theorem default_deny_iff (table : List Route) (method : CStr) : DispatchSafe table method ↔
      strtoupper method ∈ listedMethods ∨ ∀ r, Selects table method r →
          ∃ level, r.policy.declared = some level ∧ level ∉ reachableLevels := by
  constructor
  · intro hsafe
    by_contra hcon
    obtain ⟨hm, hr⟩ := not_or.1 hcon
    obtain ⟨r, hr⟩ := not_forall.1 hr
    obtain ⟨⟨env, uri, m, hsel⟩, hlevel⟩ := Classical.not_imp.1 hr
    -- the level of the route can be met, because no level means a session
    have hreach : resolveAuth (strtoupper method) r.policy ∈ reachableLevels := by
      cases hd : r.policy.declared with
      | some level =>
        rw [resolveAuth_declared hd]
        by_contra hnot
        exact hlevel ⟨level, hd, hnot⟩
      | none =>
        rw [resolveAuth_undeclared hd, if_neg (by rw [not_isWrite hm]; decide)]
        decide
    let req : Request := { method := method, uri := uri }
    have hstart : RootOnly { session := rootSession } := ⟨rfl, fun c hc => nomatch hc⟩
    have hm' : strtoupper req.method ∉ listedMethods := hm
    obtain ⟨st', he, hroot⟩ := hstart.enforce env (normalizePath env uri) hm' hreach
    have hrun : dispatch (frozenEnv env) table req { session := rootSession } =
        .ok ((r, r.vars.zip (m.map rawurldecode)), st') := by
      have hsel' : selectRoute table (strtoupper req.method)
          (normalizePath (frozenEnv env) req.uri) = some (r, m) := hsel
      unfold dispatch
      simp only [hsel']
      exact Api.bind_run he _
    rcases hsafe (frozenEnv env) req _ r _ st' rfl rfl hrun with hpub | hauth
    · have hd : r.policy.declared = some "public".toList := by
        rw [Policy.declared, hpub]
        rfl
      exact hlevel ⟨_, hd, by decide⟩
    · have hread : strtoupper req.method ∉ readMethods := fun hr =>
        hm (mem_append_left _ hr)
      rcases hauth.csrf hread with ⟨horigin, -⟩ | ⟨c, hc, hb⟩
      · exact absurd horigin (by simp [originAllowed, requestOrigin, req])
      · rw [hroot.2 c hc] at hb
        exact absurd hb (by simp [isCsrfBridged, rootAdmin])
  · rintro (hm | hlevel)
    · exact dispatchSafe_of_listed hm
    intro env req st r ps st' rfl _ hd
    obtain ⟨hsel, he⟩ := dispatch_ok hd
    obtain ⟨level, hdecl, hnot⟩ := hlevel r hsel
    by_cases hpub : resolveAuth (strtoupper req.method) r.policy = "public".toList
    · exact .inl (public_of_resolveAuth hpub)
    obtain ⟨-, ⟨c, -, hmeets⟩, -⟩ := enforce_ok he hpub
    rw [resolveAuth_declared hdecl] at hmeets
    exact absurd (level_reachable hmeets) hnot

/-! ## A viewer and a wildcard route -/

def wildcardRoute : Route := ⟨['*'], fun _ => some [], [], {}⟩

def viewerSession : Session :=
  { principal := some ⟨"guest".toList, "viewer".toList, "directory".toList⟩,
    createdAt := some 0, seenAt := some 0 }

def quietEnv : WebEnv :=
  ⟨fun _ => 0, fun _ => false, [], fun _ _ => none, fun _ => [], fun _ => {}, fun _ => none, []⟩

/-- **A method the policy does not list** runs the handler of a route that declares nothing for a
viewer, with no origin and no token. -/
theorem move_runs_for_viewer :
    (∃ st', dispatch quietEnv [wildcardRoute] { method := "MOVE".toList, uri := [] }
      { session := viewerSession } = .ok ((wildcardRoute, []), st') ∧
      st'.answered = [⟨"guest".toList, "viewer".toList, "directory".toList⟩] ∧
      ¬ Authorized quietEnv { method := "MOVE".toList, uri := [] } wildcardRoute.policy
        { session := viewerSession } st') ∧
    ¬ DispatchSafe [wildcardRoute] "MOVE".toList := by
  have hmethod : strtoupper "MOVE".toList ∉ readMethods := by decide
  have hnot : ∀ st' : AuthState,
      st'.answered = [⟨"guest".toList, "viewer".toList, "directory".toList⟩] →
      ¬ Authorized quietEnv { method := "MOVE".toList, uri := [] } wildcardRoute.policy
        { session := viewerSession } st' := by
    intro st' hans hauth
    obtain ⟨c, hc, hrole⟩ := hauth.undeclared rfl hmethod
    rw [hans, mem_singleton] at hc
    rw [hc] at hrole
    exact absurd hrole (by decide)
  have hrun : dispatch quietEnv [wildcardRoute] { method := "MOVE".toList, uri := [] }
      { session := viewerSession } = .ok ((wildcardRoute, []),
        { session := viewerSession, reads := 1,
          answered := [⟨"guest".toList, "viewer".toList, "directory".toList⟩] }) := rfl
  refine ⟨⟨_, hrun, rfl, hnot _ rfl⟩, fun hsafe => ?_⟩
  rcases hsafe _ _ _ _ _ _ rfl rfl hrun with hpub | hauth
  · cases hpub
  · exact hnot _ rfl hauth

end SolariNet.Dashboard
