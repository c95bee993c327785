import MaddyWeb.Csrf.Store

/-!
# Requests passing through the security middleware

One request runs `security_middleware` from one `await` to the next, and any
other request may run in between.  A request is therefore a `Phase`, and the
application is a list of phases over one shared registry.  The clocks, the
request bodies and the handlers are inputs of the steps.
-/

namespace MaddyWeb.Csrf.Middleware

open MaddyWeb.Csrf.Store (Entries Bounds)

structure CsrfScope where
  identity : String
  partitionByFlow : Bool
  deriving DecidableEq, Repr

/-- The signed fields of a token. -/
structure Token where
  issuedAt : Int
  flowId : String
  nonce : String
  deriving DecidableEq, Repr

/-- A CSRF cookie: its text, and the fields it carries when its shape and its
signature are those of a token. -/
structure Cookie where
  text : String
  payload : Option Token
  deriving DecidableEq, Repr

/-- What the middleware and the scope resolver read of a request. -/
structure Request where
  hosts : List String
  method : String
  path : String
  cookie : Option Cookie
  origins : List String
  referers : List String
  fetchSites : List String
  contentTypes : List String
  contentType : String
  authToken : Option String
  clientIp : Option String
  deriving DecidableEq, Repr

/-- The configuration, the digests of `state_identity` and the random source: the
`n`-th token that the process signs carries `nonce n`. -/
structure Env where
  bounds : Bounds
  tokenlessPaths : List String
  hostIsAllowed : String → Bool
  originIsAllowed : Request → String → Bool
  refererIsAllowed : Request → String → Bool
  scopeDigest : String → String
  stateDigest : String → String → String
  flow : Nat → String
  nonce : Nat → String

/-! ## Scopes and tokens -/

def containsForbiddenHeaderCharacters (value : String) : Bool :=
  value.toList.any fun c => c.toNat < 0x20 || c.toNat == 0x7F

/-- `_csrf_scope`, which raises when the client address is unknown. -/
def csrfScope (authToken clientIp : Option String) : Option CsrfScope :=
  match authToken, clientIp with
  | some token, _ => some ⟨"session:" ++ token, false⟩
  | none, some ip => some ⟨"client:" ++ ip, true⟩
  | none, none => none

/-- `request_scope` -/
def requestScope (authToken clientIp : Option String) : Option CsrfScope :=
  (csrfScope authToken clientIp).filter fun scope =>
    scope.identity ≠ "" && scope.identity.length ≤ 512 &&
      !containsForbiddenHeaderCharacters scope.identity

/-- `state_identity` -/
def stateIdentity (env : Env) (scope : CsrfScope) (flowId : String) : String × String :=
  let base := env.scopeDigest scope.identity
  let flow := if scope.partitionByFlow then flowId else "session"
  (base, env.stateDigest base flow)

/-- `new_csrf_token`: the tokens signed so far number the draws. -/
def newCsrfToken (env : Env) (now : Int) (flowId : String) (minted : List Token) : Token :=
  ⟨now, flowId, env.nonce minted.length⟩

/-- `verify_csrf_token`: the process key signs only the tokens in `minted`. -/
def verifyCsrfToken (env : Env) (now : Int) (minted : List Token) (cookie : Cookie) :
    Option Token :=
  cookie.payload.filter fun token =>
    token ∈ minted && !(now + 60 < token.issuedAt || env.bounds.ttl < now - token.issuedAt)

/-! ## Phases -/

inductive Response
  | rejected (status : Nat) (code : String)
  /-- `_http_exception_response` -/
  | failed (status : Nat)
  /-- `recoverable_csrf_rejection`: status 403 with the next token. -/
  | recovered (code : String) (token : Token)
  /-- The handler's response, with the CSRF cookie that is set on it. -/
  | handled (cookie : Option Token)
  | raised
  deriving DecidableEq, Repr

/-- Where a request waits. -/
inductive Phase
  | checkingCurrent (request : Request) (scope : CsrfScope) (token : Token)
  | replacingSafe (request : Request) (scope : CsrfScope) (replacement : Token)
  | readingBody (request : Request) (scope : CsrfScope) (text : String) (token : Token)
  | rotating (request : Request) (scope : CsrfScope) (token replacement : Token)
  | recovering (scope : CsrfScope) (replacement : Token) (code : String)
  /-- The handler of a safe request, with the cookie that will be set. -/
  | handlingSafe (cookie : Option Token)
  | handlingPost (request : Request) (scope : CsrfScope) (replacement : Token)
  | carrying (postScope : CsrfScope) (replacement : Token)
  | finished (response : Response)
  deriving DecidableEq, Repr

structure Shared where
  entries : Entries := []
  minted : List Token := []
  /-- The nonces of the POSTs that reached their handlers, in order. -/
  reached : List String := []
  deriving DecidableEq, Repr

structure World where
  shared : Shared := {}
  phases : List Phase := []
  deriving DecidableEq, Repr

/-- What an `await` returns. -/
inductive Input
  /-- The lock of the registry is taken at these clock readings. -/
  | registry (monotonic : Nat) (now : Int)
  /-- `_submitted_csrf_token` returns, or raises an `HTTPException`. -/
  | body (submitted : Except Nat (Option String)) (now : Int)
  /-- The handler ends with a response or an `HTTPException`; a handler that logs in
  has put a session token on the request. -/
  | handlerEnds (session : Option String)
  /-- Any other exception, cancellation included. -/
  | raises
  deriving Repr

inductive Action
  | arrive (request : Request) (now : Int)
  | resume (index : Nat) (input : Input)
  deriving Repr

/-! ## One request -/

def mint (env : Env) (now : Int) (flowId : String) (shared : Shared) : Token × Shared :=
  let token := newCsrfToken env now flowId shared.minted
  (token, { shared with minted := shared.minted ++ [token] })

/-- `recoverable_csrf_rejection` up to its `await`. -/
def recover (env : Env) (now : Int) (scope : CsrfScope) (flowId code : String)
    (shared : Shared) : Phase × Shared :=
  let (replacement, shared) := mint env now flowId shared
  (.recovering scope replacement code, shared)

def sameOrigin (env : Env) (request : Request) : Bool :=
  if 1 < request.origins.length || 1 < request.referers.length then false
  else match request.origins with
    | origin :: _ => env.originIsAllowed request origin
    | [] => match request.referers with
      | referer :: _ => env.refererIsAllowed request referer
      | [] => false

def crossSite (env : Env) (request : Request) : Bool :=
  !sameOrigin env request || 1 < request.fetchSites.length ||
    request.fetchSites.head? == some "cross-site"

def requiredContentType (path : String) : String :=
  if path ∈ ["/api/v1/send", "/api/v1/me/send", "/api/v1/admin/send"] then "multipart/form-data"
  else if path.startsWith "/api/" then "application/json"
  else "application/x-www-form-urlencoded"

def isSafe (method : String) : Bool := method ∈ ["GET", "HEAD"]

/-- A POST whose scope and cookie are known, up to the reading of its body. -/
def admitPost (env : Env) (request : Request) (now : Int) (scope : CsrfScope)
    (verified : Option (Cookie × Token)) (flowId : String) (shared : Shared) : Phase × Shared :=
  if crossSite env request then
    (.finished (.rejected 403 "cross_site_rejected"), shared)
  else match verified with
    | none => recover env now scope flowId "csrf_failed" shared
    | some (cookie, token) =>
        if request.contentTypes.length ≠ 1 || request.contentType ≠ requiredContentType request.path
        then (.finished (.rejected 415 "unsupported_media_type"), shared)
        else (.readingBody request scope cookie.text token, shared)

/-- The middleware up to its first `await`. -/
def admitRequest (env : Env) (request : Request) (now : Int) (shared : Shared) : Phase × Shared :=
  if request.hosts.length ≠ 1 || !request.hosts.all env.hostIsAllowed then
    (.finished (.rejected 400 "invalid_host"), shared)
  else if isSafe request.method && request.path ∈ env.tokenlessPaths then
    (.handlingSafe none, shared)
  else match requestScope request.authToken request.clientIp with
    | none => (.finished .raised, shared)
    | some scope =>
        let verified := request.cookie.bind fun cookie =>
          (verifyCsrfToken env now shared.minted cookie).map fun token => (cookie, token)
        -- without a cookie a whole token is signed to draw a flow identifier
        let (flowId, shared) := match verified with
          | some (_, token) => (token.flowId, shared)
          | none =>
              let (token, shared) := mint env now (env.flow shared.minted.length) shared
              (token.flowId, shared)
        if isSafe request.method then
          match verified with
          | some (_, token) => (.checkingCurrent request scope token, shared)
          | none =>
              let (replacement, shared) := mint env now flowId shared
              (.replacingSafe request scope replacement, shared)
        else
          -- a write without a cookie also gets a token that is never registered
          let shared := match verified with
            | some _ => shared
            | none => (mint env now flowId shared).2
          if request.method ≠ "POST" then
            (.finished (.rejected 405 "method_not_allowed"), shared)
          else admitPost env request now scope verified flowId shared

/-- `states.replace` for a scope and a token. -/
def register (env : Env) (monotonic : Nat) (scope : CsrfScope) (token : Token)
    (shared : Shared) : Shared :=
  let (base, key) := stateIdentity env scope token.flowId
  { shared with entries := Store.replace env.bounds monotonic base key token.nonce shared.entries }

/-- The middleware from one `await` to the next. -/
def advance (env : Env) (shared : Shared) : Phase → Input → Option (Phase × Shared)
  | .finished _, _ => none
  | _, .raises => some (.finished .raised, shared)
  | .checkingCurrent request scope token, .registry monotonic now =>
      let key := (stateIdentity env scope token.flowId).2
      match Store.isCurrent monotonic key token.nonce shared.entries with
      | (true, entries) => some (.handlingSafe none, { shared with entries := entries })
      | (false, entries) =>
          let (replacement, shared) :=
            mint env now token.flowId { shared with entries := entries }
          some (.replacingSafe request scope replacement, shared)
  | .replacingSafe _ scope replacement, .registry monotonic _ =>
      some (.handlingSafe (some replacement), register env monotonic scope replacement shared)
  | .readingBody request scope text token, .body submitted now =>
      match submitted with
      | .error status => some (.finished (.failed status), shared)
      | .ok submitted =>
          if submitted ≠ some text then
            some (recover env now scope token.flowId "csrf_failed" shared)
          else
            let (replacement, shared) := mint env now token.flowId shared
            some (.rotating request scope token replacement, shared)
  | .rotating request scope token replacement, .registry monotonic now =>
      let (base, key) := stateIdentity env scope token.flowId
      match Store.rotate env.bounds monotonic base key token.nonce replacement.nonce
        shared.entries with
      | (true, entries) =>
          some (.handlingPost request scope replacement,
            { shared with entries := entries, reached := shared.reached ++ [token.nonce] })
      | (false, entries) =>
          some (recover env now scope token.flowId "csrf_reused" { shared with entries := entries })
  | .recovering scope replacement code, .registry monotonic _ =>
      some (.finished (.recovered code replacement),
        register env monotonic scope replacement shared)
  | .handlingSafe cookie, .handlerEnds _ => some (.finished (.handled cookie), shared)
  | .handlingPost request scope replacement, .handlerEnds session =>
      -- `_set_session_cookie` is what makes the scope after the handler another one
      match requestScope (session <|> request.authToken) request.clientIp with
      | none => some (.finished .raised, shared)
      | some postScope =>
          if postScope ≠ scope then some (.carrying postScope replacement, shared)
          else some (.finished (.handled (some replacement)), shared)
  | .carrying postScope replacement, .registry monotonic _ =>
      some (.finished (.handled (some replacement)),
        register env monotonic postScope replacement shared)
  | _, _ => none

/-! ## Runs -/

def step (env : Env) (world : World) : Action → Option World
  | .arrive request now =>
      let (phase, shared) := admitRequest env request now world.shared
      some ⟨shared, world.phases ++ [phase]⟩
  | .resume index input =>
      world.phases[index]?.bind fun phase =>
        (advance env world.shared phase input).map fun next =>
          ⟨next.2, world.phases.set index next.1⟩

def run (env : Env) (world : World) (actions : List Action) : Option World :=
  actions.foldlM (step env) world

end MaddyWeb.Csrf.Middleware
