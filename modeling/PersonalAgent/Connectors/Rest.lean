/-
# What a REST connector sends

`ConnectorConfig` and `RestConnector::execute` of `crates/connectors/src/lib.rs`.  `execute` checks
the configuration, that the connector is enabled and that the grant of the request is one of its
own, and `request_url` that the URL stays at the configured origin.  The method is a field of the
request of its own, and nothing compares it with the grant: a connector that may only read deletes
(`read_grant_deletes`).  And the client is `Client::new()`, which follows redirects by itself, up
to ten of them and to any origin, within the one call of `send`.

The client is a parameter (`HttpClient`), and so is what the servers answer.
-/

import PersonalAgent.Contracts.Libraries
import PersonalAgent.Core.Usage
import PersonalAgent.Lib.Checks

namespace PersonalAgent.Connectors

open Lib

open UrlLibrary (Url)

inductive ConnectorAction where
  | read
  | create
  | update
  | delete
  | send
  deriving DecidableEq, Repr

/-- An individual capability.  Read and write are always separate grants. -/
structure ConnectorGrant where
  resource : String
  action : ConnectorAction
  deriving DecidableEq, Repr

/-- Authentication references a keychain alias. -/
inductive ConnectorAuth where
  | oauth2 (keychainAlias : String)
  | bearerToken (keychainAlias : String)
  | none

def ConnectorAuth.keychainAlias : ConnectorAuth → Option String
  | .oauth2 keychainAlias | .bearerToken keychainAlias => some keychainAlias
  | .none => Option.none

inductive ConnectorError where
  | disabled
  | grantDenied (grant : ConnectorGrant)
  | credentialsUnavailable
  | insecureTransport
  | crossOrigin
  | invalid (reason : String)
  | transport (reason : String)
  deriving DecidableEq, Repr

structure ConnectorRequest where
  grant : ConnectorGrant
  method : String
  path : String
  query : List (String × String) := []
  body : Option Value := none
  idempotencyKey : Option String := none

/-! ### The client -/

/-- What is read of a response. -/
structure Response where
  status : ℕ
  location : Option String := none
  requestId : Option String := none
  nextCursor : Option String := none
  /-- The body as JSON, or why it is none. -/
  body : Except String Value
  /-- The body as it is displayed. -/
  text : String := ""

structure ConnectorResponse where
  status : ℕ
  body : Value
  nextCursor : Option String
  requestId : Option String

section

variable [UrlLibrary]

/-- A request on the wire. -/
structure Sent where
  method : String
  url : Url
  idempotencyKey : Option String := none
  bearer : Option String := none
  json : Option Value := none

/-- The HTTP library. -/
class HttpClient where
  /-- `Method::from_bytes`; the error as its text. -/
  methodFromBytes : String → Except String String
  /-- The default redirect policy: the request that follows an answer, if it is a redirect. -/
  redirect : Sent → Response → Option Sent
  methodFromBytes_ok : ∀ text method, methodFromBytes text = .ok method → method = text
  /-- A redirect keeps the method, or it is followed with `GET`. -/
  redirect_method : ∀ sent response next, redirect sent response = some next →
    next.method = sent.method ∨ next.method = "GET"

structure ConnectorConfig where
  displayName : String
  baseUrl : Url
  auth : ConnectorAuth
  grants : Finset ConnectorGrant
  enabled : Bool

variable [HttpClient]

/-- The request that follows the answer to another. -/
def next (server : Sent → Except String Response) (sent : Sent) : Option Sent :=
  (server sent).toOption.bind (HttpClient.redirect sent)

/-- `send`: the requests on the wire, in order, and the answer to the last one. -/
def exchange (server : Sent → Except String Response) :
    ℕ → Sent → List Sent × Except String Response
  | 0, sent => ([sent],
    if (next server sent).isSome then .error "too many redirects" else server sent)
  | redirects + 1, sent =>
    match next server sent with
    | none => ([sent], server sent)
    | some following =>
      let rest := exchange server redirects following
      (sent :: rest.1, rest.2)

namespace ConnectorConfig

def validate (c : ConnectorConfig) : Except ConnectorError Unit := do
  refuse (Core.trim c.displayName = "") (.invalid "display name cannot be blank")
  refuse (UrlLibrary.scheme c.baseUrl ≠ "https" ∧
    UrlLibrary.hostStr c.baseUrl ∉ [some "127.0.0.1", some "localhost"]) .insecureTransport
  refuse (c.auth.keychainAlias.any fun name => Core.trim name = "")
    (.invalid "keychain alias cannot be blank")

def permits (c : ConnectorConfig) (grant : ConnectorGrant) : Bool :=
  c.enabled && decide (grant ∈ c.grants)

def requestUrl (c : ConnectorConfig) (request : ConnectorRequest) : Except ConnectorError Url := do
  let path := String.ofList (request.path.toList.dropWhile (· = '/'))
  let url ← (UrlLibrary.join c.baseUrl path).mapError .invalid
  refuse (UrlLibrary.origin url ≠ UrlLibrary.origin c.baseUrl) .crossOrigin
  return UrlLibrary.extendPairs url request.query

/-- `execute`, up to what it hands to the client. -/
def prepare (c : ConnectorConfig) (bearerToken : String → Except ConnectorError String)
    (request : ConnectorRequest) : Except ConnectorError Sent := do
  c.validate
  refuse (c.enabled = false) .disabled
  refuse (c.permits request.grant = false) (.grantDenied request.grant)
  let url ← c.requestUrl request
  let method ← (HttpClient.methodFromBytes request.method).mapError .invalid
  let bearer ← c.auth.keychainAlias.mapM bearerToken
  return ⟨method, url, request.idempotencyKey, bearer, request.body⟩

/-- What `execute` makes of the answer. -/
def conclude (response : Response) : Except ConnectorError ConnectorResponse := do
  let body ← response.body.mapError .transport
  refuse (response.status < 200 ∨ 300 ≤ response.status)
    (.transport ("HTTP " ++ toString response.status ++ ": " ++ response.text))
  return ⟨response.status, body, response.nextCursor, response.requestId⟩

/-- `execute`, with the requests that are on the wire meanwhile. -/
def execute (c : ConnectorConfig) (bearerToken : String → Except ConnectorError String)
    (server : Sent → Except String Response) (request : ConnectorRequest) :
    List Sent × Except ConnectorError ConnectorResponse :=
  match c.prepare bearerToken request with
  | .error e => ([], .error e)
  | .ok sent =>
    let exchanged := exchange server 10 sent
    (exchanged.1, (exchanged.2.mapError .transport).bind conclude)

end ConnectorConfig

/-- The methods that an action covers. -/
def ConnectorAction.methods : ConnectorAction → List String
  | .read => ["GET", "HEAD"]
  | .create | .send => ["GET", "HEAD", "POST"]
  | .update => ["GET", "HEAD", "PUT", "PATCH"]
  | .delete => ["GET", "HEAD", "DELETE"]

/-! ### What is on the wire -/

/-- The request to which so many answers lead. -/
def led (server : Sent → Except String Response) : ℕ → Sent → Option Sent
  | 0, sent => some sent
  | n + 1, sent => (next server sent).bind (led server n)

/-- The requests of an exchange are those to which the answers lead. -/
theorem mem_exchange {server : Sent → Except String Response} {redirects : ℕ} {sent other : Sent} :
    other ∈ (exchange server redirects sent).1 ↔
      ∃ n ≤ redirects, led server n sent = some other := by
  induction redirects generalizing sent with
  | zero =>
    refine ⟨fun h => ⟨0, le_rfl, congrArg some (List.mem_singleton.mp h).symm⟩, ?_⟩
    rintro ⟨n, hn, hled⟩
    obtain rfl := Nat.le_zero.mp hn
    exact List.mem_singleton.mpr (Option.some.inj hled).symm
  | succ redirects ih =>
    rw [exchange]
    cases hnext : next server sent with
    | none =>
      have hled (n : ℕ) : led server (n + 1) sent = none := by rw [led, hnext]; rfl
      constructor
      · intro h
        exact ⟨0, Nat.zero_le _, congrArg some (List.mem_singleton.mp h).symm⟩
      · rintro ⟨n, -, hn⟩
        cases n with
        | zero => exact List.mem_singleton.mpr (Option.some.inj hn).symm
        | succ n =>
          rw [hled] at hn
          cases hn
    | some following =>
      have hled (n : ℕ) : led server (n + 1) sent = led server n following := by
        rw [led, hnext, Option.bind_some]
      rw [List.mem_cons, ih]
      constructor
      · rintro (rfl | ⟨n, hn, hother⟩)
        · exact ⟨0, Nat.zero_le _, rfl⟩
        · exact ⟨n + 1, Nat.succ_le_succ hn, (hled n).trans hother⟩
      · rintro ⟨n, hn, hother⟩
        cases n with
        | zero => exact .inl (Option.some.inj hother).symm
        | succ n => exact .inr ⟨n, Nat.le_of_succ_le_succ hn, (hled n).symm.trans hother⟩

/-- A method that a grant covers is covered along all redirects. -/
theorem led_method {server : Sent → Except String Response} {methods : List String}
    (hget : "GET" ∈ methods) {n : ℕ} {sent other : Sent} (hled : led server n sent = some other)
    (hmethod : sent.method ∈ methods) : other.method ∈ methods := by
  induction n generalizing sent with
  | zero => exact Option.some.inj hled ▸ hmethod
  | succ n ih =>
    obtain ⟨following, hnext, hled⟩ := Option.bind_eq_some_iff.mp hled
    obtain ⟨response, -, hredirect⟩ := Option.bind_eq_some_iff.mp hnext
    refine ih hled ?_
    rcases HttpClient.redirect_method sent response following hredirect with h | h
    · rwa [h]
    · rwa [h]

variable (c : ConnectorConfig) (request : ConnectorRequest)
  (bearerToken : String → Except ConnectorError String) (server : Sent → Except String Response)

/-- What the client is given, if the connector lets the request pass: its configuration is valid,
it is enabled and has the grant, the path leads to its own origin, the method is one, and the
keychain has the token. -/
structure Passes (sent : Sent) : Prop where
  valid : c.validate = .ok ()
  enabled : c.enabled = true
  granted : request.grant ∈ c.grants
  url : ∃ joined, UrlLibrary.join c.baseUrl
      (String.ofList (request.path.toList.dropWhile (· = '/'))) = .ok joined ∧
    UrlLibrary.origin joined = UrlLibrary.origin c.baseUrl ∧
    sent.url = UrlLibrary.extendPairs joined request.query
  method : HttpClient.methodFromBytes request.method = .ok sent.method
  bearer : c.auth.keychainAlias.mapM bearerToken = .ok sent.bearer
  body : sent.idempotencyKey = request.idempotencyKey ∧ sent.json = request.body

variable {c request bearerToken server}

theorem prepare_ok_iff {sent : Sent} :
    c.prepare bearerToken request = .ok sent ↔ Passes c request bearerToken sent := by
  have hpermits : c.permits request.grant = true ↔ c.enabled = true ∧ request.grant ∈ c.grants := by
    rw [ConnectorConfig.permits, Bool.and_eq_true, decide_eq_true_eq]
  unfold ConnectorConfig.prepare ConnectorConfig.requestUrl
  constructor
  · intro h
    obtain ⟨hvalid, h⟩ := unit_bind_ok h
    obtain ⟨-, h⟩ := refuse_bind_ok h
    obtain ⟨hgrant, h⟩ := refuse_bind_ok h
    obtain ⟨url, hurl, h⟩ := bind_ok_iff.mp h
    obtain ⟨joined, hjoin, hurl⟩ := bind_ok_iff.mp hurl
    obtain ⟨horigin, hurl⟩ := refuse_bind_ok hurl
    obtain ⟨method, hmethod, h⟩ := bind_ok_iff.mp h
    obtain ⟨bearer, hbearer, h⟩ := bind_ok_iff.mp h
    obtain rfl := pure_ok_iff.mp h
    obtain ⟨henabled, hmem⟩ := hpermits.mp (Bool.not_eq_false _ ▸ hgrant)
    exact ⟨hvalid, henabled, hmem, ⟨joined, mapError_ok_iff.mp hjoin, not_not.mp horigin,
      (pure_ok_iff.mp hurl).symm⟩, mapError_ok_iff.mp hmethod, hbearer, rfl, rfl⟩
  · intro h
    obtain ⟨joined, hjoin, horigin, hurl⟩ := h.url
    obtain ⟨method, url, key, bearer, json⟩ := sent
    obtain ⟨rfl, rfl⟩ := h.body
    obtain rfl : url = _ := hurl
    have hmethod := h.method
    have hbearer := h.bearer
    dsimp only at hmethod hbearer
    simp [h.valid, h.enabled, hpermits.mpr ⟨h.enabled, h.granted⟩, hjoin, horigin, hmethod, hbearer,
      Except.mapError, bind, Except.bind, pure, Except.pure]

/-- **What a grant bounds.**  All requests that a call puts on the wire are of an enabled
connector, under one of its grants, to its origin and with a method that the granted action
covers, exactly if, for a request that passes, the planner chose such a method and the answers
lead the client to no other origin. -/
theorem connector_sends_iff (c : ConnectorConfig) (request : ConnectorRequest)
    (bearerToken : String → Except ConnectorError String)
    (server : Sent → Except String Response) :
    (∀ sent ∈ (c.execute bearerToken server request).1, c.enabled = true ∧
      request.grant ∈ c.grants ∧ UrlLibrary.origin sent.url = UrlLibrary.origin c.baseUrl ∧
      sent.method ∈ request.grant.action.methods) ↔
    ∀ first, Passes c request bearerToken first →
      request.method ∈ request.grant.action.methods ∧
      ∀ n ≤ 10, ∀ sent, led server n first = some sent →
        UrlLibrary.origin sent.url = UrlLibrary.origin c.baseUrl := by
  have hget : "GET" ∈ request.grant.action.methods := by
    cases request.grant.action <;> decide
  unfold ConnectorConfig.execute
  cases hprepare : c.prepare bearerToken request with
  | error e =>
    refine iff_of_true (by simp) fun first hfirst => ?_
    rw [prepare_ok_iff.mpr hfirst] at hprepare
    cases hprepare
  | ok first =>
    have hpasses := prepare_ok_iff.mp hprepare
    have hmethod := HttpClient.methodFromBytes_ok _ _ hpasses.method
    constructor
    · intro h first' hfirst'
      obtain rfl := Except.ok.inj (hprepare.symm.trans (prepare_ok_iff.mpr hfirst'))
      refine ⟨?_, fun n hn sent hled => (h sent (mem_exchange.mpr ⟨n, hn, hled⟩)).2.2.1⟩
      rw [← hmethod]
      exact (h first (mem_exchange.mpr ⟨0, Nat.zero_le _, rfl⟩)).2.2.2
    · intro h sent hsent
      obtain ⟨hcovered, horigin⟩ := h first hpasses
      obtain ⟨n, hn, hled⟩ := mem_exchange.mp hsent
      exact ⟨hpasses.enabled, hpasses.granted, horigin n hn sent hled,
        led_method hget hled (hmethod ▸ hcovered)⟩

end

/-! ### A connector that may only read -/

namespace Sample

/-- URLs are a host and a path. -/
@[reducible] def urls : UrlLibrary where
  Url := String × String
  Origin := String
  parse text := .ok (text, "")
  scheme _ := "https"
  hostStr url := some url.1
  origin url := url.1
  join url path := .ok (url.1, path)
  extendPairs url _ := url
  origin_extendPairs _ _ := rfl

/-- A client that follows a redirect to another host with `GET`. -/
@[reducible] def client : @HttpClient urls :=
  letI := urls
  { methodFromBytes := .ok
    redirect := fun sent response =>
      response.location.map fun host => { sent with method := "GET", url := (host, sent.url.2) }
    methodFromBytes_ok := fun _ _ h => (Except.ok.inj h).symm
    redirect_method := fun _ response next h => by
      obtain ⟨host, -, rfl⟩ := Option.map_eq_some_iff.mp h
      exact .inr rfl }

attribute [local instance] urls client

/-- A connector with one grant, to read. -/
def reader : ConnectorConfig where
  displayName := "GitHub"
  baseUrl := ("api.github.com", "")
  auth := .none
  grants := {⟨"repos", .read⟩}
  enabled := true

def request (method : String) : ConnectorRequest :=
  { grant := ⟨"repos", .read⟩, method, path := "/repos/a/b" }

/-- A server that answers, or sends the client elsewhere first. -/
def server (elsewhere : Option String) (sent : Sent) : Except String Response :=
  .ok { status := 200, body := .ok .null,
        location := if sent.url.1 = "api.github.com" then elsewhere else none }

def noToken (_ : String) : Except ConnectorError String := .error .credentialsUnavailable

/-- **A connector that may only read deletes**, and a redirect takes it to another host. -/
theorem read_grant_deletes :
    (∀ grant ∈ reader.grants, grant.action = .read) ∧
      (reader.execute noToken (server none) (request "DELETE")).1.map (·.method) = ["DELETE"] ∧
      (reader.execute noToken (server (some "elsewhere")) (request "GET")).1.map (·.url.1) =
        ["api.github.com", "elsewhere"] := by
  refine ⟨by decide, rfl, rfl⟩

end Sample

end PersonalAgent.Connectors
