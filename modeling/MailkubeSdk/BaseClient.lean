import MailkubeSdk.Logging
import MailkubeSdk.Python.Json
import MailkubeSdk.Python.UrlJoin
import MailkubeSdk.Serialization
import MailkubeSdk.Types.Params
import MailkubeSdk.Types.Responses

/-
The shared, transport-agnostic client core.

Configuration, header building, request serialization and response processing:
everything both clients have in common.
-/

namespace MailkubeSdk

open Python

def defaultBaseUrl : Str := str "https://api.mailkube.com/mta/v1/"

def sendPath : Str := str "emails"

/-- `_OK_STATUS`. -/
def isOkStatus (status : Nat) : Bool := 200 ≤ status && status < 300

def wireRenames : Items Str Str := [(str "from_", str "from")]

def headerParams : Items Str Str := [(str "idempotency_key", str "Idempotency-Key")]

def isoParams : List Str := [str "scheduled_at", str "scheduled_at_gte", str "scheduled_at_lte"]

def attachmentsKey : Str := str "attachments"

/-- `_decode_json`: what the two `except` arms do not name comes through. -/
def decodeJson (runtime : Runtime) (raw : Bytes) : Except Builtin Value :=
  if raw = [] then .ok .none
  else
    match Json.loads runtime.scanDepth raw with
    | .ok value => .ok value
    | .error .jsonDecodeError => .ok .none
    | .error .unicodeDecodeError => .ok .none
    | .error .valueError => .error .valueError
    | .error .recursionError => .error .recursionError

def parseRetryAfter (runtime : Runtime) (value : Option Str) : Option Int :=
  value.bind runtime.int

def optionalStr (runtime : Runtime) (body : Items Str Value) (key : String) :
    Except Builtin (Option Str) :=
  match body.get (str key) with
  | none => .ok none
  | some .none => .ok none
  | some value => (runtime.str value).map some

/-- `_origin`. -/
def originOf (runtime : Runtime) (url : Str) : Except Exn (Str × Str) :=
  match Url.origin runtime.hosts url with
  | some origin => .ok origin
  | none => .error (.builtin .valueError)

/-! ### Configuration -/

structure BaseClient where
  apiKey : Str
  baseUrl : Str
  userAgentSuffix : Str

namespace BaseClient

/-- `a or b`, on texts that may be missing. -/
def orElse (first second : Option Str) : Option Str :=
  match first with
  | some (c :: rest) => some (c :: rest)
  | _ => second

/-- `__init__`; `environ` is the process environment. -/
def init (environ : Items Str Str) (apiKey baseUrl userAgentSuffix : Option Str) :
    Except Exn BaseClient :=
  match orElse (orElse apiKey (environ.get (str "MAILKUBE_API_KEY"))) none with
  | none =>
      .error (.mailkubeError (str ("No API key provided. Pass api_key=... or set the " ++
        "MAILKUBE_API_KEY environment variable.")))
  | some resolvedKey =>
      let suffix := strip (userAgentSuffix.getD [])
      .ok
        { apiKey := resolvedKey
          baseUrl := (orElse (orElse baseUrl (environ.get (str "MAILKUBE_BASE_URL")))
            (some defaultBaseUrl)).getD defaultBaseUrl
          userAgentSuffix := if cp '\r' ∈ suffix ∨ cp '\n' ∈ suffix then [] else suffix }

variable (platform : Platform) (client : BaseClient)

/-! ### The request side -/

def buildUrl (path : Str) : Except Exn Str :=
  match Url.urljoin platform.runtime.hosts client.baseUrl path with
  | none => .error (.builtin .valueError)
  | some url => do
      let origin ← originOf platform.runtime url
      let own ← originOf platform.runtime client.baseUrl
      if origin ≠ own then
        .error (.mailkubeError (str "Refusing to follow " ++ platform.runtime.reprStr url ++
          str ": it is not on the configured API origin."))
      else .ok url

theorem buildUrl_eq_ok_iff {path url : Str} :
    client.buildUrl platform path = .ok url ↔
      Url.urljoin platform.runtime.hosts client.baseUrl path = some url ∧
        ∃ own, Url.origin platform.runtime.hosts url = some own ∧
          Url.origin platform.runtime.hosts client.baseUrl = some own := by
  unfold buildUrl originOf
  cases Url.urljoin platform.runtime.hosts client.baseUrl path with
  | none => exact iff_of_false nofun nofun
  | some joined =>
      simp only [Option.some.injEq, bind_eq_ok_iff]
      constructor
      · rintro ⟨origin, read, own, readOwn, guarded⟩
        split at guarded
        · cases guarded
        · rename_i same
          cases Except.ok.inj guarded
          cases not_not.mp same
          cases found : Url.origin platform.runtime.hosts url with
          | none => rw [found] at read; cases read
          | some first =>
              cases base : Url.origin platform.runtime.hosts client.baseUrl with
              | none => rw [base] at readOwn; cases readOwn
              | some second =>
                  rw [found] at read
                  rw [base] at readOwn
                  exact ⟨rfl, origin, congrArg some (Except.ok.inj read),
                    congrArg some (Except.ok.inj readOwn)⟩
      · rintro ⟨rfl, own, read, readOwn⟩
        simp only [read, readOwn, Except.ok.injEq, exists_eq_left', ne_eq, not_true_eq_false,
          if_false]

def userAgent : Str :=
  let agent := str "mailkube-python/" ++ platform.version
  if client.userAgentSuffix ≠ [] then agent ++ str " " ++ client.userAgentSuffix else agent

def defaultHeaders : Items Str Str :=
  [(str "Authorization", str "Bearer " ++ client.apiKey),
    (str "User-Agent", client.userAgent platform),
    (str "Content-Type", str "application/json")]

/-- `_prepare`: the URL, and the default headers overlaid with the request's own. -/
def prepare (spec : RequestSpec) : Except Exn (Str × Items Str Str) := do
  let url ← client.buildUrl platform spec.path
  .ok (url, (client.defaultHeaders platform).update spec.headers)

end BaseClient

/-- The body and the headers of a send after one more parameter. -/
def sendStep (runtime : Runtime) (built : Items Str Value × Items Str Str) (param : Str × Value) :
    Except Builtin (Items Str Value × Items Str Str) :=
  match headerParams.get param.1 with
  | some name => do
      let text ← runtime.str param.2
      .ok (built.1, built.2.set name text)
  | none =>
      if param.1 = attachmentsKey then do
        let encoded ← encodeAttachments param.2
        .ok (built.1.set attachmentsKey encoded, built.2)
      else if param.1 ∈ isoParams then do
        let text ← toIso runtime param.2
        .ok (built.1.set param.1 (.str text), built.2)
      else .ok (built.1.set ((wireRenames.get param.1).getD param.1) param.2, built.2)

def buildSendBody (runtime : Runtime) (params : Items Str Value) : Except Builtin RequestSpec := do
  let (body, headers) ← params.foldlM (sendStep runtime) ([], [])
  .ok { path := sendPath, json := some body, headers }

/-! ### The response side -/

section Responses

variable (platform : Platform)

/-- `_ok_body`: the decoded body of a 2xx response, or the exception of any other. -/
def okBody (response : Response) : Except Exn Value := do
  let body ← liftBuiltin (decodeJson platform.runtime response.content)
  if isOkStatus response.statusCode then .ok body
  else
    .error (raiseForResponse platform.runtime response.statusCode body
      (parseRetryAfter platform.runtime
        (header platform.runtime response.headers (str "retry-after")))
      (header platform.runtime response.headers (str "x-request-id")))

def processResponse (response : Response) : Except Exn Email := do
  let malformed : Exn := .mailkubeError (str "Expected a JSON body with an 'id' from a " ++
    natText response.statusCode ++ str " response.")
  match ← okBody platform response with
  | .dict body =>
      match Items.get body (str "id") with
      | none => .error malformed
      | some id => liftBuiltin do
          let id ← platform.runtime.str id
          let messageId ← optionalStr platform.runtime body "message_id"
          let status ← optionalStr platform.runtime body "status"
          let scheduledAt ← optionalStr platform.runtime body "scheduled_at"
          let batchId ← optionalStr platform.runtime body "batch_id"
          .ok
            { id, messageId, status, scheduledAt, batchId
              idempotentReplayed := platform.runtime.lower
                ((header platform.runtime response.headers (str "idempotent-replayed")).getD []) ==
                  str "true"
              requestId := header platform.runtime response.headers (str "x-request-id")
              headers := response.headers }
  | _ => .error malformed

/-- Lexicographic order by code point. -/
def textLe : Str → Str → Bool
  | [], _ => true
  | _ :: _, [] => false
  | a :: left, b :: right => if a = b then textLe left right else decide (a < b)

/-- The mismatched fields, each once and sorted. -/
def fieldList (errors : Schema.Errors) : Str :=
  let names := (errors.map ((str ".").intercalate ·)).dedup
  (str ", ").intercalate (names.mergeSort textLe)

def processModel (model : Model) (response : Response) : Except Exn model.Instance := do
  match ← okBody platform response with
  | .dict body =>
      match model.shape.validate platform.lax (.dict body) with
      | .ok value => .ok value
      | .error errors =>
          .error (.mailkubeError (str "Unexpected " ++ model.name ++ str " shape in a " ++
            natText response.statusCode ++ str " response: " ++ fieldList errors ++ str "."))
  | _ =>
      .error (.mailkubeError (str "Expected a JSON object from a " ++
        natText response.statusCode ++ str " response."))

end Responses

end MailkubeSdk
