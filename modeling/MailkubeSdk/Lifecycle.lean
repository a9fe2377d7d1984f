import MailkubeSdk.Envelope
import MailkubeSdk.Requests
import MailkubeSdk.Routes

/-
Client lifecycles.

A client is made, then used and closed in any order.  It closes the HTTP client
it made itself and leaves one it was given alone.  What the HTTP library's
request call may do is the contract below; what the package makes of it is that
a call gets a response or raises one of the package's own exceptions, unless the
HTTP client is closed, a header value is not ASCII or a page number is too long
to print.
-/

namespace MailkubeSdk

open Python Effect

/-! ### The HTTP library -/

/-- The answers of an HTTP client, open or closed. -/
abbrev HttpLibrary := Bool → Server

/-- Header values given as text are encoded as ASCII. -/
def headersEncode (request : HttpRequest) : Bool :=
  request.headers.all (fun header => isAsciiText header.2)

/-- `httpx.Client.request`: the headers are encoded first, a closed client refuses, and
every other failure is an `HTTPError` or an `InvalidURL`. -/
structure HttpLibrary.Documented (http : HttpLibrary) : Prop where
  encodes : ∀ isOpen past request, headersEncode request = false →
    http isOpen past request = .other .unicodeEncodeError
  refuses : ∀ past request, headersEncode request = true →
    http false past request = .other .runtimeError
  wraps : ∀ past request exception, headersEncode request = true →
    http true past request ≠ .other exception

/-! ### Sessions -/

/-- A client in use, its HTTP client, and what has happened so far. -/
structure Session where
  client : BaseClient
  ownsHttp : Bool
  httpOpen : Bool
  events : Trace

/-- What a caller does with a client; leaving its context closes it. -/
inductive Operation where
  | call (verb : Verb)
  | close

namespace Session

/-- `__init__`; an injected HTTP client is given by whether it is open. -/
def init (environ : Items Str Str) (apiKey baseUrl userAgentSuffix : Option Str)
    (httpClient : Option Bool) : Except Exn Session := do
  let client ← BaseClient.init environ apiKey baseUrl userAgentSuffix
  .ok { client, ownsHttp := httpClient.isNone, httpOpen := httpClient.getD true, events := [] }

/-- `close` and `aclose`. -/
def close (session : Session) : Session :=
  if session.ownsHttp then { session with httpOpen := false } else session

variable (platform : Platform) (http : HttpLibrary) (flavour : Flavour)

/-- A verb called now. -/
def run (session : Session) (verb : Verb) :
    Run HttpRequest HttpOutcome LogRecord Exn verb.Result :=
  (MailkubeSdk.call platform session.client flavour verb).run (http session.httpOpen)
    session.events

def step (session : Session) : Operation → Session
  | .call verb =>
      { session with events := session.events ++ (session.run platform http flavour verb).events }
  | .close => session.close

def after (session : Session) (operations : List Operation) : Session :=
  operations.foldl (step platform http flavour) session

end Session

/-! ### What a call is given -/

/-- Arguments of the declared types. -/
def Verb.WellTyped : Verb → Prop
  | .emailsSend params => MailkubeSdk.WellTyped sendEmailParams params
  | .scheduledEmailsList params => MailkubeSdk.WellTyped scheduledEmailListParams params
  | .scheduledEmailsUpdate _ params => MailkubeSdk.WellTyped scheduledEmailUpdateParams params
  | .batchesUpdate _ params => MailkubeSdk.WellTyped scheduledEmailBatchUpdateParams params
  | _ => True

/-- The idempotency key of a send. -/
def Verb.keyText : Verb → Option Str
  | .emailsSend params =>
      match params.get idempotencyKey with
      | some (.str key) => some key
      | _ => none
  | _ => none

variable (platform : Platform)

/-- The path of a call is built and joined onto the base. -/
def UrlFormed (client : BaseClient) (verb : Verb) : Prop :=
  ∃ method path url, verb.route = .ok (method, path) ∧ client.buildUrl platform path = .ok url

/-- The page of a listing has no more digits than `str` prints. -/
def PrintablePage (params : Items Str Value) : Prop :=
  ∀ n, params.get (str "page") = some (.int n) → (natText n.natAbs).length ≤ maxStrDigits

def Verb.Printable : Verb → Prop
  | .scheduledEmailsList params => PrintablePage params
  | _ => True

/-- Every text of a call that becomes a header value is ASCII. -/
structure AsciiHeaders (client : BaseClient) (verb : Verb) : Prop where
  version : isAsciiText platform.version = true
  apiKey : isAsciiText client.apiKey = true
  suffix : isAsciiText client.userAgentSuffix = true
  key : ∀ key, verb.keyText = some key → isAsciiText key = true

/-- The HTTP client of a client made so and used so is still open. -/
def StaysOpen (httpClient : Option Bool) (operations : List Operation) : Prop :=
  match httpClient with
  | some isOpen => isOpen = true
  | none => Operation.close ∉ operations

/-- A call got a response, or raised an exception of the package. -/
def Settled {α : Type} (run : Run HttpRequest HttpOutcome LogRecord Exn α) : Prop :=
  (∃ response, .response response ∈ answers run.events) ∨
    ∃ exn, run.result = .error exn ∧ exn.isMailkubeError = true

/-! ### The request of a well-typed call -/

variable {platform}

theorem scheduledAtText_eq_ok {declared : List ParamDecl} {params : Items Str Value}
    (runtime : Runtime) (typed : WellTyped declared params)
    (listed : ⟨scheduledAtKey, .textOrInstant, true⟩ ∈ declared)
    (only : ∀ decl ∈ declared, decl.key = scheduledAtKey → decl.type = .textOrInstant) :
    ∃ text, scheduledAtText runtime params = .ok text := by
  obtain ⟨item, member, named⟩ := List.mem_map.mp (typed.complete _ listed rfl)
  obtain ⟨key, value⟩ := item
  change key = scheduledAtKey at named
  subst named
  obtain ⟨decl, declares, same, fits⟩ := typed.fits _ member
  rw [only decl declares same] at fits
  obtain ⟨text, rendered, _⟩ := toIso_written runtime fits
  refine ⟨text, ?_⟩
  unfold scheduledAtText
  rw [Items.get_of_mem typed.distinct member]
  exact rendered

private theorem itemPath_of_route {base identifier method path method' : Str}
    (route : (itemPath base identifier).map (method', ·) = .ok (method, path)) :
    itemPath base identifier = .ok path := by
  cases found : itemPath base identifier with
  | error exception =>
      rw [found] at route
      cases route
  | ok given =>
      rw [found] at route
      cases route
      rfl

/-- A page is written by `str`, and any other filter can be written. -/
theorem queryValue_cases (runtime : Runtime) {decl : ParamDecl} {value : Value}
    (listed : decl ∈ scheduledEmailListParams) (typed : decl.type.holds value = true) :
    (decl.key = str "page" ∧ ∃ n, value = .int n ∧ queryValue runtime value = intText n) ∨
      (decl.key ≠ str "page" ∧ ∃ text, queryValue runtime value = .ok text) := by
  have table : ∀ decl ∈ scheduledEmailListParams,
      (decl.key = str "page" ∧ decl.type = .integer) ∨
        (decl.key ≠ str "page" ∧ decl.type ∈ [.text, .textOrInstant, .textOrTexts]) := by decide
  rcases table decl listed with ⟨isPage, type⟩ | ⟨other, type⟩
  · rw [type] at typed
    cases value with
    | int n =>
        refine .inl ⟨isPage, n, rfl, ?_⟩
        simp only [queryValue, toIso, Runtime.str, Runtime.repr]
    | _ => cases typed
  · refine .inr ⟨other, ?_⟩
    rcases textual_cases type typed with ⟨text, rfl⟩ | ⟨instant, rfl⟩ | ⟨elements, rfl, texts⟩
    · exact ⟨text, rfl⟩
    · exact ⟨instant.isoformat, rfl⟩
    · obtain ⟨parts, mapped⟩ : ∃ parts, elements.mapM (toIso runtime) = .ok parts :=
        mapM_built_iff.mpr fun element member => by
          obtain ⟨text, rfl⟩ := isText_str (List.all_eq_true.mp texts element member)
          exact ⟨text, rfl⟩
      exact ⟨(str ",").intercalate parts, bind_eq_ok_iff.mpr ⟨parts, mapped, rfl⟩⟩

theorem intText_built_iff (n : Int) :
    (∃ text, intText n = .ok text) ↔ (natText n.natAbs).length ≤ maxStrDigits := by
  unfold intText
  split
  · rename_i long
    refine iff_of_false ?_ (Nat.not_le.mpr long)
    rintro ⟨text, written⟩
    cases written
  · rename_i short
    exact iff_of_true ⟨_, rfl⟩ (Nat.not_lt.mp short)

theorem intText_error {n : Int} {exception : Builtin} (failed : intText n = .error exception) :
    exception = .valueError := by
  unfold intText at failed
  split at failed
  · cases failed
    rfl
  · cases failed

/-- Only a page may fail to be written. -/
theorem queryValue_built {runtime : Runtime} {decl : ParamDecl} {value : Value}
    (listed : decl ∈ scheduledEmailListParams) (typed : decl.type.holds value = true) :
    (∃ text, queryValue runtime value = .ok text) ↔
      (decl.key = str "page" →
        ∀ n, value = .int n → (natText n.natAbs).length ≤ maxStrDigits) := by
  rcases queryValue_cases runtime listed typed with ⟨isPage, n, rfl, written⟩ | ⟨other, built⟩
  · rw [written, intText_built_iff]
    simp only [isPage, Value.int.injEq, forall_eq', forall_const]
  · exact iff_of_true built fun isPage => absurd isPage other

/-- A listing that is not built fails on a page that is too long. -/
theorem listSpec_error {runtime : Runtime} {params : Items Str Value} {exception : Builtin}
    (typed : MailkubeSdk.WellTyped scheduledEmailListParams params)
    (failed : listSpec runtime params = .error exception) : exception = .valueError := by
  rcases bind_eq_error_iff.mp failed with mapped | ⟨query, _, impossible⟩
  · obtain ⟨⟨key, value⟩, member, item⟩ := exists_of_mapM_error mapped
    obtain ⟨decl, listed, _, fits⟩ := typed.fits _ member
    rcases bind_eq_error_iff.mp item with unwritten | ⟨text, _, impossible⟩
    · rcases queryValue_cases runtime listed fits with ⟨_, n, rfl, written⟩ | ⟨_, text, written⟩
      · exact intText_error (written.symm.trans unwritten)
      · cases written.symm.trans unwritten
    · cases impossible
  · cases impossible

theorem listSpec_built_iff (runtime : Runtime) {params : Items Str Value}
    (typed : MailkubeSdk.WellTyped scheduledEmailListParams params) :
    (∃ spec, listSpec runtime params = .ok spec) ↔ PrintablePage params := by
  constructor
  · rintro ⟨spec, built⟩ n given
    obtain ⟨query, rendered, _⟩ := bind_eq_ok_iff.mp built
    obtain ⟨item, written⟩ :=
      mapM_built_iff.mp ⟨query, rendered⟩ _ (Items.mem_of_get given)
    obtain ⟨text, printed, _⟩ := bind_eq_ok_iff.mp written
    obtain ⟨decl, listed, named, fits⟩ := typed.fits _ (Items.mem_of_get given)
    exact (queryValue_built listed fits).mp ⟨text, printed⟩ named n rfl
  · intro printable
    have each : ∀ param ∈ params, ∃ item, (do
        let text ← queryValue runtime param.2
        .ok (param.1, text) : Except Builtin (Str × Str)) = .ok item := by
      intro param member
      obtain ⟨decl, listed, named, fits⟩ := typed.fits param member
      obtain ⟨text, written⟩ := (queryValue_built listed fits).mpr (fun isPage n number => by
        apply printable n
        rw [← isPage, named, ← number]
        exact Items.get_of_mem typed.distinct member)
      rw [written]
      exact ⟨(param.1, text), rfl⟩
    obtain ⟨query, mapped⟩ := mapM_built_iff.mpr each
    exact ⟨_, bind_eq_ok_iff.mpr ⟨query, mapped, rfl⟩⟩

/-- A well-typed call whose URL is well formed builds its request, if that can be printed. -/
theorem built_of_urlFormed {client : BaseClient} {verb : Verb} (typed : verb.WellTyped)
    (formed : UrlFormed platform client verb) (printable : verb.Printable) :
    ∃ spec url, verb.built platform.runtime = .ok spec ∧
      client.buildUrl platform spec.path = .ok url := by
  obtain ⟨method, path, url, route, joined⟩ := formed
  suffices made : ∃ spec, verb.built platform.runtime = .ok spec by
    obtain ⟨spec, built⟩ := made
    have same := (built_enveloped built).route
    rw [route] at same
    cases same
    exact ⟨spec, url, built, joined⟩
  cases verb with
  | emailsSend params => exact ⟨_, buildSendBody_eq platform.runtime typed.fits typed.distinct⟩
  | credentialInfo => exact ⟨_, rfl⟩
  | scheduledEmailsList params => exact (listSpec_built_iff platform.runtime typed).mpr printable
  | scheduledEmailsGet emailId =>
      exact ⟨_, bind_eq_ok_iff.mpr ⟨path, itemPath_of_route route, rfl⟩⟩
  | scheduledEmailsUpdate emailId params =>
      obtain ⟨text, written⟩ :=
        scheduledAtText_eq_ok platform.runtime typed List.mem_cons_self (by decide)
      exact ⟨_, bind_eq_ok_iff.mpr
        ⟨text, written, bind_eq_ok_iff.mpr ⟨path, itemPath_of_route route, rfl⟩⟩⟩
  | scheduledEmailsCancel emailId =>
      exact ⟨_, bind_eq_ok_iff.mpr ⟨path, itemPath_of_route route, rfl⟩⟩
  | batchesUpdate batchId params =>
      obtain ⟨text, written⟩ :=
        scheduledAtText_eq_ok platform.runtime typed List.mem_cons_self (by decide)
      exact ⟨_, bind_eq_ok_iff.mpr
        ⟨text, written, bind_eq_ok_iff.mpr ⟨path, itemPath_of_route route, rfl⟩⟩⟩
  | batchesCancel batchId =>
      exact ⟨_, bind_eq_ok_iff.mpr ⟨path, itemPath_of_route route, rfl⟩⟩

/-- The headers of its specification: that of the idempotency key, if there is one. -/
theorem built_headers {runtime : Runtime} {verb : Verb} {spec : RequestSpec}
    (typed : verb.WellTyped) (built : verb.built runtime = .ok spec) :
    spec.headers = (verb.keyText.map (idempotencyHeader, ·)).toList := by
  have nothing : verb.keyGiven = false → spec.headers = [] := by
    intro notGiven
    have keys := (built_enveloped built).headers
    rw [notGiven] at keys
    exact List.map_eq_nil_iff.mp keys
  cases verb with
  | emailsSend params =>
      change buildSendBody runtime params = .ok spec at built
      rw [buildSendBody_eq runtime typed.fits typed.distinct] at built
      cases built
      rw [(carriesParams_written typed.fits typed.distinct).headers]
      unfold Verb.keyText
      dsimp only
      cases found : params.get idempotencyKey with
      | none => rfl
      | some value =>
          cases value with
          | str key => rfl
          | _ => rfl
  | _ => exact nothing rfl

private theorem isAsciiText_append (left right : Str) :
    isAsciiText (left ++ right) = true ↔ isAsciiText left = true ∧ isAsciiText right = true := by
  unfold isAsciiText
  rw [List.all_append, Bool.and_eq_true]

private theorem userAgent_ascii_iff (client : BaseClient) :
    isAsciiText (client.userAgent platform) = true ↔
      isAsciiText platform.version = true ∧ isAsciiText client.userAgentSuffix = true := by
  have product : isAsciiText (str "mailkube-python/") = true := by decide
  have space : isAsciiText (str " ") = true := by decide
  unfold BaseClient.userAgent
  dsimp only
  split
  · rw [isAsciiText_append, isAsciiText_append, isAsciiText_append]
    simp only [product, space, true_and, and_true]
  · rename_i bare
    rw [not_not.mp bare, isAsciiText_append]
    simp only [product, true_and]
    exact (and_iff_left rfl).symm

/-- The request of a well-typed call is encoded exactly when its own texts are ASCII. -/
theorem headersEncode_iff {client : BaseClient} {verb : Verb} {spec : RequestSpec}
    (typed : verb.WellTyped) (built : verb.built platform.runtime = .ok spec) (url : Str) :
    headersEncode (httpRequest spec url ((client.defaultHeaders platform).update spec.headers)) =
        true ↔ AsciiHeaders platform client verb := by
  have bearer : isAsciiText (str "Bearer ") = true := by decide
  have json : isAsciiText (str "application/json") = true := by decide
  have shared : (client.defaultHeaders platform).all (fun header => isAsciiText header.2) = true ↔
      isAsciiText client.apiKey = true ∧ isAsciiText platform.version = true ∧
        isAsciiText client.userAgentSuffix = true := by
    unfold BaseClient.defaultHeaders
    simp only [List.all_cons, List.all_nil, Bool.and_true, Bool.and_eq_true]
    rw [isAsciiText_append, userAgent_ascii_iff]
    simp only [bearer, json, true_and, and_true]
  change ((client.defaultHeaders platform).update spec.headers).all _ = true ↔ _
  rw [built_headers typed built]
  cases given : verb.keyText with
  | none =>
      constructor
      · intro encoded
        obtain ⟨apiKey, version, suffix⟩ := shared.mp encoded
        refine ⟨version, apiKey, suffix, ?_⟩
        intro key found
        rw [given] at found
        cases found
      · intro ascii
        exact shared.mpr ⟨ascii.apiKey, ascii.version, ascii.suffix⟩
  | some key =>
      have fresh : idempotencyHeader ∉ (client.defaultHeaders platform).keys := by
        unfold BaseClient.defaultHeaders
        simp only [Items.keys_cons, Items.keys_nil]
        decide
      have grown : (client.defaultHeaders platform).update [(idempotencyHeader, key)] =
          client.defaultHeaders platform ++ [(idempotencyHeader, key)] :=
        Items.set_of_fresh fresh key
      change ((client.defaultHeaders platform).update [(idempotencyHeader, key)]).all _ = true ↔ _
      rw [grown, List.all_append, Bool.and_eq_true]
      constructor
      · rintro ⟨front, last⟩
        obtain ⟨apiKey, version, suffix⟩ := shared.mp front
        refine ⟨version, apiKey, suffix, ?_⟩
        intro other found
        rw [given] at found
        cases found
        simpa only [List.all_cons, List.all_nil, Bool.and_true] using last
      · intro ascii
        refine ⟨shared.mpr ⟨ascii.apiKey, ascii.version, ascii.suffix⟩, ?_⟩
        simpa only [List.all_cons, List.all_nil, Bool.and_true] using ascii.key key given

/-! ### One call -/

/-- Only an exception that the round trip does not wrap leaves a call unsettled. -/
private theorem settled_roundTrip_iff {α : Type} (spec : RequestSpec) (url : Str)
    (headers : Items Str Str) (answer : HttpOutcome) (parse : Response → Except Exn α) :
    Settled ⟨roundTrip platform spec url headers answer, answered answer >>= parse⟩ ↔
      ∀ exception, answer ≠ .other exception := by
  unfold Settled
  rw [answers_roundTrip]
  cases answer with
  | response response =>
      apply iff_of_true
      · exact .inl ⟨response, List.mem_singleton.mpr rfl⟩
      · intro exception same
        cases same
  | httpError message =>
      apply iff_of_true
      · exact .inr ⟨_, rfl, rfl⟩
      · intro exception same
        cases same
  | invalidUrl message =>
      apply iff_of_true
      · exact .inr ⟨_, rfl, rfl⟩
      · intro exception same
        cases same
  | other exception =>
      apply iff_of_false
      · rintro (⟨response, member⟩ | ⟨exn, raised, own⟩)
        · cases List.mem_singleton.mp member
        · cases raised
          cases own
      · intro wrapped
        exact wrapped exception rfl

variable {http : HttpLibrary}

private theorem wrapped_iff (documented : http.Documented) (isOpen : Bool) (past : Trace)
    (request : HttpRequest) :
    (∀ exception, http isOpen past request ≠ .other exception) ↔
      isOpen = true ∧ headersEncode request = true := by
  constructor
  · intro wrapped
    cases encoded : headersEncode request with
    | false => exact absurd (documented.encodes isOpen past request encoded) (wrapped _)
    | true =>
        cases isOpen with
        | false => exact absurd (documented.refuses past request encoded) (wrapped _)
        | true => exact ⟨rfl, rfl⟩
  · rintro ⟨rfl, encoded⟩ exception
    exact documented.wraps past request exception encoded

/-- A well-typed call with a well-formed URL is one round trip over the HTTP client as it is. -/
private theorem run_eq (http : HttpLibrary) (flavour : Flavour) {session : Session} {verb : Verb}
    (typed : verb.WellTyped) (formed : UrlFormed platform session.client verb)
    (printable : verb.Printable) :
    ∃ spec url headers past,
      (headersEncode (httpRequest spec url headers) = true ↔
        AsciiHeaders platform session.client verb) ∧
      session.run platform http flavour verb =
        ⟨roundTrip platform spec url headers
            (http session.httpOpen past (httpRequest spec url headers)),
          answered (http session.httpOpen past (httpRequest spec url headers)) >>=
            verb.parse platform⟩ := by
  obtain ⟨spec, url, built, joined⟩ := built_of_urlFormed typed formed printable
  obtain ⟨headers, prepared, encoded⟩ : ∃ headers,
      session.client.prepare platform spec = .ok (url, headers) ∧
        (headersEncode (httpRequest spec url headers) = true ↔
          AsciiHeaders platform session.client verb) :=
    ⟨_, prepare_eq_ok_iff.mpr ⟨joined, rfl⟩, headersEncode_iff typed built url⟩
  refine ⟨spec, url, headers,
    session.events ++ [.noted (logRequest platform.runtime spec.method url headers)], encoded, ?_⟩
  unfold Session.run
  rw [verb_run, built, builtRun_ok, tripRun_prepared platform session.client prepared]
  rfl

/-- A call whose page is not printed raises what `str` does, before it sends anything. -/
theorem run_unprinted (http : HttpLibrary) (flavour : Flavour) {session : Session} {verb : Verb}
    (typed : verb.WellTyped) (unprinted : ¬verb.Printable) :
    ∃ exception, session.run platform http flavour verb = ⟨[], .error (.builtin exception)⟩ := by
  have refused : ∃ exception, verb.built platform.runtime = .error exception := by
    cases verb with
    | scheduledEmailsList params =>
        cases built : listSpec platform.runtime params with
        | error exception => exact ⟨exception, built⟩
        | ok spec =>
            exact absurd ((listSpec_built_iff platform.runtime typed).mp ⟨spec, built⟩) unprinted
    | _ => exact absurd trivial unprinted
  obtain ⟨exception, built⟩ := refused
  refine ⟨exception, ?_⟩
  unfold Session.run
  rw [verb_run, built]
  rfl

/-- In any state, a call is settled exactly when the HTTP client is open, its headers
are ASCII and its page can be printed. -/
theorem run_settled_iff (documented : http.Documented) (flavour : Flavour) {session : Session}
    {verb : Verb} (typed : verb.WellTyped) (formed : UrlFormed platform session.client verb) :
    Settled (session.run platform http flavour verb) ↔
      session.httpOpen = true ∧ AsciiHeaders platform session.client verb ∧ verb.Printable := by
  by_cases printable : verb.Printable
  · obtain ⟨spec, url, headers, past, encoded, ran⟩ := run_eq http flavour typed formed printable
    rw [ran, settled_roundTrip_iff, wrapped_iff documented, encoded, and_iff_left printable]
  · obtain ⟨exception, ran⟩ := run_unprinted http flavour typed printable
    rw [ran]
    apply iff_of_false
    · rintro (⟨response, member⟩ | ⟨exn, raised, own⟩)
      · cases member
      · cases raised
        cases own
    · rintro ⟨_, _, impossible⟩
      exact printable impossible

/-- What escapes otherwise: the encoding error first, then that of the closed client. -/
theorem run_escapes (documented : http.Documented) (flavour : Flavour) {session : Session}
    {verb : Verb} (typed : verb.WellTyped) (formed : UrlFormed platform session.client verb)
    (printable : verb.Printable) :
    (¬AsciiHeaders platform session.client verb →
      (session.run platform http flavour verb).result = .error (.builtin .unicodeEncodeError)) ∧
    (AsciiHeaders platform session.client verb → session.httpOpen = false →
      (session.run platform http flavour verb).result = .error (.builtin .runtimeError)) := by
  obtain ⟨spec, url, headers, past, encoded, ran⟩ := run_eq http flavour typed formed printable
  rw [ran]
  constructor
  · intro beyond
    have refused := Bool.eq_false_iff.mpr (fun ascii => beyond (encoded.mp ascii))
    rw [documented.encodes _ past _ refused]
    rfl
  · intro ascii closed
    rw [closed, documented.refuses past _ (encoded.mpr ascii)]
    rfl

/-! ### Whole lifecycles -/

namespace Session

variable (flavour : Flavour)

private theorem step_client (session : Session) (operation : Operation) :
    (session.step platform http flavour operation).client = session.client := by
  cases operation with
  | call verb => rfl
  | close =>
      change session.close.client = _
      unfold close
      split <;> rfl

private theorem step_ownsHttp (session : Session) (operation : Operation) :
    (session.step platform http flavour operation).ownsHttp = session.ownsHttp := by
  cases operation with
  | call verb => rfl
  | close =>
      change session.close.ownsHttp = _
      unfold close
      split <;> rfl

theorem after_client (session : Session) (operations : List Operation) :
    (session.after platform http flavour operations).client = session.client := by
  induction operations generalizing session with
  | nil => rfl
  | cons operation rest ih => exact (ih _).trans (step_client flavour session operation)

/-- Closing closes the client's own HTTP client only, and nothing opens it again. -/
theorem after_httpOpen_iff (session : Session) (operations : List Operation) :
    (session.after platform http flavour operations).httpOpen = true ↔
      session.httpOpen = true ∧ (session.ownsHttp = true → Operation.close ∉ operations) := by
  induction operations generalizing session with
  | nil => exact (and_iff_left (fun _ => List.not_mem_nil)).symm
  | cons operation rest ih =>
      change ((session.step platform http flavour operation).after _ _ _ _).httpOpen = true ↔ _
      rw [ih, step_ownsHttp, List.mem_cons, not_or]
      cases operation with
      | call verb =>
          have here : (session.step platform http flavour (.call verb)).httpOpen =
              session.httpOpen := rfl
          have other : Operation.close ≠ Operation.call verb := by
            intro same
            cases same
          rw [here]
          simp only [other, not_false_eq_true, true_and]
      | close =>
          change session.close.httpOpen = true ∧ _ ↔ _
          unfold close
          cases session.ownsHttp with
          | true => simp only [if_true, Bool.false_eq_true, false_and, not_true_eq_false,
              forall_const, and_false]
          | false => simp only [Bool.false_eq_true, if_false, false_imp_iff]

end Session

/-- What the constructor made, after any use. -/
theorem after_open_iff {environ : Items Str Str} {apiKey baseUrl userAgentSuffix : Option Str}
    {httpClient : Option Bool} {session : Session}
    (made : Session.init environ apiKey baseUrl userAgentSuffix httpClient = .ok session)
    (flavour : Flavour) (operations : List Operation) :
    (session.after platform http flavour operations).httpOpen = true ↔
      StaysOpen httpClient operations := by
  rw [Session.after_httpOpen_iff]
  obtain ⟨client, _, same⟩ := bind_eq_ok_iff.mp made
  cases same
  unfold StaysOpen
  cases httpClient with
  | none => simp only [Option.getD_none, Option.isNone_none, true_and, forall_const]
  | some isOpen =>
      simp only [Option.getD_some, Option.isNone_some, Bool.false_eq_true, false_imp_iff, and_true]

/-- In a lifecycle of a client, the calls with a well-formed URL are all settled exactly
when each of them finds the HTTP client open, sends ASCII headers and has a page that can
be printed. -/
theorem lifecycle_settled_iff (documented : http.Documented) {environ : Items Str Str}
    {apiKey baseUrl userAgentSuffix : Option Str} {httpClient : Option Bool} {session : Session}
    (made : Session.init environ apiKey baseUrl userAgentSuffix httpClient = .ok session)
    {operations : List Operation}
    (typed : ∀ verb, Operation.call verb ∈ operations → verb.WellTyped) (flavour : Flavour) :
    (∀ before verb rest, operations = before ++ .call verb :: rest →
      UrlFormed platform session.client verb →
        Settled ((session.after platform http flavour before).run platform http flavour verb)) ↔
    ∀ before verb rest, operations = before ++ .call verb :: rest →
      UrlFormed platform session.client verb →
        StaysOpen httpClient before ∧ AsciiHeaders platform session.client verb ∧
          verb.Printable := by
  have each : ∀ before verb rest, operations = before ++ .call verb :: rest →
      UrlFormed platform session.client verb →
        (Settled ((session.after platform http flavour before).run platform http flavour verb) ↔
          StaysOpen httpClient before ∧ AsciiHeaders platform session.client verb ∧
            verb.Printable) := by
    intro before verb rest split formed
    have called : Operation.call verb ∈ operations := by
      rw [split]
      exact List.mem_append_right _ List.mem_cons_self
    have same : (session.after platform http flavour before).client = session.client :=
      Session.after_client flavour session before
    rw [run_settled_iff documented flavour (typed verb called) (same ▸ formed), same,
      after_open_iff made]
  constructor
  · intro settled before verb rest split formed
    exact (each before verb rest split formed).mp (settled before verb rest split formed)
  · intro meets before verb rest split formed
    exact (each before verb rest split formed).mpr (meets before verb rest split formed)

/-! ### A closed client and an accented key -/

/-- An HTTP library that answers every request it takes with an empty page. -/
def quietLibrary : HttpLibrary := fun isOpen _ request =>
  if headersEncode request = false then .other .unicodeEncodeError
  else if isOpen then .response ⟨200, asciiBytes "\x7b\x7d", []⟩
  else .other .runtimeError

private theorem quietLibrary_documented : quietLibrary.Documented where
  encodes _ _ _ beyond := if_pos beyond
  refuses past request encoded := by
    unfold quietLibrary
    rw [encoded]
    rfl
  wraps past request exception encoded := by
    unfold quietLibrary
    rw [encoded]
    intro same
    cases same

def defaultSession : Session := ⟨defaultClient, true, true, []⟩

private theorem defaultSession_init :
    Session.init [] (some (str "mk_key")) none none none = .ok defaultSession := rfl

private theorem credentialInfo_typed : Verb.WellTyped .credentialInfo := trivial

private theorem credentialInfo_formed :
    UrlFormed Platform.plain defaultClient .credentialInfo := by
  have joined : defaultClient.buildUrl Platform.plain infoPath =
      .ok (str "https://api.mailkube.com/mta/v1/api-keys/me") :=
    eq_ok_of_toOption (by decide +kernel)
  exact ⟨_, _, _, rfl, joined⟩

private theorem credentialInfo_ascii :
    AsciiHeaders Platform.plain defaultClient .credentialInfo where
  version := by decide
  apiKey := by decide
  suffix := rfl
  key := by
    intro key found
    cases found

theorem lifecycle_settled_iff_sample :
    Settled (defaultSession.run Platform.plain quietLibrary .async .credentialInfo) := by
  refine (@lifecycle_settled_iff Platform.plain _ quietLibrary_documented _ _ _ _ _ _
    defaultSession_init [.call .credentialInfo] ?_ .async).mpr ?_ [] .credentialInfo [] rfl
      credentialInfo_formed
  · intro verb member
    cases List.mem_singleton.mp member
    exact credentialInfo_typed
  · intro before verb rest split _
    cases before with
    | nil =>
        cases split
        exact ⟨List.not_mem_nil, credentialInfo_ascii, trivial⟩
    | cons operation more =>
        have emptied := (List.cons.inj split).2
        exact absurd emptied.symm (List.append_ne_nil_of_right_ne_nil _ (List.cons_ne_nil _ _))

/-- A message with an idempotency key of one accented letter. -/
def accentedParams : Items Str Value :=
  [(str "from_", .str (str "a@example.com")), (str "to", .str (str "b@example.com")),
    (str "subject", .str (str "s")), (idempotencyKey, .str (str "é"))]

private theorem accentedParams_typed : Verb.WellTyped (.emailsSend accentedParams) where
  distinct := by decide
  fits := by decide
  complete := by decide

private theorem accentedSend_formed :
    UrlFormed Platform.plain defaultClient (.emailsSend accentedParams) := by
  have joined : defaultClient.buildUrl Platform.plain sendPath =
      .ok (str "https://api.mailkube.com/mta/v1/emails") :=
    eq_ok_of_toOption (by decide +kernel)
  exact ⟨_, _, _, rfl, joined⟩

/-- After `close` a call raises `RuntimeError`; on an open client the accented key
raises `UnicodeEncodeError`. -/
theorem closed_client_escapes :
    quietLibrary.Documented ∧
      Session.init [] (some (str "mk_key")) none none none = .ok defaultSession ∧
      (let closed := defaultSession.after Platform.plain quietLibrary .sync [.close]
       let run := closed.run Platform.plain quietLibrary .sync .credentialInfo
       run.result = .error (.builtin .runtimeError) ∧ ¬Settled run) ∧
      let run := defaultSession.run Platform.plain quietLibrary .sync (.emailsSend accentedParams)
      run.result = .error (.builtin .unicodeEncodeError) ∧ ¬Settled run := by
  have beyond : ¬AsciiHeaders Platform.plain defaultClient (.emailsSend accentedParams) := by
    intro ascii
    exact absurd (ascii.key (str "é") (by decide)) (by decide)
  refine ⟨quietLibrary_documented, defaultSession_init, ⟨?_, ?_⟩, ?_, ?_⟩
  · exact (run_escapes quietLibrary_documented .sync credentialInfo_typed
      credentialInfo_formed trivial).2 credentialInfo_ascii rfl
  · intro settled
    have opened := ((run_settled_iff quietLibrary_documented .sync credentialInfo_typed
      credentialInfo_formed).mp settled).1
    cases opened
  · exact (run_escapes quietLibrary_documented .sync accentedParams_typed
      accentedSend_formed trivial).1 beyond
  · intro settled
    exact beyond ((run_settled_iff quietLibrary_documented .sync accentedParams_typed
      accentedSend_formed).mp settled).2.1

end MailkubeSdk
