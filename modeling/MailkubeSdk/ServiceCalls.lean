import MailkubeSdk.Effect.Transducer
import MailkubeSdk.EventDump
import MailkubeSdk.SessionCalls
import MailkubeSdk.ShapeReport

/-
A session stands for the service.

A service is what it does with a call: its next state, and what it grants or
refuses.  On the wire it reads the call off a request, and its outcome is
spelled by a response.  A session over the wire has the results of one that
hands its calls to the service directly, and leaves the service in that state.
-/

namespace MailkubeSdk

open Python Effect Schema Url

/-! ### Outcomes of calls -/

/-- What a send is answered by. -/
structure Receipt where
  id : Str
  messageId : Option Str
  status : Option Str
  scheduledAt : Option Str
  batchId : Option Str

def optionalText (text : Option Str) : Value := (text.map Value.str).getD .none

def Receipt.body (receipt : Receipt) : Items Str Value :=
  [(str "id", .str receipt.id), (str "message_id", optionalText receipt.messageId),
    (str "status", optionalText receipt.status),
    (str "scheduled_at", optionalText receipt.scheduledAt),
    (str "batch_id", optionalText receipt.batchId)]

/-- The model of what a call is answered by; a send is answered by a receipt. -/
def ApiCall.model : ApiCall → Option Model
  | .send _ _ _ => none
  | .describeKey => some APIKey.model
  | .list _ => some ScheduledEmailPage.model
  | .get _ => some ScheduledEmail.model
  | .reschedule _ _ _ => some ScheduledEmail.model
  | .cancel _ => some CanceledScheduledEmail.model
  | .rescheduleBatch _ _ => some ScheduledEmailBatchUpdate.model
  | .cancelBatch _ => some ScheduledEmailBatchCancel.model

abbrev Reply : Option Model → Type
  | none => Receipt
  | some model => model.Instance

def Reply.value : (model : Option Model) → Reply model → Value
  | none, receipt => .dict (Receipt.body receipt)
  | some model, instance_ => model.shape.dump instance_

/-- An instance that a response can have. -/
def Reply.Genuine (lax : Lax) : (model : Option Model) → Reply model → Prop
  | none, _ => True
  | some model, instance_ => ∃ value, model.shape.validate lax value = .ok instance_

variable {platform : Platform}

/-- A reply, and the response that spells it. -/
structure Granted (platform : Platform) (model : Option Model) where
  reply : Reply model
  response : Response
  genuine : Reply.Genuine platform.lax model reply
  success : isOkStatus response.statusCode = true
  spelled : decodeJson platform.runtime response.content = .ok (Reply.value model reply)

/-- An error the service names and describes, and the response that spells it. -/
structure Refused (platform : Platform) where
  name : Str
  message : Str
  body : Items Str Value
  response : Response
  named : body.get (str "name") = some (.str name)
  described : body.get (str "message") = some (.str message)
  failure : isOkStatus response.statusCode = false
  spelled : decodeJson platform.runtime response.content = .ok (.dict body)

abbrev Outcome (platform : Platform) (call : ApiCall) : Type :=
  Except (Refused platform) (Granted platform call.model)

def Outcome.response {call : ApiCall} : Outcome platform call → Response
  | .ok granted => granted.response
  | .error refused => refused.response

/-- The exception a refusal is shown as. -/
def Refused.exn (refused : Refused platform) : Exn :=
  .apiError
    { cls := exceptionClass refused.response.statusCode
      errorName := refused.name
      message := refused.message
      statusCode := refused.response.statusCode
      body := .dict refused.body
      retryAfter := parseRetryAfter platform.runtime
        (header platform.runtime refused.response.headers (str "retry-after"))
      requestId := header platform.runtime refused.response.headers (str "x-request-id") }

/-- The email a receipt is shown as. -/
def Granted.email (granted : Granted platform none) : Email :=
  { id := granted.reply.id
    messageId := granted.reply.messageId
    status := granted.reply.status
    scheduledAt := granted.reply.scheduledAt
    batchId := granted.reply.batchId
    idempotentReplayed := platform.runtime.lower
      ((header platform.runtime granted.response.headers (str "idempotent-replayed")).getD []) ==
        str "true"
    requestId := header platform.runtime granted.response.headers (str "x-request-id")
    headers := granted.response.headers }

/-- What a caller is shown of a reply. -/
def Verb.shown : (verb : Verb) → Granted platform verb.meaning.model → verb.Result
  | .emailsSend _, granted => granted.email
  | .credentialInfo, granted => granted.reply
  | .scheduledEmailsList _, granted => granted.reply
  | .scheduledEmailsGet _, granted => granted.reply
  | .scheduledEmailsUpdate _ _, granted => granted.reply
  | .scheduledEmailsCancel _, granted => granted.reply
  | .batchesUpdate _ _, granted => granted.reply
  | .batchesCancel _, granted => granted.reply

/-! ### A service -/

structure Service (platform : Platform) (State : Type) where
  start : State
  /-- What becomes of a call under a key. -/
  handle : State → Str → (call : ApiCall) → State × Outcome platform call
  /-- What becomes of a request that is no call, as one for the next page of a listing. -/
  other : State → HttpRequest → State × Response

namespace Service

variable {State : Type} (service : Service platform State) (directory : Str)

def absorb (state : State) (request : HttpRequest) : State :=
  match receive platform.runtime directory request with
  | some (key, call) => (service.handle state key call).1
  | none => (service.other state request).1

def respond (state : State) (request : HttpRequest) : Response :=
  match receive platform.runtime directory request with
  | some (key, call) => (service.handle state key call).2.response
  | none => (service.other state request).2

/-- The requests that were answered, and so reached the service. -/
def delivered (events : Trace) : List HttpRequest :=
  (exchanges events).filterMap fun exchange =>
    match exchange.2 with
    | .response _ => some exchange.1
    | _ => none

def stateAfter (events : Trace) : State :=
  (delivered events).foldl (service.absorb directory) service.start

end Service

/-! ### The HTTP library before a service -/

/-- What the HTTP library fails with. -/
inductive Failure where
  | httpError (message : Str)
  | invalidUrl (message : Str)
  | other (exception : Builtin)

namespace Failure

def outcome : Failure → HttpOutcome
  | .httpError message => .httpError message
  | .invalidUrl message => .invalidUrl message
  | .other exception => .other exception

/-- The exception a failure is shown as. -/
def exn : Failure → Exn
  | .httpError message => .mailkubeConnectionError message
  | .invalidUrl message => .mailkubeConnectionError message
  | .other exception => .builtin exception

theorem answered_outcome (failure : Failure) : answered failure.outcome = .error failure.exn := by
  cases failure <;> rfl

end Failure

/-- Operations with well-typed arguments and identifiers that are kept. -/
def Operation.Proper : Operation → Prop
  | .call verb => verb.WellTyped ∧ verb.NamesPlainly
  | .close => True

/-- The calls that the HTTP library itself fails, while it is open and when it is closed. -/
abbrev Refusal := Bool → Verb → Option Failure

/-- The HTTP library stands before a service: it fails the proper calls it refuses, and hands
the request of any other to the service, whose response it returns. -/
structure HttpLibrary.Fronts {State : Type} (http : HttpLibrary) (service : Service platform State)
    (directory : Str) (client : BaseClient) (refusal : Refusal) : Prop where
  refuses : ∀ isOpen past verb request failure, Operation.Proper (.call verb) →
    verb.issued platform client = .ok request → refusal isOpen verb = some failure →
      http isOpen past request = failure.outcome
  delivers : ∀ isOpen past verb request, Operation.Proper (.call verb) →
    verb.issued platform client = .ok request → refusal isOpen verb = none →
      http isOpen past request =
        .response (service.respond directory (service.stateAfter directory past) request)

/-! ### Sessions with a service -/

/-- The result of an operation, if it is a call. -/
abbrev Shown : Type := Option (Σ verb : Verb, Except Exn verb.Result)

/-- A session over the wire. -/
def wired (platform : Platform) (http : HttpLibrary) (flavour : Flavour) :
    Transducer Operation Shown where
  State := Session
  step session operation :=
    (session.step platform http flavour operation,
      match operation with
      | .call verb => some ⟨verb, (session.run platform http flavour verb).result⟩
      | .close => none)

/-- A client whose service is at hand. -/
structure Direct (State : Type) where
  ownsHttp : Bool
  httpOpen : Bool
  state : State

namespace Direct

variable {State : Type} (service : Service platform State) (client : BaseClient)
  (refusal : Refusal)

def outcome (direct : Direct State) (verb : Verb) : Except Exn verb.Result :=
  match (service.handle direct.state client.apiKey verb.meaning).2 with
  | .ok granted => .ok (verb.shown granted)
  | .error refused => .error refused.exn

/-- A call that can be written, and that the HTTP library does not refuse, is handed on;
any other raises, and the service never hears of it. -/
def call (direct : Direct State) (verb : Verb) : Direct State × Except Exn verb.Result :=
  match verb.unspelled with
  | some exception => (direct, .error (.builtin exception))
  | none =>
      match refusal direct.httpOpen verb with
      | some failure => (direct, .error failure.exn)
      | none =>
          ({ direct with state := (service.handle direct.state client.apiKey verb.meaning).1 },
            direct.outcome service client verb)

def step (direct : Direct State) : Operation → Direct State × Shown
  | .call verb =>
      let (next, result) := direct.call service client refusal verb
      (next, some ⟨verb, result⟩)
  | .close => (if direct.ownsHttp then { direct with httpOpen := false } else direct, none)

end Direct

/-- A session that hands its calls to the service. -/
def direct {State : Type} (service : Service platform State) (client : BaseClient)
    (refusal : Refusal) : Transducer Operation Shown where
  State := Direct State
  step := Direct.step service client refusal

/-! ### Responses are shown as what they spell -/

section Responses

variable {model : Model}

theorem optionalText_read {body : Items Str Value} {key : String} {text : Option Str}
    (found : body.get (str key) = some (optionalText text)) :
    optionalStr platform.runtime body key = .ok text := by
  unfold optionalStr
  rw [found]
  cases text <;> rfl

theorem processResponse_granted (granted : Granted platform none) :
    processResponse platform granted.response = .ok granted.email := by
  have passed := okBody_accepts platform granted.success granted.spelled
  have id : (Receipt.body granted.reply).get (str "id") = some (.str granted.reply.id) := rfl
  have messageId := @optionalText_read platform (Receipt.body granted.reply) "message_id" _ rfl
  have status := @optionalText_read platform (Receipt.body granted.reply) "status" _ rfl
  have scheduledAt := @optionalText_read platform (Receipt.body granted.reply) "scheduled_at" _ rfl
  have batchId := @optionalText_read platform (Receipt.body granted.reply) "batch_id" _ rfl
  unfold processResponse
  rw [passed]
  simp only [bind, Except.bind, Reply.value, id, messageId, status, scheduledAt, batchId]
  rfl

theorem processModel_granted (listed : model ∈ responseModels)
    (granted : Granted platform (some model)) :
    processModel platform model granted.response = .ok granted.reply := by
  obtain ⟨value, valid⟩ := granted.genuine
  apply (processModel_eq_ok_iff granted.spelled).mpr
  exact ⟨granted.success, dump_object model listed granted.reply,
    model.shape.validate_dump platform.lax (responseModels_frozen model listed).1 value _ valid⟩

theorem parse_granted (verb : Verb) (granted : Granted platform verb.meaning.model) :
    verb.parse platform granted.response = .ok (verb.shown granted) := by
  have listed : ∀ model, verb.model = some model → model ∈ responseModels :=
    fun _ reads => Verb.model_mem reads
  cases verb with
  | emailsSend params => exact processResponse_granted granted
  | _ => exact processModel_granted (listed _ rfl) granted

theorem okBody_refused (refused : Refused platform) :
    okBody platform refused.response = .error refused.exn := by
  have name : envelopeText platform.runtime (.dict refused.body) "name" = .ok refused.name := by
    unfold envelopeText
    dsimp only
    rw [refused.named]
    rfl
  have message : envelopeText platform.runtime (.dict refused.body) "message" =
      .ok refused.message := by
    unfold envelopeText
    dsimp only
    rw [refused.described]
    rfl
  rw [okBody_raises platform refused.failure refused.spelled]
  unfold raisedFor raiseForResponse
  rw [name, message]
  rfl

theorem parse_refused (verb : Verb) (refused : Refused platform) :
    verb.parse platform refused.response = .error refused.exn := by
  have raised := okBody_refused refused
  cases verb with
  | emailsSend params => exact processResponse_of_okBody platform raised
  | _ => exact processModel_of_okBody platform _ raised

end Responses

/-! ### The simulation -/

namespace Service

variable {State : Type} (service : Service platform State) (directory : Str)

theorem delivered_append (first second : Trace) :
    delivered (first ++ second) = delivered first ++ delivered second := by
  unfold delivered
  rw [exchanges_append, List.filterMap_append]

theorem stateAfter_append (first second : Trace) :
    service.stateAfter directory (first ++ second) =
      (delivered second).foldl (service.absorb directory)
        (service.stateAfter directory first) := by
  unfold stateAfter
  rw [delivered_append, List.foldl_append]

theorem delivered_conversation (runtime : Runtime) (request : HttpRequest) (answer : HttpOutcome) :
    delivered (conversation runtime (request, answer)) =
      match answer with
      | .response _ => [request]
      | _ => [] := by
  unfold delivered
  rw [exchanges_conversation]
  cases answer <;> rfl

/-- The record of a request is no request to the service. -/
theorem stateAfter_noted (past : Trace) (record : LogRecord) :
    service.stateAfter directory (past ++ [.noted record]) = service.stateAfter directory past := by
  rw [stateAfter_append]
  rfl

end Service

section Simulation

variable {State : Type} {service : Service platform State} {client : BaseClient} {base : PathUrl}
  {refusal : Refusal} {http : HttpLibrary} {flavour : Flavour}

/-- What the library answers to the request of a call, once that is recorded. -/
theorem HttpLibrary.Fronts.answer {directory : Str}
    (fronts : http.Fronts service directory client refusal) {verb : Verb} {request : HttpRequest}
    (proper : Operation.Proper (.call verb)) (issued : verb.issued platform client = .ok request)
    (isOpen : Bool) (past : Trace) :
    answerTo platform (http isOpen) past request =
      match refusal isOpen verb with
      | some failure => failure.outcome
      | none => .response (service.respond directory (service.stateAfter directory past) request) :=
    by
  unfold answerTo
  cases refused : refusal isOpen verb with
  | some failure => exact fronts.refuses isOpen _ verb request failure proper issued refused
  | none =>
      rw [fronts.delivers isOpen _ verb request proper issued refused, Service.stateAfter_noted]

/-- A session and a client at hand stand alike. -/
structure StandAlike (service : Service platform State) (directory : Str) (client : BaseClient)
    (session : Session) (direct : Direct State) : Prop where
  client : session.client = client
  ownsHttp : session.ownsHttp = direct.ownsHttp
  httpOpen : session.httpOpen = direct.httpOpen
  state : service.stateAfter directory session.events = direct.state

theorem close_simulates {directory : Str} {session : Session} {direct : Direct State}
    (alike : StandAlike service directory client session direct) :
    StandAlike service directory client session.close
      (direct.step service client refusal .close).1 := by
  unfold Session.close Direct.step
  dsimp only
  rw [alike.ownsHttp]
  cases owned : direct.ownsHttp with
  | true =>
      rw [if_pos rfl, if_pos rfl]
      exact ⟨alike.client, rfl, rfl, alike.state⟩
  | false => exact alike

/-- A call that cannot be written raises before there is a request. -/
theorem issued_unspelled {verb : Verb} {exception : Builtin} (typed : verb.WellTyped)
    (unspelled : verb.unspelled = some exception) :
    verb.issued platform client = .error (.builtin exception) := by
  unfold Verb.issued
  rw [built_unspelled platform.runtime typed unspelled]
  rfl

variable (configured : client.baseUrl = base.text)
  (accepted : acceptsNetloc platform.runtime.hosts base.authority = true)

include configured accepted

theorem absorb_issued {verb : Verb} (proper : Operation.Proper (.call verb))
    {request : HttpRequest} (issued : verb.issued platform client = .ok request) (state : State) :
    service.absorb (directoryText base) state request =
      (service.handle state client.apiKey verb.meaning).1 := by
  unfold Service.absorb
  rw [receive_issued configured accepted proper.1 proper.2 issued]

/-- The response to it is shown as what the service makes of the call. -/
theorem parse_respond {verb : Verb} (proper : Operation.Proper (.call verb))
    {request : HttpRequest} (issued : verb.issued platform client = .ok request)
    (direct : Direct State) :
    verb.parse platform (service.respond (directoryText base) direct.state request) =
      direct.outcome service client verb := by
  unfold Service.respond Direct.outcome
  rw [receive_issued configured accepted proper.1 proper.2 issued]
  dsimp only
  cases outcome : (service.handle direct.state client.apiKey verb.meaning).2 with
  | ok granted => exact parse_granted verb granted
  | error refused => exact parse_refused verb refused

theorem call_simulates (fronts : http.Fronts service (directoryText base) client refusal)
    {verb : Verb} (proper : Operation.Proper (.call verb)) {session : Session}
    {direct : Direct State}
    (alike : StandAlike service (directoryText base) client session direct) :
    StandAlike service (directoryText base) client
        (session.step platform http flavour (.call verb))
        (direct.call service client refusal verb).1 ∧
      (session.run platform http flavour verb).result =
        (direct.call service client refusal verb).2 := by
  obtain ⟨rfl, owns, isOpen, state⟩ := alike
  have moved : ∀ {events : Trace} {direct' : Direct State},
      (session.run platform http flavour verb).events = events →
        direct'.ownsHttp = direct.ownsHttp → direct'.httpOpen = direct.httpOpen →
      (Service.delivered events).foldl (service.absorb (directoryText base)) direct.state =
        direct'.state →
      StandAlike service (directoryText base) session.client
        (session.step platform http flavour (.call verb)) direct' := by
    intro events direct' ran sameOwns sameOpen sameState
    refine ⟨rfl, owns.trans sameOwns.symm, isOpen.trans sameOpen.symm, ?_⟩
    change service.stateAfter _ (session.events ++ _) = _
    rw [Service.stateAfter_append, state, ran, sameState]
  unfold Direct.call
  cases unspelled : verb.unspelled with
  | some exception =>
      have ran := verb_run_refused platform session.client
        (issued_unspelled proper.1 unspelled) flavour (http session.httpOpen) session.events
      exact ⟨moved (congrArg Run.events ran) rfl rfl rfl, congrArg Run.result ran⟩
  | none =>
      obtain ⟨request, issued⟩ := (issued_iff_spellable configured accepted proper.1 proper.2).mpr
        (spellable_of_unspelled unspelled)
      have ran : session.run platform http flavour verb = _ :=
        verb_run_issued platform session.client issued flavour (http session.httpOpen)
          session.events
      rw [fronts.answer proper issued, state, isOpen] at ran
      dsimp only
      cases refused : refusal direct.httpOpen verb with
      | some failure =>
          rw [refused] at ran
          refine ⟨moved (congrArg Run.events ran) rfl rfl ?_, (congrArg Run.result ran).trans ?_⟩
          · rw [Service.delivered_conversation]
            cases failure <;> rfl
          · dsimp only
            rw [failure.answered_outcome]
            rfl
      | none =>
          rw [refused] at ran
          refine ⟨moved (congrArg Run.events ran) rfl rfl ?_, (congrArg Run.result ran).trans ?_⟩
          · rw [Service.delivered_conversation]
            exact absorb_issued configured accepted proper issued direct.state
          · exact parse_respond configured accepted proper issued direct

theorem session_simulates (fronts : http.Fronts service (directoryText base) client refusal)
    (flavour : Flavour) :
    Transducer.Simulates (wired platform http flavour) (direct service client refusal)
      Operation.Proper (StandAlike service (directoryText base) client) := by
  intro session direct operation proper alike
  cases operation with
  | call verb =>
      obtain ⟨next, same⟩ := call_simulates configured accepted fronts proper alike
      have shown := congrArg (fun result => (some ⟨verb, result⟩ : Shown)) same
      exact ⟨next, shown⟩
  | close => exact ⟨@close_simulates _ _ service client refusal _ _ _ alike, rfl⟩

end Simulation

def canceled : Granted Platform.plain (some CanceledScheduledEmail.model) where
  reply := ((str "em/1", str "scheduled_email", str "canceled", ()), [])
  response :=
    ⟨200, asciiBytes
      "\x7b\"id\":\"em/1\",\"object\":\"scheduled_email\",\"status\":\"canceled\"\x7d", []⟩
  genuine := ⟨.dict [(str "id", .str (str "em/1"))], rfl⟩
  success := rfl
  spelled := eq_ok_of_toOption (by decide +kernel)

def busyItems : Items Str Value :=
  [(str "name", .str (str "busy")), (str "message", .str (str "later"))]

def busy : Refused Platform.plain where
  name := str "busy"
  message := str "later"
  body := busyItems
  response := ⟨429, asciiBytes "\x7b\"name\":\"busy\",\"message\":\"later\"\x7d", []⟩
  named := rfl
  described := rfl
  failure := rfl
  spelled := eq_ok_of_toOption (by decide +kernel)

/-- It keeps the calls it has had, and is too busy for any but a cancellation. -/
def cancelingService : Service Platform.plain (List ApiCall) where
  start := []
  handle calls _ call :=
    (calls ++ [call],
      match call with
      | .cancel _ => .ok canceled
      | _ => .error busy)
  other calls _ := (calls, busy.response)

/-! ### A library that encodes what it sends -/

section Gates

variable {State : Type} (service : Service platform State) (directory : Str)
  (gate : Bool → HttpRequest → Option Failure)

/-- The library that fails the requests its gate stops, before a service. -/
def Service.behind : HttpLibrary := fun isOpen past request =>
  match gate isOpen request with
  | some failure => failure.outcome
  | none => .response (service.respond directory (service.stateAfter directory past) request)

/-- The calls whose requests a gate stops. -/
def stopped (platform : Platform) (client : BaseClient) : Refusal := fun isOpen verb =>
  (verb.issued platform client).toOption.bind (gate isOpen)

theorem stopped_of_issued {client : BaseClient} {verb : Verb} {request : HttpRequest}
    (issued : verb.issued platform client = .ok request) (isOpen : Bool) :
    stopped gate platform client isOpen verb = gate isOpen request := by
  unfold stopped
  rw [issued]
  rfl

theorem behind_fronts (client : BaseClient) :
    (service.behind directory gate).Fronts service directory client
      (stopped gate platform client) where
  refuses isOpen past verb request failure _ issued refused := by
    rw [stopped_of_issued gate issued] at refused
    unfold Service.behind
    rw [refused]
  delivers isOpen past verb request _ issued refused := by
    rw [stopped_of_issued gate issued] at refused
    unfold Service.behind
    rw [refused]

end Gates

mutual

/-- The texts of a value, and the names of its members. -/
def textsOf : Value → List Str
  | .str text => [text]
  | .list elements => textsOfElements elements
  | .dict items => textsOfItems items
  | _ => []

def textsOfElements : List Value → List Str
  | [] => []
  | element :: rest => textsOf element ++ textsOfElements rest

def textsOfItems : List (Str × Value) → List Str
  | [] => []
  | (name, value) :: rest => name :: textsOf value ++ textsOfItems rest

end

/-- The texts of a request that are encoded in UTF-8. -/
def requestTexts (request : HttpRequest) : List Str :=
  request.url :: (request.params.getD []).flatMap (fun item => [item.1, item.2]) ++
    textsOfItems (request.json.getD [])

/-- A request is encoded first, its headers in ASCII and the rest in UTF-8, and a closed
client refuses. -/
def encodingGate (isOpen : Bool) (request : HttpRequest) : Option Failure :=
  if headersEncode request = false ∨ ∃ text ∈ requestTexts request, Utf8.encode text = none then
    some (.other .unicodeEncodeError)
  else if isOpen then none
  else some (.other .runtimeError)

/-- A message whose subject is a lone surrogate. -/
def surrogateParams : Items Str Value :=
  [(str "from_", .str (str "a@example.com")), (str "to", .str (str "b@example.com")),
    (str "subject", .str [Utf8.codePoint 0xD800])]

/-- A reminder is canceled, a message that cannot be encoded is sent, the key is asked for,
and the client closed. -/
def cancelingOperations : List Operation :=
  [.call (.scheduledEmailsCancel (str "em/1")), .call (.emailsSend surrogateParams),
    .call .credentialInfo, .close, .call .credentialInfo]

end MailkubeSdk
