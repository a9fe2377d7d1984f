import MailkubeSdk.Lifecycle
import MailkubeSdk.PageWalk

/-
What a session sends, and what it logs of it.

A call sends the one request its arguments and the configuration determine, or
none, whatever was answered before.  A trace is accountable when it is nothing
but its exchanges, each one between its two records: the log is then read off
the traffic, and the traffic off the log up to what is masked.
-/

namespace MailkubeSdk

open Python Effect

/-- An exchange in a trace: the record of the request, the exchange, and the record of
the response if there is one. -/
def conversation (runtime : Runtime) (exchange : HttpRequest × HttpOutcome) : Trace :=
  .noted (logRequest runtime exchange.1.method exchange.1.url exchange.1.headers) ::
    .exchanged exchange.1 exchange.2 ::
      answerTrace runtime exchange.1.method exchange.1.url exchange.2

/-- A trace that is nothing but its exchanges. -/
def Accountable (runtime : Runtime) (events : Trace) : Prop :=
  events = (exchanges events).flatMap (conversation runtime)

section Accountable

variable {runtime : Runtime}

theorem exchanges_conversation (exchange : HttpRequest × HttpOutcome) :
    exchanges (conversation runtime exchange) = [exchange] := by
  obtain ⟨request, answer⟩ := exchange
  cases answer with
  | response response => rfl
  | httpError message => rfl
  | invalidUrl message => rfl
  | other exception => rfl

theorem accountable_nil : Accountable runtime [] := rfl

theorem accountable_conversation (exchange : HttpRequest × HttpOutcome) :
    Accountable runtime (conversation runtime exchange) := by
  unfold Accountable
  rw [exchanges_conversation, List.flatMap_cons, List.flatMap_nil, List.append_nil]

theorem accountable_roundTrip (platform : Platform) (spec : RequestSpec) (url : Str)
    (headers : Items Str Str) (answer : HttpOutcome) :
    Accountable platform.runtime (roundTrip platform spec url headers answer) :=
  accountable_conversation (httpRequest spec url headers, answer)

theorem Accountable.append {first second : Trace} (front : Accountable runtime first)
    (back : Accountable runtime second) : Accountable runtime (first ++ second) := by
  unfold Accountable
  rw [exchanges_append, List.flatMap_append, ← front, ← back]

end Accountable

/-! ### Calls -/

/-- The request of a call, or what the call raises before there is one. -/
def Verb.issued (platform : Platform) (client : BaseClient) (verb : Verb) :
    Except Exn HttpRequest :=
  liftBuiltin (verb.built platform.runtime) >>= issue platform client

/-- What an operation on a client sends. -/
def Operation.sends (platform : Platform) (client : BaseClient) : Operation → Option HttpRequest
  | .call verb => (verb.issued platform client).toOption
  | .close => none

variable (platform : Platform) (client : BaseClient)

theorem verb_run_refused {verb : Verb} {exn : Exn}
    (refused : verb.issued platform client = .error exn) (flavour : Flavour) (server : Server)
    (past : Trace) :
    (call platform client flavour verb).run server past = ⟨[], .error exn⟩ := by
  rw [verb_run]
  unfold Verb.issued issue at refused
  cases built : verb.built platform.runtime with
  | error exception =>
      rw [built] at refused
      cases refused
      rfl
  | ok spec =>
      rw [built] at refused
      rw [builtRun_ok]
      cases prepared : client.prepare platform spec with
      | error other =>
          simp only [liftBuiltin_ok, bind, Except.bind, prepared, Except.error.injEq] at refused
          rw [tripRun_refused platform client prepared, refused]
      | ok pair =>
          simp only [liftBuiltin_ok, bind, Except.bind, prepared, reduceCtorEq] at refused

/-- What a server answers to a request that has just been recorded. -/
def answerTo (server : Server) (past : Trace) (request : HttpRequest) : HttpOutcome :=
  server (past ++ [.noted (logRequest platform.runtime request.method request.url
    request.headers)]) request

/-- A call whose request there is has one exchange, and its outcome is read off the answer. -/
theorem verb_run_issued {verb : Verb} {request : HttpRequest}
    (issued : verb.issued platform client = .ok request) (flavour : Flavour) (server : Server)
    (past : Trace) :
    (call platform client flavour verb).run server past =
      ⟨conversation platform.runtime (request, answerTo platform server past request),
        answered (answerTo platform server past request) >>= verb.parse platform⟩ := by
  rw [verb_run]
  obtain ⟨spec, lifted, made⟩ := bind_eq_ok_iff.mp issued
  obtain ⟨⟨url, headers⟩, prepared, same⟩ := bind_eq_ok_iff.mp made
  cases same
  rw [liftBuiltin_eq_ok_iff.mp lifted, builtRun_ok, tripRun_prepared platform client prepared]
  rfl

/-- What a call exchanges does not depend on the past. -/
theorem verb_events (flavour : Flavour) (verb : Verb) (server : Server) (past : Trace) :
    let events := ((call platform client flavour verb).run server past).events
    queries events = (verb.issued platform client).toOption.toList ∧
      Accountable platform.runtime events := by
  cases issued : verb.issued platform client with
  | error exn =>
      rw [verb_run_refused platform client issued]
      exact ⟨rfl, accountable_nil⟩
  | ok request =>
      rw [verb_run_issued platform client issued flavour server past]
      constructor
      · rw [queries_eq_exchanges, exchanges_conversation]
        rfl
      · exact accountable_conversation _

/-! ### Sessions and walks -/

theorem sends_call (verb : Verb) (rest : List Operation) :
    (Operation.call verb :: rest).filterMap (Operation.sends platform client) =
      (verb.issued platform client).toOption.toList ++
        rest.filterMap (Operation.sends platform client) := by
  have here : Operation.sends platform client (.call verb) =
      (verb.issued platform client).toOption := rfl
  rw [List.filterMap_cons, here]
  cases verb.issued platform client with
  | error exn => rfl
  | ok request => rfl

variable (http : HttpLibrary) (flavour : Flavour)

theorem after_traffic (session : Session) (operations : List Operation)
    (before : Accountable platform.runtime session.events) :
    let events := (session.after platform http flavour operations).events
    queries events =
        queries session.events ++ operations.filterMap (Operation.sends platform session.client) ∧
      Accountable platform.runtime events := by
  induction operations generalizing session with
  | nil => exact ⟨(List.append_nil _).symm, before⟩
  | cons operation rest ih =>
      cases operation with
      | call verb =>
          obtain ⟨sent, accountable⟩ := verb_events platform session.client flavour verb
            (http session.httpOpen) session.events
          obtain ⟨later, whole⟩ := ih (session.step platform http flavour (.call verb))
            (before.append accountable)
          refine ⟨later.trans ?_, whole⟩
          have here : queries (session.step platform http flavour (.call verb)).events =
              queries session.events ++ (verb.issued platform session.client).toOption.toList := by
            rw [← sent]
            exact queries_append _ _
          rw [here, sends_call, List.append_assoc]
          rfl
      | close =>
          have untouched : session.close.events = session.events ∧
              session.close.client = session.client := by
            unfold Session.close
            split <;> exact ⟨rfl, rfl⟩
          have later := ih session.close (by rw [untouched.1]; exact before)
          rw [untouched.1, untouched.2] at later
          exact later

theorem walk_accountable (params : Items Str Value) (server : Server) (steps : Nat) :
    Accountable platform.runtime (walk platform client flavour params server steps).events := by
  refine @walk_invariant platform client
    (fun walk => Accountable platform.runtime walk.events) params server accountable_nil ?_ flavour
      steps
  intro before after accountable moves
  have trip : ∀ {spec : RequestSpec}, Fetches platform client server before spec after →
      Accountable platform.runtime after.events := by
    intro spec fetches
    cases fetches with
    | refused unprepared => exact accountable
    | failed prepared result => exact accountable.append (accountable_roundTrip platform _ _ _ _)
    | fetched prepared result => exact accountable.append (accountable_roundTrip platform _ _ _ _)
  cases moves with
  | still ended => exact accountable
  | unlisted atEntry unbuilt => exact accountable
  | listed atEntry built fetches => exact trip fetches
  | item inside => exact accountable
  | last atEnd none => exact accountable
  | next atEnd more fetches => exact trip fetches

/-- A session sends the requests of its calls, each once and in order, whatever is answered,
and its trace is nothing but its exchanges; so is the trace of a walk. -/
theorem traffic_transcribed {environ : Items Str Str}
    {apiKey baseUrl userAgentSuffix : Option Str} {httpClient : Option Bool} {session : Session}
    (made : Session.init environ apiKey baseUrl userAgentSuffix httpClient = .ok session) :
    (∀ operations,
      let events := (session.after platform http flavour operations).events
      queries events = operations.filterMap (Operation.sends platform session.client) ∧
        Accountable platform.runtime events) ∧
    ∀ params server steps,
      Accountable platform.runtime
        (walk platform session.client flavour params server steps).events := by
  obtain ⟨made, _, same⟩ := bind_eq_ok_iff.mp made
  cases same
  exact ⟨fun operations => after_traffic platform http flavour _ operations accountable_nil,
    walk_accountable platform _ flavour⟩

theorem traffic_transcribed_sample :
    queries (defaultSession.after Platform.plain quietLibrary .async
        [.call .credentialInfo, .close, .call .credentialInfo]).events =
      [.call .credentialInfo, .close, .call .credentialInfo].filterMap
        (Operation.sends Platform.plain defaultClient) :=
  ((@traffic_transcribed Platform.plain quietLibrary .async [] (some (str "mk_key")) none none none
    defaultSession rfl).1 [.call .credentialInfo, .close, .call .credentialInfo]).1

end MailkubeSdk
