import MailkubeSdk.Flavours

/-
Runs of one round trip.

A round trip prepares the request, leaves a record, asks the HTTP library once
and leaves a second record if there is a response.  What a verb makes of the
answer adds no event.
-/

namespace MailkubeSdk

open Python Effect

/-- What the answer of the HTTP library is to the package. -/
def answered : HttpOutcome → Except Exn Response
  | .response response => .ok response
  | .httpError message => .error (.mailkubeConnectionError message)
  | .invalidUrl message => .error (.mailkubeConnectionError message)
  | .other exception => .error (.builtin exception)

theorem answered_eq_ok {answer : HttpOutcome} {response : Response}
    (given : answered answer = .ok response) : answer = .response response := by
  cases answer with
  | response other =>
      cases given
      rfl
  | _ => cases given

/-- The record a response leaves. -/
def answerTrace (runtime : Runtime) (method url : Str) : HttpOutcome → Trace
  | .response response =>
      [.noted (logResponse runtime method url response.statusCode response.headers)]
  | _ => []

variable (platform : Platform) (client : BaseClient)

/-- The events of a round trip, given what was sent and answered. -/
def roundTrip (spec : RequestSpec) (url : Str) (headers : Items Str Str) (answer : HttpOutcome) :
    Trace :=
  .noted (logRequest platform.runtime spec.method url headers) ::
    .exchanged (httpRequest spec url headers) answer ::
      answerTrace platform.runtime spec.method url answer

theorem queries_roundTrip (spec : RequestSpec) (url : Str) (headers : Items Str Str)
    (answer : HttpOutcome) :
    queries (roundTrip platform spec url headers answer) = [httpRequest spec url headers] := by
  cases answer <;> rfl

theorem notes_roundTrip (spec : RequestSpec) (url : Str) (headers : Items Str Str)
    (answer : HttpOutcome) :
    notes (roundTrip platform spec url headers answer) =
      logRequest platform.runtime spec.method url headers ::
        notes (answerTrace platform.runtime spec.method url answer) := rfl

theorem answers_roundTrip (spec : RequestSpec) (url : Str) (headers : Items Str Str)
    (answer : HttpOutcome) : answers (roundTrip platform spec url headers answer) = [answer] := by
  cases answer <;> rfl

/-- What the server answers to a round trip. -/
def answerOf (server : Server) (past : Trace) (spec : RequestSpec) (url : Str)
    (headers : Items Str Str) : HttpOutcome :=
  server (past ++ [.noted (logRequest platform.runtime spec.method url headers)])
    (httpRequest spec url headers)

/-- The run of a round trip whose response is read by `parse`. -/
def tripRun {α : Type} (server : Server) (past : Trace) (spec : RequestSpec)
    (parse : Response → Except Exn α) : Run HttpRequest HttpOutcome LogRecord Exn α :=
  match client.prepare platform spec with
  | .error exn => ⟨[], .error exn⟩
  | .ok (url, headers) =>
      ⟨roundTrip platform spec url headers (answerOf platform server past spec url headers),
        answered (answerOf platform server past spec url headers) >>= parse⟩

theorem tripRun_refused {α : Type} {spec : RequestSpec} {exn : Exn}
    (refused : client.prepare platform spec = .error exn) (server : Server) (past : Trace)
    (parse : Response → Except Exn α) :
    tripRun platform client server past spec parse = ⟨[], .error exn⟩ := by
  unfold tripRun
  rw [refused]

theorem tripRun_prepared {α : Type} {spec : RequestSpec} {url : Str} {headers : Items Str Str}
    (prepared : client.prepare platform spec = .ok (url, headers)) (server : Server) (past : Trace)
    (parse : Response → Except Exn α) :
    tripRun platform client server past spec parse =
      ⟨roundTrip platform spec url headers (answerOf platform server past spec url headers),
        answered (answerOf platform server past spec url headers) >>= parse⟩ := by
  unfold tripRun
  rw [prepared]

theorem raw_run {α : Type} (server : Server) (past : Trace) (spec : RequestSpec)
    (parse : Response → Except Exn α) :
    ((Mailkube.raw platform client spec).bind fun response =>
      Program.ofExcept (parse response)).run server past =
        tripRun platform client server past spec parse := by
  unfold Mailkube.raw tripRun
  cases client.prepare platform spec with
  | error exn => rfl
  | ok prepared =>
      obtain ⟨url, headers⟩ := prepared
      have answer : ∃ answer, answerOf platform server past spec url headers = answer := ⟨_, rfl⟩
      obtain ⟨answer, found⟩ := answer
      simp only [Program.ofExcept, Program.bind, Program.run_note, Program.run_ask]
      simp only [found, roundTrip]
      unfold answerOf at found
      rw [found]
      cases answer with
      | response response =>
          have read : answered (.response response) >>= parse = parse response := rfl
          simp only [Program.bind, Program.run_note, read]
          cases parse response <;> rfl
      | httpError message => rfl
      | invalidUrl message => rfl
      | other exception => rfl

theorem request_run (server : Server) (past : Trace) (spec : RequestSpec) (model : Model) :
    (Mailkube.request platform client spec model).run server past =
      tripRun platform client server past spec (processModel platform model) :=
  raw_run platform client server past spec (processModel platform model)

/-- The run of a call whose specification is built first. -/
def builtRun {α : Type} (server : Server) (past : Trace) (built : Except Builtin RequestSpec)
    (parse : Response → Except Exn α) : Run HttpRequest HttpOutcome LogRecord Exn α :=
  match built with
  | .error exception => ⟨[], .error (.builtin exception)⟩
  | .ok spec => tripRun platform client server past spec parse

@[simp] theorem builtRun_error {α : Type} (server : Server) (past : Trace) (exception : Builtin)
    (parse : Response → Except Exn α) :
    builtRun platform client server past (.error exception) parse =
      ⟨[], .error (.builtin exception)⟩ := rfl

@[simp] theorem builtRun_ok {α : Type} (server : Server) (past : Trace) (spec : RequestSpec)
    (parse : Response → Except Exn α) :
    builtRun platform client server past (.ok spec) parse =
      tripRun platform client server past spec parse := rfl

theorem withSpec_run {α : Type} (server : Server) (past : Trace)
    (built : Except Builtin RequestSpec) {next : RequestSpec → Sdk α}
    {parse : Response → Except Exn α}
    (each : ∀ spec, (next spec).run server past =
      tripRun platform client server past spec parse) :
    (withSpec built next).run server past = builtRun platform client server past built parse := by
  cases built with
  | error exception => rfl
  | ok spec => exact each spec

theorem sendEmail_run (server : Server) (past : Trace) (params : Items Str Value) :
    (Mailkube.sendEmail platform client params).run server past =
      builtRun platform client server past (buildSendBody platform.runtime params)
        (processResponse platform) :=
  withSpec_run platform client server past _
    (fun spec => raw_run platform client server past spec (processResponse platform))

/-! ### Verbs -/

/-- The request a verb builds. -/
def Verb.built (runtime : Runtime) : Verb → Except Builtin RequestSpec
  | .emailsSend params => buildSendBody runtime params
  | .credentialInfo => .ok infoSpec
  | .scheduledEmailsList params => listSpec runtime params
  | .scheduledEmailsGet emailId => getSpec emailId
  | .scheduledEmailsUpdate emailId params => updateSpec runtime emailId params
  | .scheduledEmailsCancel emailId => cancelSpec emailId
  | .batchesUpdate batchId params => batchUpdateSpec runtime batchId params
  | .batchesCancel batchId => batchCancelSpec batchId

/-- What a verb makes of its response. -/
def Verb.parse : (verb : Verb) → Response → Except Exn verb.Result
  | .emailsSend _ => processResponse platform
  | .credentialInfo => processModel platform APIKey.model
  | .scheduledEmailsList _ => processModel platform ScheduledEmailPage.model
  | .scheduledEmailsGet _ => processModel platform ScheduledEmail.model
  | .scheduledEmailsUpdate _ _ => processModel platform ScheduledEmail.model
  | .scheduledEmailsCancel _ => processModel platform CanceledScheduledEmail.model
  | .batchesUpdate _ _ => processModel platform ScheduledEmailBatchUpdate.model
  | .batchesCancel _ => processModel platform ScheduledEmailBatchCancel.model

/-- Every verb is one round trip of the request it builds. -/
theorem verb_run (flavour : Flavour) (verb : Verb) (server : Server) (past : Trace) :
    (call platform client flavour verb).run server past =
      builtRun platform client server past (verb.built platform.runtime) (verb.parse platform) := by
  rw [call_run]
  have requested : ∀ spec model, (Mailkube.request platform client spec model).run server past =
      tripRun platform client server past spec (processModel platform model) :=
    request_run platform client server past
  cases verb with
  | emailsSend params => exact sendEmail_run platform client server past params
  | credentialInfo => exact requested infoSpec APIKey.model
  | scheduledEmailsList params =>
      exact withSpec_run platform client server past _ (fun spec => requested spec _)
  | scheduledEmailsGet emailId =>
      exact withSpec_run platform client server past _ (fun spec => requested spec _)
  | scheduledEmailsUpdate emailId params =>
      exact withSpec_run platform client server past _ (fun spec => requested spec _)
  | scheduledEmailsCancel emailId =>
      exact withSpec_run platform client server past _ (fun spec => requested spec _)
  | batchesUpdate batchId params =>
      exact withSpec_run platform client server past _ (fun spec => requested spec _)
  | batchesCancel batchId =>
      exact withSpec_run platform client server past _ (fun spec => requested spec _)

theorem call_reaches {verb : Verb} {spec : RequestSpec} {url : Str}
    (built : verb.built platform.runtime = .ok spec)
    (joined : client.buildUrl platform spec.path = .ok url) (flavour : Flavour)
    (answer : HttpOutcome) (past : Trace) :
    ((call platform client flavour verb).run (fun _ _ => answer) past).events =
      roundTrip platform spec url ((client.defaultHeaders platform).update spec.headers)
        answer := by
  have prepared : client.prepare platform spec =
      .ok (url, (client.defaultHeaders platform).update spec.headers) := by
    unfold BaseClient.prepare
    rw [joined]
    rfl
  rw [verb_run, built, builtRun_ok, tripRun_prepared platform client prepared]
  rfl

/-! ### Steps of the walk over the pages -/

/-- Go on inside a page. -/
def intoPage (page : ScheduledEmailPage) : Signal IterAll ScheduledEmail :=
  .silent (.within page page.data)

theorem iterAll_run_entry (params : Items Str Value) (server : Server) (past : Trace) :
    (iterAll platform client .sync params .entry).run server past =
      let first := builtRun platform client server past (listSpec platform.runtime params)
        (processModel platform ScheduledEmailPage.model)
      ⟨first.events, first.result.map intoPage⟩ := by
  have listed := verb_run platform client .sync (.scheduledEmailsList params) server past
  have step : (iterAll platform client .sync params .entry).run server past =
      ((call platform client .sync (.scheduledEmailsList params)).bind
        (fun page => .done (intoPage page))).run server past := rfl
  rw [step, Program.run_bind_done, listed]
  rfl

theorem nextPageSpec_of_link {page : ScheduledEmailPage} {link : Str}
    (next : page.nextUrl = some link) :
    nextPageSpec page = some { path := link, method := str "GET" } := by
  unfold nextPageSpec
  rw [next]
  rfl

theorem nextPageSpec_of_none {page : ScheduledEmailPage} (last : page.nextUrl = none) :
    nextPageSpec page = none := by
  unfold nextPageSpec
  rw [last]
  rfl

theorem iterAll_run_last {page : ScheduledEmailPage} (last : nextPageSpec page = none)
    (params : Items Str Value) (server : Server) (past : Trace) :
    (iterAll platform client .sync params (.within page [])).run server past =
      ⟨[], .ok .finished⟩ := by
  unfold iterAll ScheduledEmailsResource.iterAll
  simp only [last, Program.run_done]

theorem iterAll_run_next {page : ScheduledEmailPage} {spec : RequestSpec}
    (more : nextPageSpec page = some spec) (params : Items Str Value) (server : Server)
    (past : Trace) :
    (iterAll platform client .sync params (.within page [])).run server past =
      let trip := tripRun platform client server past spec
        (processModel platform ScheduledEmailPage.model)
      ⟨trip.events, trip.result.map intoPage⟩ := by
  unfold iterAll ScheduledEmailsResource.iterAll
  simp only [more]
  have step := Program.run_bind_done server past
    (Mailkube.request platform client spec ScheduledEmailPage.model) intoPage
  rw [request_run] at step
  exact step

/-! ### The moves of a walk -/

section Moves

variable (server : Server)
  (before : Walk HttpRequest HttpOutcome LogRecord Exn IterAll ScheduledEmail)

/-- What a walk is after the round trip of a specification: it stops at a request that
cannot be prepared or an answer that is no page, or goes on at the start of the page. -/
inductive Fetches (spec : RequestSpec) :
    Walk HttpRequest HttpOutcome LogRecord Exn IterAll ScheduledEmail → Prop where
  | refused {exn : Exn} (unprepared : client.prepare platform spec = .error exn) :
      Fetches spec ⟨.raised exn, before.items, before.events⟩
  | failed {url : Str} {headers : Items Str Str} {exn : Exn}
      (prepared : client.prepare platform spec = .ok (url, headers))
      (result : answered (answerOf platform server before.events spec url headers) >>=
        processModel platform ScheduledEmailPage.model = .error exn) :
      Fetches spec ⟨.raised exn, before.items, before.events ++ roundTrip platform spec url
        headers (answerOf platform server before.events spec url headers)⟩
  | fetched {url : Str} {headers : Items Str Str} {page : ScheduledEmailPage}
      (prepared : client.prepare platform spec = .ok (url, headers))
      (result : answered (answerOf platform server before.events spec url headers) >>=
        processModel platform ScheduledEmailPage.model = .ok page) :
      Fetches spec ⟨.suspended (.within page page.data), before.items,
        before.events ++ roundTrip platform spec url headers
          (answerOf platform server before.events spec url headers)⟩

/-- What one step makes of a walk. -/
inductive Moves (params : Items Str Value) :
    Walk HttpRequest HttpOutcome LogRecord Exn IterAll ScheduledEmail → Prop where
  | still (ended : before.Ended) : Moves params before
  | unlisted {exception : Builtin} (atEntry : before.status = .suspended .entry)
      (unbuilt : listSpec platform.runtime params = .error exception) :
      Moves params ⟨.raised (.builtin exception), before.items, before.events⟩
  | listed {spec : RequestSpec}
      {after : Walk HttpRequest HttpOutcome LogRecord Exn IterAll ScheduledEmail}
      (atEntry : before.status = .suspended .entry)
      (built : listSpec platform.runtime params = .ok spec)
      (fetches : Fetches platform client server before spec after) : Moves params after
  | item {page : ScheduledEmailPage} {item : ScheduledEmail} {rest : List ScheduledEmail}
      (inside : before.status = .suspended (.within page (item :: rest))) :
      Moves params ⟨.suspended (.within page rest), before.items ++ [item], before.events⟩
  | last {page : ScheduledEmailPage} (atEnd : before.status = .suspended (.within page []))
      (none : nextPageSpec page = none) :
      Moves params ⟨.returned, before.items, before.events⟩
  | next {page : ScheduledEmailPage} {spec : RequestSpec}
      {after : Walk HttpRequest HttpOutcome LogRecord Exn IterAll ScheduledEmail}
      (atEnd : before.status = .suspended (.within page []))
      (more : nextPageSpec page = some spec)
      (fetches : Fetches platform client server before spec after) : Moves params after

theorem resume_fetches (spec : RequestSpec) :
    let trip := tripRun platform client server before.events spec
      (processModel platform ScheduledEmailPage.model)
    Fetches platform client server before spec
      (before.resume ⟨trip.events, trip.result.map intoPage⟩) := by
  intro trip
  cases prepared : client.prepare platform spec with
  | error exn =>
      have same : trip = ⟨[], .error exn⟩ := tripRun_refused platform client prepared server _ _
      rw [same]
      change Fetches platform client server before spec
        ⟨.raised exn, before.items, before.events ++ []⟩
      rw [List.append_nil]
      exact .refused prepared
  | ok pair =>
      obtain ⟨url, headers⟩ := pair
      have same := tripRun_prepared platform client prepared server before.events
        (processModel platform ScheduledEmailPage.model)
      change trip = _ at same
      rw [same]
      cases result : answered (answerOf platform server before.events spec url headers) >>=
        processModel platform ScheduledEmailPage.model with
      | error exn => exact .failed prepared result
      | ok page => exact .fetched prepared result

theorem advance_moves (params : Items Str Value) :
    Moves platform client server before params
      (Walk.advance (iterAll platform client .sync params) server before) := by
  rcases before.ended_or_suspended with ended | ⟨state, suspended⟩
  · rw [Walk.advance_ended ended]
    exact .still ended
  · rw [Walk.advance_suspended suspended]
    cases state with
    | entry =>
        rw [iterAll_run_entry]
        cases listed : listSpec platform.runtime params with
        | error exception =>
            change Moves platform client server before params
              ⟨.raised (.builtin exception), before.items, before.events ++ []⟩
            rw [List.append_nil]
            exact .unlisted suspended listed
        | ok spec =>
            exact .listed suspended listed (resume_fetches platform client server before spec)
    | within page rest =>
        cases rest with
        | cons item rest =>
            change Moves platform client server before params
              ⟨.suspended (.within page rest), before.items ++ [item], before.events ++ []⟩
            rw [List.append_nil]
            exact .item suspended
        | nil =>
            cases more : nextPageSpec page with
            | none =>
                rw [iterAll_run_last platform client more]
                change Moves platform client server before params
                  ⟨.returned, before.items, before.events ++ []⟩
                rw [List.append_nil]
                exact .last suspended more
            | some spec =>
                rw [iterAll_run_next platform client more]
                exact .next suspended more (resume_fetches platform client server before spec)

end Moves

theorem walk_succ (flavour : Flavour) (params : Items Str Value) (server : Server) (steps : Nat) :
    walk platform client flavour params server (steps + 1) =
      Walk.advance (iterAll platform client .sync params) server
        (walk platform client flavour params server steps) := by
  rw [walk_eq, walk_eq platform client flavour]
  exact Walk.after_succ _ _

/-- Both flavours of a walk make the same moves. -/
theorem walk_moves (flavour : Flavour) (params : Items Str Value) (server : Server) (steps : Nat) :
    Moves platform client server (walk platform client flavour params server steps) params
      (walk platform client flavour params server (steps + 1)) := by
  rw [walk_succ]
  exact advance_moves platform client server _ params

/-- What holds before a walk and is kept by each of its moves holds at every step. -/
theorem walk_invariant
    {holds : Walk HttpRequest HttpOutcome LogRecord Exn IterAll ScheduledEmail → Prop}
    {params : Items Str Value} {server : Server} (start : holds (Walk.start .entry))
    (kept : ∀ before after, holds before → Moves platform client server before params after →
      holds after) (flavour : Flavour) (steps : Nat) :
    holds (walk platform client flavour params server steps) := by
  induction steps with
  | zero => exact start
  | succ steps ih => exact kept _ _ ih (walk_moves platform client flavour params server steps)

end MailkubeSdk
