import MailkubeSdk.Effect.Interleaving
import MailkubeSdk.PageWalk

/-
One client and any number of callers.

Here every read of a client's field, and every read of the request
specification a caller has made, is a step of its own, and so is the making of
a specification.  The callers' steps interleave in any order and responses
arrive in any order.  Each caller still gets what it would get alone, because
the only thing written after construction is a caller's own specification.
-/

namespace MailkubeSdk

open Python Effect

/-! ### What callers share -/

/-- The fields requests are made from, and for each caller the request specification
it has made, mutable mappings and all.  A resource holds nothing but its client,
and the HTTP client is the environment. -/
inductive Cell (I : Type) where
  | apiKey
  | baseUrl
  | userAgentSuffix
  | spec (caller : I)
deriving DecidableEq

abbrev Cell.Content {I : Type} : Cell I → Type
  | .apiKey => Str
  | .baseUrl => Str
  | .userAgentSuffix => Str
  | .spec _ => RequestSpec

/-- A specification belongs to the caller that made it; the fields to nobody. -/
def Cell.owner {I : Type} : Cell I → Option I
  | .spec caller => some caller
  | _ => none

abbrev SharedJob (I α : Type) :=
  Job (Cell I) Cell.Content HttpRequest HttpOutcome LogRecord Exn α

/-- The memory right after `__init__`, whatever is where no specification is yet. -/
def BaseClient.memory {I : Type} (client : BaseClient) (unmade : I → RequestSpec) :
    Memory (@Cell.Content I)
  | .apiKey => client.apiKey
  | .baseUrl => client.baseUrl
  | .userAgentSuffix => client.userAgentSuffix
  | .spec caller => unmade caller

/-! ### The client, one read at a time -/

namespace SharedClient

variable {I : Type} (platform : Platform) (caller : I)

def buildUrl (path : Str) : SharedJob I Str :=
  .load .baseUrl fun (baseUrl : Str) =>
    match Url.urljoin platform.runtime.hosts baseUrl path with
    | none => .fail (.builtin .valueError)
    | some url =>
        (Job.ofExcept (originOf platform.runtime url)).bind fun origin =>
          .load .baseUrl fun (baseUrl : Str) =>
            (Job.ofExcept (originOf platform.runtime baseUrl)).bind fun own =>
              if origin ≠ own then
                .fail (.mailkubeError (str "Refusing to follow " ++
                  platform.runtime.reprStr url ++
                    str ": it is not on the configured API origin."))
              else .done url

def userAgent : SharedJob I Str :=
  let agent := str "mailkube-python/" ++ platform.version
  .load .userAgentSuffix fun (suffix : Str) =>
    if suffix ≠ [] then
      .load .userAgentSuffix fun (suffix : Str) => .done (agent ++ str " " ++ suffix)
    else .done agent

def defaultHeaders : SharedJob I (Items Str Str) :=
  .load .apiKey fun (apiKey : Str) =>
    (userAgent platform).bind fun agent =>
      .done
        [(str "Authorization", str "Bearer " ++ apiKey), (str "User-Agent", agent),
          (str "Content-Type", str "application/json")]

def prepare : SharedJob I (Str × Items Str Str) :=
  .load (.spec caller) fun (spec : RequestSpec) =>
    (buildUrl platform spec.path).bind fun url =>
      (defaultHeaders platform).bind fun headers =>
        .load (.spec caller) fun (spec : RequestSpec) => .done (url, headers.update spec.headers)

/-- `_raw`, of either client. -/
def raw : SharedJob I Response :=
  (prepare platform caller).bind fun (url, headers) =>
    .load (.spec caller) fun (spec : RequestSpec) =>
      .note (logRequest platform.runtime spec.method url headers) <|
        .load (.spec caller) fun (spec : RequestSpec) =>
          .ask (httpRequest spec url headers) fun
            | .httpError message => .fail (.mailkubeConnectionError message)
            | .invalidUrl message => .fail (.mailkubeConnectionError message)
            | .other exception => .fail (.builtin exception)
            | .response response =>
                .load (.spec caller) fun (spec : RequestSpec) =>
                  .note (logResponse platform.runtime spec.method url response.statusCode
                    response.headers) (.done response)

/-- A specification is made, sent, and its response read. -/
def request {α : Type} (spec : RequestSpec) (parse : Response → Except Exn α) : SharedJob I α :=
  .store (.spec caller) spec <|
    (raw platform caller).bind fun response => Job.ofExcept (parse response)

def call (verb : Verb) : SharedJob I verb.Result :=
  (Job.ofExcept (liftBuiltin (verb.built platform.runtime))).bind fun spec =>
    request platform caller spec (verb.parse platform)

/-- `iter_all`, of either client. -/
def iterAll (params : Items Str Value) : IterAll → SharedJob I (Signal IterAll ScheduledEmail)
  | .entry =>
      (call platform caller (.scheduledEmailsList params)).bind fun page =>
        .done (.silent (.within page (ScheduledEmailPage.data page)))
  | .within page (item :: rest) => .done (.item item (.within page rest))
  | .within page [] =>
      match nextPageSpec page with
      | none => .done .finished
      | some spec =>
          (request platform caller spec (processModel platform ScheduledEmailPage.model)).bind
            fun page => .done (.silent (.within page (ScheduledEmailPage.data page)))

variable {platform caller} {params : Items Str Value} {page : ScheduledEmailPage}

theorem iterAll_last (last : nextPageSpec page = none) :
    iterAll platform caller params (.within page []) = .done .finished := by
  unfold iterAll
  simp only [last]

theorem iterAll_next {spec : RequestSpec} (more : nextPageSpec page = some spec) :
    iterAll platform caller params (.within page []) =
      (request platform caller spec (processModel platform ScheduledEmailPage.model)).bind
        fun page => .done (intoPage page) := by
  unfold iterAll
  simp only [more]
  rfl

end SharedClient

/-! ### Callers -/

/-- What a caller does with the client: one verb, or a walk over all pages. -/
inductive Use where
  | call (verb : Verb)
  | walk (params : Items Str Value)

namespace Use

/-- A call is at its start or over; a walk is where `iter_all` is suspended. -/
abbrev State : Use → Type
  | .call _ => Bool
  | .walk _ => IterAll

abbrev Item : Use → Type
  | .call verb => verb.Result
  | .walk _ => ScheduledEmail

def entry : (use : Use) → use.State
  | .call _ => false
  | .walk _ => .entry

def jobs {I : Type} (platform : Platform) (caller : I) :
    (use : Use) → use.State → SharedJob I (Signal use.State use.Item)
  | .call verb, false =>
      (SharedClient.call platform caller verb).bind fun value => .done (.item value true)
  | .call _, true => .done .finished
  | .walk params, state => SharedClient.iterAll platform caller params state

/-- The same use of a client of one's own. -/
def alone (platform : Platform) (client : BaseClient) (flavour : Flavour) :
    (use : Use) → Generator HttpRequest HttpOutcome LogRecord Exn use.State use.Item
  | .call verb => once (MailkubeSdk.call platform client flavour verb)
  | .walk params => MailkubeSdk.iterAll platform client flavour params

end Use

/-- Everybody who uses one client. -/
def callers {I : Type} (platform : Platform) (uses : I → Use) :
    System I (Cell I) Cell.Content HttpRequest HttpOutcome LogRecord Exn where
  State caller := (uses caller).State
  Item caller := (uses caller).Item
  entry caller := (uses caller).entry
  jobs caller := (uses caller).jobs platform caller

/-! ### Alone, the shared client is the client -/

/-- The memory holds the fields of the client. -/
structure BaseClient.In {I : Type} (client : BaseClient) (memory : Memory (@Cell.Content I)) :
    Prop where
  apiKey : memory .apiKey = client.apiKey
  baseUrl : memory .baseUrl = client.baseUrl
  userAgentSuffix : memory .userAgentSuffix = client.userAgentSuffix

namespace SharedClient

section Alone

variable {I : Type} [DecidableEq I] {platform : Platform} {caller : I} {client : BaseClient}
  {memory : Memory (@Cell.Content I)} {α β : Type}

theorem alone_buildUrl (held : client.In memory) (path : Str) (next : Str → SharedJob I α) :
    ((buildUrl platform path).bind next).alone memory =
      (Program.ofExcept (client.buildUrl platform path)).bind
        fun url => (next url).alone memory := by
  unfold buildUrl BaseClient.buildUrl
  rw [Job.alone_load_bind, held.baseUrl]
  cases Url.urljoin platform.runtime.hosts client.baseUrl path with
  | none => rfl
  | some url =>
      dsimp only
      rw [Job.bind_assoc, Job.alone_ofExcept_bind]
      cases originOf platform.runtime url with
      | error exn => rfl
      | ok origin =>
          rw [Program.ofExcept_ok_bind, Job.alone_load_bind, held.baseUrl, Job.bind_assoc,
            Job.alone_ofExcept_bind]
          cases originOf platform.runtime client.baseUrl with
          | error exn => rfl
          | ok own =>
              change Job.alone memory (Job.bind (if origin ≠ own then _ else _) next) =
                (Program.ofExcept (if origin ≠ own then _ else _)).bind _
              split <;> rfl

theorem alone_userAgent (held : client.In memory) (next : Str → SharedJob I α) :
    ((userAgent platform).bind next).alone memory =
      (next (client.userAgent platform)).alone memory := by
  unfold userAgent BaseClient.userAgent
  rw [Job.alone_load_bind, held.userAgentSuffix]
  split
  · rw [Job.alone_load_bind, held.userAgentSuffix]
    rfl
  · rfl

theorem alone_defaultHeaders (held : client.In memory)
    (next : Items Str Str → SharedJob I α) :
    ((defaultHeaders platform).bind next).alone memory =
      (next (client.defaultHeaders platform)).alone memory := by
  unfold defaultHeaders
  rw [Job.alone_load_bind, held.apiKey, Job.bind_assoc, alone_userAgent held]
  rfl

theorem alone_prepare (held : client.In memory)
    (next : Str × Items Str Str → SharedJob I α) :
    ((prepare platform caller).bind next).alone memory =
      (Program.ofExcept (client.prepare platform (memory (.spec caller)))).bind
        fun prepared => (next prepared).alone memory := by
  unfold prepare BaseClient.prepare
  rw [Job.alone_load_bind, Job.bind_assoc, alone_buildUrl held]
  cases client.buildUrl platform (memory (.spec caller)).path with
  | error exn => rfl
  | ok url =>
      rw [Program.ofExcept_ok_bind, Job.bind_assoc, alone_defaultHeaders held]
      rfl

theorem alone_raw (held : client.In memory) (next : Response → SharedJob I α) :
    ((raw platform caller).bind next).alone memory =
      (Mailkube.raw platform client (memory (.spec caller))).bind
        fun response => (next response).alone memory := by
  unfold raw Mailkube.raw
  rw [Job.bind_assoc, alone_prepare held, Program.bind_assoc]
  cases client.prepare platform (memory (.spec caller)) with
  | error exn => rfl
  | ok prepared =>
      obtain ⟨url, headers⟩ := prepared
      apply congrArg (Program.note _)
      apply congrArg (Program.ask _)
      funext outcome
      cases outcome <;> rfl

theorem in_update (held : client.In memory) (spec : RequestSpec) :
    client.In (Function.update memory (.spec caller) spec) where
  apiKey := held.apiKey
  baseUrl := held.baseUrl
  userAgentSuffix := held.userAgentSuffix

theorem alone_request (held : client.In memory) (spec : RequestSpec)
    (parse : Response → Except Exn α) (next : α → β) :
    ((request platform caller spec parse).bind fun value => .done (next value)).alone memory =
      ((Mailkube.raw platform client spec).bind fun response =>
        Program.ofExcept (parse response)).bind fun value => .done (next value) := by
  unfold request
  rw [Job.alone_store_bind, Job.bind_assoc, alone_raw (in_update held spec), Function.update_self,
    Program.bind_assoc]
  apply congrArg
  funext response
  exact Job.alone_ofExcept_bind _ _ _

theorem alone_request_run (held : client.In memory) (spec : RequestSpec)
    (parse : Response → Except Exn α) (next : α → β) (server : Server) (past : Trace) :
    (((request platform caller spec parse).bind
      fun value => .done (next value)).alone memory).run server past =
        let trip := tripRun platform client server past spec parse
        ⟨trip.events, trip.result.map next⟩ := by
  rw [alone_request held, Program.run_bind_done, raw_run]

theorem alone_call_run (held : client.In memory) (verb : Verb) (next : verb.Result → β)
    (server : Server) (past : Trace) :
    (((call platform caller verb).bind
      fun value => .done (next value)).alone memory).run server past =
        let trip := builtRun platform client server past (verb.built platform.runtime)
          (verb.parse platform)
        ⟨trip.events, trip.result.map next⟩ := by
  unfold call
  rw [Job.bind_assoc, Job.alone_ofExcept_bind]
  cases verb.built platform.runtime with
  | error exception => rfl
  | ok spec => exact alone_request_run held spec (verb.parse platform) next server past

theorem alone_iterAll_run (held : client.In memory) (params : Items Str Value) (state : IterAll)
    (server : Server) (past : Trace) :
    ((iterAll platform caller params state).alone memory).run server past =
      (MailkubeSdk.iterAll platform client .sync params state).run server past := by
  cases state with
  | entry =>
      rw [iterAll_run_entry]
      exact alone_call_run held (.scheduledEmailsList params) intoPage server past
  | within page rest =>
      cases rest with
      | cons item rest => rfl
      | nil =>
          cases more : nextPageSpec page with
          | none =>
              rw [iterAll_run_last platform client more, iterAll_last more]
              rfl
          | some spec =>
              rw [iterAll_run_next platform client more, iterAll_next more]
              exact alone_request_run held spec _ intoPage server past

end Alone

/-! ### Nothing but a caller's own specification is written -/

section Confined

variable {I : Type} {platform : Platform} {caller : I} {α : Type}

theorem confined_buildUrl (path : Str) :
    (buildUrl platform path : SharedJob I Str).Confined Cell.owner caller := by
  unfold buildUrl
  refine ⟨.inl rfl, fun baseUrl => ?_⟩
  dsimp only
  split
  · trivial
  · apply (Job.Confined.ofExcept _).bind
    intro origin
    refine ⟨.inl rfl, fun baseUrl => ?_⟩
    apply (Job.Confined.ofExcept _).bind
    intro own
    split <;> trivial

theorem confined_defaultHeaders :
    (defaultHeaders platform : SharedJob I (Items Str Str)).Confined Cell.owner caller := by
  unfold defaultHeaders userAgent
  refine ⟨.inl rfl, fun apiKey => ?_⟩
  apply Job.Confined.bind
  · refine ⟨.inl rfl, fun suffix => ?_⟩
    dsimp only
    split
    · exact ⟨.inl rfl, fun suffix => trivial⟩
    · trivial
  · intro agent
    trivial

theorem confined_prepare : (prepare platform caller).Confined Cell.owner caller := by
  unfold prepare
  refine ⟨.inr rfl, fun spec => ?_⟩
  apply (confined_buildUrl _).bind
  intro url
  apply confined_defaultHeaders.bind
  intro headers
  exact ⟨.inr rfl, fun spec => trivial⟩

theorem confined_raw : (raw platform caller).Confined Cell.owner caller := by
  unfold raw
  apply confined_prepare.bind
  rintro ⟨url, headers⟩
  refine ⟨.inr rfl, fun spec => ?_⟩
  refine ⟨.inr rfl, fun spec => ?_⟩
  intro outcome
  cases outcome with
  | response response => exact ⟨.inr rfl, fun spec => trivial⟩
  | _ => trivial

theorem confined_request (spec : RequestSpec) (parse : Response → Except Exn α) :
    (request platform caller spec parse).Confined Cell.owner caller := by
  unfold request
  refine ⟨rfl, ?_⟩
  apply confined_raw.bind
  intro response
  exact Job.Confined.ofExcept _

theorem confined_call (verb : Verb) : (call platform caller verb).Confined Cell.owner caller := by
  unfold call
  apply (Job.Confined.ofExcept _).bind
  intro spec
  exact confined_request spec _

theorem confined_iterAll (params : Items Str Value) (state : IterAll) :
    (iterAll platform caller params state).Confined Cell.owner caller := by
  cases state with
  | entry =>
      apply (confined_call _).bind
      intro page
      trivial
  | within page rest =>
      cases rest with
      | cons item rest => trivial
      | nil =>
          cases more : nextPageSpec page with
          | none =>
              rw [iterAll_last more]
              trivial
          | some spec =>
              rw [iterAll_next more]
              apply (confined_request spec _).bind
              intro page
              trivial

end Confined

end SharedClient

namespace Use

theorem jobs_confined {I : Type} {platform : Platform} {caller : I} (use : Use)
    (state : use.State) : (use.jobs platform caller state).Confined Cell.owner caller := by
  cases use with
  | call verb =>
      cases state with
      | false =>
          apply (SharedClient.confined_call verb).bind
          intro value
          trivial
      | true => trivial
  | walk params => exact SharedClient.confined_iterAll params state

theorem jobs_run {I : Type} [DecidableEq I] {platform : Platform} {caller : I}
    {client : BaseClient} {memory : Memory (@Cell.Content I)} (held : client.In memory)
    (flavour : Flavour) (use : Use) (state : use.State) (server : Server) (past : Trace) :
    ((use.jobs platform caller state).alone memory).run server past =
      (use.alone platform client flavour state).run server past := by
  cases use with
  | call verb =>
      cases state with
      | false =>
          have ran := Program.run_bind_done server past
            (MailkubeSdk.call platform client flavour verb) (fun value => Signal.item value true)
          rw [verb_run] at ran
          exact (SharedClient.alone_call_run held verb _ server past).trans ran.symm
      | true => rfl
  | walk params =>
      rw [jobs, SharedClient.alone_iterAll_run held]
      cases flavour with
      | sync => rfl
      | async =>
          exact (run_eq_of_erase_eq (erase_iterAll platform client params state) server past).symm

end Use

theorem callers_isolated {I : Type} [DecidableEq I] (platform : Platform) (client : BaseClient)
    (flavour : Flavour) (uses : I → Use) (unmade : I → RequestSpec) :
    (callers platform uses).Isolated Cell.owner (client.memory unmade)
      (fun caller => (uses caller).alone platform client flavour) where
  confined caller state := Use.jobs_confined (uses caller) state
  implements caller state memory same server past := by
    have held : client.In memory :=
      ⟨same .apiKey rfl, same .baseUrl rfl, same .userAgentSuffix rfl⟩
    exact Use.jobs_run held flavour (uses caller) state server past

/-! ### What a caller may rely on -/

abbrev Caller (I : Type) (use : Use) :=
  Thread (Cell I) Cell.Content HttpRequest HttpOutcome LogRecord Exn use.State use.Item

section Undisturbed

variable {I : Type} (platform : Platform) (client : BaseClient) (flavour : Flavour)

structure CallUndisturbed (verb : Verb) (caller : Caller I (.call verb)) : Prop where
  returnsOnce : caller.items.length ≤ 1
  /-- The request is the one the call sends alone. -/
  sent : ∀ server, caller.sent <+:
    queries ((call platform client flavour verb).run server []).events
  /-- The outcome is read from the response to that request, unless there is no request. -/
  outcome : ∀ result, caller.Ended result →
    (∃ answer, answers caller.events = [answer] ∧
      result = answered answer >>= verb.parse platform) ∨
    caller.events = [] ∧ ∀ server, (call platform client flavour verb).run server [] = ⟨[], result⟩

structure WalkUndisturbed (params : Items Str Value) (caller : Caller I (.walk params)) : Prop where
  /-- The items are those of the pages received, in order. -/
  items : caller.items <+: itemsReceived platform caller.events
  whole : caller.phase = .resting .returned →
    caller.items = itemsReceived platform caller.events
  /-- The walk is where it is alone, whatever server answers alike. -/
  follows : ∀ server, Agrees server caller.events → ∃ steps,
    caller.items = (walk platform client flavour params server steps).items ∧
      caller.sent <+: queries (walk platform client flavour params server (steps + 1)).events ∧
      ∀ status, caller.phase = .resting status →
        (walk platform client flavour params server steps).status = status
  chained : ∀ reply, Agrees (replying reply) caller.events →
    ∃ n, caller.items <+: (pageChain platform client reply params).delivered n

def Use.Undisturbed : (use : Use) → Caller I use → Prop
  | .call verb, caller => CallUndisturbed platform client flavour verb caller
  | .walk params, caller => WalkUndisturbed platform client flavour params caller

end Undisturbed

/-! ### Calls -/

section Calls

variable {I : Type} [DecidableEq I] {platform : Platform} {client : BaseClient} {flavour : Flavour}
  {verb : Verb}

theorem builtRun_queries {α : Type} (built : Except Builtin RequestSpec)
    (parse : Response → Except Exn α) (server other : Server) (past : Trace) :
    queries (builtRun platform client server past built parse).events =
      queries (builtRun platform client other past built parse).events := by
  cases built with
  | error exception => rfl
  | ok spec =>
      cases prepared : client.prepare platform spec with
      | error exn =>
          rw [builtRun_ok, builtRun_ok, tripRun_refused platform client prepared,
            tripRun_refused platform client prepared]
      | ok pair =>
          obtain ⟨url, headers⟩ := pair
          rw [builtRun_ok, builtRun_ok, tripRun_prepared platform client prepared,
            tripRun_prepared platform client prepared]
          exact (queries_roundTrip _ _ _ _ _).trans (queries_roundTrip _ _ _ _ _).symm

/-- A run of one request reads its result from the one answer, or has no answer to read. -/
theorem builtRun_outcome {α : Type} (built : Except Builtin RequestSpec)
    (parse : Response → Except Exn α) (server : Server) (past : Trace) :
    (∃ answer, answers (builtRun platform client server past built parse).events = [answer] ∧
      (builtRun platform client server past built parse).result = answered answer >>= parse) ∨
    (builtRun platform client server past built parse).events = [] ∧
      ∀ other, builtRun platform client other past built parse =
        ⟨[], (builtRun platform client server past built parse).result⟩ := by
  cases built with
  | error exception => exact .inr ⟨rfl, fun _ => rfl⟩
  | ok spec =>
      cases prepared : client.prepare platform spec with
      | error exn =>
          apply Or.inr
          simp only [builtRun_ok, tripRun_refused platform client prepared, true_and, implies_true]
      | ok pair =>
          obtain ⟨url, headers⟩ := pair
          apply Or.inl
          rw [builtRun_ok, tripRun_prepared platform client prepared]
          exact ⟨_, answers_roundTrip _ _ _ _ _, rfl⟩

theorem call_undisturbed {caller : Caller I (.call verb)} {memory : Memory (@Cell.Content I)}
    (follows : ∀ server, Agrees server caller.events →
      caller.Follows (once (call platform client flavour verb)) false server memory) :
    CallUndisturbed platform client flavour verb caller := by
  have someone : Nonempty HttpOutcome := ⟨.httpError []⟩
  obtain ⟨server, agrees⟩ : ∃ server : Server, Agrees server caller.events := exists_agrees _
  obtain ⟨sent, returnsOnce, ends⟩ := Thread.once_account (follows server agrees)
  refine ⟨returnsOnce, ?_, ?_⟩
  · intro other
    rw [verb_run] at sent ⊢
    rw [builtRun_queries _ _ other server]
    exact sent
  · intro result halted
    have ran := ends result halted
    rw [verb_run] at ran
    rcases builtRun_outcome (verb.built platform.runtime) (verb.parse platform) server [] with
      read | ⟨silent, always⟩
    · rw [ran] at read
      exact .inl read
    · rw [ran] at silent always
      refine .inr ⟨silent, fun other => ?_⟩
      rw [verb_run]
      exact always other

end Calls

/-! ### Walks -/

section Walks

variable {platform : Platform} {client : BaseClient}

theorem walk_undisturbed {I : Type} [DecidableEq I] {flavour : Flavour} {params : Items Str Value}
    {caller : Caller I (.walk params)} {memory : Memory (@Cell.Content I)}
    (follows : ∀ server, Agrees server caller.events →
      caller.Follows (iterAll platform client flavour params) .entry server memory) :
    WalkUndisturbed platform client flavour params caller := by
  have someone : Nonempty HttpOutcome := ⟨.httpError []⟩
  obtain ⟨server, agrees⟩ : ∃ server : Server, Agrees server caller.events := exists_agrees _
  obtain ⟨steps, items, behind, ahead, sent, resting⟩ :=
    Thread.follows_account (follows server agrees)
  have balanced : Balanced platform (walk platform client flavour params server steps) :=
    walk_balanced flavour params server steps
  refine ⟨?_, ?_, ?_, ?_⟩
  · obtain ⟨later, grown⟩ := behind
    rw [items, ← grown, itemsReceived_append]
    refine ⟨unread (walk platform client flavour params server steps).status ++
      itemsReceived platform later, ?_⟩
    rw [← List.append_assoc]
    exact congrArg (· ++ _) balanced
  · intro halted
    obtain ⟨returned, same⟩ := resting _ halted
    change (walk platform client flavour params server steps).status = .returned at returned
    change (walk platform client flavour params server steps).events = _ at same
    unfold Balanced at balanced
    rw [returned, same] at balanced
    rw [items]
    exact (List.append_nil _).symm.trans balanced
  · intro other alike
    obtain ⟨steps, items, behind, ahead, sent, resting⟩ :=
      Thread.follows_account (follows other alike)
    exact ⟨steps, items, sent, fun status halted => (resting status halted).1⟩
  · intro reply alike
    obtain ⟨steps, items, rest⟩ := Thread.follows_account (follows _ alike)
    rw [items]
    exact (readsLazily_of_cursor (cursorOf_walk flavour)).ordered steps

end Walks

theorem Use.undisturbed {I : Type} [DecidableEq I] {platform : Platform} {client : BaseClient}
    {flavour : Flavour} {memory : Memory (@Cell.Content I)} (use : Use) {caller : Caller I use}
    (follows : ∀ server, Agrees server caller.events →
      caller.Follows (use.alone platform client flavour) use.entry server memory) :
    use.Undisturbed platform client flavour caller := by
  cases use with
  | call verb => exact call_undisturbed follows
  | walk params => exact walk_undisturbed follows

/-! ### Every schedule -/

/-- However their steps and responses interleave, the callers of one client leave
its fields as they were, each gets what is its own, and none is held up: by its
own actions alone it can go on to any step it would take alone. -/
theorem callers_undisturbed {I : Type} [DecidableEq I] (platform : Platform) (client : BaseClient)
    (flavour : Flavour) (uses : I → Use) (unmade : I → RequestSpec)
    (schedule : List (I × Action HttpOutcome)) :
    let start : Config (callers platform uses) := .start (client.memory unmade)
    client.In (start.after schedule).memory ∧
      ∀ caller, (uses caller).Undisturbed platform client flavour
          ((start.after schedule).thread caller) ∧
        ∀ server, Agrees server ((start.after schedule).thread caller).events →
          ∀ steps, ∃ actions reached, steps ≤ reached ∧
            (start.after (schedule ++ Config.only caller actions)).thread caller =
              .atRest (Walk.after ((uses caller).alone platform client flavour) server reached
                (Walk.start (uses caller).entry)) := by
  intro start
  have isolated := callers_isolated platform client flavour uses unmade
  have apart := Config.after_apart isolated schedule
  refine ⟨⟨?_, ?_, ?_⟩, ?_⟩
  · exact apart.shared .apiKey rfl
  · exact apart.shared .baseUrl rfl
  · exact apart.shared .userAgentSuffix rfl
  · intro caller
    constructor
    · exact Use.undisturbed (uses caller) (apart.follows caller)
    · intro server agrees steps
      exact Config.reaches isolated schedule agrees steps

end MailkubeSdk
