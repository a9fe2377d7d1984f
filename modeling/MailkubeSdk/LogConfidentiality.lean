import MailkubeSdk.Envelope
import MailkubeSdk.Routes
import MailkubeSdk.SendObjects

/-
Log records tell nothing of secrets and contents.

What a round trip logs is a function of the base URL, the path, the names of the
headers and the values of those that are no secrets.  Two runs that agree on
these log the same, whatever they send and receive besides.
-/

namespace MailkubeSdk

open Python Effect

/-! ### Headers that differ in secrets -/

/-- The names whose values no record shows. -/
abbrev IsSecret (runtime : Runtime) (name : Str) : Prop :=
  runtime.lower name ∈ [str "authorization", str "idempotency-key"]

theorem isSecret_str (runtime : Runtime) (text : String) (ascii : isAsciiText (str text) = true) :
    IsSecret runtime (str text) ↔
      lowerAscii (str text) ∈ [str "authorization", str "idempotency-key"] := by
  unfold IsSecret
  rw [runtime.lower_str text ascii]

/-- The same names in the same order, with the same values but for the names that
lower-case to a secret one. -/
def AlikeHeaders (runtime : Runtime) (left right : Items Str Str) : Prop :=
  List.Forall₂ (fun first second => first.1 = second.1 ∧
    (IsSecret runtime first.1 ∨ first.2 = second.2)) left right

theorem isSensitive_iff {runtime : Runtime} {name : Str} :
    isSensitive runtime name = true ↔ IsSecret runtime name :=
  List.contains_iff_mem

theorem redactHeaders_alike {runtime : Runtime} {left right : Items Str Str}
    (alike : AlikeHeaders runtime left right) :
    redactHeaders runtime left = redactHeaders runtime right := by
  induction alike with
  | nil => rfl
  | @cons first second left right head tail ih =>
      obtain ⟨name, text⟩ := first
      obtain ⟨name', text'⟩ := second
      obtain ⟨same, masked⟩ := head
      change name = name' at same
      subst same
      unfold redactHeaders at ih ⊢
      rw [List.map_cons, List.map_cons, ih]
      rcases masked with secret | value
      · have hidden := isSensitive_iff.mpr secret
        dsimp only at hidden ⊢
        rw [if_pos hidden, if_pos hidden]
      · change text = text' at value
        rw [value]

theorem header_alike {runtime : Runtime} {left right : Items Str Str} {name : Str}
    (plain : ¬IsSecret runtime name) (alike : AlikeHeaders runtime left right) :
    header runtime left name = header runtime right name := by
  induction alike with
  | nil => rfl
  | @cons first second left right head tail ih =>
      obtain ⟨same, masked⟩ := head
      unfold header at ih ⊢
      rw [List.find?_cons, List.find?_cons, ← same]
      cases here : runtime.lower first.1 == runtime.lower name with
      | false => exact ih
      | true =>
          have value : first.2 = second.2 := by
            apply masked.resolve_left
            unfold IsSecret
            rw [beq_iff_eq.mp here]
            exact plain
          exact congrArg some value

theorem logRequest_alike {runtime : Runtime} {left right : Items Str Str}
    (alike : AlikeHeaders runtime left right) (method url : Str) :
    logRequest runtime method url left = logRequest runtime method url right := by
  unfold logRequest
  rw [redactHeaders_alike alike]

theorem logResponse_alike {runtime : Runtime} {left right : Items Str Str}
    (alike : AlikeHeaders runtime left right) (method url : Str) (status : Nat) :
    logResponse runtime method url status left = logResponse runtime method url status right := by
  have plain : ¬IsSecret runtime (str "x-request-id") := by
    rw [isSecret_str runtime "x-request-id" (by decide)]
    decide
  unfold logResponse
  rw [redactHeaders_alike alike, header_alike plain alike]

theorem AlikeHeaders.refl (runtime : Runtime) (headers : Items Str Str) :
    AlikeHeaders runtime headers headers :=
  List.forall₂_same.mpr (fun _ _ => ⟨rfl, Or.inr rfl⟩)

theorem AlikeHeaders.set {runtime : Runtime} {left right : Items Str Str} {name first second : Str}
    (alike : AlikeHeaders runtime left right)
    (value : IsSecret runtime name ∨ first = second) :
    AlikeHeaders runtime (left.set name first) (right.set name second) := by
  induction alike with
  | nil => exact .cons ⟨rfl, value⟩ .nil
  | @cons held other left right head tail ih =>
      obtain ⟨key, text⟩ := held
      obtain ⟨key', text'⟩ := other
      obtain ⟨same, masked⟩ := head
      change key = key' at same
      subst same
      rw [Items.set, Items.set]
      by_cases named : key = name
      · rw [if_pos named, if_pos named]
        exact .cons ⟨rfl, named ▸ value⟩ tail
      · rw [if_neg named, if_neg named]
        exact .cons ⟨rfl, masked⟩ ih

theorem AlikeHeaders.update {runtime : Runtime} {left right more more' : Items Str Str}
    (alike : AlikeHeaders runtime left right) (overlay : AlikeHeaders runtime more more') :
    AlikeHeaders runtime (left.update more) (right.update more') := by
  unfold Items.update
  induction overlay generalizing left right with
  | nil => exact alike
  | @cons first second more more' head tail ih =>
      rw [List.foldl_cons, List.foldl_cons, ← head.1]
      exact ih (alike.set head.2)

theorem alike_of_secret {runtime : Runtime} {left right : Items Str Str}
    (secret : ∀ name ∈ left.keys, IsSecret runtime name)
    (names : left.keys = right.keys) : AlikeHeaders runtime left right := by
  induction left generalizing right with
  | nil =>
      cases right with
      | nil => exact .nil
      | cons other rest => cases names
  | cons item rest ih =>
      cases right with
      | nil => cases names
      | cons other others =>
          obtain ⟨same, more⟩ := List.cons.inj names
          exact .cons ⟨same, Or.inl (secret item.1 List.mem_cons_self)⟩
            (ih (fun name member => secret name (List.mem_cons_of_mem _ member)) more)

/-! ### Round trips -/

/-- Clients with the same base URL and the same suffix, whatever their keys. -/
structure AlikeClients (client client' : BaseClient) : Prop where
  baseUrl : client.baseUrl = client'.baseUrl
  userAgentSuffix : client.userAgentSuffix = client'.userAgentSuffix

/-- Specifications for the same route, whatever they send there. -/
structure AlikeSpec (runtime : Runtime) (spec spec' : RequestSpec) : Prop where
  path : spec.path = spec'.path
  method : spec.method = spec'.method
  headers : AlikeHeaders runtime spec.headers spec'.headers

/-- The call fails in both, or is answered by the same status and alike headers. -/
def AlikeAnswer (runtime : Runtime) : HttpOutcome → HttpOutcome → Prop
  | .response left, .response right =>
      left.statusCode = right.statusCode ∧ AlikeHeaders runtime left.headers right.headers
  | .response _, _ => False
  | _, .response _ => False
  | _, _ => True

variable {platform : Platform} {client client' : BaseClient}

theorem defaultHeaders_alike (clients : AlikeClients client client') :
    AlikeHeaders platform.runtime (client.defaultHeaders platform)
      (client'.defaultHeaders platform) := by
  have secret : IsSecret platform.runtime (str "Authorization") := by
    rw [isSecret_str platform.runtime "Authorization" (by decide)]
    decide
  have agent : client.userAgent platform = client'.userAgent platform := by
    unfold BaseClient.userAgent
    rw [clients.userAgentSuffix]
  exact .cons ⟨rfl, Or.inl secret⟩ (.cons ⟨rfl, Or.inr agent⟩ (.cons ⟨rfl, Or.inr rfl⟩ .nil))

theorem prepare_alike (clients : AlikeClients client client') {spec spec' : RequestSpec}
    (specs : AlikeSpec platform.runtime spec spec') :
    (∃ exn, client.prepare platform spec = .error exn ∧
      client'.prepare platform spec' = .error exn) ∨
    ∃ url headers headers', client.prepare platform spec = .ok (url, headers) ∧
      client'.prepare platform spec' = .ok (url, headers') ∧
      AlikeHeaders platform.runtime headers headers' := by
  have same : client.buildUrl platform spec.path = client'.buildUrl platform spec'.path := by
    unfold BaseClient.buildUrl
    rw [clients.baseUrl, specs.path]
  unfold BaseClient.prepare
  rw [same]
  cases client'.buildUrl platform spec'.path with
  | error exn => exact Or.inl ⟨exn, rfl, rfl⟩
  | ok url =>
      exact Or.inr ⟨url, _, _, rfl, rfl, (defaultHeaders_alike clients).update specs.headers⟩

/-- The records of a round trip that is answered so. -/
def tripLog (platform : Platform) (client : BaseClient) (spec : RequestSpec)
    (answer : HttpOutcome) : List LogRecord :=
  match client.prepare platform spec with
  | .error _ => []
  | .ok (url, headers) => notes (roundTrip platform spec url headers answer)

theorem answerTrace_alike {runtime : Runtime} {answer answer' : HttpOutcome}
    (alike : AlikeAnswer runtime answer answer') (method url : Str) :
    notes (answerTrace runtime method url answer) =
      notes (answerTrace runtime method url answer') := by
  cases answer with
  | response left =>
      cases answer' with
      | response right =>
          obtain ⟨status, headers⟩ := alike
          have record := logResponse_alike headers method url left.statusCode
          change [logResponse ..] = [logResponse ..]
          rw [record, status]
      | _ => exact absurd alike id
  | _ =>
      cases answer' with
      | response right => exact absurd alike id
      | _ => rfl

theorem tripLog_alike (clients : AlikeClients client client') {spec spec' : RequestSpec}
    (specs : AlikeSpec platform.runtime spec spec') {answer answer' : HttpOutcome}
    (alike : AlikeAnswer platform.runtime answer answer') :
    tripLog platform client spec answer = tripLog platform client' spec' answer' := by
  unfold tripLog
  rcases prepare_alike clients specs with
    ⟨exn, refused, refused'⟩ | ⟨url, headers, headers', prepared, prepared', names⟩
  · rw [refused, refused']
  · rw [prepared, prepared']
    dsimp only
    rw [notes_roundTrip, notes_roundTrip, specs.method, logRequest_alike names,
      answerTrace_alike alike]

/-- A round trip asks nothing and logs nothing, or asks once and logs what the answer
makes it log. -/
theorem tripRun_log {α : Type} (platform : Platform) (client : BaseClient) (server : Server)
    (past : Trace) (spec : RequestSpec) (parse : Response → Except Exn α) :
    let trip := tripRun platform client server past spec parse
    trip.events = [] ∨ ∃ answer, answers trip.events = [answer] ∧
      notes trip.events = tripLog platform client spec answer := by
  intro trip
  cases prepared : client.prepare platform spec with
  | error exn =>
      have same : trip = ⟨[], .error exn⟩ := tripRun_refused platform client prepared _ _ _
      rw [same]
      exact Or.inl rfl
  | ok pair =>
      obtain ⟨url, headers⟩ := pair
      have same := tripRun_prepared platform client prepared server past parse
      change trip = _ at same
      rw [same]
      refine Or.inr ⟨answerOf platform server past spec url headers, ?_, ?_⟩
      · exact answers_roundTrip platform spec url headers _
      · unfold tripLog
        rw [prepared]

/-! ### Verbs -/

/-- The same verb on the same item or batch, with an idempotency key in both or in
neither. -/
def AlikeVerb : Verb → Verb → Prop
  | .emailsSend params, .emailsSend params' =>
      idempotencyKey ∈ params.keys ↔ idempotencyKey ∈ params'.keys
  | .credentialInfo, .credentialInfo => True
  | .scheduledEmailsList _, .scheduledEmailsList _ => True
  | .scheduledEmailsGet emailId, .scheduledEmailsGet emailId' => emailId = emailId'
  | .scheduledEmailsUpdate emailId _, .scheduledEmailsUpdate emailId' _ => emailId = emailId'
  | .scheduledEmailsCancel emailId, .scheduledEmailsCancel emailId' => emailId = emailId'
  | .batchesUpdate batchId _, .batchesUpdate batchId' _ => batchId = batchId'
  | .batchesCancel batchId, .batchesCancel batchId' => batchId = batchId'
  | _, _ => False

theorem AlikeVerb.envelope {verb verb' : Verb} (verbs : AlikeVerb verb verb') :
    verb.route = verb'.route ∧ verb.keyGiven = verb'.keyGiven := by
  unfold AlikeVerb at verbs
  split at verbs
  case h_1 params params' =>
      refine ⟨rfl, ?_⟩
      unfold Verb.keyGiven
      rw [Bool.eq_iff_iff, List.contains_iff_mem, List.contains_iff_mem]
      exact verbs
  case h_9 => exact absurd verbs id
  all_goals
    cases verbs
    exact ⟨rfl, rfl⟩

theorem built_alike {runtime : Runtime} {verb verb' : Verb} (verbs : AlikeVerb verb verb')
    {spec spec' : RequestSpec} (built : verb.built runtime = .ok spec)
    (built' : verb'.built runtime = .ok spec') : AlikeSpec runtime spec spec' := by
  obtain ⟨route, given⟩ := verbs.envelope
  have here := built_enveloped built
  have there := built_enveloped built'
  have same := Except.ok.inj (here.route.symm.trans (route.trans there.route))
  have secret : IsSecret runtime idempotencyHeader := by
    rw [idempotencyHeader, isSecret_str runtime "Idempotency-Key" (by decide)]
    decide
  refine ⟨congrArg Prod.snd same, congrArg Prod.fst same, alike_of_secret ?_ ?_⟩
  · intro name member
    rw [here.headers] at member
    unfold headerNames at member
    split at member
    · rw [List.mem_singleton.mp member]
      exact secret
    · cases member
  · rw [here.headers, there.headers, given]

theorem builtRun_log {α : Type} (platform : Platform) (client : BaseClient) (server : Server)
    (past : Trace) (built : Except Builtin RequestSpec) (parse : Response → Except Exn α) :
    let run := builtRun platform client server past built parse
    run.events = [] ∨ ∃ spec answer, built = .ok spec ∧ answers run.events = [answer] ∧
      notes run.events = tripLog platform client spec answer := by
  intro run
  cases built with
  | error exception => exact Or.inl rfl
  | ok spec =>
      rcases tripRun_log platform client server past spec parse with
        silent | ⟨answer, asked, logged⟩
      · exact Or.inl silent
      · exact Or.inr ⟨spec, answer, rfl, asked, logged⟩

theorem call_confidential (clients : AlikeClients client client') {verb verb' : Verb}
    (verbs : AlikeVerb verb verb') (flavour flavour' : Flavour) (server server' : Server)
    (past past' : Trace)
    (alike : List.Forall₂ (AlikeAnswer platform.runtime)
      (answers ((call platform client flavour verb).run server past).events)
      (answers ((call platform client' flavour' verb').run server' past').events)) :
    notes ((call platform client flavour verb).run server past).events =
      notes ((call platform client' flavour' verb').run server' past').events := by
  rw [verb_run, verb_run] at alike ⊢
  rcases builtRun_log platform client server past (verb.built platform.runtime)
      (verb.parse platform) with silent | ⟨spec, answer, built, asked, logged⟩
  · rw [silent] at alike ⊢
    rcases builtRun_log platform client' server' past' (verb'.built platform.runtime)
        (verb'.parse platform) with silent' | ⟨spec', answer', built', asked', logged'⟩
    · rw [silent']
    · rw [asked'] at alike
      cases alike
  · rw [asked] at alike
    rw [logged]
    rcases builtRun_log platform client' server' past' (verb'.built platform.runtime)
        (verb'.parse platform) with silent' | ⟨spec', answer', built', asked', logged'⟩
    · rw [silent'] at alike
      cases alike
    · rw [asked'] at alike
      rw [logged']
      cases alike with
      | cons same _ => exact tripLog_alike clients (built_alike verbs built built') same

/-! ### The walk over the pages -/

/-- The link to the next page, as the answer brings it. -/
def linkOf (platform : Platform) (answer : HttpOutcome) : Option Str :=
  (answered answer >>= processModel platform ScheduledEmailPage.model).toOption.bind
    ScheduledEmailPage.nextUrl

/-- The request for a page link. -/
def linkSpec (link : Str) : RequestSpec := { path := link, method := str "GET" }

/-- The records of a walk whose requests are answered so, from the given request on. -/
def pageLog (platform : Platform) (client : BaseClient) :
    RequestSpec → List HttpOutcome → List LogRecord
  | _, [] => []
  | spec, answer :: rest =>
      tripLog platform client spec answer ++
        match linkOf platform answer with
        | some link => pageLog platform client (linkSpec link) rest
        | none => []

/-- The request that is next after these answers. -/
def specAfter (platform : Platform) : RequestSpec → List HttpOutcome → Option RequestSpec
  | spec, [] => some spec
  | _, answer :: rest =>
      (linkOf platform answer).bind fun link => specAfter platform (linkSpec link) rest

theorem pageLog_concat {first spec : RequestSpec} {before : List HttpOutcome}
    (pending : specAfter platform first before = some spec) (answer : HttpOutcome) :
    pageLog platform client first (before ++ [answer]) =
      pageLog platform client first before ++ tripLog platform client spec answer := by
  induction before generalizing first with
  | nil =>
      cases pending
      change tripLog platform client spec answer ++ _ = _
      cases linkOf platform answer <;> exact List.append_nil _
  | cons earlier rest ih =>
      obtain ⟨link, found, after⟩ := Option.bind_eq_some_iff.mp pending
      rw [List.cons_append, pageLog, pageLog, found]
      dsimp only
      rw [ih after, List.append_assoc]

theorem specAfter_concat {first spec : RequestSpec} {before : List HttpOutcome}
    (pending : specAfter platform first before = some spec) (answer : HttpOutcome) :
    specAfter platform first (before ++ [answer]) = (linkOf platform answer).map linkSpec := by
  induction before generalizing first with
  | nil =>
      change (linkOf platform answer).bind _ = _
      cases linkOf platform answer <;> rfl
  | cons earlier rest ih =>
      obtain ⟨link, found, after⟩ := Option.bind_eq_some_iff.mp pending
      rw [List.cons_append, specAfter, found]
      exact ih after

/-- What a walk has logged is what its answers make it log. -/
structure Logged (platform : Platform) (client : BaseClient) (params : Items Str Value)
    (walk : Walk HttpRequest HttpOutcome LogRecord Exn IterAll ScheduledEmail) : Prop where
  log : ∀ first, listSpec platform.runtime params = .ok first →
    notes walk.events = pageLog platform client first (answers walk.events)
  silent : ∀ exception, listSpec platform.runtime params = .error exception → walk.events = []
  pending : match walk.status with
    | .suspended .entry => answers walk.events = []
    | .suspended (.within page _) => ∃ first, listSpec platform.runtime params = .ok first ∧
        specAfter platform first (answers walk.events) = nextPageSpec page
    | _ => True

theorem fetches_logged {params : Items Str Value} {server : Server} {first spec : RequestSpec}
    {before after : Walk HttpRequest HttpOutcome LogRecord Exn IterAll ScheduledEmail}
    (listed : listSpec platform.runtime params = .ok first)
    (log : notes before.events = pageLog platform client first (answers before.events))
    (pending : specAfter platform first (answers before.events) = some spec)
    (fetches : Fetches platform client server before spec after) :
    Logged platform client params after := by
  have unlisted : ∀ {events : Trace} exception,
      listSpec platform.runtime params = .error exception → events = [] :=
    fun exception raised => absurd (listed.symm.trans raised) nofun
  have asked : ∀ url headers answer,
      answers (before.events ++ roundTrip platform spec url headers answer) =
        answers before.events ++ [answer] := by
    intro url headers answer
    rw [answers_append, answers_roundTrip]
  have logged : ∀ {url headers answer}, client.prepare platform spec = .ok (url, headers) →
      ∀ other, listSpec platform.runtime params = .ok other →
        notes (before.events ++ roundTrip platform spec url headers answer) =
          pageLog platform client other
            (answers (before.events ++ roundTrip platform spec url headers answer)) := by
    intro url headers answer prepared other again
    cases listed.symm.trans again
    have fresh : tripLog platform client spec answer =
        notes (roundTrip platform spec url headers answer) := by
      rw [tripLog, prepared]
    rw [asked, pageLog_concat pending, fresh, notes_append, log]
  cases fetches with
  | refused unprepared =>
      refine ⟨?_, unlisted, trivial⟩
      intro other again
      cases listed.symm.trans again
      exact log
  | failed prepared result => exact ⟨logged prepared, unlisted, trivial⟩
  | @fetched url headers page prepared result =>
      have link : linkOf platform (answerOf platform server before.events spec url headers) =
          ScheduledEmailPage.nextUrl page := by
        rw [linkOf, result]
        rfl
      have after := specAfter_concat pending
        (answerOf platform server before.events spec url headers)
      rw [link, ← asked url headers] at after
      exact ⟨logged prepared, unlisted, first, listed, after⟩

/-- Each move of a walk keeps its log that of its answers. -/
theorem moves_logged {params : Items Str Value} {server : Server}
    (before after : Walk HttpRequest HttpOutcome LogRecord Exn IterAll ScheduledEmail)
    (logged : Logged platform client params before)
    (moves : Moves platform client server before params after) :
    Logged platform client params after := by
  have pending := logged.pending
  cases moves with
  | still ended => exact logged
  | unlisted atEntry unbuilt => exact ⟨logged.log, logged.silent, trivial⟩
  | @listed spec after atEntry built fetches =>
      rw [atEntry] at pending
      have next : specAfter platform spec (answers before.events) = some spec := by
        rw [show answers before.events = [] from pending]
        rfl
      exact fetches_logged built (logged.log spec built) next fetches
  | item inside =>
      rw [inside] at pending
      exact ⟨logged.log, logged.silent, pending⟩
  | last atEnd none => exact ⟨logged.log, logged.silent, trivial⟩
  | next atEnd more fetches =>
      rw [atEnd] at pending
      obtain ⟨first, listed, after⟩ := pending
      exact fetches_logged listed (logged.log first listed) (after.trans more) fetches

theorem walk_logged (platform : Platform) (client : BaseClient) (flavour : Flavour)
    (params : Items Str Value) (server : Server) (steps : Nat) :
    Logged platform client params (walk platform client flavour params server steps) := by
  have start : Logged platform client params (Walk.start .entry) :=
    ⟨fun _ _ => rfl, fun _ _ => rfl, rfl⟩
  exact walk_invariant platform client start moves_logged flavour steps

/-- Alike answers that bring the same link to the next page. -/
def AlikePage (platform : Platform) (answer answer' : HttpOutcome) : Prop :=
  AlikeAnswer platform.runtime answer answer' ∧ linkOf platform answer = linkOf platform answer'

theorem listSpec_alike {runtime : Runtime} {params params' : Items Str Value}
    {spec spec' : RequestSpec} (listed : listSpec runtime params = .ok spec)
    (listed' : listSpec runtime params' = .ok spec') : AlikeSpec runtime spec spec' :=
  have verbs : AlikeVerb (.scheduledEmailsList params) (.scheduledEmailsList params') := trivial
  built_alike verbs listed listed'

theorem pageLog_alike (clients : AlikeClients client client') {spec spec' : RequestSpec}
    (specs : AlikeSpec platform.runtime spec spec') {before before' : List HttpOutcome}
    (alike : List.Forall₂ (AlikePage platform) before before') :
    pageLog platform client spec before = pageLog platform client' spec' before' := by
  induction alike generalizing spec spec' with
  | nil => rfl
  | cons head tail ih =>
      obtain ⟨answer, link⟩ := head
      rw [pageLog, pageLog, tripLog_alike clients specs answer, link]
      split
      · rw [ih ⟨rfl, rfl, AlikeHeaders.refl _ _⟩]
      · rfl

theorem walk_confidential (clients : AlikeClients client client') (flavour flavour' : Flavour)
    (params params' : Items Str Value) (server server' : Server) (steps steps' : Nat)
    (alike : List.Forall₂ (AlikePage platform)
      (answers (walk platform client flavour params server steps).events)
      (answers (walk platform client' flavour' params' server' steps').events)) :
    notes (walk platform client flavour params server steps).events =
      notes (walk platform client' flavour' params' server' steps').events := by
  have here := walk_logged platform client flavour params server steps
  have there := walk_logged platform client' flavour' params' server' steps'
  cases listed : listSpec platform.runtime params with
  | error exception =>
      rw [here.silent exception listed] at alike ⊢
      cases listed' : listSpec platform.runtime params' with
      | error exception' => rw [there.silent exception' listed']
      | ok first' =>
          rw [there.log first' listed', List.forall₂_nil_left_iff.mp alike]
          rfl
  | ok first =>
      rw [here.log first listed]
      cases listed' : listSpec platform.runtime params' with
      | error exception' =>
          rw [there.silent exception' listed'] at alike ⊢
          rw [List.forall₂_nil_right_iff.mp alike]
          rfl
      | ok first' =>
          rw [there.log first' listed']
          exact pageLog_alike clients (listSpec_alike listed listed') alike

/-- The log of a run does not depend on the secrets and the contents that pass:
on clients with the same base URL and suffix, alike verbs whose calls are answered
alike log the same, and so do walks that also receive the same links. -/
theorem logs_confidential (platform : Platform) {client client' : BaseClient}
    (clients : AlikeClients client client') :
    (∀ verb verb', AlikeVerb verb verb' → ∀ flavour flavour' server server' past past',
      List.Forall₂ (AlikeAnswer platform.runtime)
          (answers ((call platform client flavour verb).run server past).events)
          (answers ((call platform client' flavour' verb').run server' past').events) →
        notes ((call platform client flavour verb).run server past).events =
          notes ((call platform client' flavour' verb').run server' past').events) ∧
    ∀ params params' flavour flavour' server server' steps steps',
      List.Forall₂ (AlikePage platform)
          (answers (walk platform client flavour params server steps).events)
          (answers (walk platform client' flavour' params' server' steps').events) →
        notes (walk platform client flavour params server steps).events =
          notes (walk platform client' flavour' params' server' steps').events := by
  constructor
  · intro verb verb' verbs flavour flavour' server server' past past' alike
    exact call_confidential clients verbs flavour flavour' server server' past past' alike
  · intro params params' flavour flavour' server server' steps steps' alike
    exact walk_confidential clients flavour flavour' params params' server server' steps steps'
      alike

/-- The default client's settings under another key. -/
def otherClient : BaseClient := ⟨str "mk_other", defaultBaseUrl, []⟩

def otherParams : Items Str Value :=
  [(str "from_", .str (str "c@example.com")), (str "to", .str (str "d@example.com")),
    (str "subject", .str (str "t")), (str "html", .str (str "<p>t</p>")),
    (str "idempotency_key", .str (str "k-2"))]

/-- A response that echoes a secret. -/
def echoing (secret : String) (content : Bytes) : HttpOutcome :=
  .response ⟨200, content, [(str "X-Request-Id", str "r-1"), (str "Authorization", str secret)]⟩

theorem logs_confidential_sample :
    notes ((call Platform.plain defaultClient .sync (.emailsSend sampleParams)).run
        (fun _ _ => echoing "mk_key" [Utf8.octet 1]) []).events =
      notes ((call Platform.plain otherClient .async (.emailsSend otherParams)).run
        (fun _ _ => echoing "mk_other" []) []).events := by
  have clients : AlikeClients defaultClient otherClient := ⟨rfl, rfl⟩
  have verbs : AlikeVerb (.emailsSend sampleParams) (.emailsSend otherParams) := by
    apply iff_of_true
    · decide
    · decide
  have secret : IsSecret Runtime.ascii (str "Authorization") := by decide
  have alike : AlikeAnswer Platform.plain.runtime (echoing "mk_key" [Utf8.octet 1])
      (echoing "mk_other" []) :=
    ⟨rfl, .cons ⟨rfl, Or.inr rfl⟩ (.cons ⟨rfl, Or.inl secret⟩ .nil)⟩
  have joined : ∀ client : BaseClient, client.baseUrl = defaultBaseUrl →
      client.buildUrl Platform.plain sendPath =
        .ok (str "https://api.mailkube.com/mta/v1/emails") := by
    intro client configured
    have url : defaultClient.buildUrl Platform.plain sendPath =
        .ok (str "https://api.mailkube.com/mta/v1/emails") :=
      eq_ok_of_toOption (by decide +kernel)
    unfold BaseClient.buildUrl at url ⊢
    rw [configured]
    exact url
  have built : Verb.built Platform.plain.runtime (.emailsSend sampleParams) = .ok _ :=
    buildSendBody_eq _ (show Declared sampleParams by unfold Declared; decide) (by decide)
  have built' : Verb.built Platform.plain.runtime (.emailsSend otherParams) = .ok _ :=
    buildSendBody_eq _ (show Declared otherParams by unfold Declared; decide) (by decide)
  apply (logs_confidential Platform.plain clients).1 _ _ verbs
  rw [call_reaches _ _ built (joined defaultClient rfl), answers_roundTrip,
    call_reaches _ _ built' (joined otherClient rfl), answers_roundTrip]
  exact .cons alike .nil

end MailkubeSdk
