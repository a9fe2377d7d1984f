import MailkubeSdk.Confinement
import MailkubeSdk.PageWalk

/-
What a page link can raise.

The guard of `_build_url` parses the joined URL, and `urlsplit` raises on some
authorities.  Nothing catches that exception, so a link keeps to the package's
own exceptions exactly when its authority is one `urlsplit` takes.  A walk then
hands the URL to the HTTP library, which takes none with a lone surrogate.
-/

namespace MailkubeSdk

open Python Effect Url

variable {platform : Platform} {client : BaseClient}

/-- A path that leads to a URL on the base's origin, or to an exception of the package. -/
def LinkSettled (platform : Platform) (client : BaseClient) (path : Str) : Prop :=
  (∃ url, client.buildUrl platform path = .ok url ∧
      origin platform.runtime.hosts url = origin platform.runtime.hosts client.baseUrl) ∨
    ∃ exn, client.buildUrl platform path = .error exn ∧ exn.isMailkubeError = true

/-- A link that is empty or has an authority `urlsplit` takes. -/
def ReadableLink (rules : HostRules) (link : Str) : Prop :=
  link = [] ∨ acceptsNetloc rules (authorityOf link) = true

/-- The step from one walk to the next raised, and sent nothing. -/
structure RaisesUnsent (before after : Walk HttpRequest HttpOutcome LogRecord Exn IterAll
    ScheduledEmail) (exn : Exn) : Prop where
  raised : after.status = .raised exn
  unsent : queries after.events = queries before.events

/-- The step from one walk to the next raised, and no response came. -/
structure RaisesUnanswered (before after : Walk HttpRequest HttpOutcome LogRecord Exn IterAll
    ScheduledEmail) (exn : Exn) : Prop where
  raised : after.status = .raised exn
  unanswered : ∀ response, answers after.events ≠ answers before.events ++ [.response response]

/-- How an open HTTP library takes the URL of a page: it encodes it, and fails in ways of
its own only. -/
structure HandlesUrls (platform : Platform) (client : BaseClient) (server : Server) : Prop where
  refuses : ∀ past url, Utf8.encode url = none →
    server past (pageRequest platform client url) = .other .unicodeEncodeError
  takes : ∀ past url exception, Utf8.encode url ≠ none →
    server past (pageRequest platform client url) ≠ .other exception

/-- A link that resolves to a URL on another origin, or to one that has a UTF-8 encoding. -/
def EncodableLink (platform : Platform) (client : BaseClient) (link : Str) : Prop :=
  ∀ url, urljoin platform.runtime.hosts client.baseUrl link = some url →
    origin platform.runtime.hosts url = origin platform.runtime.hosts client.baseUrl →
      Utf8.encode url ≠ none

/-- The walk comes to the end of a page with this link. -/
def MeetsLink (platform : Platform) (client : BaseClient) (flavour : Flavour)
    (params : Items Str Value) (server : Server) (steps : Nat) (link : Str) : Prop :=
  ∃ page, (walk platform client flavour params server steps).status =
    .suspended (.within page []) ∧ page.nextUrl = some link

/-! ### The guard -/

theorem buildUrl_unjoined {path : Str}
    (unjoined : urljoin platform.runtime.hosts client.baseUrl path = none) :
    client.buildUrl platform path = .error (.builtin .valueError) := by
  unfold BaseClient.buildUrl
  rw [unjoined]

theorem buildUrl_joined (base : HttpBase platform.runtime.hosts client.baseUrl) {path url : Str}
    (joined : urljoin platform.runtime.hosts client.baseUrl path = some url) :
    client.buildUrl platform path =
      if origin platform.runtime.hosts url = origin platform.runtime.hosts client.baseUrl then
        .ok url
      else
        .error (.mailkubeError (str "Refusing to follow " ++ platform.runtime.reprStr url ++
          str ": it is not on the configured API origin.")) := by
  obtain ⟨read, found⟩ := base.origin_of_urljoin joined
  unfold BaseClient.buildUrl originOf
  rw [joined]
  simp only [found, base.origin_text, bind, Except.bind, Option.some.injEq, ne_eq, ite_not]

theorem readableLink_iff (base : HttpBase platform.runtime.hosts client.baseUrl) (path : Str) :
    ReadableLink platform.runtime.hosts path ↔
      urljoin platform.runtime.hosts client.baseUrl path ≠ none := by
  unfold ReadableLink
  rw [ne_eq, base.urljoin_eq_none_iff, not_and_or, not_not, Bool.not_eq_false]

theorem linkSettled_iff (base : HttpBase platform.runtime.hosts client.baseUrl) (path : Str) :
    LinkSettled platform client path ↔ ReadableLink platform.runtime.hosts path := by
  rw [readableLink_iff base]
  unfold LinkSettled
  cases joined : urljoin platform.runtime.hosts client.baseUrl path with
  | none =>
      rw [buildUrl_unjoined joined]
      apply iff_of_false
      · rintro (⟨url, built, _⟩ | ⟨exn, raised, inside⟩)
        · cases built
        · cases raised
          cases inside
      · intro different
        exact different rfl
  | some url =>
      rw [buildUrl_joined base joined]
      refine iff_of_true ?_ (Option.some_ne_none url)
      by_cases same : origin platform.runtime.hosts url =
          origin platform.runtime.hosts client.baseUrl
      · rw [if_pos same]
        exact .inl ⟨url, rfl, same⟩
      · rw [if_neg same]
        exact .inr ⟨_, rfl, rfl⟩

/-! ### The walk -/

theorem walk_follows {flavour : Flavour} {params : Items Str Value} {server : Server} {steps : Nat}
    {page : ScheduledEmailPage} {link : Str}
    (atEnd : (walk platform client flavour params server steps).status =
      .suspended (.within page []))
    (next : page.nextUrl = some link) :
    Fetches platform client server (walk platform client flavour params server steps)
      { path := link, method := str "GET" }
      (walk platform client flavour params server (steps + 1)) := by
  rw [walk_succ platform client, Walk.advance_suspended atEnd,
    iterAll_run_next platform client (nextPageSpec_of_link next)]
  exact resume_fetches platform client server _ _

theorem walk_ends {flavour : Flavour} {params : Items Str Value} {server : Server} {steps : Nat}
    {page : ScheduledEmailPage}
    (atEnd : (walk platform client flavour params server steps).status =
      .suspended (.within page []))
    (last : page.nextUrl = none) :
    (walk platform client flavour params server (steps + 1)).status = .returned := by
  rw [walk_succ platform client, Walk.advance_suspended atEnd,
    iterAll_run_last platform client (nextPageSpec_of_none last)]
  rfl

/-- At the end of a page, the step that follows the link raises before it sends
anything exactly when the link is refused. -/
theorem raisesUnsent_iff {flavour : Flavour} {params : Items Str Value} {server : Server}
    {steps : Nat} {page : ScheduledEmailPage} {link : Str}
    (atEnd : (walk platform client flavour params server steps).status =
      .suspended (.within page []))
    (next : page.nextUrl = some link) {exn : Exn} :
    RaisesUnsent (walk platform client flavour params server steps)
        (walk platform client flavour params server (steps + 1)) exn ↔
      client.buildUrl platform link = .error exn := by
  have sent : ∀ spec url headers answer,
      ¬queries ((walk platform client flavour params server steps).events ++
          roundTrip platform spec url headers answer) =
        queries (walk platform client flavour params server steps).events := by
    intro spec url headers answer same
    rw [queries_append, queries_roundTrip, List.append_right_eq_self] at same
    cases same
  have fetches := walk_follows atEnd next
  generalize walk platform client flavour params server (steps + 1) = after at fetches ⊢
  cases fetches with
  | refused unprepared =>
      rw [prepare_eq_error_iff.mp unprepared]
      constructor
      · intro unsent
        cases unsent.raised
        rfl
      · intro same
        cases same
        exact ⟨rfl, rfl⟩
  | failed prepared result =>
      rw [(prepare_eq_ok_iff.mp prepared).1]
      exact iff_of_false (fun unsent => sent _ _ _ _ unsent.unsent) nofun
  | fetched prepared result =>
      rw [(prepare_eq_ok_iff.mp prepared).1]
      exact iff_of_false (fun unsent => sent _ _ _ _ unsent.unsent) nofun

theorem encodable_of_built {link url : Str} (built : client.buildUrl platform link = .ok url) :
    EncodableLink platform client link ↔ Utf8.encode url ≠ none := by
  obtain ⟨joined, own, read, readBase⟩ := (client.buildUrl_eq_ok_iff platform).mp built
  constructor
  · intro encodable
    exact encodable url joined (read.trans readBase.symm)
  · intro encodes other found _
    rw [joined] at found
    cases found
    exact encodes

theorem readable_of_built (base : HttpBase platform.runtime.hosts client.baseUrl) {link url : Str}
    (built : client.buildUrl platform link = .ok url) :
    ReadableLink platform.runtime.hosts link := by
  rw [readableLink_iff base, ((client.buildUrl_eq_ok_iff platform).mp built).1]
  exact Option.some_ne_none url

theorem refused_settled_iff (base : HttpBase platform.runtime.hosts client.baseUrl) {link : Str}
    {exn : Exn} (refused : client.buildUrl platform link = .error exn) :
    exn.isMailkubeError = true ↔
      ReadableLink platform.runtime.hosts link ∧ EncodableLink platform client link := by
  have away : EncodableLink platform client link := by
    intro url joined same
    rw [buildUrl_joined base joined, if_pos same] at refused
    cases refused
  rw [← linkSettled_iff base, and_iff_left away]
  constructor
  · exact fun inside => .inr ⟨exn, refused, inside⟩
  · rintro (⟨url, built, _⟩ | ⟨other, raised, inside⟩)
    · rw [refused] at built
      cases built
    · rw [refused] at raised
      cases raised
      exact inside

theorem HandlesUrls.encodes {server : Server} (handles : HandlesUrls platform client server)
    {past : Trace} {url : Str}
    (taken : ∀ exception, server past (pageRequest platform client url) ≠ .other exception) :
    Utf8.encode url ≠ none :=
  fun unencodable => taken _ (handles.refuses past url unencodable)

theorem answerOf_page (server : Server) (events : Trace) (link url : Str) :
    ∃ past, answerOf platform server events { path := link, method := str "GET" } url
        ((client.defaultHeaders platform).update []) =
      server past (pageRequest platform client url) := ⟨_, rfl⟩

theorem answers_trip (events : Trace) (link url : Str) (answer : HttpOutcome) :
    answers (events ++ roundTrip platform { path := link, method := str "GET" } url
        ((client.defaultHeaders platform).update []) answer) = answers events ++ [answer] := by
  rw [answers_append, answers_roundTrip]

/-- At the end of a page, the step that follows the link raises only the package's
exceptions for want of a response, exactly when the link can be read and encoded. -/
theorem walk_settled_iff (base : HttpBase platform.runtime.hosts client.baseUrl) {flavour : Flavour}
    {params : Items Str Value} {server : Server} (handles : HandlesUrls platform client server)
    {steps : Nat} {page : ScheduledEmailPage} {link : Str}
    (atEnd : (walk platform client flavour params server steps).status =
      .suspended (.within page []))
    (next : page.nextUrl = some link) :
    (∀ exn, RaisesUnanswered (walk platform client flavour params server steps)
        (walk platform client flavour params server (steps + 1)) exn →
          exn.isMailkubeError = true) ↔
      ReadableLink platform.runtime.hosts link ∧ EncodableLink platform client link := by
  have fetches := walk_follows atEnd next
  generalize walk platform client flavour params server (steps + 1) = after at fetches ⊢
  generalize walk platform client flavour params server steps = before at fetches ⊢
  cases fetches with
  | @refused exn unprepared =>
      rw [← refused_settled_iff base (prepare_eq_error_iff.mp unprepared)]
      constructor
      · intro inside
        apply inside exn ⟨rfl, fun response same => ?_⟩
        exact List.cons_ne_nil _ _ (List.self_eq_append_right.mp same)
      · intro inside other unanswered
        cases unanswered.raised
        exact inside
  | @failed url headers exn prepared result =>
      obtain ⟨built, rfl⟩ := prepare_eq_ok_iff.mp prepared
      rw [and_iff_right (readable_of_built base built), encodable_of_built built]
      obtain ⟨past, asked⟩ := answerOf_page server before.events link url
      rw [asked] at result ⊢
      have brought := @answers_trip platform client before.events link url
        (server past (pageRequest platform client url))
      cases answer : server past (pageRequest platform client url) with
      | response response =>
          rw [answer] at brought
          refine iff_of_true ?_ (handles.encodes (fun _ => by rw [answer]; exact nofun))
          intro other unanswered
          exact absurd brought (unanswered.unanswered response)
      | other exception =>
          rw [answer] at brought result
          cases result
          refine iff_of_false ?_ (fun encodes => handles.takes _ _ _ encodes answer)
          intro inside
          have raised := inside (.builtin exception) ⟨rfl, fun response same => ?_⟩
          · cases raised
          · cases List.append_cancel_left (brought.symm.trans same)
      | _ =>
          rw [answer] at result
          cases result
          refine iff_of_true ?_ (handles.encodes (fun _ => by rw [answer]; exact nofun))
          intro other unanswered
          cases unanswered.raised
          rfl
  | @fetched url headers page prepared result =>
      obtain ⟨built, rfl⟩ := prepare_eq_ok_iff.mp prepared
      rw [and_iff_right (readable_of_built base built), encodable_of_built built]
      obtain ⟨past, asked⟩ := answerOf_page server before.events link url
      rw [asked] at result
      obtain ⟨response, given, _⟩ := bind_eq_ok_iff.mp result
      refine iff_of_true ?_ (handles.encodes (fun _ => by rw [answered_eq_ok given]; exact nofun))
      intro other unanswered
      cases unanswered.raised

/-- Before a server that answers a request alike every time, a walk comes to the links
of the pages of the chain. -/
theorem meetsLink_iff {flavour : Flavour} {params : Items Str Value}
    {reply : HttpRequest → HttpOutcome} {link : Str} :
    (∃ steps, MeetsLink platform client flavour params (replying reply) steps link) ↔
      ∃ n page, (pageChain platform client reply params).page n = some page ∧
        page.next = some link := by
  have simulates := @cursorOf_walk platform client reply params flavour
  constructor
  · rintro ⟨steps, page, atEnd, next⟩
    have sound : (pageChain platform client reply params).Sound
        (cursorOf (walk platform client flavour params (replying reply) steps)) := by
      rw [simulates]
      exact Pager.iterate_sound steps
    unfold cursorOf at sound
    rw [atEnd] at sound
    obtain ⟨n, taken, here, _⟩ := sound
    exact ⟨n, _, here, next⟩
  · rintro ⟨n, page, here, next⟩
    obtain ⟨steps, reached⟩ := Pager.reaches_page here
    have position := congrArg Pager.Cursor.position (simulates steps)
    rw [reached] at position
    obtain ⟨found, atEnd, rfl⟩ := positionOf_eq_within position
    exact ⟨steps, found, atEnd, next⟩

/-- The default client's base, as `urlsplit` reads it. -/
def defaultHttpBase : HttpBase Platform.plain.runtime.hosts defaultClient.baseUrl :=
  (show defaultClient.baseUrl = defaultBase.toAbsoluteUrl.text by decide) ▸
    defaultBase.toAbsoluteUrl.httpBase (by decide)

def bracketLink : Str := str "https://[next"

/-- A library that encodes its URLs, before a server that answers all of them alike. -/
def encodingServer (response : Response) : Server := fun _ request =>
  if Utf8.encode request.url = none then .other .unicodeEncodeError else .response response

theorem encodingServer_handles (response : Response) :
    HandlesUrls platform client (encodingServer response) where
  refuses _ _ unencodable := if_pos unencodable
  takes past url _ encodes answer := by
    have taken : encodingServer response past (pageRequest platform client url) =
        .response response := if_neg encodes
    rw [taken] at answer
    cases answer

/-- A page without items whose link has a lone surrogate. -/
def surrogatePage : Response :=
  ⟨200, asciiBytes ("\x7b\"pagination\": \x7b\"steps\": " ++
    "\x7b\"next\": \"https://api.mailkube.com/\\ud800\"\x7d\x7d\x7d"), []⟩

def surrogateLink : Str := str "https://api.mailkube.com/" ++ [Utf8.codePoint 0xD800]

private theorem surrogate_unencodable :
    ¬EncodableLink Platform.plain defaultClient surrogateLink := by
  intro encodable
  have joined : urljoin Platform.plain.runtime.hosts defaultClient.baseUrl surrogateLink =
      some surrogateLink := by decide +kernel
  have same : origin Platform.plain.runtime.hosts surrogateLink =
      origin Platform.plain.runtime.hosts defaultClient.baseUrl := by decide +kernel
  exact encodable surrogateLink joined same (by decide +kernel)

def pageTwoLink : Str := str "https://api.mailkube.com/mta/v1/scheduled-emails?page=2"

def pageTwoReply : HttpRequest → HttpOutcome := fun _ =>
  .response ⟨200, asciiBytes ("\x7b\"pagination\": \x7b\"steps\": \x7b\"next\": " ++
    "\"https://api.mailkube.com/mta/v1/scheduled-emails?page=2\"\x7d\x7d, " ++
    "\"data\": [\x7b\"id\": \"se_1\"\x7d]\x7d"), []⟩

theorem pageTwo_fetch (request : HttpRequest) :
    ∃ page, readListing Platform.plain (pageTwoReply request) = .ok page ∧
      page.next = some pageTwoLink := by
  have read : (readListing Platform.plain (pageTwoReply request)).toOption.bind Listing.next =
      some pageTwoLink := by
    change (readListing Platform.plain (pageTwoReply ⟨[], [], none, none, []⟩)).toOption.bind _ = _
    decide +kernel
  obtain ⟨page, found, next⟩ := Option.bind_eq_some_iff.mp read
  exact ⟨page, eq_ok_of_toOption found, next⟩

theorem pageTwo_listed {url : Str}
    (listed : client.buildUrl Platform.plain scheduledPath = .ok url) :
    ∃ request, (pageChain Platform.plain client pageTwoReply []).query 0 = some (.ok request) := by
  have asked : listing Platform.plain client [] = .ok ⟨str "GET", url, none, some [],
      client.defaultHeaders Platform.plain⟩ := by
    change client.buildUrl Platform.plain (str "scheduled-emails") = .ok url at listed
    unfold listing
    rw [listed]
    rfl
  exact ⟨_, congrArg some asked⟩

theorem pageTwo_meets {flavour : Flavour} {params : Items Str Value} {steps : Nat} {link : Str}
    (meets : MeetsLink Platform.plain client flavour params (replying pageTwoReply) steps link) :
    link = pageTwoLink := by
  obtain ⟨n, page, here, next⟩ := meetsLink_iff.mp ⟨steps, meets⟩
  obtain ⟨request, _, fetched⟩ := Pager.page_eq_some here
  obtain ⟨same, found, leads⟩ := pageTwo_fetch request
  have samePage : page = same := Except.ok.inj (fetched.symm.trans found)
  rw [samePage, leads] at next
  exact (Option.some.inj next).symm

end MailkubeSdk
