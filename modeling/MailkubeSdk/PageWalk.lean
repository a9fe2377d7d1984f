import MailkubeSdk.Effect.Pager
import MailkubeSdk.Listings
import MailkubeSdk.Routes

/-
`iter_all` walks the page chain.

A server that answers each request by itself turns the client into a pager: the
listing is its first query, and the link that a body names is the next one.  The
walk simulates the cursor of that pager step by step, so what the cursor delivers
and asks is what a consumer of `iter_all` receives and causes.
-/

namespace MailkubeSdk

open Python Effect

/-- A server that answers a request without regard to the past. -/
def replying (reply : HttpRequest → HttpOutcome) : Server := fun _ request => reply request

section Chain

variable (platform : Platform) (client : BaseClient) (reply : HttpRequest → HttpOutcome)

/-- The listing under exactly the caller's filters. -/
def listing (params : Items Str Value) : Except Exn HttpRequest := do
  let query ← liftBuiltin (params.mapM fun (key, value) => do
    let text ← queryValue platform.runtime value
    .ok (key, text))
  let url ← client.buildUrl platform (str "scheduled-emails")
  .ok
    { method := str "GET", url, json := none, params := some query
      headers := client.defaultHeaders platform }

/-- The request for the page at a URL, with no filters. -/
def pageRequest (url : Str) : HttpRequest where
  method := str "GET"
  url := url
  json := none
  params := none
  headers := client.defaultHeaders platform

/-- The request for the page a link names. -/
def visit (link : Str) : Except Exn HttpRequest :=
  (client.buildUrl platform link).map (pageRequest platform client)

/-- The pages that start with the listing under the given filters. -/
def pageChain (params : Items Str Value) : Pager HttpRequest Listing Exn ScheduledEmail where
  first := listing platform client params
  fetch request := readListing platform (reply request)
  items := Listing.items
  next page := page.next.map (visit platform client)

/-! ### What the walk asks -/

/-- The request a specification becomes. -/
def issue (spec : RequestSpec) : Except Exn HttpRequest := do
  let (url, headers) ← client.prepare platform spec
  .ok (httpRequest spec url headers)

theorem issue_refused {spec : RequestSpec} {exn : Exn}
    (unprepared : client.prepare platform spec = .error exn) :
    issue platform client spec = .error exn := by
  unfold issue
  rw [unprepared]
  rfl

theorem issue_of_prepared {spec : RequestSpec} {url : Str} {headers : Items Str Str}
    (prepared : client.prepare platform spec = .ok (url, headers)) :
    issue platform client spec = .ok (httpRequest spec url headers) := by
  unfold issue
  rw [prepared]
  rfl

/-- `_list_spec` asks for the listing. -/
theorem listing_eq (params : Items Str Value) :
    listing platform client params =
      liftBuiltin (listSpec platform.runtime params) >>= issue platform client := by
  unfold listing listSpec issue BaseClient.prepare scheduledPath
  cases params.mapM (fun (key, value) => do
      let text ← queryValue platform.runtime value
      .ok (key, text)) with
  | error exception => rfl
  | ok query =>
      simp only [liftBuiltin_ok, bind, Except.bind]
      cases client.buildUrl platform (str "scheduled-emails") <;> rfl

/-- `_next_page_spec` asks for the page the link names. -/
theorem visit_eq (link : Str) :
    visit platform client link =
      issue platform client { path := link, method := str "GET" } := by
  unfold visit issue BaseClient.prepare
  cases client.buildUrl platform link <;> rfl

theorem next_eq (page : ScheduledEmailPage) :
    (pageListing page).next.map (visit platform client) =
      (nextPageSpec page).map (issue platform client) := by
  unfold pageListing nextPageSpec
  cases page.nextUrl with
  | none => rfl
  | some link => exact congrArg some (visit_eq platform client link)

/-! ### Simulation -/

def positionOf : Status IterAll Exn → Pager.Position Listing Exn ScheduledEmail
  | .suspended .entry => .before
  | .suspended (.within page rest) => .within (pageListing page) rest
  | .returned => .returned
  | .raised exn => .raised exn

theorem positionOf_eq_within {status : Status IterAll Exn} {listed : Listing}
    {rest : List ScheduledEmail} (same : positionOf status = .within listed rest) :
    ∃ page, status = .suspended (.within page rest) ∧ pageListing page = listed := by
  cases status with
  | suspended state =>
      cases state with
      | entry => cases same
      | within page more =>
          cases same
          exact ⟨page, rfl, rfl⟩
  | returned => cases same
  | raised exn => cases same

theorem positionOf_eq_returned {status : Status IterAll Exn}
    (same : positionOf status = .returned) : status = .returned := by
  cases status with
  | suspended state => cases state <;> cases same
  | returned => rfl
  | raised exn => cases same

theorem positionOf_eq_raised {status : Status IterAll Exn} {exn : Exn}
    (same : positionOf status = .raised exn) : status = .raised exn := by
  cases status with
  | suspended state => cases state <;> cases same
  | returned => cases same
  | raised other =>
      cases same
      rfl

/-- What the cursor keeps of a walk. -/
def cursorOf (walk : Walk HttpRequest HttpOutcome LogRecord Exn IterAll ScheduledEmail) :
    Pager.Cursor HttpRequest Listing Exn ScheduledEmail :=
  ⟨positionOf walk.status, walk.items, queries walk.events⟩

variable {platform client reply} {params : Items Str Value}

theorem fetch_failed {request : HttpRequest} {exn : Exn}
    (result : readPage platform (reply request) = .error exn) :
    (pageChain platform client reply params).fetch request = .error exn := by
  change readListing platform (reply request) = _
  rw [readListing_eq, result]
  rfl

theorem fetch_page {request : HttpRequest} {page : ScheduledEmailPage}
    (result : readPage platform (reply request) = .ok page) :
    (pageChain platform client reply params).fetch request = .ok (pageListing page) := by
  change readListing platform (reply request) = _
  rw [readListing_eq, result]
  rfl

/-- A round trip is a pointer followed. -/
theorem cursorOf_fetches {spec : RequestSpec}
    {before after : Walk HttpRequest HttpOutcome LogRecord Exn IterAll ScheduledEmail}
    (fetches : Fetches platform client (replying reply) before spec after) :
    cursorOf after = (pageChain platform client reply params).follow before.items
      (queries before.events) (some (issue platform client spec)) := by
  have asked : ∀ url headers, queries (before.events ++ roundTrip platform spec url headers
      (reply (httpRequest spec url headers))) =
        queries before.events ++ [httpRequest spec url headers] := by
    intro url headers
    rw [queries_append, queries_roundTrip]
  cases fetches with
  | refused unprepared =>
      rw [issue_refused platform client unprepared]
      rfl
  | @failed url headers exn prepared result =>
      have failed : (pageChain platform client reply params).fetch
          (httpRequest spec url headers) = .error exn := fetch_failed result
      rw [issue_of_prepared platform client prepared, Pager.follow_failed failed, ← asked]
      rfl
  | @fetched url headers page prepared result =>
      have found : (pageChain platform client reply params).fetch
          (httpRequest spec url headers) = .ok (pageListing page) := fetch_page result
      rw [issue_of_prepared platform client prepared, Pager.follow_fetched found, ← asked]
      rfl

/-- One step of the walk is one step of the cursor. -/
theorem cursorOf_moves
    {before after : Walk HttpRequest HttpOutcome LogRecord Exn IterAll ScheduledEmail}
    (moves : Moves platform client (replying reply) before params after) :
    cursorOf after = (pageChain platform client reply params).step (cursorOf before) := by
  have steps : ∀ {position}, positionOf before.status = position →
      (pageChain platform client reply params).step (cursorOf before) =
        (pageChain platform client reply params).step
          ⟨position, before.items, queries before.events⟩ := by
    rintro position rfl
    rfl
  cases moves with
  | still ended =>
      cases status : before.status with
      | suspended state => exact absurd status (ended state)
      | returned =>
          unfold cursorOf
          rw [status]
          rfl
      | raised exn =>
          unfold cursorOf
          rw [status]
          rfl
  | @unlisted exception atEntry unbuilt =>
      have refused : (pageChain platform client reply params).first =
          .error (.builtin exception) := by
        refine (listing_eq platform client params).trans ?_
        rw [unbuilt]
        rfl
      rw [steps (congrArg positionOf atEntry)]
      change _ = (pageChain platform client reply params).follow before.items _
        (some (pageChain platform client reply params).first)
      rw [refused]
      rfl
  | @listed spec after atEntry built fetches =>
      have first : (pageChain platform client reply params).first =
          issue platform client spec := by
        refine (listing_eq platform client params).trans ?_
        rw [built]
        rfl
      rw [steps (congrArg positionOf atEntry), cursorOf_fetches fetches, ← first]
      rfl
  | item inside =>
      rw [steps (congrArg positionOf inside)]
      rfl
  | @last page atEnd none =>
      rw [steps (congrArg positionOf atEnd)]
      change _ = (pageChain platform client reply params).follow before.items _
        ((pageListing page).next.map (visit platform client))
      rw [next_eq, none]
      rfl
  | @next page spec after atEnd more fetches =>
      rw [steps (congrArg positionOf atEnd), cursorOf_fetches fetches]
      change _ = (pageChain platform client reply params).follow before.items _
        ((pageListing page).next.map (visit platform client))
      rw [next_eq, more]
      rfl

theorem cursorOf_walk (flavour : Flavour) (steps : Nat) :
    cursorOf (walk platform client flavour params (replying reply) steps) =
      (pageChain platform client reply params).step^[steps] Pager.start := by
  induction steps with
  | zero => rfl
  | succ steps ih =>
      rw [Function.iterate_succ_apply', ← ih]
      exact cursorOf_moves (walk_moves platform client flavour params _ steps)

/-! ### The pages of the chain -/

/-- A page of the chain lists what the body of the answer to its request does. -/
theorem chain_page {n : Nat} {page : Listing}
    (here : (pageChain platform client reply params).page n = some page) :
    ∃ request response body, (pageChain platform client reply params).queryAt n = some request ∧
      reply request = .response response ∧
      decodeJson platform.runtime response.content = .ok (.dict body) ∧
        page = ⟨listedItems platform.lax body, listedLink body⟩ := by
  obtain ⟨request, atQuery, fetched⟩ := Pager.page_eq_some here
  change readListing platform (reply request) = .ok page at fetched
  obtain ⟨response, given, parsed⟩ := bind_eq_ok_iff.mp fetched
  obtain ⟨read, processed, listed⟩ := bind_eq_ok_iff.mp parsed
  obtain ⟨value, decoded⟩ := decoded_of_processed processed
  obtain ⟨_, ⟨body, rfl⟩, _⟩ := (processModel_eq_ok_iff decoded).mp processed
  refine ⟨request, response, body, Pager.queryAt_of_query atQuery, answered_eq_ok given, decoded,
    ?_⟩
  unfold pageBody at listed
  rw [decoded] at listed
  exact (Except.ok.inj listed).symm

end Chain

/-! ### The walk reads the chain lazily -/

/-- What a consumer of a walk over a chain may rely on. -/
structure ReadsLazily (chain : Pager HttpRequest Listing Exn ScheduledEmail)
    (walk : Nat → Walk HttpRequest HttpOutcome LogRecord Exn IterAll ScheduledEmail) : Prop where
  /-- Nothing is lost, repeated or reordered. -/
  ordered : ∀ steps, ∃ n, (walk steps).items <+: chain.delivered n
  complete : ∀ n page, chain.page n = some page →
    ∃ steps, (walk steps).items = chain.delivered (n + 1)
  /-- The requests are those of the chain, in order. -/
  asked : ∀ steps, ∃ n, queries (walk steps).events = chain.asked n
  idle : queries (walk 0).events = []
  /-- A consumer gets every item there is, and the `count`-th one for as many
  requests as the shortest run of pages that holds it is long. -/
  served : ∀ n page count, chain.page n = some page → count ≤ (chain.delivered (n + 1)).length →
    ∃ steps, (walk steps).items.length = count ∧
      ∀ earlier < steps, (walk earlier).items.length < count
  demanded : ∀ count steps, 0 < count → (walk steps).items.length = count →
    (∀ earlier < steps, (walk earlier).items.length < count) →
      IsLeast {n | count ≤ (chain.delivered n).length} (queries (walk steps).events).length
  ends : ∀ n page, chain.page n = some page → chain.next page = none →
    ∃ steps, (walk steps).status = .returned ∧ (walk steps).items = chain.delivered (n + 1) ∧
      (queries (walk steps).events).length = n + 1
  fails : ∀ n exn, chain.Fails n exn →
    ∃ steps, (walk steps).status = .raised exn ∧ (walk steps).items = chain.delivered n
  /-- There is no other way to stop. -/
  returned : ∀ steps, (walk steps).status = .returned →
    ∃ n page, chain.page n = some page ∧ chain.next page = none ∧
      (walk steps).items = chain.delivered (n + 1)
  raised : ∀ steps exn, (walk steps).status = .raised exn →
    ∃ n, chain.Fails n exn ∧ (walk steps).items = chain.delivered n

theorem readsLazily_of_cursor {chain : Pager HttpRequest Listing Exn ScheduledEmail}
    {walk : Nat → Walk HttpRequest HttpOutcome LogRecord Exn IterAll ScheduledEmail}
    (simulates : ∀ steps, cursorOf (walk steps) = chain.step^[steps] Pager.start) :
    ReadsLazily chain walk := by
  have items : ∀ steps, (walk steps).items = (chain.step^[steps] Pager.start).items :=
    fun steps => congrArg Pager.Cursor.items (simulates steps)
  have asked : ∀ steps, queries (walk steps).events = (chain.step^[steps] Pager.start).asked :=
    fun steps => congrArg Pager.Cursor.asked (simulates steps)
  have position : ∀ steps, positionOf (walk steps).status =
      (chain.step^[steps] Pager.start).position :=
    fun steps => congrArg Pager.Cursor.position (simulates steps)
  have sound : ∀ steps, chain.Sound (cursorOf (walk steps)) := by
    intro steps
    rw [simulates]
    exact Pager.iterate_sound steps
  refine ⟨?_, ?_, ?_, ?_, ?_, ?_, ?_, ?_, ?_, ?_⟩
  · intro steps
    rw [items]
    exact Pager.items_prefix steps
  · intro n page here
    obtain ⟨steps, reached⟩ := Pager.reaches_page here
    exact ⟨steps, by rw [items, reached]⟩
  · intro steps
    rw [asked]
    exact Pager.asked_chain steps
  · exact asked 0
  · intro n page count here enough
    obtain ⟨steps, holds, firstTime⟩ := Pager.exists_holding here enough
    refine ⟨steps, by rw [items, holds], fun earlier before => ?_⟩
    rw [items]
    exact firstTime earlier before
  · intro count steps positive holds firstTime
    rw [asked]
    apply Pager.asked_least positive
    · rw [← items, holds]
    · intro earlier before
      rw [← items]
      exact firstTime earlier before
  · intro n page here last
    obtain ⟨steps, reached⟩ := Pager.reaches_end here last
    refine ⟨steps, positionOf_eq_returned ?_, ?_, ?_⟩
    · rw [position, reached]
    · rw [items, reached]
    · rw [asked, reached]
      exact Pager.asked_length here
  · intro n exn broken
    obtain ⟨steps, reached⟩ := Pager.reaches_failure broken
    refine ⟨steps, positionOf_eq_raised ?_, ?_⟩
    · rw [position, reached]
    · rw [items, reached]
  · intro steps stopped
    have account := sound steps
    unfold cursorOf at account
    rw [stopped] at account
    obtain ⟨n, page, here, last, delivered, _⟩ := account
    exact ⟨n, page, here, last, delivered⟩
  · intro steps exn stopped
    have account := sound steps
    unfold cursorOf at account
    rw [stopped] at account
    obtain ⟨n, broken, delivered, _⟩ := account
    exact ⟨n, broken, delivered⟩

/-- `iter_all` reads the chain of pages lazily.  The chain starts with the listing under the
caller's filters; a page of it lists the objects of its body, a body with a link leads to
the page at that link, and one without ends the chain. -/
theorem iterAll_readsLazily (platform : Platform) (client : BaseClient) (flavour : Flavour)
    (reply : HttpRequest → HttpOutcome) (params : Items Str Value) :
    let chain := pageChain platform client reply params
    ReadsLazily chain (walk platform client flavour params (replying reply)) ∧
      chain.query 0 = some (listing platform client params) ∧
      ∀ n page, chain.page n = some page →
        (∃ request response body, chain.queryAt n = some request ∧
          reply request = .response response ∧
          decodeJson platform.runtime response.content = .ok (.dict body) ∧
            page = ⟨listedItems platform.lax body, listedLink body⟩) ∧
        (∀ link, page.next = some link →
          chain.query (n + 1) =
            some ((client.buildUrl platform link).map (pageRequest platform client))) ∧
        (page.next = none → chain.query (n + 1) = none) := by
  intro chain
  refine ⟨readsLazily_of_cursor (cursorOf_walk flavour), rfl, ?_⟩
  intro n page here
  have leads : chain.query (n + 1) = page.next.map (visit platform client) :=
    Pager.query_succ here
  refine ⟨chain_page here, ?_, ?_⟩
  · intro link next
    rw [leads, next]
    rfl
  · intro last
    rw [leads, last]
    rfl

/-- A server of two pages of one item each; the page without filters is the second. -/
def twoPages : HttpRequest → HttpOutcome := fun request =>
  .response ⟨200,
    if request.params = none then asciiBytes "\x7b\"data\": [\x7b\"id\": \"se_2\"\x7d]\x7d"
    else asciiBytes ("\x7b\"data\": [\x7b\"id\": \"se_1\"\x7d], " ++
      "\"pagination\": \x7b\"steps\": \x7b\"next\": \"scheduled-emails?page=2\"\x7d\x7d\x7d"), []⟩

theorem iterAll_readsLazily_sample :
    ∃ steps, (walk Platform.plain defaultClient .async [] (replying twoPages) steps).status =
        .returned ∧
      (walk Platform.plain defaultClient .async [] (replying twoPages) steps).items.length = 2 ∧
      (queries (walk Platform.plain defaultClient .async [] (replying twoPages)
        steps).events).length = 2 := by
  obtain ⟨lazily, _, pages⟩ :=
    iterAll_readsLazily Platform.plain defaultClient .async twoPages []
  have second : ((pageChain Platform.plain defaultClient twoPages []).page 1).map Listing.next =
      some none := by decide +kernel
  obtain ⟨page, here, last⟩ := Option.map_eq_some_iff.mp second
  obtain ⟨steps, returned, items, asked⟩ :=
    lazily.ends 1 page here (congrArg (Option.map _) last)
  refine ⟨steps, returned, ?_, asked⟩
  rw [items]
  decide +kernel

end MailkubeSdk
