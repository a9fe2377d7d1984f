import MailkubeSdk.Envelope
import MailkubeSdk.Listings
import MailkubeSdk.Requests
import MailkubeSdk.Routes

/-
The credential stays on the origin of the base.

Every URL is built by the guarded join, so every request the HTTP library is
handed has the scheme and the authority of the base in the RFC 3986 reading.  A
page link that leads elsewhere stops the walk at the guard, after the items of
the pages before it.
-/

namespace MailkubeSdk

open Python Effect

/-- The URL has the scheme of the base, up to letter case, and its authority. -/
def OnOrigin (base : Url.AbsoluteUrl) (url : Str) : Prop :=
  ∃ scheme, Url.rfcScheme url = some scheme ∧ lowerAscii scheme = lowerAscii base.scheme ∧
    Url.rfcAuthority url = some base.authority

/-- A request on the base's origin that carries the client's credential. -/
def CredentialKept (client : BaseClient) (base : Url.AbsoluteUrl) (request : HttpRequest) : Prop :=
  OnOrigin base request.url ∧
    Items.get request.headers (str "Authorization") = some (str "Bearer " ++ client.apiKey)

/-- The request's own headers leave the credential alone. -/
def LeavesCredential (spec : RequestSpec) : Prop :=
  str "Authorization" ∉ Items.keys spec.headers

/-! ### Request builders -/

theorem built_leaves (runtime : Runtime) {verb : Verb} {spec : RequestSpec}
    (built : verb.built runtime = .ok spec) : LeavesCredential spec := by
  unfold LeavesCredential
  rw [(built_enveloped built).headers]
  intro member
  unfold headerNames at member
  split at member
  · exact absurd (List.mem_singleton.mp member) (by decide)
  · cases member

theorem nextPageSpec_leaves {page : ScheduledEmailPage} {spec : RequestSpec}
    (more : nextPageSpec page = some spec) : LeavesCredential spec := by
  obtain ⟨url, _, same⟩ := Option.map_eq_some_iff.mp more
  cases same
  exact List.not_mem_nil

theorem ownSpec_leaves {runtime : Runtime} {spec : RequestSpec} (own : OwnSpec runtime spec) :
    LeavesCredential spec := by
  cases own with
  | built verb made => exact built_leaves runtime made
  | linked page more => exact nextPageSpec_leaves more

/-! ### What is asked -/

variable {platform : Platform} {client : BaseClient} {base : Url.AbsoluteUrl}
  (configured : client.baseUrl = base.text)

include configured

theorem buildUrl_onOrigin {path url : Str} (built : client.buildUrl platform path = .ok url) :
    OnOrigin base url := by
  obtain ⟨joined, own, origin, baseOrigin⟩ :=
    (client.buildUrl_eq_ok_iff platform).mp built
  rw [configured] at joined baseOrigin
  rw [base.origin_text, Option.ite_none_right_eq_some] at baseOrigin
  rw [← Option.some.inj baseOrigin.2] at origin
  exact Url.urljoin_confined joined origin

theorem issued_kept {request : HttpRequest} (issued : Issued platform client request) :
    CredentialKept client base request := by
  obtain ⟨spec, url, headers, own, prepared, rfl⟩ := issued
  obtain ⟨found, rfl⟩ := prepare_eq_ok_iff.mp prepared
  refine ⟨buildUrl_onOrigin configured found, ?_⟩
  change Items.get ((client.defaultHeaders platform).update spec.headers) _ = _
  rw [Items.get_update_of_not_mem (ownSpec_leaves own)]
  exact Items.get_cons_self _ _ _

omit configured

/-! ### Foreign links -/

/-- A link that does not resolve to the origin of the base. -/
def LeadsAway (platform : Platform) (base : Url.AbsoluteUrl) (link : Str) : Prop :=
  ∀ url, Url.urljoin platform.runtime.hosts base.text link = some url → ¬OnOrigin base url

theorem walk_drain (params : Items Str Value) (server : Server) (page : ScheduledEmailPage)
    (rest items : List ScheduledEmail) (events : Trace) :
    Walk.after (iterAll platform client .sync params) server rest.length
        ⟨.suspended (.within page rest), items, events⟩ =
      ⟨.suspended (.within page []), items ++ rest, events⟩ := by
  induction rest generalizing items with
  | nil =>
      rw [List.append_nil]
      rfl
  | cons item rest ih =>
      have step : Walk.advance (iterAll platform client .sync params) server
          ⟨.suspended (.within page (item :: rest)), items, events⟩ =
            ⟨.suspended (.within page rest), items ++ [item], events⟩ := by
        rw [Walk.advance_suspended rfl]
        change (⟨_, _, events ++ []⟩ : Walk ..) = _
        rw [List.append_nil]
      rw [List.length_cons, Walk.after_advance, step, ih, List.append_assoc]
      rfl

theorem prepare_leadsAway (configured : client.baseUrl = base.text) {link : Str}
    (away : LeadsAway platform base link) {spec : RequestSpec} (path : spec.path = link) :
    ∃ exn, client.prepare platform spec = .error exn := by
  cases prepared : client.prepare platform spec with
  | error exn => exact ⟨exn, rfl⟩
  | ok pair =>
      obtain ⟨url, built, _⟩ := bind_eq_ok_iff.mp prepared
      have joined := ((client.buildUrl_eq_ok_iff platform).mp built).1
      rw [path, configured] at joined
      exact absurd (buildUrl_onOrigin configured built) (away url joined)

/-- A walk inside a page whose link leads away hands out the rest of the page and
raises, sending nothing. -/
theorem walk_leadsAway (configured : client.baseUrl = base.text) (flavour : Flavour)
    (params : Items Str Value) (server : Server) {steps : Nat} {page : ScheduledEmailPage}
    {rest : List ScheduledEmail} {link : Str}
    (inside : (walk platform client flavour params server steps).status =
      .suspended (.within page rest))
    (next : page.nextUrl = some link) (away : LeadsAway platform base link) :
    ∃ exn, walk platform client flavour params server (steps + (rest.length + 1)) =
      ⟨.raised exn,
        itemsReceived platform (walk platform client flavour params server steps).events,
        (walk platform client flavour params server steps).events⟩ := by
  have account : Balanced platform (walk platform client flavour params server steps) :=
    walk_balanced flavour params server steps
  rw [walk_eq] at inside account ⊢
  have later : walk platform client .sync params server (steps + (rest.length + 1)) =
      Walk.advance (iterAll platform client .sync params) server
        (Walk.after (iterAll platform client .sync params) server rest.length
          (walk platform client .sync params server steps)) := by
    unfold walk
    rw [Walk.after_add, Walk.after_succ]
  rw [later, walk_eq platform client flavour]
  generalize walk platform client .sync params server steps = current at inside account ⊢
  obtain ⟨status, items, events⟩ := current
  dsimp only at inside
  subst inside
  have handed : items ++ rest = itemsReceived platform events := account
  obtain ⟨exn, refused⟩ := prepare_leadsAway configured away
    (show (RequestSpec.mk link (str "GET") none none []).path = link from rfl)
  refine ⟨exn, ?_⟩
  rw [walk_drain, handed, Walk.advance_suspended rfl,
    iterAll_run_next platform client (nextPageSpec_of_link next),
    tripRun_refused platform client refused]
  change (⟨_, _, events ++ []⟩ : Walk ..) = _
  rw [List.append_nil]

/-- The credential goes nowhere but to the base: in no run of a verb and at no
step of a walk does a request leave the origin of the base, and a page link that
leads away ends the walk after all items received before it. -/
theorem credential_confined (configured : client.baseUrl = base.text) :
    (∀ flavour verb server past,
      ∀ request ∈ queries ((call platform client flavour verb).run server past).events,
        CredentialKept client base request) ∧
    (∀ flavour params server steps,
      ∀ request ∈ queries (walk platform client flavour params server steps).events,
        CredentialKept client base request) ∧
    ∀ flavour params server steps page rest link,
      (walk platform client flavour params server steps).status =
          .suspended (.within page rest) →
        page.nextUrl = some link → LeadsAway platform base link →
          ∃ exn, walk platform client flavour params server (steps + (rest.length + 1)) =
            ⟨.raised exn,
              itemsReceived platform (walk platform client flavour params server steps).events,
              (walk platform client flavour params server steps).events⟩ := by
  refine ⟨?_, ?_, ?_⟩
  · intro flavour verb server past request asked
    exact issued_kept configured (call_issued flavour verb server past request asked)
  · intro flavour params server steps request asked
    exact issued_kept configured (walk_issued flavour params server steps request asked)
  · intro flavour params server steps page rest link inside next away
    exact walk_leadsAway configured flavour params server inside next away

/-- A server whose page leads to another origin. -/
def strayServer : Server := fun _ _ =>
  .response ⟨200, asciiBytes ("\x7b\"data\": [\x7b\"id\": \"se_1\"\x7d], " ++
    "\"pagination\": \x7b\"steps\": \x7b\"next\": \"https://elsewhere.example/\"\x7d\x7d\x7d"), []⟩

def strayLink : Str := str "https://elsewhere.example/"

private theorem stray_leadsAway :
    LeadsAway Platform.plain defaultBase.toAbsoluteUrl strayLink := by
  have joined : Url.urljoin Platform.plain.runtime.hosts defaultBase.toAbsoluteUrl.text strayLink =
      some strayLink := by decide +kernel
  rintro url found ⟨scheme, _, _, authority⟩
  rw [joined] at found
  rw [← Option.some.inj found] at authority
  have apart : Url.rfcAuthority strayLink ≠ some defaultBase.toAbsoluteUrl.authority := by
    decide +kernel
  exact apart authority

/-- Where a walk stands inside a page: how many items are left, and the link. -/
def leftOf : Status IterAll Exn → Option (Nat × Option Str)
  | .suspended (.within page rest) => some (rest.length, page.nextUrl)
  | _ => none

private theorem fields_of_ended
    {walk : Walk HttpRequest HttpOutcome LogRecord Exn IterAll ScheduledEmail} {exn : Exn}
    {items : List ScheduledEmail} {events : Trace} (ended : walk = ⟨.raised exn, items, events⟩) :
    walk.status = .raised exn ∧ walk.items = items ∧ walk.events = events := by
  subst ended
  exact ⟨rfl, rfl, rfl⟩

theorem inside_of_leftOf {status : Status IterAll Exn} {count : Nat} {link : Str}
    (left : leftOf status = some (count, some link)) :
    ∃ page rest, status = .suspended (.within page rest) ∧ rest.length = count ∧
      page.nextUrl = some link := by
  cases status with
  | suspended state =>
      cases state with
      | entry => cases left
      | within page rest =>
          obtain ⟨length, next⟩ := Prod.ext_iff.mp (Option.some.inj left)
          exact ⟨page, rest, rfl, length, next⟩
  | returned => cases left
  | raised exn => cases left

theorem credential_confined_sample :
    (∃ request, queries ((call Platform.plain defaultClient .async .credentialInfo).run
        (fun _ _ => .httpError []) []).events = [request] ∧
      CredentialKept defaultClient defaultBase.toAbsoluteUrl request) ∧
    ∃ exn request,
      (walk Platform.plain defaultClient .sync [] strayServer 3).status = .raised exn ∧
      (walk Platform.plain defaultClient .sync [] strayServer 3).items.length = 1 ∧
      queries (walk Platform.plain defaultClient .sync [] strayServer 3).events = [request] ∧
        CredentialKept defaultClient defaultBase.toAbsoluteUrl request := by
  have configured : defaultClient.baseUrl = defaultBase.toAbsoluteUrl.text := by decide
  obtain ⟨calls, walks, stray⟩ := @credential_confined Platform.plain _ _ configured
  constructor
  · have joined : defaultClient.buildUrl Platform.plain infoSpec.path =
        .ok (str "https://api.mailkube.com/mta/v1/api-keys/me") :=
      eq_ok_of_toOption (by decide +kernel)
    have built : Verb.built Platform.plain.runtime .credentialInfo = .ok infoSpec := rfl
    have reached := call_reaches _ _ built joined .async (.httpError []) []
    have asked := congrArg queries reached
    rw [queries_roundTrip] at asked
    refine ⟨_, asked, calls .async .credentialInfo (fun _ _ => .httpError []) [] _ ?_⟩
    rw [asked]
    exact List.mem_singleton.mpr rfl
  · have inside : leftOf (walk Platform.plain defaultClient .sync [] strayServer 1).status =
        some (1, some strayLink) := by decide +kernel
    have once : (queries (walk Platform.plain defaultClient .sync [] strayServer
        1).events).length = 1 := by decide +kernel
    have held : (itemsReceived Platform.plain (walk Platform.plain defaultClient .sync []
        strayServer 1).events).length = 1 := by decide +kernel
    obtain ⟨request, asked⟩ := List.length_eq_one_iff.mp once
    obtain ⟨page, rest, stands, left, next⟩ := inside_of_leftOf inside
    obtain ⟨exn, ended⟩ := stray .sync [] strayServer 1 page rest strayLink stands next
      stray_leadsAway
    have three : 1 + (rest.length + 1) = 3 := by omega
    rw [three] at ended
    obtain ⟨raised, items, events⟩ := fields_of_ended ended
    refine ⟨exn, request, raised, by rw [items, held], by rw [events, asked],
      walks .sync [] strayServer 1 request ?_⟩
    rw [asked]
    exact List.mem_singleton.mpr rfl

end MailkubeSdk
