import MailkubeSdk.PageLinks
import MailkubeSdk.Python.WebOrigin

/-
Links on the API's own origin.

The guard compares the authorities as they are spelt, while an origin has many
spellings: any letter case of the host, and the port of the scheme written out,
left out or left empty.  A link is followed exactly when it has the spelling of
the base URL.
-/

namespace MailkubeSdk

open Python Effect Url

variable {platform : Platform} {client : BaseClient}

/-- A link with the base URL's spelling of the authority, one that `urlsplit` takes. -/
def SpeltAlike (rules : HostRules) (base link : WebUrl) : Prop :=
  link.authority = base.authority ∧ acceptsNetloc rules base.authority = true

/-- The walk ends between two pages: it raises before the next one is asked for. -/
def BreaksOff (platform : Platform) (client : BaseClient) (flavour : Flavour)
    (params : Items Str Value) (server : Server) (steps : Nat) : Prop :=
  ∃ page exn, (walk platform client flavour params server steps).status =
      .suspended (.within page []) ∧
    RaisesUnsent (walk platform client flavour params server steps)
      (walk platform client flavour params server (steps + 1)) exn

/-! ### One link -/

/-- A link is followed exactly when it is on the base URL's origin and spells it alike. -/
theorem buildUrl_webUrl_iff {base link : WebUrl} (spelt : client.baseUrl = base.text) :
    (∃ url, client.buildUrl platform link.text = .ok url) ↔
      base.SameOrigin link ∧ SpeltAlike platform.runtime.hosts base link := by
  simp only [client.buildUrl_eq_ok_iff platform, spelt]
  exact guard_spelling_iff

theorem buildUrl_same_origin_iff {base link : WebUrl} (spelt : client.baseUrl = base.text)
    (same : base.SameOrigin link) :
    (∃ url, client.buildUrl platform link.text = .ok url) ↔
      SpeltAlike platform.runtime.hosts base link := by
  rw [buildUrl_webUrl_iff spelt, and_iff_right same]

theorem buildUrl_ok_or_error (path : Str) :
    (∃ url, client.buildUrl platform path = .ok url) ∨
      ∃ exn, client.buildUrl platform path = .error exn := by
  cases client.buildUrl platform path with
  | ok url => exact .inl ⟨url, rfl⟩
  | error exn => exact .inr ⟨exn, rfl⟩

/-! ### A walk -/

variable {flavour : Flavour} {params : Items Str Value} {server : Server}

/-- A walk breaks off at the end of a page exactly when the page's link is refused. -/
theorem breaksOff_iff {steps : Nat} :
    BreaksOff platform client flavour params server steps ↔
      ∃ link, MeetsLink platform client flavour params server steps link ∧
        ∃ exn, client.buildUrl platform link = .error exn := by
  constructor
  · rintro ⟨page, exn, atEnd, unsent⟩
    cases next : page.nextUrl with
    | none =>
        have returned := walk_ends atEnd next
        rw [unsent.raised] at returned
        cases returned
    | some link => exact ⟨link, ⟨page, atEnd, next⟩, exn, (raisesUnsent_iff atEnd next).mp unsent⟩
  · rintro ⟨link, ⟨page, atEnd, next⟩, exn, refused⟩
    exact ⟨page, exn, atEnd, (raisesUnsent_iff atEnd next).mpr refused⟩

/-- A walk whose links all stay on the base URL's origin never breaks off exactly
when each of them has its spelling. -/
theorem walk_same_origin_iff {base : WebUrl} (spelt : client.baseUrl = base.text)
    (onOrigin : ∀ steps next, MeetsLink platform client flavour params server steps next →
      ∃ link : WebUrl, link.text = next ∧ base.SameOrigin link) :
    (∀ steps, ¬BreaksOff platform client flavour params server steps) ↔
      ∀ steps (link : WebUrl), MeetsLink platform client flavour params server steps link.text →
        base.SameOrigin link → SpeltAlike platform.runtime.hosts base link := by
  simp only [breaksOff_iff]
  constructor
  · intro never steps link meets same
    rw [← buildUrl_same_origin_iff spelt same]
    rcases buildUrl_ok_or_error link.text with built | refused
    · exact built
    · exact absurd ⟨link.text, meets, refused⟩ (never steps)
  · rintro alike steps ⟨next, meets, exn, refused⟩
    obtain ⟨link, rfl, same⟩ := onOrigin steps next meets
    obtain ⟨url, built⟩ := (buildUrl_same_origin_iff spelt same).mpr (alike steps link meets same)
    rw [built] at refused
    cases refused

/-- A link on the base URL's origin is followed exactly when it spells the
authority as the base URL does, and a walk over such links never breaks off
exactly when all of them do. -/
theorem same_origin_followed_iff {base : WebUrl} (spelt : client.baseUrl = base.text) :
    (∀ link, base.SameOrigin link →
      ((∃ url, client.buildUrl platform link.text = .ok url) ↔
        SpeltAlike platform.runtime.hosts base link)) ∧
    ∀ flavour params server,
      (∀ steps next, MeetsLink platform client flavour params server steps next →
        ∃ link : WebUrl, link.text = next ∧ base.SameOrigin link) →
      ((∀ steps, ¬BreaksOff platform client flavour params server steps) ↔
        ∀ steps (link : WebUrl), MeetsLink platform client flavour params server steps link.text →
          base.SameOrigin link → SpeltAlike platform.runtime.hosts base link) := by
  constructor
  · intro link same
    exact buildUrl_same_origin_iff spelt same
  · intro flavour params server onOrigin
    exact walk_same_origin_iff spelt onOrigin

/-! ### A base URL with an explicit port -/

private theorem apiScheme :
    lowerAscii (str "https") = str "http" ∨ lowerAscii (str "https") = str "https" :=
  .inr (by decide)

private theorem apiHost : HostText (str "api.mailkube.com") :=
  .name (by decide) (List.all_eq_true.mp (by decide))

private theorem apiPort (digits : Str) (port : some (str "443") = some digits) :
    ∀ c ∈ digits, isDigit c = true := by
  rw [← Option.some.inj port]
  exact List.all_eq_true.mp (by decide)

private theorem noPort (digits : Str) (port : none = some digits) :
    ∀ c ∈ digits, isDigit c = true := by
  cases port

private theorem delimited_slash (rest : Str) : Delimited (cp '/' :: rest) := by
  intro c more same
  rw [← (List.cons.inj same).1]
  rfl

/-- `https://api.mailkube.com:443/mta/v1/`. -/
def portBase : WebUrl where
  scheme := str "https"
  host := str "api.mailkube.com"
  port := some (str "443")
  tail := cp '/' :: str "mta/v1/"
  http := apiScheme
  hostText := apiHost
  portDigits := apiPort
  tailDelimited := delimited_slash _

/-- `https://api.mailkube.com/mta/v1/scheduled-emails?page=2`. -/
def portlessLink : WebUrl where
  scheme := str "https"
  host := str "api.mailkube.com"
  port := none
  tail := cp '/' :: str "mta/v1/scheduled-emails?page=2"
  http := apiScheme
  hostText := apiHost
  portDigits := noPort
  tailDelimited := delimited_slash _

def portClient : BaseClient := ⟨str "mk_key", portBase.text, []⟩

private theorem portless_text : portlessLink.text = pageTwoLink := by decide

private theorem portless_sameOrigin : portBase.SameOrigin portlessLink := ⟨rfl, rfl, by decide⟩

theorem same_origin_followed_iff_sample :
    ((∃ url, portClient.buildUrl Platform.plain portlessLink.text = .ok url) ↔
      SpeltAlike Platform.plain.runtime.hosts portBase portlessLink) ∧
    ((∀ steps, ¬BreaksOff Platform.plain portClient .async [] (replying pageTwoReply) steps) ↔
      ∀ steps (link : WebUrl),
        MeetsLink Platform.plain portClient .async [] (replying pageTwoReply) steps link.text →
          portBase.SameOrigin link →
            SpeltAlike Platform.plain.runtime.hosts portBase link) := by
  obtain ⟨one, run⟩ := @same_origin_followed_iff Platform.plain portClient portBase rfl
  refine ⟨one portlessLink portless_sameOrigin, run .async [] (replying pageTwoReply) ?_⟩
  intro steps next meets
  exact ⟨portlessLink, portless_text.trans (pageTwo_meets meets).symm, portless_sameOrigin⟩

private theorem portless_refused :
    ∃ exn, portClient.buildUrl Platform.plain portlessLink.text = .error exn ∧
      exn.isMailkubeError = true := by
  have base : HttpBase Platform.plain.runtime.hosts portClient.baseUrl :=
    portBase.httpBase (by decide +kernel)
  have readable : ReadableLink Platform.plain.runtime.hosts portlessLink.text :=
    .inr (by decide +kernel)
  have different : portlessLink.authority ≠ portBase.authority := by decide
  rcases (linkSettled_iff base portlessLink.text).mpr readable with ⟨url, built, _⟩ | refused
  · have alike := (buildUrl_same_origin_iff rfl portless_sameOrigin).mp ⟨url, built⟩
    exact absurd alike.1 different
  · exact refused

/-- A link without the port that the base URL spells out is refused, and a walk over
pages with that link breaks off after the first one. -/
theorem portless_link_refused :
    portBase.SameOrigin portlessLink ∧
      (∃ exn, portClient.buildUrl Platform.plain portlessLink.text = .error exn ∧
        exn.isMailkubeError = true) ∧
      ∃ steps, BreaksOff Platform.plain portClient .sync [] (replying pageTwoReply) steps := by
  refine ⟨portless_sameOrigin, portless_refused, ?_⟩
  obtain ⟨exn, refused, _⟩ := portless_refused
  have listed : portClient.buildUrl Platform.plain scheduledPath =
      .ok (str "https://api.mailkube.com:443/mta/v1/scheduled-emails") :=
    eq_ok_of_toOption (by decide +kernel)
  obtain ⟨request, atQuery⟩ := pageTwo_listed listed
  obtain ⟨page, fetched, next⟩ := pageTwo_fetch request
  have met : ∃ steps, MeetsLink Platform.plain portClient .sync [] (replying pageTwoReply) steps
      pageTwoLink := meetsLink_iff.mpr ⟨0, page, Pager.page_of_fetch atQuery fetched, next⟩
  obtain ⟨steps, meets⟩ := met
  rw [← portless_text] at meets
  exact ⟨steps, breaksOff_iff.mpr ⟨_, meets, exn, refused⟩⟩

end MailkubeSdk
