import MailkubeSdk.RoundTrip

/-
Where the requests of a client come from.

Whatever a verb or a walk hands to the HTTP library was prepared from a
specification that a verb builds or that a page links to.  What holds of every
request is therefore proved about the preparation of those alone.
-/

namespace MailkubeSdk

open Python Effect

/-- The specifications the package makes: those of the verbs and of the page links. -/
inductive OwnSpec (runtime : Runtime) (spec : RequestSpec) : Prop where
  | built (verb : Verb) (made : verb.built runtime = .ok spec)
  | linked (page : ScheduledEmailPage) (more : nextPageSpec page = some spec)

variable (platform : Platform) (client : BaseClient)

/-- A request prepared from one of the package's specifications. -/
def Issued (request : HttpRequest) : Prop :=
  ∃ spec url headers, OwnSpec platform.runtime spec ∧
    client.prepare platform spec = .ok (url, headers) ∧ request = httpRequest spec url headers

variable {platform client}

/-- The headers of a request: the defaults overlaid with those of its specification. -/
theorem prepare_eq_ok_iff {spec : RequestSpec} {url : Str} {headers : Items Str Str} :
    client.prepare platform spec = .ok (url, headers) ↔
      client.buildUrl platform spec.path = .ok url ∧
        headers = (client.defaultHeaders platform).update spec.headers := by
  constructor
  · intro prepared
    obtain ⟨built, found, same⟩ := bind_eq_ok_iff.mp prepared
    cases same
    exact ⟨found, rfl⟩
  · rintro ⟨found, rfl⟩
    exact bind_eq_ok_iff.mpr ⟨url, found, rfl⟩

theorem prepare_eq_error_iff {spec : RequestSpec} {exn : Exn} :
    client.prepare platform spec = .error exn ↔
      client.buildUrl platform spec.path = .error exn := by
  unfold BaseClient.prepare
  cases client.buildUrl platform spec.path with
  | error other =>
      constructor
      · intro same
        cases same
        rfl
      · intro same
        cases same
        rfl
  | ok url => exact iff_of_false nofun nofun

private theorem raw_issued {spec : RequestSpec} (own : OwnSpec platform.runtime spec) :
    (Mailkube.raw platform client spec).Asks (Issued platform client) := by
  unfold Mailkube.raw
  cases prepared : client.prepare platform spec with
  | error exn => trivial
  | ok pair =>
      obtain ⟨url, headers⟩ := pair
      refine ⟨⟨spec, url, headers, own, prepared, rfl⟩, fun answer => ?_⟩
      cases answer <;> trivial

private theorem request_issued {spec : RequestSpec} (own : OwnSpec platform.runtime spec)
    (model : Model) :
    (Mailkube.request platform client spec model).Asks (Issued platform client) :=
  (raw_issued own).bind (fun _ => Program.Asks.ofExcept _ _)

private theorem iterAll_issued (params : Items Str Value) (state : IterAll) :
    (iterAll platform client .sync params state).Asks (Issued platform client) := by
  cases state with
  | entry =>
      refine Program.Asks.bind ?_ (fun _ => trivial)
      change (withSpec (listSpec platform.runtime params) _).Asks _
      unfold withSpec
      cases built : listSpec platform.runtime params with
      | error exception => trivial
      | ok spec => exact request_issued (.built (.scheduledEmailsList params) built) _
  | within page rest =>
      cases rest with
      | cons item rest => trivial
      | nil =>
          unfold iterAll ScheduledEmailsResource.iterAll
          cases more : nextPageSpec page with
          | none =>
              simp only [more]
              trivial
          | some spec =>
              simp only [more]
              exact (request_issued (.linked page more) _).bind (fun _ => trivial)

/-- The requests of a verb are prepared from the specification it builds. -/
theorem call_prepared (flavour : Flavour) (verb : Verb) (server : Server) (past : Trace) :
    ∀ request ∈ queries ((call platform client flavour verb).run server past).events,
      ∃ spec url headers, verb.built platform.runtime = .ok spec ∧
        client.prepare platform spec = .ok (url, headers) ∧
          request = httpRequest spec url headers := by
  intro request member
  rw [verb_run] at member
  cases built : verb.built platform.runtime with
  | error exception =>
      rw [built, builtRun_error] at member
      cases member
  | ok spec =>
      rw [built, builtRun_ok] at member
      cases prepared : client.prepare platform spec with
      | error exn =>
          rw [tripRun_refused platform client prepared] at member
          cases member
      | ok pair =>
          obtain ⟨url, headers⟩ := pair
          rw [tripRun_prepared platform client prepared] at member
          dsimp only at member
          rw [queries_roundTrip, List.mem_singleton] at member
          exact ⟨spec, url, headers, rfl, prepared, member⟩

theorem call_issued (flavour : Flavour) (verb : Verb) (server : Server) (past : Trace) :
    ∀ request ∈ queries ((call platform client flavour verb).run server past).events,
      Issued platform client request := by
  intro request member
  obtain ⟨spec, url, headers, built, prepared, same⟩ :=
    call_prepared flavour verb server past request member
  exact ⟨spec, url, headers, .built verb built, prepared, same⟩

theorem walk_issued (flavour : Flavour) (params : Items Str Value) (server : Server)
    (steps : Nat) :
    ∀ request ∈ queries (walk platform client flavour params server steps).events,
      Issued platform client request := by
  rw [walk_eq]
  exact Walk.after_asks (iterAll_issued params) .entry steps

end MailkubeSdk
