import Mathlib.Data.List.Perm.Subperm
import MailkubeSdk.PageLinks

/-
Where a page walk ends.

The loop has no measure of its own: it goes on as long as the pages have a next
link.  Over finitely many page URLs it ends unless it asks for a page a second
time, and a server that answers a request alike every time then sends it round
for ever.
-/

namespace MailkubeSdk

open Python Effect

/-- The items of the current page that are still to come. -/
def itemsLeft : IterAll → Nat
  | .entry => 0
  | .within _ rest => rest.length

section Runs

variable (platform : Platform) (client : BaseClient) (flavour : Flavour)
  (params : Items Str Value) (server : Server)

/-- Each request of the walk is made once. -/
def AsksOnce : Prop :=
  ∀ steps, (queries (walk platform client flavour params server steps).events).Nodup

/-- Every page link the walk comes to and follows leads to one of these URLs. -/
def LinksWithin (urls : List Str) : Prop :=
  ∀ steps link url, MeetsLink platform client flavour params server steps link →
    client.buildUrl platform link = .ok url → url ∈ urls

/-- What one step of a walk asks for: nothing, while it hands out an item or stops;
the listing; or the page a link names. -/
inductive StepAsks (steps : Nat) : List HttpRequest → Prop where
  | nothing (spent : ∀ state next,
      (walk platform client flavour params server steps).status = .suspended state →
        (walk platform client flavour params server (steps + 1)).status = .suspended next →
          itemsLeft next < itemsLeft state) : StepAsks steps []
  | listing {request : HttpRequest} (atEntry :
      (walk platform client flavour params server steps).status = .suspended .entry) :
      StepAsks steps [request]
  | page {link url : Str} (meets : MeetsLink platform client flavour params server steps link)
      (built : client.buildUrl platform link = .ok url) :
      StepAsks steps [pageRequest platform client url]

end Runs

/-! ### One step -/

variable {platform : Platform} {client : BaseClient} {flavour : Flavour}
  {params : Items Str Value} {server : Server}

/-- A round trip sends its request and leaves the entry, or stops before it. -/
theorem fetches_asks {spec : RequestSpec}
    {before after : Walk HttpRequest HttpOutcome LogRecord Exn IterAll ScheduledEmail}
    (fetches : Fetches platform client server before spec after) :
    after.status ≠ .suspended .entry ∧
      ((after.Ended ∧ queries after.events = queries before.events) ∨
        ∃ url, client.buildUrl platform spec.path = .ok url ∧
          queries after.events = queries before.events ++
            [httpRequest spec url ((client.defaultHeaders platform).update spec.headers)]) := by
  have sent : ∀ url headers answer,
      queries (before.events ++ roundTrip platform spec url headers answer) =
        queries before.events ++ [httpRequest spec url headers] := by
    intro url headers answer
    rw [queries_append, queries_roundTrip]
  cases fetches with
  | refused unprepared => exact ⟨nofun, .inl ⟨nofun, rfl⟩⟩
  | failed prepared result =>
      obtain ⟨built, rfl⟩ := prepare_eq_ok_iff.mp prepared
      exact ⟨nofun, .inr ⟨_, built, sent _ _ _⟩⟩
  | fetched prepared result =>
      obtain ⟨built, rfl⟩ := prepare_eq_ok_iff.mp prepared
      exact ⟨nofun, .inr ⟨_, built, sent _ _ _⟩⟩

theorem walk_begun (steps : Nat) :
    (walk platform client flavour params server (steps + 1)).status ≠ .suspended .entry := by
  have moves := walk_moves platform client flavour params server steps
  generalize walk platform client flavour params server (steps + 1) = after at moves ⊢
  cases moves with
  | still ended => exact ended .entry
  | unlisted atEntry unbuilt => nofun
  | listed atEntry built fetches => exact (fetches_asks fetches).1
  | item inside => nofun
  | last atEnd none => nofun
  | next atEnd more fetches => exact (fetches_asks fetches).1

/-- Each step asks for one thing at most, and one that asks for nothing hands out an
item of the page or stops. -/
theorem walk_step (steps : Nat) :
    ∃ asked, StepAsks platform client flavour params server steps asked ∧
      queries (walk platform client flavour params server (steps + 1)).events =
        queries (walk platform client flavour params server steps).events ++ asked := by
  have moves := walk_moves platform client flavour params server steps
  have silent : ∀ {after}, walk platform client flavour params server (steps + 1) = after →
      after.Ended → StepAsks platform client flavour params server steps [] := by
    rintro after rfl ended
    exact .nothing (fun _ next _ going => absurd going (ended next))
  generalize later : walk platform client flavour params server (steps + 1) = after at moves ⊢
  cases moves with
  | still ended => exact ⟨[], silent later ended, (List.append_nil _).symm⟩
  | unlisted atEntry unbuilt => exact ⟨[], silent later nofun, (List.append_nil _).symm⟩
  | listed atEntry built fetches =>
      rcases (fetches_asks fetches).2 with ⟨ended, same⟩ | ⟨url, _, grown⟩
      · exact ⟨[], silent later ended, same.trans (List.append_nil _).symm⟩
      · exact ⟨_, .listing atEntry, grown⟩
  | item inside =>
      refine ⟨[], .nothing ?_, (List.append_nil _).symm⟩
      intro state next here going
      rw [inside] at here
      rw [later] at going
      cases here
      cases going
      exact Nat.lt_succ_self _
  | last atEnd none => exact ⟨[], silent later nofun, (List.append_nil _).symm⟩
  | @next page spec after atEnd more fetches =>
      rcases (fetches_asks fetches).2 with ⟨ended, same⟩ | ⟨url, built, grown⟩
      · exact ⟨[], silent later ended, same.trans (List.append_nil _).symm⟩
      · obtain ⟨link, next, rfl⟩ := Option.map_eq_some_iff.mp more
        exact ⟨_, .page ⟨page, atEnd, next⟩ built, grown⟩

/-! ### A whole run -/

/-- A run has asked for the listing at most once, and otherwise for pages at the URLs
its links lead to. -/
theorem asked_pages {urls : List Str}
    (within : LinksWithin platform client flavour params server urls) (steps : Nat) :
    ∃ listing pages, queries (walk platform client flavour params server steps).events =
        listing ++ pages ∧ listing.length ≤ 1 ∧
      pages ⊆ urls.map (pageRequest platform client) := by
  induction steps with
  | zero => exact ⟨[], [], rfl, Nat.zero_le _, List.nil_subset _⟩
  | succ steps ih =>
      obtain ⟨asked, step, grown⟩ := @walk_step platform client flavour params server steps
      rw [grown]
      cases step with
      | nothing spent =>
          rw [List.append_nil]
          exact ih
      | @listing request atEntry =>
          cases steps with
          | zero => exact ⟨[request], [], rfl, Nat.le_refl _, List.nil_subset _⟩
          | succ steps => exact absurd atEntry (walk_begun steps)
      | @page link url meets built =>
          obtain ⟨listing, pages, split, short, among⟩ := ih
          have fresh : pageRequest platform client url ∈ urls.map (pageRequest platform client) :=
            List.mem_map_of_mem (within steps link url meets built)
          refine ⟨listing, pages ++ [pageRequest platform client url], ?_, short, ?_⟩
          · rw [split, List.append_assoc]
          · exact List.append_subset.mpr ⟨among, List.cons_subset.mpr ⟨fresh, List.nil_subset _⟩⟩

/-- As long as no request is made twice, there are at most as many as URLs, and the listing. -/
theorem asked_length_le {urls : List Str}
    (within : LinksWithin platform client flavour params server urls) {steps : Nat}
    (once : (queries (walk platform client flavour params server steps).events).Nodup) :
    (queries (walk platform client flavour params server steps).events).length ≤
      urls.length + 1 := by
  obtain ⟨listing, pages, split, short, among⟩ := asked_pages within steps
  rw [split] at once ⊢
  have distinct : pages.Nodup := (List.nodup_append.mp once).2.1
  have few : pages.length ≤ urls.length := by
    have subset := (List.subperm_of_subset distinct among).length_le
    rwa [List.length_map] at subset
  rw [List.length_append]
  omega

theorem walk_spends : Walk.Spends (iterAll platform client flavour params) server itemsLeft
    (Walk.start .entry) := by
  intro steps state next here going
  obtain ⟨asked, step, grown⟩ := @walk_step platform client flavour params server steps
  have longer := congrArg List.length grown
  rw [List.length_append] at longer
  cases step with
  | nothing spent => exact .inr ⟨longer, spent state next here going⟩
  | listing atEntry => exact .inl (Nat.lt_of_lt_of_eq (Nat.lt_succ_self _) longer.symm)
  | page meets built => exact .inl (Nat.lt_of_lt_of_eq (Nat.lt_succ_self _) longer.symm)

/-- Over finitely many page URLs a walk that makes no request twice ends. -/
theorem ends_of_asksOnce {urls : List Str}
    (within : LinksWithin platform client flavour params server urls)
    (once : AsksOnce platform client flavour params server) :
    ∃ steps, (walk platform client flavour params server steps).Ended :=
  walk_spends.ends (fun steps => asked_length_le within (once steps))

/-! ### A server that answers a request alike every time -/

variable {reply : HttpRequest → HttpOutcome}

/-- A chain whose pages are all there is walked for ever, with ever more requests. -/
theorem never_ended_of_pages
    (pages : ∀ n, ∃ page, (pageChain platform client reply params).page n = some page) :
    (∀ steps, ¬(walk platform client flavour params (replying reply) steps).Ended) ∧
      ∀ count, ∃ steps,
        (queries (walk platform client flavour params (replying reply) steps).events).length =
          count + 1 := by
  constructor
  · intro steps ended
    have simulates := congrArg Pager.Cursor.position
      (@cursorOf_walk platform client reply params flavour steps)
    obtain ⟨notReturned, notRaised⟩ := Pager.never_ends pages steps
    rw [← simulates] at notReturned notRaised
    cases status : (walk platform client flavour params (replying reply) steps).status with
    | suspended state => exact ended state status
    | returned => exact notReturned (congrArg positionOf status)
    | raised exn => exact notRaised exn (congrArg positionOf status)
  · intro count
    obtain ⟨page, here⟩ := pages count
    obtain ⟨steps, reached⟩ := Pager.reaches_page here
    refine ⟨steps, ?_⟩
    have asked := congrArg Pager.Cursor.asked
      (@cursorOf_walk platform client reply params flavour steps)
    rw [reached] at asked
    rw [← Pager.asked_length here]
    exact congrArg List.length asked

/-- A walk that makes a request twice goes round for ever. -/
theorem never_ended_of_repeat {steps : Nat} (twice :
    ¬(queries (walk platform client flavour params (replying reply) steps).events).Nodup) :
    ∀ later, ¬(walk platform client flavour params (replying reply) later).Ended := by
  have asked := congrArg Pager.Cursor.asked
    (@cursorOf_walk platform client reply params flavour steps)
  obtain ⟨n, upTo⟩ := @Pager.asked_chain _ _ _ _ (pageChain platform client reply params) steps
  have repeated : ¬((pageChain platform client reply params).asked n).Nodup := by
    rw [← upTo]
    intro once
    rw [← asked] at once
    exact twice once
  obtain ⟨i, j, q, lt, first, again⟩ := Pager.repeat_of_asked repeated
  exact (never_ended_of_pages (Pager.page_of_repeat lt first again)).1

/-- Over finitely many page URLs a walk makes at most one request more than there are
URLs before it ends or makes one of them again; if the server answers a request alike
every time, the walk ends exactly when it makes none again. -/
theorem walk_ends_unless_repeating (platform : Platform) (client : BaseClient) (flavour : Flavour)
    (params : Items Str Value) (server : Server) {urls : List Str}
    (within : LinksWithin platform client flavour params server urls) :
    (∀ steps, (queries (walk platform client flavour params server steps).events).Nodup →
      (queries (walk platform client flavour params server steps).events).length ≤
        urls.length + 1) ∧
    (AsksOnce platform client flavour params server →
      ∃ steps, (walk platform client flavour params server steps).Ended) ∧
    ∀ reply, server = replying reply →
      ((∃ steps, (walk platform client flavour params server steps).Ended) ↔
        AsksOnce platform client flavour params server) := by
  refine ⟨fun _ once => asked_length_le within once, ends_of_asksOnce within, ?_⟩
  rintro reply rfl
  refine ⟨?_, ends_of_asksOnce within⟩
  rintro ⟨last, ended⟩ steps
  by_contra twice
  exact never_ended_of_repeat twice last ended

/-! ### A page that links to itself -/

private theorem pageTwo_built :
    defaultClient.buildUrl Platform.plain pageTwoLink = .ok pageTwoLink :=
  eq_ok_of_toOption (by decide +kernel)

private theorem pageTwo_within (flavour : Flavour) :
    LinksWithin Platform.plain defaultClient flavour [] (replying pageTwoReply) [pageTwoLink] := by
  intro steps link url meets built
  rw [pageTwo_meets meets, pageTwo_built] at built
  rw [← Except.ok.inj built]
  exact List.mem_singleton_self _

private theorem pageTwo_asks (n : Nat) : ∃ request,
    (pageChain Platform.plain defaultClient pageTwoReply []).query n = some (.ok request) := by
  induction n with
  | zero =>
      have listed : defaultClient.buildUrl Platform.plain scheduledPath =
          .ok (str "https://api.mailkube.com/mta/v1/scheduled-emails") :=
        eq_ok_of_toOption (by decide +kernel)
      exact pageTwo_listed listed
  | succ n ih =>
      obtain ⟨request, atQuery⟩ := ih
      obtain ⟨page, fetched, next⟩ := pageTwo_fetch request
      have leads : (pageChain Platform.plain defaultClient pageTwoReply []).next page =
          some (visit Platform.plain defaultClient pageTwoLink) :=
        congrArg (Option.map (visit Platform.plain defaultClient)) next
      rw [Pager.query_succ (Pager.page_of_fetch atQuery fetched), leads, visit, pageTwo_built]
      exact ⟨_, rfl⟩

private theorem pageTwo_pages (n : Nat) : ∃ page,
    (pageChain Platform.plain defaultClient pageTwoReply []).page n = some page := by
  obtain ⟨request, atQuery⟩ := pageTwo_asks n
  obtain ⟨page, fetched, _⟩ := pageTwo_fetch request
  exact ⟨page, Pager.page_of_fetch atQuery fetched⟩

theorem walk_ends_unless_repeating_sample :
    (∀ steps, (queries (walk Platform.plain defaultClient .async [] (replying pageTwoReply)
      steps).events).Nodup → (queries (walk Platform.plain defaultClient .async []
        (replying pageTwoReply) steps).events).length ≤ 2) ∧
    ((∃ steps, (walk Platform.plain defaultClient .async [] (replying pageTwoReply)
        steps).Ended) ↔
      AsksOnce Platform.plain defaultClient .async [] (replying pageTwoReply)) := by
  have rely := walk_ends_unless_repeating Platform.plain defaultClient .async []
    (replying pageTwoReply) (pageTwo_within .async)
  exact ⟨rely.1, rely.2.2 pageTwoReply rfl⟩

/-- A page on the API origin that links to itself is walked for ever. -/
theorem self_link_never_ends :
    defaultClient.buildUrl Platform.plain pageTwoLink = .ok pageTwoLink ∧
      LinksWithin Platform.plain defaultClient .sync [] (replying pageTwoReply) [pageTwoLink] ∧
      (∀ steps, ¬(walk Platform.plain defaultClient .sync [] (replying pageTwoReply)
        steps).Ended) ∧
      ∀ count, ∃ steps, (queries (walk Platform.plain defaultClient .sync []
        (replying pageTwoReply) steps).events).length = count + 1 :=
  ⟨pageTwo_built, pageTwo_within .sync, never_ended_of_pages pageTwo_pages⟩

end MailkubeSdk
