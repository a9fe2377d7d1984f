import MailkubeSdk.Traffic

/-
A walk, replayed from what was exchanged.

The server of a walk may answer a request otherwise each time.  What the walk
has yielded, and where it stands, is read off its exchanges alone: each request
is the listing or the link of the page before, and each answer is a page whose
items come next or the failure that ends the walk.
-/

namespace MailkubeSdk

open Python Effect

/-- Where the exchanges of a walk lead: to a request, to the end, or to an exception. -/
inductive Stage where
  | due (request : HttpRequest)
  | ended
  | raised (exn : Exn)

variable (platform : Platform) (client : BaseClient)

def stageOf : Except Exn HttpRequest → Stage
  | .ok request => .due request
  | .error exn => .raised exn

def listingStage (params : Items Str Value) : Stage := stageOf (listing platform client params)

/-- A page leads to the page its link names. -/
def afterPage (page : Listing) : Stage :=
  match page.next with
  | none => .ended
  | some link => stageOf (visit platform client link)

/-- The items of an answer, and where it leads. -/
def Stage.next : Stage → HttpOutcome → List ScheduledEmail × Stage
  | .due _, answer =>
      match readListing platform answer with
      | .ok page => (page.items, afterPage platform client page)
      | .error exn => ([], .raised exn)
  | stage, _ => ([], stage)

/-- The items of some exchanges, and where they lead. -/
def replay : Stage → List (HttpRequest × HttpOutcome) → List ScheduledEmail × Stage
  | stage, [] => ([], stage)
  | stage, (_, answer) :: rest =>
      let next := stage.next platform client answer
      let later := replay next.2 rest
      (next.1 ++ later.1, later.2)

/-- Each exchange makes the request that is due. -/
def EachDue : Stage → List (HttpRequest × HttpOutcome) → Prop
  | _, [] => True
  | stage, (request, answer) :: rest =>
      stage = .due request ∧ EachDue (stage.next platform client answer).2 rest

variable {platform client}

theorem replay_concat {stage : Stage} {front : List (HttpRequest × HttpOutcome)}
    {items : List ScheduledEmail} {last : Stage}
    (replayed : replay platform client stage front = (items, last)) (request : HttpRequest)
    (answer : HttpOutcome) :
    replay platform client stage (front ++ [(request, answer)]) =
      (items ++ (last.next platform client answer).1, (last.next platform client answer).2) := by
  induction front generalizing stage items with
  | nil =>
      cases replayed
      exact Prod.ext (List.append_nil _) rfl
  | cons exchange rest ih =>
      obtain ⟨asked, given⟩ := exchange
      have later := @ih (stage.next platform client given).2
        (replay platform client (stage.next platform client given).2 rest).1
      have whole := Prod.ext_iff.mp replayed
      simp only [replay] at whole
      simp only [List.cons_append, replay]
      rw [later (Prod.ext rfl whole.2), ← whole.1, List.append_assoc]

theorem eachDue_concat {stage : Stage} {front : List (HttpRequest × HttpOutcome)}
    {request : HttpRequest} (each : EachDue platform client stage front)
    (due : (replay platform client stage front).2 = .due request) (answer : HttpOutcome) :
    EachDue platform client stage (front ++ [(request, answer)]) := by
  induction front generalizing stage with
  | nil => exact ⟨due, trivial⟩
  | cons exchange rest ih => exact ⟨each.1, ih each.2 due⟩

/-- A walk that has yielded these items stands where its exchanges lead. -/
def Stands (platform : Platform) (client : BaseClient) (first : Stage)
    (yielded : List ScheduledEmail) (replayed : List ScheduledEmail × Stage) :
    Status IterAll Exn → Prop
  | .suspended .entry => yielded = replayed.1 ∧ replayed.2 = first
  | .suspended (.within page rest) =>
      yielded ++ rest = replayed.1 ∧ replayed.2 = afterPage platform client (pageListing page)
  | .returned => yielded = replayed.1 ∧ replayed.2 = .ended
  | .raised exn => yielded = replayed.1 ∧ replayed.2 = .raised exn

/-- A walk is what its exchanges are replayed as. -/
structure WalkReplayed (platform : Platform) (client : BaseClient) (first : Stage)
    (walk : Walk HttpRequest HttpOutcome LogRecord Exn IterAll ScheduledEmail) : Prop where
  due : EachDue platform client first (exchanges walk.events)
  stands : Stands platform client first walk.items
    (replay platform client first (exchanges walk.events)) walk.status

section Moves

variable {server : Server} {first : Stage}
  {before after : Walk HttpRequest HttpOutcome LogRecord Exn IterAll ScheduledEmail}

theorem exchanges_roundTrip (spec : RequestSpec) (url : Str) (headers : Items Str Str)
    (answer : HttpOutcome) : exchanges (roundTrip platform spec url headers answer) =
      [(httpRequest spec url headers, answer)] :=
  exchanges_conversation (httpRequest spec url headers, answer)

theorem afterPage_last {page : ScheduledEmailPage} (last : nextPageSpec page = none) :
    afterPage platform client (pageListing page) = .ended := by
  unfold afterPage pageListing
  rw [Option.map_eq_none_iff.mp last]

theorem afterPage_next {page : ScheduledEmailPage} {spec : RequestSpec}
    (more : nextPageSpec page = some spec) :
    afterPage platform client (pageListing page) = stageOf (issue platform client spec) := by
  obtain ⟨link, next, rfl⟩ := Option.map_eq_some_iff.mp more
  unfold afterPage pageListing
  rw [next]
  exact congrArg stageOf (visit_eq platform client link)

theorem fetches_replayed {spec : RequestSpec}
    (due : EachDue platform client first (exchanges before.events))
    (replayed : replay platform client first (exchanges before.events) =
      (before.items, stageOf (issue platform client spec)))
    (fetches : Fetches platform client server before spec after) :
    WalkReplayed platform client first after := by
  -- The exchange of a prepared request is the one that is due.
  have asked : ∀ {url headers} answer, client.prepare platform spec = .ok (url, headers) →
      EachDue platform client first
          (exchanges (before.events ++ roundTrip platform spec url headers answer)) ∧
        replay platform client first
            (exchanges (before.events ++ roundTrip platform spec url headers answer)) =
          (before.items ++ (Stage.next platform client
              (.due (httpRequest spec url headers)) answer).1,
            (Stage.next platform client (.due (httpRequest spec url headers)) answer).2) := by
    intro url headers answer prepared
    rw [issue_of_prepared platform client prepared] at replayed
    rw [exchanges_append, exchanges_roundTrip]
    exact ⟨eachDue_concat due (congrArg Prod.snd replayed) answer,
      replay_concat replayed _ answer⟩
  cases fetches with
  | refused unprepared =>
      refine ⟨due, ?_⟩
      rw [replayed, issue_refused platform client unprepared]
      exact ⟨rfl, rfl⟩
  | failed prepared result =>
      obtain ⟨each, more⟩ := asked _ prepared
      refine ⟨each, ?_⟩
      rw [more, Stage.next, readListing_eq, readPage, result]
      exact ⟨(List.append_nil _).symm, rfl⟩
  | fetched prepared result =>
      obtain ⟨each, more⟩ := asked _ prepared
      refine ⟨each, ?_⟩
      rw [more, Stage.next, readListing_eq, readPage, result]
      exact ⟨rfl, rfl⟩

theorem start_replayed : WalkReplayed platform client first (Walk.start .entry) :=
  ⟨trivial, rfl, rfl⟩

/-- Each move of a walk keeps it what its exchanges are replayed as. -/
theorem moves_replayed {params : Items Str Value}
    (before after : Walk HttpRequest HttpOutcome LogRecord Exn IterAll ScheduledEmail)
    (replayed : WalkReplayed platform client (listingStage platform client params) before)
    (moves : Moves platform client server before params after) :
    WalkReplayed platform client (listingStage platform client params) after := by
  obtain ⟨due, stands⟩ := replayed
  cases moves with
  | still ended => exact ⟨due, stands⟩
  | unlisted atEntry unbuilt =>
      rw [atEntry] at stands
      refine ⟨due, stands.1, stands.2.trans ?_⟩
      unfold listingStage
      rw [listing_eq, unbuilt]
      rfl
  | @listed spec after atEntry built fetches =>
      rw [atEntry] at stands
      have listing : listingStage platform client params =
          stageOf (issue platform client spec) := by
        unfold listingStage
        rw [listing_eq, built]
        rfl
      exact fetches_replayed due (Prod.ext stands.1.symm (stands.2.trans listing)) fetches
  | item inside =>
      rw [inside] at stands
      exact ⟨due, (List.append_assoc _ _ _).trans stands.1, stands.2⟩
  | last atEnd none =>
      rw [atEnd] at stands
      refine ⟨due, (List.append_nil _).symm.trans stands.1, stands.2.trans ?_⟩
      exact afterPage_last none
  | @next page spec after atEnd more fetches =>
      rw [atEnd] at stands
      refine fetches_replayed due (Prod.ext ?_ (stands.2.trans (afterPage_next more))) fetches
      exact stands.1.symm.trans (List.append_nil _)

end Moves

/-- Whatever the server answers, and however it changes its answers, a walk asks for what
is due after the answers so far, and has yielded the items of their pages, in order and each
once, up to where it stands; it returns after a page with no link, and raises what the
answer or the link that stops it makes it raise. -/
theorem walk_replayed (platform : Platform) (client : BaseClient) (flavour : Flavour)
    (params : Items Str Value) (server : Server) (steps : Nat) :
    WalkReplayed platform client (listingStage platform client params)
      (walk platform client flavour params server steps) :=
  walk_invariant platform client start_replayed moves_replayed flavour steps

end MailkubeSdk
