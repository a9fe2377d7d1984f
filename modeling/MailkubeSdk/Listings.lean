import MailkubeSdk.ErrorMapping
import MailkubeSdk.RoundTrip
import MailkubeSdk.Schema.Reread

/-
What the answers of a walk list.

A page of the listing is read off its body alone: its items are the objects of
`data` and its link is the text of `pagination.steps.next`.  The validated page
has these items and this link, and a walk has handed out the items of its
answers, up to those it still holds.
-/

namespace MailkubeSdk

open Python Schema Effect

/-- The items of a page, and its link to the next one. -/
structure Listing where
  items : List ScheduledEmail
  next : Option Str

/-- The objects of `data`. -/
def listedItems (lax : Lax) (body : Items Str Value) : List ScheduledEmail :=
  match body.get (str "data") with
  | some (.list elements) =>
      elements.filterMap fun element => (ScheduledEmail.shape.validate lax element).toOption
  | _ => []

def objectAt (body : Items Str Value) (key : String) : Items Str Value :=
  match body.get (str key) with
  | some (.dict items) => items
  | _ => []

/-- The text of `pagination.steps.next`. -/
def listedLink (body : Items Str Value) : Option Str :=
  match (objectAt (objectAt body "pagination") "steps").get (str "next") with
  | some (.str link) => some link
  | _ => none

def pageBody (runtime : Runtime) (response : Response) : Items Str Value :=
  match decodeJson runtime response.content with
  | .ok (.dict items) => items
  | _ => []

/-- Reads an answer as a page; what is no page is what the call raises on it. -/
def readListing (platform : Platform) (answer : HttpOutcome) : Except Exn Listing := do
  let response ← answered answer
  let _ ← processModel platform ScheduledEmailPage.model response
  let body := pageBody platform.runtime response
  .ok ⟨listedItems platform.lax body, listedLink body⟩

/-! ### The validated page -/

/-- A member that is an object, or left out for an empty one. -/
theorem objectAt_read {lax : Lax} {extra : Extra} {fields : Fields} {body : Items Str Value}
    {key : String} {read : (Ty.record extra fields).Denote}
    (valid : (Ty.record extra fields).validate lax ((body.get (str key)).getD (.dict [])) =
      .ok read) :
    fields.validate lax (objectAt body key) = .ok read.1 := by
  obtain ⟨items, given, validated⟩ := onItems_eq_ok_iff.mp valid
  obtain ⟨object, readFields, rfl⟩ := map_eq_ok_iff.mp validated
  have same : objectAt body key = items := by
    unfold objectAt
    cases found : body.get (str key) with
    | none =>
        rw [found] at given
        cases given
        rfl
    | some value =>
        rw [found] at given
        cases given
        rfl
  rw [same]
  exact readFields

theorem listing_read {lax : Lax} {body : Items Str Value} {page : ScheduledEmailPage}
    (valid : ScheduledEmailPage.shape.validate lax (.dict body) = .ok page) :
    page.data = listedItems lax body ∧ page.nextUrl = listedLink body := by
  obtain ⟨object, validated, rfl⟩ := map_eq_ok_iff.mp valid
  obtain ⟨readPagination, readData⟩ := (validate_defaulted_eq_ok_iff lax).mp validated
  obtain ⟨readItems, _⟩ := (validate_defaulted_eq_ok_iff lax).mp readData
  constructor
  · unfold listedItems
    cases found : body.get (str "data") with
    | none =>
        rw [found] at readItems
        exact (Except.ok.inj readItems).symm
    | some value =>
        rw [found] at readItems
        cases value with
        | list elements => exact elements_read readItems
        | _ => cases readItems
  · obtain ⟨readSteps, _⟩ := (validate_defaulted_eq_ok_iff lax).mp (objectAt_read readPagination)
    obtain ⟨readNext, _⟩ := (validate_defaulted_eq_ok_iff lax).mp (objectAt_read readSteps)
    unfold listedLink
    rcases orNone_eq_ok_iff.mp readNext with ⟨null, absent⟩ | ⟨_, link, text, present⟩
    · refine absent.trans ?_
      cases found : Items.get (objectAt (objectAt body "pagination") "steps") (str "next") with
      | none => rfl
      | some value =>
          rw [found] at null
          cases null
          rfl
    · refine present.trans ?_
      cases found : Items.get (objectAt (objectAt body "pagination") "steps") (str "next") with
      | none =>
          rw [found] at text
          cases text
      | some value =>
          rw [found] at text
          cases ofText_eq_ok_iff.mp text
          rfl

variable {platform : Platform}

theorem processModel_body {model : Model} {response : Response} {read : model.Instance}
    (parsed : processModel platform model response = .ok read) :
    model.shape.validate platform.lax (.dict (pageBody platform.runtime response)) = .ok read := by
  obtain ⟨value, decoded⟩ := decoded_of_processed parsed
  obtain ⟨_, ⟨items, rfl⟩, valid⟩ := (processModel_eq_ok_iff decoded).mp parsed
  unfold pageBody
  rw [decoded]
  exact valid

/-- Reads an answer as a page. -/
def readPage (platform : Platform) (answer : HttpOutcome) : Except Exn ScheduledEmailPage :=
  answered answer >>= processModel platform ScheduledEmailPage.model

/-- What a validated page lists. -/
def pageListing (page : ScheduledEmailPage) : Listing := ⟨page.data, page.nextUrl⟩

theorem readListing_eq (answer : HttpOutcome) :
    readListing platform answer = (readPage platform answer).map pageListing := by
  unfold readListing readPage
  cases answered answer with
  | error exn => rfl
  | ok response =>
      simp only [bind, Except.bind]
      cases parsed : processModel platform ScheduledEmailPage.model response with
      | error exn => rfl
      | ok page =>
          obtain ⟨items, next⟩ := listing_read (processModel_body parsed)
          simp only [Except.map, pageListing, items, next]

/-! ### The account of a walk -/

/-- The items of a page, none where an answer is not one. -/
def itemsOf (platform : Platform) (answer : HttpOutcome) : List ScheduledEmail :=
  match readListing platform answer with
  | .ok listing => listing.items
  | .error _ => []

/-- The items of the pages received, in order. -/
def itemsReceived (platform : Platform) (events : Trace) : List ScheduledEmail :=
  (answers events).flatMap (itemsOf platform)

/-- The items of the current page that are still to come. -/
def unread : Status IterAll Exn → List ScheduledEmail
  | .suspended (.within _ rest) => rest
  | _ => []

/-- The items handed out and those still to come are those of the pages received. -/
def Balanced (platform : Platform)
    (walk : Walk HttpRequest HttpOutcome LogRecord Exn IterAll ScheduledEmail) : Prop :=
  walk.items ++ unread walk.status = itemsReceived platform walk.events

theorem itemsReceived_append (first second : Trace) :
    itemsReceived platform (first ++ second) =
      itemsReceived platform first ++ itemsReceived platform second := by
  unfold itemsReceived
  rw [answers_append, List.flatMap_append]

theorem itemsReceived_roundTrip (spec : RequestSpec) (url : Str) (headers : Items Str Str)
    (answer : HttpOutcome) :
    itemsReceived platform (roundTrip platform spec url headers answer) =
      itemsOf platform answer := by
  unfold itemsReceived
  rw [answers_roundTrip, List.flatMap_singleton]

theorem itemsOf_page {answer : HttpOutcome} {page : ScheduledEmailPage}
    (result : readPage platform answer = .ok page) : itemsOf platform answer = page.data := by
  unfold itemsOf
  rw [readListing_eq, result]
  rfl

theorem itemsOf_failed {answer : HttpOutcome} {exn : Exn}
    (result : readPage platform answer = .error exn) : itemsOf platform answer = [] := by
  unfold itemsOf
  rw [readListing_eq, result]
  rfl

variable {client : BaseClient}

theorem fetches_balanced {server : Server} {spec : RequestSpec}
    {before after : Walk HttpRequest HttpOutcome LogRecord Exn IterAll ScheduledEmail}
    (balanced : Balanced platform before) (finished : unread before.status = [])
    (fetches : Fetches platform client server before spec after) : Balanced platform after := by
  unfold Balanced at balanced
  rw [finished] at balanced
  cases fetches with
  | refused unprepared => exact balanced
  | failed prepared result =>
      unfold Balanced
      rw [itemsReceived_append, itemsReceived_roundTrip, itemsOf_failed result, ← balanced]
      exact (List.append_nil _).symm
  | @fetched url headers page prepared result =>
      unfold Balanced
      rw [itemsReceived_append, itemsReceived_roundTrip, itemsOf_page result, ← balanced,
        List.append_nil]
      rfl

/-- One step of a walk hands out the next item of the pages received, or receives
the next page. -/
theorem moves_balanced {params : Items Str Value} {server : Server}
    (before after : Walk HttpRequest HttpOutcome LogRecord Exn IterAll ScheduledEmail)
    (balanced : Balanced platform before)
    (moves : Moves platform client server before params after) : Balanced platform after := by
  cases moves with
  | still ended => exact balanced
  | unlisted atEntry unbuilt =>
      unfold Balanced at balanced
      rw [atEntry] at balanced
      exact balanced
  | listed atEntry built fetches =>
      exact fetches_balanced balanced (congrArg unread atEntry) fetches
  | item inside =>
      unfold Balanced at balanced ⊢
      rw [inside] at balanced
      rw [List.append_assoc]
      exact balanced
  | last atEnd none =>
      unfold Balanced at balanced
      rw [atEnd] at balanced
      exact balanced
  | next atEnd more fetches => exact fetches_balanced balanced (congrArg unread atEnd) fetches

theorem walk_balanced (flavour : Flavour) (params : Items Str Value) (server : Server)
    (steps : Nat) : Balanced platform (walk platform client flavour params server steps) := by
  have started : Balanced platform (Walk.start .entry) := rfl
  exact walk_invariant platform client started moves_balanced flavour steps

end MailkubeSdk
