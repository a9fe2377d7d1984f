import Mathlib.Data.List.Nodup
import Mathlib.Data.Nat.Find
import Mathlib.Order.Bounds.Basic
import Mathlib.Order.Nat
import MailkubeSdk.Effect.Generator

/-
A chain of pages, and the lazy walk over it.

A pager knows its first query, what a query fetches, the items of a page and
where a page points.  Page `n` is what following the pointers `n` times
fetches.  The cursor reads the chain item by item and asks for a page only when
the items of the page before are used up; the results below say what it has
delivered and asked at every point of its run.
-/

namespace Effect

structure Pager (Q π E ι : Type) where
  first : Except E Q
  fetch : Q → Except E π
  items : π → List ι
  next : π → Option (Except E Q)

namespace Pager

variable {Q π E ι : Type} (pager : Pager Q π E ι)

/-- Where the chain stands after `n` pages: nowhere, at a query, or refused. -/
def query : Nat → Option (Except E Q)
  | 0 => some pager.first
  | n + 1 =>
      match query n with
      | some (.ok q) =>
          match pager.fetch q with
          | .ok page => pager.next page
          | .error _ => none
      | _ => none

def page (n : Nat) : Option π :=
  match pager.query n with
  | some (.ok q) => (pager.fetch q).toOption
  | _ => none

/-- The chain breaks at position `n`: the query is refused, or its fetch fails. -/
def Fails (n : Nat) (error : E) : Prop :=
  pager.query n = some (.error error) ∨
    ∃ q, pager.query n = some (.ok q) ∧ pager.fetch q = .error error

/-- The items of the first `n` pages, in order. -/
def delivered (n : Nat) : List ι :=
  (List.range n).flatMap (fun i => (pager.page i).elim [] pager.items)

def queryAt (n : Nat) : Option Q :=
  match pager.query n with
  | some (.ok q) => some q
  | _ => none

/-- The queries of the first `n` positions. -/
def asked (n : Nat) : List Q := (List.range n).filterMap pager.queryAt

theorem delivered_succ (n : Nat) :
    pager.delivered (n + 1) = pager.delivered n ++ (pager.page n).elim [] pager.items := by
  simp only [delivered, List.range_succ, List.flatMap_append, List.flatMap_cons, List.flatMap_nil,
    List.append_nil]

theorem asked_succ (n : Nat) :
    pager.asked (n + 1) = pager.asked n ++ (pager.queryAt n).toList := by
  simp only [asked, List.range_succ, List.filterMap_append]
  cases h : pager.queryAt n <;> simp [h]

theorem delivered_prefix {m n : Nat} (le : m ≤ n) : pager.delivered m <+: pager.delivered n := by
  induction n with
  | zero =>
      cases Nat.le_zero.mp le
      exact List.prefix_rfl
  | succ n ih =>
      rcases Nat.lt_or_eq_of_le le with lt | rfl
      · rw [delivered_succ]
        exact (ih (Nat.lt_succ_iff.mp lt)).trans (List.prefix_append _ _)
      · exact List.prefix_rfl

variable {pager}

theorem page_eq_some {n : Nat} {page : π} (h : pager.page n = some page) :
    ∃ q, pager.query n = some (.ok q) ∧ pager.fetch q = .ok page := by
  unfold Pager.page at h
  split at h
  · rename_i q found
    refine ⟨q, found, ?_⟩
    cases fetched : pager.fetch q with
    | ok value =>
        rw [fetched] at h
        rw [Option.some.inj h]
    | error error =>
        rw [fetched] at h
        cases h
  · cases h

theorem page_of_fetch {n : Nat} {q : Q} {page : π} (atQuery : pager.query n = some (.ok q))
    (fetched : pager.fetch q = .ok page) : pager.page n = some page := by
  unfold Pager.page
  rw [atQuery]
  simp only [fetched, Except.toOption]

theorem query_succ {n : Nat} {page : π} (h : pager.page n = some page) :
    pager.query (n + 1) = pager.next page := by
  obtain ⟨q, atQuery, fetched⟩ := page_eq_some h
  simp only [query, atQuery, fetched]

theorem queryAt_of_query {n : Nat} {q : Q} (h : pager.query n = some (.ok q)) :
    pager.queryAt n = some q := by
  unfold queryAt
  rw [h]

theorem query_of_queryAt {n : Nat} {q : Q} (h : pager.queryAt n = some q) :
    pager.query n = some (.ok q) := by
  unfold queryAt at h
  split at h
  · rename_i other found
    rw [found, Option.some.inj h]
  · cases h

theorem query_ok_of_succ {n : Nat} {status : Except E Q}
    (h : pager.query (n + 1) = some status) : ∃ page, pager.page n = some page := by
  simp only [query] at h
  split at h
  · rename_i q atQuery
    split at h
    · rename_i page fetched
      exact ⟨page, page_of_fetch atQuery fetched⟩
    · cases h
  · cases h

theorem asked_length {n : Nat} {page : π} (h : pager.page n = some page) :
    (pager.asked (n + 1)).length = n + 1 := by
  induction n generalizing page with
  | zero =>
      obtain ⟨q, atQuery, -⟩ := page_eq_some h
      rw [asked_succ, queryAt_of_query atQuery]
      rfl
  | succ n ih =>
      obtain ⟨q, atQuery, -⟩ := page_eq_some h
      obtain ⟨before, hBefore⟩ := query_ok_of_succ atQuery
      rw [asked_succ, queryAt_of_query atQuery, List.length_append, ih hBefore]
      rfl

/-! ### The cursor -/

inductive Position (π E ι : Type) where
  | before
  | within (page : π) (rest : List ι)
  | returned
  | raised (error : E)

structure Cursor (Q π E ι : Type) where
  position : Position π E ι
  items : List ι
  asked : List Q

variable (pager)

def start : Cursor Q π E ι := ⟨.before, [], []⟩

/-- Follow a pointer: stop, refuse it, or fetch what it names. -/
def follow (items : List ι) (asked : List Q) : Option (Except E Q) → Cursor Q π E ι
  | none => ⟨.returned, items, asked⟩
  | some (.error error) => ⟨.raised error, items, asked⟩
  | some (.ok q) =>
      match pager.fetch q with
      | .ok page => ⟨.within page (pager.items page), items, asked ++ [q]⟩
      | .error error => ⟨.raised error, items, asked ++ [q]⟩

variable {pager} in
theorem follow_fetched {q : Q} {page : π} (fetched : pager.fetch q = .ok page) (items : List ι)
    (asked : List Q) :
    pager.follow items asked (some (.ok q)) =
      ⟨.within page (pager.items page), items, asked ++ [q]⟩ := by
  simp only [follow, fetched]

variable {pager} in
theorem follow_failed {q : Q} {error : E} (failed : pager.fetch q = .error error) (items : List ι)
    (asked : List Q) :
    pager.follow items asked (some (.ok q)) = ⟨.raised error, items, asked ++ [q]⟩ := by
  simp only [follow, failed]

def step (cursor : Cursor Q π E ι) : Cursor Q π E ι :=
  match cursor.position with
  | .before => pager.follow cursor.items cursor.asked (some pager.first)
  | .within page (item :: rest) => ⟨.within page rest, cursor.items ++ [item], cursor.asked⟩
  | .within page [] => pager.follow cursor.items cursor.asked (pager.next page)
  | .returned => cursor
  | .raised _ => cursor

/-- What has been delivered and asked at each point of the walk. -/
def Sound (cursor : Cursor Q π E ι) : Prop :=
  match cursor.position with
  | .before => cursor.items = [] ∧ cursor.asked = []
  | .within page rest => ∃ n taken, pager.page n = some page ∧ pager.items page = taken ++ rest ∧
      cursor.items = pager.delivered n ++ taken ∧ cursor.asked = pager.asked (n + 1)
  | .returned => ∃ n page, pager.page n = some page ∧ pager.next page = none ∧
      cursor.items = pager.delivered (n + 1) ∧ cursor.asked = pager.asked (n + 1)
  | .raised error => ∃ n, pager.Fails n error ∧ cursor.items = pager.delivered n ∧
      cursor.asked = pager.asked (n + 1)

variable {pager}

private theorem follow_sound {n : Nat} {items : List ι} {asked : List Q}
    {pointer : Option (Except E Q)} (atPointer : pager.query n = pointer)
    (stopped : pointer = none → ∃ m page, pager.page m = some page ∧ pager.next page = none ∧
      items = pager.delivered (m + 1) ∧ asked = pager.asked (m + 1))
    (hItems : items = pager.delivered n) (hAsked : asked = pager.asked n) :
    pager.Sound (pager.follow items asked pointer) := by
  rcases pointer with _ | (error | q)
  · exact stopped rfl
  · refine ⟨n, Or.inl atPointer, hItems, ?_⟩
    have refused : pager.queryAt n = none := by
      unfold queryAt
      rw [atPointer]
    show asked = pager.asked (n + 1)
    rw [asked_succ, refused, hAsked]
    exact (List.append_nil _).symm
  · have grown : asked ++ [q] = pager.asked (n + 1) := by
      rw [asked_succ, queryAt_of_query atPointer, hAsked]
      rfl
    cases fetched : pager.fetch q with
    | ok page =>
        rw [follow_fetched fetched]
        exact ⟨n, [], page_of_fetch atPointer fetched, rfl, by rw [hItems, List.append_nil],
          grown⟩
    | error error =>
        rw [follow_failed fetched]
        exact ⟨n, Or.inr ⟨q, atPointer, fetched⟩, hItems, grown⟩

theorem step_sound {cursor : Cursor Q π E ι} (sound : pager.Sound cursor) :
    pager.Sound (pager.step cursor) := by
  obtain ⟨position, items, asked⟩ := cursor
  cases position with
  | before =>
      obtain ⟨rfl, rfl⟩ : items = [] ∧ asked = [] := sound
      exact follow_sound (n := 0) rfl (fun impossible => by cases impossible) rfl rfl
  | within page rest =>
      obtain ⟨n, taken, hPage, hItems, hDelivered, hAsked⟩ := sound
      cases rest with
      | cons item rest =>
          refine ⟨n, taken ++ [item], hPage, ?_, ?_, hAsked⟩
          · rw [hItems, List.append_assoc]
            rfl
          · show items ++ [item] = _
            rw [show items = pager.delivered n ++ taken from hDelivered, List.append_assoc]
      | nil =>
          have complete : items = pager.delivered (n + 1) := by
            rw [delivered_succ, hPage]
            simpa only [Option.elim, hItems, List.append_nil] using hDelivered
          exact follow_sound (query_succ hPage)
            (fun none => ⟨n, page, hPage, none, complete, hAsked⟩) complete hAsked
  | returned => exact sound
  | raised error => exact sound

theorem iterate_sound (steps : Nat) : pager.Sound (pager.step^[steps] start) := by
  induction steps with
  | zero => exact ⟨rfl, rfl⟩
  | succ steps ih =>
      rw [Function.iterate_succ_apply']
      exact step_sound ih

theorem asked_chain (steps : Nat) : ∃ n, (pager.step^[steps] start).asked = pager.asked n := by
  have sound : pager.Sound (pager.step^[steps] start) := iterate_sound steps
  generalize pager.step^[steps] start = cursor at sound ⊢
  obtain ⟨position, items, asked⟩ := cursor
  cases position with
  | before => exact ⟨0, sound.2⟩
  | within page rest =>
      obtain ⟨n, _, _, _, _, hAsked⟩ := sound
      exact ⟨n + 1, hAsked⟩
  | returned =>
      obtain ⟨n, _, _, _, _, hAsked⟩ := sound
      exact ⟨n + 1, hAsked⟩
  | raised error =>
      obtain ⟨n, _, _, hAsked⟩ := sound
      exact ⟨n + 1, hAsked⟩

/-! ### Laziness -/

theorem step_items (cursor : Cursor Q π E ι) :
    (pager.step cursor).items = cursor.items ∨
      ∃ page item rest, cursor.position = .within page (item :: rest) ∧
        pager.step cursor = ⟨.within page rest, cursor.items ++ [item], cursor.asked⟩ := by
  have followed : ∀ pointer, (pager.follow cursor.items cursor.asked pointer).items =
      cursor.items := by
    intro pointer
    rcases pointer with _ | (error | q)
    · rfl
    · rfl
    · cases fetched : pager.fetch q with
      | ok page => simp only [follow, fetched]
      | error error => simp only [follow, fetched]
  obtain ⟨position, items, asked⟩ := cursor
  rcases position with _ | ⟨page, _ | ⟨item, rest⟩⟩ | _ | error
  · exact Or.inl (followed _)
  · exact Or.inl (followed _)
  · exact Or.inr ⟨page, item, rest, rfl, rfl⟩
  · exact Or.inl rfl
  · exact Or.inl rfl

theorem step_items_length (cursor : Cursor Q π E ι) :
    (pager.step cursor).items.length ≤ cursor.items.length + 1 := by
  rcases step_items cursor with same | ⟨page, item, rest, -, stepped⟩
  · rw [same]
    exact Nat.le_succ _
  · rw [stepped, List.length_append]
    rfl

/-- A consumer that has just received its `k`-th item has caused as many
queries as the shortest run of pages holding `k` items is long. -/
theorem asked_least {k steps : Nat} (positive : 0 < k)
    (holds : (pager.step^[steps] start).items.length = k)
    (firstTime : ∀ earlier < steps, (pager.step^[earlier] start).items.length < k) :
    IsLeast {n | k ≤ (pager.delivered n).length} (pager.step^[steps] start).asked.length := by
  cases steps with
  | zero =>
      rw [← holds] at positive
      exact absurd positive (Nat.lt_irrefl 0)
  | succ before =>
      have sound : pager.Sound (pager.step^[before] start) := iterate_sound before
      have fewer := firstTime before (Nat.lt_succ_self before)
      rw [Function.iterate_succ_apply'] at holds ⊢
      generalize pager.step^[before] start = cursor at sound fewer holds ⊢
      rcases step_items cursor with same | ⟨page, item, rest, inside, stepped⟩
      · rw [same] at holds
        omega
      · obtain ⟨position, items, asked⟩ := cursor
        simp only at inside
        subst inside
        obtain ⟨n, taken, hPage, hItems, hDelivered, hAsked⟩ := sound
        simp only at hDelivered hAsked fewer
        rw [stepped] at holds ⊢
        simp only [List.length_append, List.length_cons, List.length_nil] at holds
        have lengths := congrArg List.length hDelivered
        rw [List.length_append] at lengths
        simp only [hAsked, asked_length hPage]
        constructor
        · show k ≤ (pager.delivered (n + 1)).length
          have here := congrArg List.length hItems
          rw [List.length_append, List.length_cons] at here
          rw [delivered_succ, hPage, List.length_append]
          simp only [Option.elim]
          omega
        · intro m enough
          by_contra shorter
          have le : m ≤ n := by omega
          have bound := (pager.delivered_prefix le).length_le
          have enough' : k ≤ (pager.delivered m).length := enough
          omega

theorem items_prefix (steps : Nat) :
    ∃ n, (pager.step^[steps] start).items <+: pager.delivered n := by
  have sound : pager.Sound (pager.step^[steps] start) := iterate_sound steps
  generalize pager.step^[steps] start = cursor at sound ⊢
  obtain ⟨position, items, asked⟩ := cursor
  cases position with
  | before =>
      obtain ⟨rfl, -⟩ : items = [] ∧ asked = [] := sound
      exact ⟨0, List.nil_prefix⟩
  | within page rest =>
      obtain ⟨n, taken, hPage, hItems, hDelivered, -⟩ := sound
      refine ⟨n + 1, ?_⟩
      rw [delivered_succ, hPage]
      simp only [Option.elim, hItems]
      rw [← List.append_assoc, ← show items = pager.delivered n ++ taken from hDelivered]
      exact List.prefix_append _ _
  | returned =>
      obtain ⟨n, page, -, -, hDelivered, -⟩ := sound
      exact ⟨n + 1, hDelivered ▸ List.prefix_rfl⟩
  | raised error =>
      obtain ⟨n, -, hDelivered, -⟩ := sound
      exact ⟨n, hDelivered ▸ List.prefix_rfl⟩

/-! ### Progress -/

theorem drain (page : π) (rest : List ι) (items : List ι) (asked : List Q) :
    pager.step^[rest.length] ⟨.within page rest, items, asked⟩ =
      ⟨.within page [], items ++ rest, asked⟩ := by
  induction rest generalizing items with
  | nil => rw [List.append_nil]; rfl
  | cons item rest ih =>
      rw [List.length_cons, Function.iterate_succ_apply]
      show pager.step^[rest.length] ⟨.within page rest, items ++ [item], asked⟩ = _
      rw [ih, List.append_assoc]
      rfl

private theorem reaches_query {n : Nat} {status : Except E Q}
    (atQuery : pager.query n = some status) :
    ∃ steps, pager.step^[steps + 1] start =
      pager.follow (pager.delivered n) (pager.asked n) (some status) := by
  induction n generalizing status with
  | zero =>
      refine ⟨0, ?_⟩
      rw [← Option.some.inj atQuery]
      rfl
  | succ n ih =>
      obtain ⟨page, hPage⟩ := query_ok_of_succ atQuery
      obtain ⟨q, hQuery, fetched⟩ := page_eq_some hPage
      obtain ⟨steps, reached⟩ := ih hQuery
      refine ⟨(pager.items page).length + (steps + 1), ?_⟩
      rw [Function.iterate_succ_apply', Function.iterate_add_apply, reached,
        follow_fetched fetched, drain]
      show pager.follow _ _ (pager.next page) = _
      rw [← query_succ hPage, atQuery, delivered_succ, hPage, asked_succ,
        queryAt_of_query hQuery]
      rfl

/-- The walk reaches every page of the chain, with all items before it handed out. -/
theorem reaches_page {n : Nat} {page : π} (hPage : pager.page n = some page) :
    ∃ steps, pager.step^[steps] start =
      ⟨.within page [], pager.delivered (n + 1), pager.asked (n + 1)⟩ := by
  obtain ⟨q, atQuery, fetched⟩ := page_eq_some hPage
  obtain ⟨steps, reached⟩ := reaches_query atQuery
  refine ⟨(pager.items page).length + (steps + 1), ?_⟩
  rw [Function.iterate_add_apply, reached, follow_fetched fetched, drain, delivered_succ, hPage,
    asked_succ, queryAt_of_query atQuery]
  rfl

/-- When the chain ends after page `n`, so does the walk, having asked for
exactly the pages up to `n` and handed out all their items. -/
theorem reaches_end {n : Nat} {page : π} (hPage : pager.page n = some page)
    (last : pager.next page = none) :
    ∃ steps, pager.step^[steps] start =
      ⟨.returned, pager.delivered (n + 1), pager.asked (n + 1)⟩ := by
  obtain ⟨steps, reached⟩ := reaches_page hPage
  refine ⟨steps + 1, ?_⟩
  rw [Function.iterate_succ_apply', reached]
  show pager.follow _ _ (pager.next page) = _
  rw [last]
  rfl

/-- When the chain breaks at position `n`, the walk raises that very error, after
every item of the pages before. -/
theorem reaches_failure {n : Nat} {error : E} (fails : pager.Fails n error) :
    ∃ steps, pager.step^[steps] start =
      ⟨.raised error, pager.delivered n, pager.asked (n + 1)⟩ := by
  rcases fails with refused | ⟨q, atQuery, failed⟩
  · obtain ⟨steps, reached⟩ := reaches_query refused
    refine ⟨steps + 1, ?_⟩
    have absent : pager.queryAt n = none := by
      unfold queryAt
      rw [refused]
    rw [reached, asked_succ, absent]
    simp only [follow, Option.toList_none, List.append_nil]
  · obtain ⟨steps, reached⟩ := reaches_query atQuery
    refine ⟨steps + 1, ?_⟩
    rw [reached, follow_failed failed, asked_succ, queryAt_of_query atQuery]
    rfl

theorem exists_holding {n k : Nat} {page : π} (hPage : pager.page n = some page)
    (enough : k ≤ (pager.delivered (n + 1)).length) :
    ∃ steps, (pager.step^[steps] start).items.length = k ∧
      ∀ earlier < steps, (pager.step^[earlier] start).items.length < k := by
  obtain ⟨far, reached⟩ := reaches_page hPage
  have some : ∃ steps, k ≤ (pager.step^[steps] start).items.length := by
    refine ⟨far, ?_⟩
    rw [reached]
    exact enough
  classical
  refine ⟨Nat.find some, ?_, fun earlier lt => Nat.lt_of_not_le (Nat.find_min some lt)⟩
  have found := Nat.find_spec some
  cases h : Nat.find some with
  | zero =>
      rw [h] at found
      have none : k = 0 := Nat.le_zero.mp found
      rw [none]
      rfl
  | succ before =>
      have less := Nat.find_min some (show before < Nat.find some by omega)
      rw [h] at found
      rw [Function.iterate_succ_apply'] at found ⊢
      have bound : (pager.step (pager.step^[before] start)).items.length ≤ _ :=
        step_items_length (pager.step^[before] start)
      omega

/-! ### A query that comes again -/

theorem query_congr_succ {m n : Nat} (same : pager.query m = pager.query n) :
    pager.query (m + 1) = pager.query (n + 1) := by
  simp only [query, same]

theorem query_some_of_le {m n : Nat} (le : m ≤ n) {status : Except E Q}
    (later : pager.query n = some status) : ∃ earlier, pager.query m = some earlier := by
  induction n generalizing status with
  | zero =>
      rw [Nat.le_zero.mp le]
      exact ⟨status, later⟩
  | succ n ih =>
      rcases Nat.lt_or_eq_of_le le with lt | rfl
      · obtain ⟨page, found⟩ := query_ok_of_succ later
        obtain ⟨q, atQuery, _⟩ := page_eq_some found
        exact ih (Nat.le_of_lt_succ lt) atQuery
      · exact ⟨status, later⟩

/-- A chain that comes back to a query goes round for ever. -/
theorem page_of_repeat {i j : Nat} (lt : i < j) {q : Q} (first : pager.queryAt i = some q)
    (again : pager.queryAt j = some q) (n : Nat) : ∃ page, pager.page n = some page := by
  obtain ⟨gap, rfl⟩ := Nat.exists_eq_add_of_lt lt
  have periodic : ∀ k, pager.query (i + k) = pager.query (i + gap + 1 + k) := by
    intro k
    induction k with
    | zero => rw [Nat.add_zero, Nat.add_zero, query_of_queryAt first, query_of_queryAt again]
    | succ k ih => exact query_congr_succ ih
  have asked : ∀ m, ∃ status, pager.query m = some status := by
    intro m
    induction m using Nat.strong_induction_on with
    | _ m ih =>
        rcases Nat.lt_or_ge (i + gap + 1) m with past | within
        · have back := periodic (m - (i + gap + 1))
          rw [Nat.add_sub_cancel' (Nat.le_of_lt past)] at back
          rw [← back]
          exact ih _ (by omega)
        · exact query_some_of_le within (query_of_queryAt again)
  obtain ⟨status, next⟩ := asked (n + 1)
  exact query_ok_of_succ next

/-- Where the queries asked are not all different, one of them comes again. -/
theorem repeat_of_asked {n : Nat} (repeated : ¬(pager.asked n).Nodup) :
    ∃ i j q, i < j ∧ pager.queryAt i = some q ∧ pager.queryAt j = some q := by
  by_contra distinct
  apply repeated
  refine List.nodup_range.filterMap ?_
  intro i j q first again
  by_contra different
  rcases Nat.lt_or_gt_of_ne different with lt | gt
  · exact distinct ⟨i, j, q, lt, first, again⟩
  · exact distinct ⟨j, i, q, gt, again, first⟩

/-- Where every page is there, the cursor stays within the pages. -/
theorem never_ends (pages : ∀ n, ∃ page, pager.page n = some page) (steps : Nat) :
    (pager.step^[steps] start).position ≠ .returned ∧
      ∀ error, (pager.step^[steps] start).position ≠ .raised error := by
  have sound : pager.Sound (pager.step^[steps] start) := iterate_sound steps
  generalize pager.step^[steps] start = cursor at sound ⊢
  obtain ⟨position, items, asked⟩ := cursor
  constructor
  · rintro rfl
    obtain ⟨n, page, here, last, _⟩ := sound
    obtain ⟨other, found⟩ := pages (n + 1)
    obtain ⟨q, atQuery, _⟩ := page_eq_some found
    rw [query_succ here, last] at atQuery
    cases atQuery
  · rintro error rfl
    obtain ⟨n, failed, _⟩ := sound
    obtain ⟨page, found⟩ := pages n
    obtain ⟨q, atQuery, fetched⟩ := page_eq_some found
    rcases failed with refused | ⟨other, asks, broken⟩
    · rw [atQuery] at refused
      cases refused
    · rw [atQuery] at asks
      cases asks
      rw [fetched] at broken
      cases broken

end Pager

end Effect
