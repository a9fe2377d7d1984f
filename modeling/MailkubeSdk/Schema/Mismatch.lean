import MailkubeSdk.Schema

/-
Where a value does not fit.

A mismatch is a location below a value: an object's member under its wire name,
an element under its index, a mapping's value under its key.  Validation reports
every mismatch and nothing else.
-/

namespace Schema

open Python

mutual

/-- The value does not fit the shape at the location below it. -/
def Ty.MismatchAt (lax : Lax) : Ty → Value → List Str → Prop
  | .str, value, path => path = [] ∧ ∀ text, value ≠ .str text
  | .int, value, path => path = [] ∧ lax.int value = none
  | .bool, value, path => path = [] ∧ lax.bool value = none
  | .any, _, _ => False
  | .literal text, value, path => path = [] ∧ value ≠ .str text
  | .nullable inner, value, path => value ≠ .none ∧ inner.MismatchAt lax value path
  | .list inner, value, path =>
      (path = [] ∧ ∀ elements, value ≠ .list elements) ∨
        ∃ elements, value = .list elements ∧ ∃ index element below,
          elements[index]? = some element ∧ path = natText index :: below ∧
            inner.MismatchAt lax element below
  | .dict inner, value, path =>
      (path = [] ∧ ∀ items, value ≠ .dict items) ∨
        ∃ items, value = .dict items ∧ ∃ item ∈ items, ∃ below,
          path = item.1 :: below ∧ inner.MismatchAt lax item.2 below
  | .record _ fields, value, path =>
      (path = [] ∧ ∀ items, value ≠ .dict items) ∨
        ∃ items, value = .dict items ∧ fields.MismatchAt lax items path

/-- A field of the object is missing, or does not fit at the location below it. -/
def Fields.MismatchAt (lax : Lax) : Fields → Items Str Value → List Str → Prop
  | .nil, _, _ => False
  | .cons name wire type default rest, items, path =>
      (path = [wire] ∧ fieldValue name wire default items = none) ∨
        (∃ value below, fieldValue name wire default items = some value ∧ path = wire :: below ∧
          type.MismatchAt lax value below) ∨
        rest.MismatchAt lax items path

end

/-- The reported locations. -/
def reported {α : Type} : Except Errors α → Errors
  | .ok _ => []
  | .error errors => errors

section Reported

variable {α β : Type} {path : List Str}

theorem mem_reported_ok (value : α) : path ∈ reported (.ok value : Except Errors α) ↔ False :=
  iff_false_intro List.not_mem_nil

theorem mem_reported_map (f : α → β) (result : Except Errors α) :
    path ∈ reported (result.map f) ↔ path ∈ reported result := by
  cases result with
  | ok value => exact Iff.rfl
  | error errors => exact Iff.rfl

theorem mem_reported_at (key : Str) (result : Except Errors α) :
    path ∈ reported (at_ key result) ↔ ∃ below, path = key :: below ∧ below ∈ reported result := by
  cases result with
  | ok value => simp only [at_, Except.mapError, mem_reported_ok, and_false, exists_false]
  | error errors =>
      change path ∈ errors.map (key :: ·) ↔ _
      rw [List.mem_map]
      exact exists_congr fun below => ⟨fun h => ⟨h.2.symm, h.1⟩, fun h => ⟨h.2, h.1.symm⟩⟩

theorem mem_reported_both (first : Except Errors α) (second : Except Errors β) :
    path ∈ reported (both first second) ↔ path ∈ reported first ∨ path ∈ reported second := by
  cases first with
  | ok a =>
      cases second with
      | ok b => simp only [both, mem_reported_ok, or_self]
      | error errors => simp only [both, reported, List.not_mem_nil, false_or]
  | error errors =>
      cases second with
      | ok b => simp only [both, reported, List.not_mem_nil, or_false]
      | error more => exact List.mem_append

theorem mem_reported_ofOption (result : Option α) :
    path ∈ reported (ofOption result) ↔ path = [] ∧ result = none := by
  cases result with
  | none => simp only [ofOption, Option.elim, reported, List.mem_singleton, and_true]
  | some value => simp only [ofOption, Option.elim, mem_reported_ok, reduceCtorEq, and_false]

theorem mem_reported_ofText (value : Value) :
    path ∈ reported (ofText value) ↔ path = [] ∧ ∀ text, value ≠ .str text := by
  cases value with
  | str text =>
      simp only [ofText, mem_reported_ok, ne_eq, Value.str.injEq, forall_eq', and_false]
  | _ =>
      simp only [ofText, reported, List.mem_singleton, ne_eq, reduceCtorEq, not_false_eq_true,
        implies_true, and_true]

theorem mem_reported_ofLiteral (text : Str) (value : Value) :
    path ∈ reported (ofLiteral text value) ↔ path = [] ∧ value ≠ .str text := by
  cases value with
  | str given =>
      by_cases same : given = text
      · simp only [ofLiteral, same, if_true, mem_reported_ok, ne_eq, not_true_eq_false, and_false]
      · simp only [ofLiteral, same, if_false, reported, List.mem_singleton, ne_eq,
          Value.str.injEq, not_false_eq_true, and_true]
  | _ =>
      simp only [ofLiteral, reported, List.mem_singleton, ne_eq, reduceCtorEq, not_false_eq_true,
        and_true]

theorem mem_reported_orNone (validate : Value → Except Errors α) (value : Value) :
    path ∈ reported (orNone validate value) ↔ value ≠ .none ∧ path ∈ reported (validate value) := by
  cases value with
  | none => simp only [orNone, mem_reported_ok, ne_eq, not_true_eq_false, false_and]
  | _ =>
      simp only [orNone, mem_reported_map, ne_eq, reduceCtorEq, not_false_eq_true, true_and]

theorem mem_reported_onElements (validate : List Value → Except Errors α) (value : Value) :
    path ∈ reported (onElements validate value) ↔
      (path = [] ∧ ∀ elements, value ≠ .list elements) ∨
        ∃ elements, value = .list elements ∧ path ∈ reported (validate elements) := by
  cases value with
  | list elements =>
      simp only [onElements, ne_eq, Value.list.injEq, forall_eq', and_false, exists_eq_left',
        false_or]
  | _ =>
      simp only [onElements, reported, List.mem_singleton, ne_eq, reduceCtorEq, not_false_eq_true,
        implies_true, and_true, false_and, exists_false, or_false]

theorem mem_reported_onItems (validate : Items Str Value → Except Errors α) (value : Value) :
    path ∈ reported (onItems validate value) ↔
      (path = [] ∧ ∀ items, value ≠ .dict items) ∨
        ∃ items, value = .dict items ∧ path ∈ reported (validate items) := by
  cases value with
  | dict items =>
      simp only [onItems, ne_eq, Value.dict.injEq, forall_eq', and_false, exists_eq_left',
        false_or]
  | _ =>
      simp only [onItems, reported, List.mem_singleton, ne_eq, reduceCtorEq, not_false_eq_true,
        implies_true, and_true, false_and, exists_false, or_false]

theorem mem_reported_validateElements {validate : Value → Except Errors α}
    {mismatch : Value → List Str → Prop}
    (spec : ∀ value path, path ∈ reported (validate value) ↔ mismatch value path) (start : Nat)
    (elements : List Value) :
    path ∈ reported (validateElements validate start elements) ↔
      ∃ index element below, elements[index]? = some element ∧
        path = natText (start + index) :: below ∧ mismatch element below := by
  induction elements generalizing start with
  | nil =>
      simp only [validateElements, mem_reported_ok, List.getElem?_nil, reduceCtorEq, false_and,
        exists_false]
  | cons element rest ih =>
      rw [validateElements, mem_reported_map, mem_reported_both, mem_reported_at, ih]
      constructor
      · intro found
        rcases found with ⟨below, rfl, inside⟩ | ⟨index, other, below, later, rfl, inside⟩
        · exact ⟨0, element, below, rfl, rfl, (spec element below).mp inside⟩
        · refine ⟨index + 1, other, below, later, ?_, inside⟩
          rw [Nat.add_assoc, Nat.add_comm 1 index]
      · intro found
        obtain ⟨index, other, below, at_, rfl, inside⟩ := found
        cases index with
        | zero =>
            cases Option.some.inj at_
            exact .inl ⟨below, rfl, (spec element below).mpr inside⟩
        | succ index =>
            refine .inr ⟨index, other, below, at_, ?_, inside⟩
            rw [Nat.add_assoc, Nat.add_comm 1 index]

theorem mem_reported_validateItems {validate : Value → Except Errors α}
    {mismatch : Value → List Str → Prop}
    (spec : ∀ value path, path ∈ reported (validate value) ↔ mismatch value path)
    (items : Items Str Value) :
    path ∈ reported (validateItems validate items) ↔
      ∃ item ∈ items, ∃ below, path = item.1 :: below ∧ mismatch item.2 below := by
  induction items with
  | nil =>
      simp only [validateItems, mem_reported_ok, List.not_mem_nil, false_and, exists_false]
  | cons item rest ih =>
      rw [validateItems, mem_reported_map, mem_reported_both, mem_reported_at, ih]
      simp only [spec, List.mem_cons, exists_eq_or_imp]

end Reported

mutual

/-- Validation reports the mismatches and nothing else. -/
theorem Ty.mem_reported_iff (lax : Lax) :
    ∀ (type : Ty) (value : Value) (path : List Str),
      path ∈ reported (type.validate lax value) ↔ type.MismatchAt lax value path
  | .str, value, path => mem_reported_ofText value
  | .int, value, path => mem_reported_ofOption (lax.int value)
  | .bool, value, path => mem_reported_ofOption (lax.bool value)
  | .any, value, path => mem_reported_ok value
  | .literal text, value, path => mem_reported_ofLiteral text value
  | .nullable inner, value, path => by
      rw [Ty.validate, Ty.MismatchAt, ← inner.mem_reported_iff lax value path]
      exact mem_reported_orNone _ _
  | .list inner, value, path => by
      rw [Ty.validate, Ty.MismatchAt]
      refine (mem_reported_onElements _ _).trans (or_congr_right (exists_congr fun elements =>
        and_congr_right' ?_))
      refine (mem_reported_validateElements (inner.mem_reported_iff lax) 0 elements).trans ?_
      simp only [Nat.zero_add]
  | .dict inner, value, path => by
      rw [Ty.validate, Ty.MismatchAt]
      refine (mem_reported_onItems _ _).trans (or_congr_right (exists_congr fun items =>
        and_congr_right' ?_))
      exact mem_reported_validateItems (inner.mem_reported_iff lax) items
  | .record extra fields, value, path => by
      rw [Ty.validate, Ty.MismatchAt]
      refine (mem_reported_onItems _ _).trans (or_congr_right (exists_congr fun items =>
        and_congr_right' ?_))
      exact (mem_reported_map _ _).trans (fields.mem_reported_iff lax items path)

theorem Fields.mem_reported_iff (lax : Lax) :
    ∀ (fields : Fields) (items : Items Str Value) (path : List Str),
      path ∈ reported (fields.validate lax items) ↔ fields.MismatchAt lax items path
  | .nil, items, path => mem_reported_ok ()
  | .cons name wire type default rest, items, path => by
      rw [Fields.validate, Fields.MismatchAt, ← rest.mem_reported_iff lax items path, ← or_assoc]
      refine (mem_reported_both _ _).trans (or_congr_left ?_)
      cases fieldValue name wire default items with
      | none =>
          simp only [reported, List.mem_singleton, and_true, reduceCtorEq, false_and,
            exists_false, or_false]
      | some value =>
          simp only [reduceCtorEq, and_false, false_or, Option.some.injEq]
          refine (mem_reported_at wire _).trans ?_
          constructor
          · intro found
            obtain ⟨below, same, inside⟩ := found
            exact ⟨value, below, rfl, same, (type.mem_reported_iff lax value below).mp inside⟩
          · intro found
            obtain ⟨_, below, rfl, same, inside⟩ := found
            exact ⟨below, same, (type.mem_reported_iff lax value below).mpr inside⟩

end

/-! ### No mismatch, no refusal -/

/-- A value of the right make fits when its content has no mismatch; any other value is
one mismatch. -/
private theorem shaped_iff {β : Type} {make : β → Value} (injective : Function.Injective make)
    {fits : β → Prop} {mismatch : β → List Str → Prop}
    (each : ∀ content, fits content ↔ ∀ path, ¬mismatch content path) (value : Value) :
    (∃ content, value = make content ∧ fits content) ↔
      ∀ path, ¬((path = [] ∧ ∀ content, value ≠ make content) ∨
        ∃ content, value = make content ∧ mismatch content path) := by
  by_cases shaped : ∃ content, value = make content
  · obtain ⟨content, rfl⟩ := shaped
    constructor
    · intro fitting path wrong
      obtain ⟨_, same, fitting⟩ := fitting
      cases injective same
      rcases wrong with ⟨_, other⟩ | ⟨_, same, inside⟩
      · exact other content rfl
      · cases injective same
        exact (each content).mp fitting path inside
    · intro none
      refine ⟨content, rfl, (each content).mpr (fun path inside => ?_)⟩
      exact none path (.inr ⟨content, rfl, inside⟩)
  · have other := not_exists.mp shaped
    constructor
    · intro fitting
      obtain ⟨content, same, _⟩ := fitting
      exact absurd same (other content)
    · intro none
      exact absurd (.inl ⟨rfl, other⟩) (none [])

private theorem elements_iff {fits : Value → Prop} {mismatch : Value → List Str → Prop}
    (each : ∀ value, fits value ↔ ∀ path, ¬mismatch value path) (elements : List Value) :
    (∀ element ∈ elements, fits element) ↔
      ∀ path, ¬∃ index element below, elements[index]? = some element ∧
        path = natText index :: below ∧ mismatch element below := by
  constructor
  · intro fitting path wrong
    obtain ⟨index, element, below, at_, _, inside⟩ := wrong
    exact (each element).mp (fitting element (List.mem_of_getElem? at_)) below inside
  · intro none element member
    obtain ⟨index, at_⟩ := List.mem_iff_getElem?.mp member
    refine (each element).mpr (fun below inside => ?_)
    exact none _ ⟨index, element, below, at_, rfl, inside⟩

private theorem items_iff {fits : Value → Prop} {mismatch : Value → List Str → Prop}
    (each : ∀ value, fits value ↔ ∀ path, ¬mismatch value path) (items : Items Str Value) :
    (∀ item ∈ items, fits item.2) ↔
      ∀ path, ¬∃ item ∈ items, ∃ below, path = item.1 :: below ∧ mismatch item.2 below := by
  constructor
  · intro fitting path wrong
    obtain ⟨item, member, below, _, inside⟩ := wrong
    exact (each item.2).mp (fitting item member) below inside
  · intro none item member
    refine (each item.2).mpr (fun below inside => ?_)
    exact none _ ⟨item, member, below, rfl, inside⟩

mutual

/-- A value fits exactly when there is no mismatch. -/
theorem Ty.accepts_iff (lax : Lax) :
    ∀ (type : Ty) (value : Value),
      type.Accepts lax value ↔ ∀ path, ¬type.MismatchAt lax value path
  | .str, value => by
      simp only [Ty.Accepts, Ty.MismatchAt, not_and, forall_eq, not_forall, not_not]
  | .int, value => by
      simp only [Ty.Accepts, Ty.MismatchAt, not_and, forall_eq, ← ne_eq, Option.ne_none_iff_exists']
  | .bool, value => by
      simp only [Ty.Accepts, Ty.MismatchAt, not_and, forall_eq, ← ne_eq, Option.ne_none_iff_exists']
  | .any, value => by simp only [Ty.Accepts, Ty.MismatchAt, not_false_eq_true, implies_true]
  | .literal text, value => by
      simp only [Ty.Accepts, Ty.MismatchAt, not_and, forall_eq, ne_eq, not_not]
  | .nullable inner, value => by
      simp only [Ty.Accepts, Ty.MismatchAt, not_and, inner.accepts_iff lax value]
      by_cases null : value = .none
      · simp only [null, true_or, ne_eq, not_true_eq_false, false_implies, implies_true]
      · simp only [null, false_or, ne_eq, not_false_eq_true, forall_const]
  | .list inner, value =>
      shaped_iff (fun _ _ => Value.list.inj) (elements_iff (inner.accepts_iff lax)) value
  | .dict inner, value =>
      shaped_iff (fun _ _ => Value.dict.inj) (items_iff (inner.accepts_iff lax)) value
  | .record extra fields, value =>
      shaped_iff (fun _ _ => Value.dict.inj) (fields.accepts_iff lax) value

theorem Fields.accepts_iff (lax : Lax) :
    ∀ (fields : Fields) (items : Items Str Value),
      fields.Accepts lax items ↔ ∀ path, ¬fields.MismatchAt lax items path
  | .nil, items => by simp only [Fields.Accepts, Fields.MismatchAt, not_false_eq_true, implies_true]
  | .cons name wire type default rest, items => by
      simp only [Fields.Accepts, Fields.MismatchAt, not_or, forall_and,
        rest.accepts_iff lax items, ← and_assoc]
      refine and_congr_left' ?_
      cases fieldValue name wire default items with
      | none =>
          simp only [reduceCtorEq, false_and, exists_false, and_true, forall_eq]
      | some value =>
          simp only [Option.some.injEq, exists_eq_left', type.accepts_iff lax value, reduceCtorEq,
            and_false, not_false_eq_true, implies_true, true_and]
          constructor
          · intro none path wrong
            obtain ⟨_, below, ⟨rfl, _⟩, inside⟩ := wrong
            exact none below inside
          · intro none below inside
            exact none (wire :: below) ⟨value, below, ⟨rfl, rfl⟩, inside⟩

end

/-- A refusal names at least one location. -/
theorem Ty.errors_ne_nil {lax : Lax} {type : Ty} {value : Value} {errors : Errors}
    (refused : type.validate lax value = .error errors) : errors ≠ [] := by
  have unfit : ¬type.Accepts lax value := by
    rw [← type.succeeds_validate lax value, refused]
    exact not_succeeds_error errors
  intro empty
  apply unfit
  refine (type.accepts_iff lax value).mpr (fun path mismatch => ?_)
  have named := (type.mem_reported_iff lax value path).mpr mismatch
  rw [refused, empty] at named
  cases named

/-! ### Defaults -/

mutual

/-- Every default of the shape fits its own field. -/
def Ty.DefaultsFit (lax : Lax) : Ty → Prop
  | .nullable inner => inner.DefaultsFit lax
  | .list inner => inner.DefaultsFit lax
  | .dict inner => inner.DefaultsFit lax
  | .record _ fields => fields.DefaultsFit lax
  | _ => True

def Fields.DefaultsFit (lax : Lax) : Fields → Prop
  | .nil => True
  | .cons _ _ type default rest =>
      (∀ value, default = some value → type.Accepts lax value) ∧ type.DefaultsFit lax ∧
        rest.DefaultsFit lax

end

/-- The object gives the field: under its wire name or under its own. -/
def Gives (items : Items Str Value) (name wire : Str) : Prop :=
  wire ∈ items.keys ∨ name ∈ items.keys

/-- A mismatch concerns a member of the object or a missing required field: the defaults
are never to blame. -/
def Fields.Blames (items : Items Str Value) : Fields → List Str → Prop
  | .nil, _ => False
  | .cons name wire _ default rest, path =>
      (∃ below, path = wire :: below ∧
        (Gives items name wire ∨ (default = none ∧ below = []))) ∨
      rest.Blames items path

theorem fieldValue_of_not_given {name wire : Str} {items : Items Str Value}
    (absent : ¬Gives items name wire) (default : Option Value) :
    fieldValue name wire default items = default := by
  obtain ⟨noWire, noName⟩ := not_or.mp absent
  unfold fieldValue
  rw [Items.get_eq_none_iff.mpr noWire, Items.get_eq_none_iff.mpr noName]
  rfl

theorem Fields.blames_of_mismatch {lax : Lax} {items : Items Str Value} {path : List Str} :
    ∀ {fields : Fields}, fields.DefaultsFit lax → fields.MismatchAt lax items path →
      fields.Blames items path
  | .nil, _, wrong => wrong
  | .cons name wire type default rest, defaults, wrong => by
      obtain ⟨here, _, later⟩ := defaults
      by_cases given : Gives items name wire
      · rcases wrong with ⟨same, _⟩ | ⟨_, below, _, same, _⟩ | inside
        · exact .inl ⟨[], same, .inl given⟩
        · exact .inl ⟨below, same, .inl given⟩
        · exact .inr (rest.blames_of_mismatch later inside)
      · have read := fieldValue_of_not_given given default
        rcases wrong with ⟨same, missing⟩ | ⟨value, below, found, same, inside⟩ | inside
        · exact .inl ⟨[], same, .inr ⟨read.symm.trans missing, rfl⟩⟩
        · have fits := here value (read.symm.trans found)
          exact absurd inside ((type.accepts_iff lax value).mp fits below)
        · exact .inr (rest.blames_of_mismatch later inside)

/-- The same of an object's shape. -/
def Ty.Blames (items : Items Str Value) : Ty → List Str → Prop
  | .record _ fields, path => fields.Blames items path
  | _, _ => True

theorem Ty.blames_of_mismatch {lax : Lax} {items : Items Str Value} {path : List Str} {type : Ty}
    (defaults : type.DefaultsFit lax) (wrong : type.MismatchAt lax (.dict items) path) :
    type.Blames items path := by
  cases type with
  | record extra fields =>
      rcases wrong with ⟨_, other⟩ | ⟨_, same, inside⟩
      · exact absurd rfl (other items)
      · cases same
        exact Fields.blames_of_mismatch defaults inside
  | _ => trivial

end Schema
