import MailkubeSdk.Python.Value

/-
Declared shapes of JSON data, and validation against them.

A shape is a type of the declaration language; its values are the Lean values of
its denotation, so a validated object has the fields its declaration names.
Validation reads a field under its wire name, else under its own name, else
takes the default, and collects the location of every mismatch.  How an integer
or a boolean may be spelled is left to the caller.
-/

namespace Schema

open Python

/-- What an object does with members it does not declare. -/
inductive Extra where
  | allow
  | ignore
deriving DecidableEq

mutual

inductive Ty where
  | str
  | int
  | bool
  | any
  | literal (text : Str)
  | nullable (inner : Ty)
  | list (inner : Ty)
  | dict (inner : Ty)
  | record (extra : Extra) (fields : Fields)

inductive Fields where
  | nil
  | cons (name wire : Str) (type : Ty) (default : Option Value) (rest : Fields)

end

/-- A field that must be present, under its own name. -/
abbrev Fields.required (name : String) (type : Ty) (rest : Fields) : Fields :=
  .cons (Python.str name) (Python.str name) type none rest

/-- A field that may be left out. -/
abbrev Fields.defaulted (name : String) (type : Ty) (value : Value) (rest : Fields) : Fields :=
  .cons (Python.str name) (Python.str name) type (some value) rest

/-- A field with another name on the wire. -/
abbrev Fields.aliased (name wire : String) (type : Ty) (default : Option Value) (rest : Fields) :
    Fields :=
  .cons (Python.str name) (Python.str wire) type default rest

mutual

/-- The values of a shape; an object also holds the extra members it keeps. -/
def Ty.Denote : Ty → Type
  | .str => Str
  | .int => Int
  | .bool => Bool
  | .any => Value
  | .literal _ => Str
  | .nullable inner => Option inner.Denote
  | .list inner => List inner.Denote
  | .dict inner => Items Str inner.Denote
  | .record _ fields => fields.Denote × Items Str Value

def Fields.Denote : Fields → Type
  | .nil => Unit
  | .cons _ _ type _ rest => type.Denote × rest.Denote

end

/-- Locations of mismatches. -/
abbrev Errors := List (List Str)

/-- The lenient readings of a scalar; the exact type is read as itself. -/
structure Lax where
  int : Value → Option Int
  bool : Value → Option Bool
  int_exact : ∀ n, int (.int n) = some n
  bool_exact : ∀ b, bool (.bool b) = some b

section Collecting

variable {α β : Type}

def at_ (key : Str) (result : Except Errors α) : Except Errors α :=
  result.mapError (fun errors => errors.map (key :: ·))

/-- Both results, or the mismatches of both. -/
def both : Except Errors α → Except Errors β → Except Errors (α × β)
  | .ok a, .ok b => .ok (a, b)
  | .error e, .ok _ => .error e
  | .ok _, .error f => .error f
  | .error e, .error f => .error (e ++ f)

def validateElements (validate : Value → Except Errors α) (index : Nat) :
    List Value → Except Errors (List α)
  | [] => .ok []
  | element :: rest =>
      (both (at_ (natText index) (validate element))
        (validateElements validate (index + 1) rest)).map (fun pair => pair.1 :: pair.2)

def validateItems (validate : Value → Except Errors α) :
    Items Str Value → Except Errors (Items Str α)
  | [] => .ok []
  | (key, value) :: rest =>
      (both (at_ key (validate value)) (validateItems validate rest)).map
        (fun pair => (key, pair.1) :: pair.2)

def ofOption (result : Option α) : Except Errors α := result.elim (.error [[]]) .ok

def ofText : Value → Except Errors Str
  | .str text => .ok text
  | _ => .error [[]]

def ofLiteral (text : Str) (value : Value) : Except Errors Str :=
  match value with
  | .str given => if given = text then .ok given else .error [[]]
  | _ => .error [[]]

def orNone (validate : Value → Except Errors α) : Value → Except Errors (Option α)
  | .none => .ok none
  | value => (validate value).map some

def onElements (validate : List Value → Except Errors α) : Value → Except Errors α
  | .list elements => validate elements
  | _ => .error [[]]

def onItems (validate : Items Str Value → Except Errors α) : Value → Except Errors α
  | .dict items => validate items
  | _ => .error [[]]

end Collecting

/-- What a field reads: its wire name first, then its own name, then its default. -/
def fieldValue (name wire : Str) (default : Option Value) (items : Items Str Value) :
    Option Value :=
  ((items.get wire).or (items.get name)).or default

/-- The names an object declares, those on the wire included. -/
def Fields.names : Fields → List Str
  | .nil => []
  | .cons name wire _ _ rest => name :: wire :: rest.names

/-- Members under a declared name are never extra, read or not. -/
def extraItems (extra : Extra) (fields : Fields) (items : Items Str Value) : Items Str Value :=
  match extra with
  | .allow => items.filter (fun item => !fields.names.contains item.1)
  | .ignore => []

mutual

def Ty.validate (lax : Lax) : (type : Ty) → Value → Except Errors type.Denote
  | .str, value => (ofText value : Except Errors Str)
  | .int, value => (ofOption (lax.int value) : Except Errors Int)
  | .bool, value => (ofOption (lax.bool value) : Except Errors Bool)
  | .any, value => (.ok value : Except Errors Value)
  | .literal text, value => (ofLiteral text value : Except Errors Str)
  | .nullable inner, value => orNone (inner.validate lax) value
  | .list inner, value => onElements (validateElements (inner.validate lax) 0) value
  | .dict inner, value => onItems (validateItems (inner.validate lax)) value
  | .record extra fields, value =>
      onItems (fun items =>
        (fields.validate lax items).map (fun read => (read, extraItems extra fields items))) value

def Fields.validate (lax : Lax) : (fields : Fields) → Items Str Value → Except Errors fields.Denote
  | .nil, _ => .ok ()
  | .cons name wire type default rest, items =>
      both
        (match fieldValue name wire default items with
        | some value => at_ wire (type.validate lax value)
        | none => .error [[wire]])
        (rest.validate lax items)

end

/-! ### What is accepted -/

mutual

/-- A value fits: every required field is present with a value of its type. -/
def Ty.Accepts (lax : Lax) : Ty → Value → Prop
  | .str, value => ∃ text, value = .str text
  | .int, value => ∃ n, lax.int value = some n
  | .bool, value => ∃ b, lax.bool value = some b
  | .any, _ => True
  | .literal text, value => value = .str text
  | .nullable inner, value => value = .none ∨ inner.Accepts lax value
  | .list inner, value => ∃ elements, value = .list elements ∧ ∀ element ∈ elements,
      inner.Accepts lax element
  | .dict inner, value => ∃ items, value = .dict items ∧ ∀ item ∈ items, inner.Accepts lax item.2
  | .record _ fields, value => ∃ items, value = .dict items ∧ fields.Accepts lax items

def Fields.Accepts (lax : Lax) : Fields → Items Str Value → Prop
  | .nil, _ => True
  | .cons name wire type default rest, items =>
      (∃ value, fieldValue name wire default items = some value ∧ type.Accepts lax value) ∧
        rest.Accepts lax items

end

/-- A result is there. -/
def Succeeds {ε α : Type} (result : Except ε α) : Prop := ∃ value, result = .ok value

section Succeeds

variable {α β : Type}

@[simp] theorem succeeds_ok (value : α) : Succeeds (.ok value : Except Errors α) := ⟨value, rfl⟩

@[simp] theorem not_succeeds_error (errors : Errors) :
    ¬Succeeds (.error errors : Except Errors α) := by
  rintro ⟨value, impossible⟩
  cases impossible

@[simp] theorem succeeds_map (f : α → β) (result : Except Errors α) :
    Succeeds (result.map f) ↔ Succeeds result := by
  cases result with
  | ok value => exact iff_of_true ⟨f value, rfl⟩ ⟨value, rfl⟩
  | error errors => exact iff_of_false (not_succeeds_error errors) (not_succeeds_error errors)

@[simp] theorem succeeds_at (key : Str) (result : Except Errors α) :
    Succeeds (at_ key result) ↔ Succeeds result := by
  cases result with
  | ok value => exact iff_of_true ⟨value, rfl⟩ ⟨value, rfl⟩
  | error errors => exact iff_of_false (not_succeeds_error _) (not_succeeds_error errors)

@[simp] theorem succeeds_both (first : Except Errors α) (second : Except Errors β) :
    Succeeds (both first second) ↔ Succeeds first ∧ Succeeds second := by
  cases first <;> cases second <;> simp only [both, succeeds_ok, not_succeeds_error, and_self,
    and_false, false_and]

@[simp] theorem succeeds_ofOption (result : Option α) :
    Succeeds (ofOption result) ↔ ∃ value, result = some value := by
  cases result with
  | none => simp only [ofOption, Option.elim, not_succeeds_error, reduceCtorEq, exists_false]
  | some value =>
      exact iff_of_true ⟨value, rfl⟩ ⟨value, rfl⟩

@[simp] theorem succeeds_ofText (value : Value) :
    Succeeds (ofText value) ↔ ∃ text, value = .str text := by
  cases value <;> simp only [ofText, succeeds_ok, not_succeeds_error, Value.str.injEq, exists_eq',
    reduceCtorEq, exists_false]

@[simp] theorem succeeds_ofLiteral (text : Str) (value : Value) :
    Succeeds (ofLiteral text value) ↔ value = .str text := by
  cases value with
  | str given =>
      by_cases same : given = text
      · simp only [ofLiteral, same, if_true, succeeds_ok]
      · simp only [ofLiteral, same, if_false, not_succeeds_error, Value.str.injEq]
  | _ => simp only [ofLiteral, not_succeeds_error, reduceCtorEq]

@[simp] theorem succeeds_orNone (validate : Value → Except Errors α) (value : Value) :
    Succeeds (orNone validate value) ↔ value = .none ∨ Succeeds (validate value) := by
  cases value with
  | none => simp only [orNone, succeeds_ok, true_or]
  | _ => simp only [orNone, succeeds_map, reduceCtorEq, false_or]

@[simp] theorem succeeds_onElements (validate : List Value → Except Errors α) (value : Value) :
    Succeeds (onElements validate value) ↔
      ∃ elements, value = .list elements ∧ Succeeds (validate elements) := by
  cases value with
  | list elements => simp only [onElements, Value.list.injEq, exists_eq_left']
  | _ => simp only [onElements, not_succeeds_error, reduceCtorEq, false_and, exists_false]

@[simp] theorem succeeds_onItems (validate : Items Str Value → Except Errors α) (value : Value) :
    Succeeds (onItems validate value) ↔
      ∃ items, value = .dict items ∧ Succeeds (validate items) := by
  cases value with
  | dict items => simp only [onItems, Value.dict.injEq, exists_eq_left']
  | _ => simp only [onItems, not_succeeds_error, reduceCtorEq, false_and, exists_false]

theorem succeeds_validateElements {validate : Value → Except Errors α} {accepts : Value → Prop}
    (spec : ∀ value, Succeeds (validate value) ↔ accepts value) (index : Nat)
    (elements : List Value) :
    Succeeds (validateElements validate index elements) ↔
      ∀ element ∈ elements, accepts element := by
  induction elements generalizing index with
  | nil => simp only [validateElements, succeeds_ok, List.not_mem_nil, false_implies, implies_true]
  | cons element rest ih =>
      simp only [validateElements, succeeds_map, succeeds_both, succeeds_at, spec, ih,
        List.forall_mem_cons]

theorem succeeds_validateItems {validate : Value → Except Errors α} {accepts : Value → Prop}
    (spec : ∀ value, Succeeds (validate value) ↔ accepts value) (items : Items Str Value) :
    Succeeds (validateItems validate items) ↔ ∀ item ∈ items, accepts item.2 := by
  induction items with
  | nil => simp only [validateItems, succeeds_ok, List.not_mem_nil, false_implies, implies_true]
  | cons item rest ih =>
      simp only [validateItems, succeeds_map, succeeds_both, succeeds_at, spec, ih,
        List.forall_mem_cons]

end Succeeds

mutual

/-- Validation succeeds exactly on the values that fit. -/
theorem Ty.succeeds_validate (lax : Lax) :
    ∀ (type : Ty) (value : Value), Succeeds (type.validate lax value) ↔ type.Accepts lax value
  | .str, value => succeeds_ofText value
  | .int, value => succeeds_ofOption (lax.int value)
  | .bool, value => succeeds_ofOption (lax.bool value)
  | .any, value => iff_true_intro ⟨value, rfl⟩
  | .literal text, value => succeeds_ofLiteral text value
  | .nullable inner, value => by
      rw [Ty.validate, Ty.Accepts, ← inner.succeeds_validate lax value]
      exact succeeds_orNone _ _
  | .list inner, value => by
      rw [Ty.validate, Ty.Accepts]
      refine (succeeds_onElements _ _).trans (exists_congr fun elements => and_congr_right' ?_)
      exact succeeds_validateElements (inner.succeeds_validate lax) 0 elements
  | .dict inner, value => by
      rw [Ty.validate, Ty.Accepts]
      refine (succeeds_onItems _ _).trans (exists_congr fun items => and_congr_right' ?_)
      exact succeeds_validateItems (inner.succeeds_validate lax) items
  | .record extra fields, value => by
      rw [Ty.validate, Ty.Accepts]
      refine (succeeds_onItems _ _).trans (exists_congr fun items => and_congr_right' ?_)
      exact (succeeds_map _ _).trans (fields.succeeds_validate lax items)

theorem Fields.succeeds_validate (lax : Lax) :
    ∀ (fields : Fields) (items : Items Str Value),
      Succeeds (fields.validate lax items) ↔ fields.Accepts lax items
  | .nil, items => iff_of_true ⟨(), rfl⟩ trivial
  | .cons name wire type default rest, items => by
      simp only [Fields.validate, Fields.Accepts]
      rw [← rest.succeeds_validate lax items]
      refine (succeeds_both _ _).trans (and_congr ?_ Iff.rfl)
      cases found : fieldValue name wire default items with
      | none => simp only [not_succeeds_error, reduceCtorEq, false_and, exists_false]
      | some value =>
          simp only [Option.some.injEq, exists_eq_left']
          rw [← type.succeeds_validate lax value]
          exact succeeds_at _ _

end

/-! ### What is read -/

section Reading

variable {α β : Type}

theorem at_eq_ok_iff {key : Str} {result : Except Errors α} {value : α} :
    at_ key result = .ok value ↔ result = .ok value := by
  cases result with
  | ok given => exact Iff.rfl
  | error errors => exact iff_of_false nofun nofun

theorem both_eq_ok_iff {first : Except Errors α} {second : Except Errors β} {pair : α × β} :
    both first second = .ok pair ↔ first = .ok pair.1 ∧ second = .ok pair.2 := by
  cases first with
  | ok a =>
      cases second with
      | ok b => simp only [both, Except.ok.injEq, Prod.ext_iff]
      | error errors => simp only [both, reduceCtorEq, and_false]
  | error errors =>
      cases second with
      | ok b => simp only [both, reduceCtorEq, false_and]
      | error more => simp only [both, reduceCtorEq, false_and]

theorem map_eq_ok_iff {f : α → β} {result : Except Errors α} {value : β} :
    result.map f = .ok value ↔ ∃ given, result = .ok given ∧ f given = value := by
  cases result with
  | ok given => simp only [Except.map, Except.ok.injEq, exists_eq_left']
  | error errors => exact iff_of_false nofun nofun

theorem ofText_eq_ok_iff {value : Value} {text : Str} :
    ofText value = .ok text ↔ value = .str text := by
  cases value with
  | str given => simp only [ofText, Except.ok.injEq, Value.str.injEq]
  | _ => exact iff_of_false nofun nofun

theorem onItems_eq_ok_iff {validate : Items Str Value → Except Errors α} {value : Value}
    {result : α} :
    onItems validate value = .ok result ↔
      ∃ items, value = .dict items ∧ validate items = .ok result := by
  cases value with
  | dict items => simp only [onItems, Value.dict.injEq, exists_eq_left']
  | _ => simp only [onItems, reduceCtorEq, false_and, exists_false]

theorem validateItems_any (items : Items Str Value) :
    validateItems (fun value => .ok value) items = .ok items := by
  induction items with
  | nil => rfl
  | cons item rest ih =>
      obtain ⟨key, value⟩ := item
      rw [validateItems, ih]
      rfl

theorem fieldValue_required (name : Str) (items : Items Str Value) :
    fieldValue name name none items = items.get name := by
  unfold fieldValue
  rw [Option.or_self, Option.or_none]

theorem validate_required_eq_ok_iff (lax : Lax) {name : String} {type : Ty} {rest : Fields}
    {items : Items Str Value} {read : (Fields.required name type rest).Denote} :
    (Fields.required name type rest).validate lax items = .ok read ↔
      (∃ value, items.get (Python.str name) = some value ∧ type.validate lax value = .ok read.1) ∧
        rest.validate lax items = .ok read.2 := by
  rw [Fields.validate, fieldValue_required]
  refine both_eq_ok_iff.trans (and_congr_left' ?_)
  cases items.get (Python.str name) with
  | none => simp only [reduceCtorEq, false_and, exists_false]
  | some value =>
      simp only [Option.some.injEq, exists_eq_left']
      exact at_eq_ok_iff

theorem validate_defaulted_eq_ok_iff (lax : Lax) {name : String} {type : Ty} {value : Value}
    {rest : Fields} {items : Items Str Value}
    {read : (Fields.defaulted name type value rest).Denote} :
    (Fields.defaulted name type value rest).validate lax items = .ok read ↔
      type.validate lax ((items.get (Python.str name)).getD value) = .ok read.1 ∧
        rest.validate lax items = .ok read.2 := by
  have given : fieldValue (Python.str name) (Python.str name) (some value) items =
      some ((items.get (Python.str name)).getD value) := by
    unfold fieldValue
    cases items.get (Python.str name) <;> rfl
  rw [Fields.validate, given]
  exact both_eq_ok_iff.trans (and_congr_left' at_eq_ok_iff)

theorem elements_read {validate : Value → Except Errors α} {index : Nat}
    {elements : List Value} {reads : List α}
    (valid : validateElements validate index elements = .ok reads) :
    reads = elements.filterMap fun element => (validate element).toOption := by
  induction elements generalizing index reads with
  | nil =>
      cases valid
      rfl
  | cons element rest ih =>
      obtain ⟨⟨head, tail⟩, pair, rfl⟩ := map_eq_ok_iff.mp valid
      obtain ⟨here, later⟩ := both_eq_ok_iff.mp pair
      rw [ih later, List.filterMap_cons, at_eq_ok_iff.mp here]
      rfl

end Reading

end Schema
