import MailkubeSdk.Schema.Addition

/-
Reading a dump.

The dump of a validated value is validated to that value again, and it conveys
what the value was read from: every scalar up to the lenient readings, every
member of an object, and nothing but that and the defaults.
-/

namespace Schema

open Python

/-- Every field of an object stands under its wire name among the members. -/
def Fields.Stands (items : Items Str Value) : (fields : Fields) → fields.Denote → Prop
  | .nil, _ => True
  | .cons _ wire type _ rest, object =>
      items.get wire = some (type.dump object.1) ∧ rest.Stands items object.2

def Fields.wires : Fields → List Str
  | .nil => []
  | .cons _ wire _ _ rest => wire :: rest.wires

/-! ### Members of a dump -/

theorem Fields.wires_subset : ∀ (fields : Fields), ∀ key ∈ fields.wires, key ∈ fields.names
  | .cons _ wire _ _ rest, key, member => by
      rcases List.mem_cons.mp member with rfl | later
      · exact List.mem_cons_of_mem _ List.mem_cons_self
      · exact List.mem_cons_of_mem _ (List.mem_cons_of_mem _ (rest.wires_subset key later))

theorem Fields.keys_dump : ∀ (fields : Fields) (object : fields.Denote),
    Items.keys (fields.dump object) = fields.wires
  | .nil, _ => rfl
  | .cons _ wire _ _ rest, object => congrArg (wire :: ·) (rest.keys_dump object.2)

/-- The fields of a dump stand, whatever undeclared members come after and before. -/
theorem Fields.stands_dump : ∀ (fields : Fields) (object : fields.Denote),
    fields.distinctNames = true → ∀ front back : Items Str Value,
      (∀ key ∈ fields.wires, key ∉ front.keys) →
        fields.Stands (front ++ (fields.dump object ++ back)) object
  | .nil, _, _, _, _, _ => trivial
  | .cons name wire type default rest, object, distinct, front, back, apart => by
      obtain ⟨_, _, wireApart, later⟩ := distinctNames_cons distinct
      constructor
      · rw [Items.get_append_of_not_mem (apart wire List.mem_cons_self)]
        exact Items.get_cons_self wire (type.dump object.1) _
      · have moved : front ++ (Fields.dump (.cons name wire type default rest) object ++ back) =
            (front ++ [(wire, type.dump object.1)]) ++ (rest.dump object.2 ++ back) := by
          rw [List.append_assoc]
          rfl
        rw [moved]
        refine rest.stands_dump object.2 later _ back (fun key member inside => ?_)
        unfold Items.keys at inside
        rw [List.map_append, List.mem_append] at inside
        rcases inside with before | here
        · exact apart key (List.mem_cons_of_mem _ member) before
        · cases List.mem_singleton.mp here
          exact wireApart (rest.wires_subset wire member)

theorem extraItems_names {fields : Fields} {items : Items Str Value} {item : Str × Value}
    (kept : item ∈ extraItems .allow fields items) : item.1 ∉ fields.names := by
  have undeclared := (List.mem_filter.mp kept).2
  simp only [List.contains_eq_mem, Bool.not_eq_true', decide_eq_false_iff_not] at undeclared
  exact undeclared

theorem extraItems_dump {extra : Extra} {fields : Fields} {items : Items Str Value}
    (object : fields.Denote) :
    extraItems extra fields (fields.dump object ++ extraItems extra fields items) =
      extraItems extra fields items := by
  cases extra with
  | ignore => rfl
  | allow =>
      have none : (fields.dump object).filter
          (fun item => !fields.names.contains item.1) = [] := by
        apply List.filter_eq_nil_iff.mpr
        intro item member
        have named : item.1 ∈ fields.names :=
          fields.dump_keys object item.1 (List.mem_map_of_mem member)
        simp only [List.contains_eq_mem, named, decide_true, Bool.not_true, Bool.false_eq_true,
          not_false_eq_true]
      have again : (extraItems .allow fields items).filter
          (fun item => !fields.names.contains item.1) = extraItems .allow fields items := by
        apply List.filter_eq_self.mpr
        intro item kept
        simp only [List.contains_eq_mem, extraItems_names kept, decide_false, Bool.not_false]
      change (fields.dump object ++ extraItems .allow fields items).filter _ = _
      rw [List.filter_append, none, List.nil_append, again]

/-! ### The dump is read as the value -/

section Collections

variable {α : Type} {validate : Value → Except Errors α} {dump : α → Value}

theorem validateElements_dump
    (each : ∀ value read, validate value = .ok read → validate (dump read) = .ok read)
    {index : Nat} {elements : List Value} {reads : List α}
    (valid : validateElements validate index elements = .ok reads) :
    validateElements validate index (reads.map dump) = .ok reads := by
  induction elements generalizing index reads with
  | nil =>
      cases valid
      rfl
  | cons element rest ih =>
      obtain ⟨⟨head, tail⟩, pair, rfl⟩ := map_eq_ok_iff.mp valid
      obtain ⟨here, later⟩ := both_eq_ok_iff.mp pair
      apply map_eq_ok_iff.mpr
      refine ⟨(head, tail), both_eq_ok_iff.mpr ⟨?_, ih later⟩, rfl⟩
      exact at_eq_ok_iff.mpr (each element head (at_eq_ok_iff.mp here))

theorem validateItems_dump
    (each : ∀ value read, validate value = .ok read → validate (dump read) = .ok read)
    {items : Items Str Value} {reads : Items Str α}
    (valid : validateItems validate items = .ok reads) :
    validateItems validate (reads.map fun item => (item.1, dump item.2)) = .ok reads := by
  induction items generalizing reads with
  | nil =>
      cases valid
      rfl
  | cons item rest ih =>
      obtain ⟨⟨head, tail⟩, pair, rfl⟩ := map_eq_ok_iff.mp valid
      obtain ⟨here, later⟩ := both_eq_ok_iff.mp pair
      apply map_eq_ok_iff.mpr
      refine ⟨(head, tail), both_eq_ok_iff.mpr ⟨?_, ih later⟩, rfl⟩
      exact at_eq_ok_iff.mpr (each item.2 head (at_eq_ok_iff.mp here))

/-- A literal is read as itself, and read again. -/
theorem ofLiteral_eq_ok_iff {text read : Str} {value : Value} :
    ofLiteral text value = .ok read ↔
      value = .str read ∧ ofLiteral text (.str read) = .ok read := by
  cases value with
  | str given =>
      by_cases same : given = text
      · simp only [ofLiteral, if_pos same, Except.ok.injEq, Value.str.injEq]
        constructor
        · intro here
          subst here
          exact ⟨rfl, if_pos same⟩
        · exact And.left
      · simp only [ofLiteral, if_neg same, reduceCtorEq, Value.str.injEq, false_iff, not_and]
        intro here accepted
        subst here
        rw [if_neg same] at accepted
        cases accepted
  | _ => simp only [ofLiteral, reduceCtorEq, false_and]

theorem ofOption_eq_ok_iff {result : Option α} {read : α} :
    ofOption result = .ok read ↔ result = some read := by
  cases result with
  | none => exact iff_of_false nofun nofun
  | some value => simp only [ofOption, Option.elim, Except.ok.injEq, Option.some.injEq]

theorem orNone_eq_ok_iff {value : Value} {read : Option α} :
    orNone validate value = .ok read ↔
      (value = .none ∧ read = none) ∨
        (value ≠ .none ∧ ∃ inner, validate value = .ok inner ∧ read = some inner) := by
  cases value with
  | none =>
      simp only [orNone, Except.ok.injEq, true_and, ne_eq, not_true_eq_false, false_and, or_false]
      exact eq_comm
  | _ =>
      simp only [orNone, map_eq_ok_iff, reduceCtorEq, false_and, ne_eq, not_false_eq_true,
        true_and, false_or]
      exact exists_congr fun inner => and_congr_right' eq_comm

end Collections

/-- What was read from a value that is not null is not dumped as null. -/
theorem Ty.dump_ne_none {lax : Lax} {value : Value} (present : value ≠ .none) :
    ∀ {type : Ty} {read : type.Denote}, type.validate lax value = .ok read →
      type.dump read ≠ .none
  | .str, _, _ => Value.noConfusion
  | .int, _, _ => Value.noConfusion
  | .bool, _, _ => Value.noConfusion
  | .any, _, valid => by
      cases valid
      exact present
  | .literal _, _, _ => Value.noConfusion
  | .nullable inner, _, valid => by
      rcases orNone_eq_ok_iff.mp valid with ⟨null, _⟩ | ⟨_, read, readInner, rfl⟩
      · exact absurd null present
      · exact inner.dump_ne_none present readInner
  | .list _, _, _ => Value.noConfusion
  | .dict _, _, _ => Value.noConfusion
  | .record _ _, _, _ => Value.noConfusion

mutual

theorem Ty.validate_dump (lax : Lax) :
    ∀ (type : Ty), type.distinctNames = true → ∀ (value : Value) (read : type.Denote),
      type.validate lax value = .ok read → type.validate lax (type.dump read) = .ok read
  | .str, _, _, _, _ => rfl
  | .int, _, _, read, _ => congrArg ofOption (lax.int_exact read)
  | .bool, _, _, read, _ => congrArg ofOption (lax.bool_exact read)
  | .any, _, _, _, _ => rfl
  | .literal text, _, value, read, valid => (ofLiteral_eq_ok_iff.mp valid).2
  | .nullable inner, distinct, value, read, valid => by
      change orNone (inner.validate lax) (Option.elim read .none inner.dump) = .ok read
      rcases orNone_eq_ok_iff.mp valid with ⟨_, rfl⟩ | ⟨present, given, readInner, rfl⟩
      · rfl
      · exact orNone_eq_ok_iff.mpr (.inr ⟨inner.dump_ne_none present readInner, given,
          inner.validate_dump lax distinct value given readInner, rfl⟩)
  | .list inner, distinct, value, read, valid => by
      cases value with
      | list elements => exact validateElements_dump (inner.validate_dump lax distinct) valid
      | _ => cases valid
  | .dict inner, distinct, value, read, valid => by
      cases value with
      | dict items => exact validateItems_dump (inner.validate_dump lax distinct) valid
      | _ => cases valid
  | .record extra fields, distinct, value, read, valid => by
      cases value with
      | dict items =>
          obtain ⟨object, validated, rfl⟩ := map_eq_ok_iff.mp valid
          apply map_eq_ok_iff.mpr
          have stands := fields.stands_dump object distinct [] (extraItems extra fields items)
            (fun key _ => List.not_mem_nil)
          refine ⟨object, fields.validate_of_stands lax distinct items object validated stands, ?_⟩
          exact congrArg (object, ·) (extraItems_dump object)
      | _ => cases valid

theorem Fields.validate_of_stands (lax : Lax) :
    ∀ (fields : Fields), fields.distinctNames = true → ∀ (items : Items Str Value)
      (object : fields.Denote), fields.validate lax items = .ok object →
        ∀ {items' : Items Str Value}, fields.Stands items' object →
          fields.validate lax items' = .ok object
  | .nil, _, _, _, valid, _, _ => valid
  | .cons name wire type default rest, distinct, items, object, valid, items', stands => by
      obtain ⟨typeDistinct, _, _, later⟩ := distinctNames_cons distinct
      obtain ⟨here, below⟩ := both_eq_ok_iff.mp valid
      have found : fieldValue name wire default items' = some (type.dump object.1) := by
        unfold fieldValue
        rw [stands.1]
        rfl
      have reread : type.validate lax (type.dump object.1) = .ok object.1 := by
        cases given : fieldValue name wire default items with
        | none =>
            rw [given] at here
            cases here
        | some value =>
            rw [given] at here
            exact type.validate_dump lax typeDistinct value object.1 (at_eq_ok_iff.mp here)
      apply both_eq_ok_iff.mpr
      rw [found]
      exact ⟨at_eq_ok_iff.mpr reread,
        rest.validate_of_stands lax later items object.2 below stands.2⟩

end

/-! ### The dump conveys the value -/

mutual

/-- The second value says what the first does: the same scalars up to the lenient readings,
each field of an object under its wire name, and the members under no declared name where
extra members are kept. -/
def Ty.Conveys (lax : Lax) : Ty → Value → Value → Prop
  | .int, given, told => ∃ n, lax.int given = some n ∧ told = .int n
  | .bool, given, told => ∃ b, lax.bool given = some b ∧ told = .bool b
  | .nullable inner, given, told =>
      (given = .none ∧ told = .none) ∨ (given ≠ .none ∧ inner.Conveys lax given told)
  | .list inner, given, told => ∃ elements elements', given = .list elements ∧
      told = .list elements' ∧ List.Forall₂ (inner.Conveys lax) elements elements'
  | .dict inner, given, told => ∃ items items', given = .dict items ∧ told = .dict items' ∧
      List.Forall₂ (fun item item' => item'.1 = item.1 ∧ inner.Conveys lax item.2 item'.2)
        items items'
  | .record extra fields, given, told => ∃ items items', given = .dict items ∧
      told = .dict items' ∧ fields.Conveys lax items items' ∧
        (extra = .allow → ∀ key value, Items.get items key = some value →
          key ∉ fields.names → Items.get items' key = some value) ∧
        ∀ key value, Items.get items' key = some value → key ∈ fields.wires ∨
          (extra = .allow ∧ key ∉ fields.names ∧ Items.get items key = some value)
  | _, given, told => told = given

def Fields.Conveys (lax : Lax) : Fields → Items Str Value → Items Str Value → Prop
  | .nil, _, _ => True
  | .cons name wire type default rest, items, items' =>
      (∃ value told, fieldValue name wire default items = some value ∧
        items'.get wire = some told ∧ type.Conveys lax value told) ∧ rest.Conveys lax items items'

end

section Collections

variable {α : Type} {validate : Value → Except Errors α} {dump : α → Value}
  {conveys : Value → Value → Prop}

theorem conveys_elements
    (each : ∀ value read, validate value = .ok read → conveys value (dump read)) {index : Nat}
    {elements : List Value} {reads : List α}
    (valid : validateElements validate index elements = .ok reads) :
    List.Forall₂ conveys elements (reads.map dump) := by
  induction elements generalizing index reads with
  | nil =>
      cases valid
      exact .nil
  | cons element rest ih =>
      obtain ⟨⟨head, tail⟩, pair, rfl⟩ := map_eq_ok_iff.mp valid
      obtain ⟨here, later⟩ := both_eq_ok_iff.mp pair
      exact .cons (each element head (at_eq_ok_iff.mp here)) (ih later)

theorem conveys_items
    (each : ∀ value read, validate value = .ok read → conveys value (dump read))
    {items : Items Str Value} {reads : Items Str α}
    (valid : validateItems validate items = .ok reads) :
    List.Forall₂ (fun item item' => item'.1 = item.1 ∧ conveys item.2 item'.2) items
      (reads.map fun item => (item.1, dump item.2)) := by
  induction items generalizing reads with
  | nil =>
      cases valid
      exact .nil
  | cons item rest ih =>
      obtain ⟨⟨head, tail⟩, pair, rfl⟩ := map_eq_ok_iff.mp valid
      obtain ⟨here, later⟩ := both_eq_ok_iff.mp pair
      exact .cons ⟨rfl, each item.2 head (at_eq_ok_iff.mp here)⟩ (ih later)

end Collections

/-- Beside its fields, the dump of an object has the extra members and no others. -/
theorem get_dump_of_not_wire {extra : Extra} {fields : Fields} {items : Items Str Value}
    (object : fields.Denote) {key : Str} (apart : key ∉ fields.wires) :
    Items.get (fields.dump object ++ extraItems extra fields items) key =
      if extra = .allow ∧ key ∉ fields.names then items.get key else none := by
  rw [Items.get_append_of_not_mem (by rw [fields.keys_dump]; exact apart)]
  cases extra with
  | ignore => rfl
  | allow =>
      refine (Items.get_filter items (fun key => !fields.names.contains key) key).trans ?_
      simp only [List.contains_eq_mem, Bool.not_eq_true', decide_eq_false_iff_not, true_and]

mutual

theorem Ty.conveys_dump (lax : Lax) :
    ∀ (type : Ty), type.distinctNames = true → ∀ (value : Value) (read : type.Denote),
      type.validate lax value = .ok read → type.Conveys lax value (type.dump read)
  | .str, _, value, read, valid => ofText_eq_ok_iff.mp valid |>.symm
  | .int, _, value, read, valid => ⟨read, ofOption_eq_ok_iff.mp valid, rfl⟩
  | .bool, _, value, read, valid => ⟨read, ofOption_eq_ok_iff.mp valid, rfl⟩
  | .any, _, value, read, valid => by
      cases valid
      rfl
  | .literal text, _, value, read, valid => (ofLiteral_eq_ok_iff.mp valid).1.symm
  | .nullable inner, distinct, value, read, valid => by
      rcases orNone_eq_ok_iff.mp valid with ⟨null, rfl⟩ | ⟨present, given, readInner, rfl⟩
      · exact .inl ⟨null, rfl⟩
      · exact .inr ⟨present, inner.conveys_dump lax distinct value given readInner⟩
  | .list inner, distinct, value, read, valid => by
      cases value with
      | list elements =>
          exact ⟨elements, _, rfl, rfl,
            conveys_elements (inner.conveys_dump lax distinct) valid⟩
      | _ => cases valid
  | .dict inner, distinct, value, read, valid => by
      cases value with
      | dict items =>
          exact ⟨items, _, rfl, rfl, conveys_items (inner.conveys_dump lax distinct) valid⟩
      | _ => cases valid
  | .record extra fields, distinct, value, read, valid => by
      cases value with
      | dict items =>
          obtain ⟨object, validated, rfl⟩ := map_eq_ok_iff.mp valid
          have stands := fields.stands_dump object distinct [] (extraItems extra fields items)
            (fun key _ => List.not_mem_nil)
          refine ⟨items, _, rfl, rfl,
            fields.conveys_of_stands lax distinct items object validated stands, ?_, ?_⟩
          · intro kept key value found undeclared
            have apart : key ∉ fields.wires := by
              intro named
              exact undeclared (fields.wires_subset key named)
            rw [get_dump_of_not_wire object apart, if_pos ⟨kept, undeclared⟩]
            exact found
          · intro key value found
            by_cases named : key ∈ fields.wires
            · exact .inl named
            · rw [get_dump_of_not_wire object named] at found
              split at found
              · rename_i kept
                exact .inr ⟨kept.1, kept.2, found⟩
              · cases found
      | _ => cases valid

theorem Fields.conveys_of_stands (lax : Lax) :
    ∀ (fields : Fields), fields.distinctNames = true → ∀ (items : Items Str Value)
      (object : fields.Denote), fields.validate lax items = .ok object →
        ∀ {items' : Items Str Value}, fields.Stands items' object →
          fields.Conveys lax items items'
  | .nil, _, _, _, _, _, _ => trivial
  | .cons name wire type default rest, distinct, items, object, valid, items', stands => by
      obtain ⟨typeDistinct, _, _, later⟩ := distinctNames_cons distinct
      obtain ⟨here, below⟩ := both_eq_ok_iff.mp valid
      refine ⟨?_, rest.conveys_of_stands lax later items object.2 below stands.2⟩
      cases given : fieldValue name wire default items with
      | none =>
          rw [given] at here
          cases here
      | some value =>
          rw [given] at here
          exact ⟨value, _, rfl, stands.1,
            type.conveys_dump lax typeDistinct value object.1 (at_eq_ok_iff.mp here)⟩

end

end Schema
