import MailkubeSdk.Schema

/-
Adding a member to a declared object.

A place is a declared object inside the values of a shape, reached through
fields, elements and nullables.  A member is added at a place when the object
there gets one more key, new and not declared; where it is written among the
others does not matter.  A validated value can be read bare, without the extra
members it keeps, and it can be dumped under the wire names.
-/

namespace Schema

open Python

/-! ### Places -/

mutual

/-- A declared object of a shape. -/
inductive Place : Ty → Type where
  | here {extra : Extra} {fields : Fields} : Place (.record extra fields)
  | under {inner : Ty} (place : Place inner) : Place (.nullable inner)
  | element {inner : Ty} (index : Nat) (place : Place inner) : Place (.list inner)
  | within {extra : Extra} {fields : Fields} (place : FieldPlace fields) :
      Place (.record extra fields)

/-- One below a field of an object. -/
inductive FieldPlace : Fields → Type where
  | head {name wire : Str} {type : Ty} {default : Option Value} {rest : Fields}
      (place : Place type) : FieldPlace (.cons name wire type default rest)
  | tail {name wire : Str} {type : Ty} {default : Option Value} {rest : Fields}
      (place : FieldPlace rest) : FieldPlace (.cons name wire type default rest)

end

/-- The key a field was read from. -/
def fieldKey (name wire : Str) (items : Items Str Value) : Str :=
  if (items.get wire).isSome then wire else name

mutual

/-- What the object at the place does with members it does not declare. -/
def Place.extra : {type : Ty} → Place type → Extra
  | _, @Place.here extra _ => extra
  | _, .under place => place.extra
  | _, .element _ place => place.extra
  | _, .within place => place.extra

def FieldPlace.extra : {fields : Fields} → FieldPlace fields → Extra
  | _, .head place => place.extra
  | _, .tail place => place.extra

end

mutual

/-- The second value is the first with one more member, at the place. -/
def Place.Adds (key : Str) (member : Value) : {type : Ty} → Place type → Value → Value → Prop
  | _, @Place.here _ fields, small, large =>
      ∃ front back, small = .dict (front ++ back) ∧
        large = .dict (front ++ (key, member) :: back) ∧
          key ∉ Items.keys (front ++ back) ∧ key ∉ fields.names
  | _, .under place, small, large => place.Adds key member small large
  | _, .element index place, small, large =>
      ∃ front before after back, front.length = index ∧ small = .list (front ++ before :: back) ∧
        large = .list (front ++ after :: back) ∧ place.Adds key member before after
  | _, .within place, small, large =>
      ∃ items items', small = .dict items ∧ large = .dict items' ∧
        place.Adds key member items items'

def FieldPlace.Adds (key : Str) (member : Value) :
    {fields : Fields} → FieldPlace fields → Items Str Value → Items Str Value → Prop
  | _, @FieldPlace.head name wire _ _ _ place, items, items' =>
      ∃ before after, items.get (fieldKey name wire items) = some before ∧
        items' = items.set (fieldKey name wire items) after ∧ place.Adds key member before after
  | _, .tail place, items, items' => place.Adds key member items items'

end

/-! ### Reading bare, and dumping -/

mutual

/-- The declared fields alone: no object keeps an extra member. -/
def Ty.bare : (type : Ty) → type.Denote → type.Denote
  | .str, text => text
  | .int, n => n
  | .bool, b => b
  | .any, value => value
  | .literal _, text => text
  | .nullable inner, value => Option.map inner.bare value
  | .list inner, elements => List.map inner.bare elements
  | .dict inner, items => List.map (fun item => (item.1, inner.bare item.2)) items
  | .record _ fields, object => (fields.bare object.1, [])

def Fields.bare : (fields : Fields) → fields.Denote → fields.Denote
  | .nil, _ => ()
  | .cons _ _ type _ rest, object => (type.bare object.1, rest.bare object.2)

end

mutual

/-- `model_dump(by_alias=True)`. -/
def Ty.dump : (type : Ty) → type.Denote → Value
  | .str, text => .str text
  | .int, n => .int n
  | .bool, b => .bool b
  | .any, value => value
  | .literal _, text => .str text
  | .nullable inner, value => Option.elim value .none inner.dump
  | .list inner, elements => .list (List.map inner.dump elements)
  | .dict inner, items => .dict (List.map (fun item => (item.1, inner.dump item.2)) items)
  | .record _ fields, object => .dict (fields.dump object.1 ++ object.2)

def Fields.dump : (fields : Fields) → fields.Denote → Items Str Value
  | .nil, _ => []
  | .cons _ wire type _ rest, object => (wire, type.dump object.1) :: rest.dump object.2

end

/-! ### Shapes whose fields do not share names -/

mutual

def Ty.distinctNames : Ty → Bool
  | .nullable inner => inner.distinctNames
  | .list inner => inner.distinctNames
  | .dict inner => inner.distinctNames
  | .record _ fields => fields.distinctNames
  | _ => true

/-- No field is read under a name or a wire name of a later one. -/
def Fields.distinctNames : Fields → Bool
  | .nil => true
  | .cons name wire type _ rest =>
      type.distinctNames && !rest.names.contains name && !rest.names.contains wire &&
        rest.distinctNames

end

mutual

/-- Every declared object of the shape treats extra members so. -/
def Ty.treats (extra : Extra) : Ty → Bool
  | .nullable inner => inner.treats extra
  | .list inner => inner.treats extra
  | .dict inner => inner.treats extra
  | .record own fields => decide (own = extra) && fields.treats extra
  | _ => true

def Fields.treats (extra : Extra) : Fields → Bool
  | .nil => true
  | .cons _ _ type _ rest => type.treats extra && rest.treats extra

end

/-! ### What an object is read from -/

/-- An object is read through the lookups of its declared names alone. -/
theorem Fields.validate_congr (lax : Lax) : ∀ (fields : Fields) {items items' : Items Str Value},
    (∀ key ∈ fields.names, items'.get key = items.get key) →
      fields.validate lax items' = fields.validate lax items
  | .nil, _, _, _ => rfl
  | .cons name wire type default rest, items, items', same => by
      have named : items'.get name = items.get name := same name List.mem_cons_self
      have wired : items'.get wire = items.get wire :=
        same wire (List.mem_cons_of_mem _ List.mem_cons_self)
      have later : rest.validate lax items' = rest.validate lax items :=
        rest.validate_congr lax (fun key member =>
          same key (List.mem_cons_of_mem _ (List.mem_cons_of_mem _ member)))
      have read : fieldValue name wire default items' = fieldValue name wire default items := by
        unfold fieldValue
        rw [named, wired]
      rw [Fields.validate, Fields.validate, read, later]

theorem fieldKey_mem (name wire : Str) (items : Items Str Value) (rest : List Str) :
    fieldKey name wire items ∈ name :: wire :: rest := by
  unfold fieldKey
  split
  · exact List.mem_cons_of_mem _ List.mem_cons_self
  · exact List.mem_cons_self

theorem fieldValue_eq (name wire : Str) (default : Option Value) (items : Items Str Value) :
    fieldValue name wire default items = (items.get (fieldKey name wire items)).or default := by
  unfold fieldValue fieldKey
  cases found : items.get wire with
  | none => rfl
  | some value =>
      simp only [Option.isSome_some, if_true]
      rw [found]
      rfl

theorem distinctNames_cons {name wire : Str} {type : Ty} {default : Option Value} {rest : Fields}
    (distinct : (Fields.cons name wire type default rest).distinctNames = true) :
    type.distinctNames = true ∧ name ∉ rest.names ∧ wire ∉ rest.names ∧
      rest.distinctNames = true := by
  simp only [Fields.distinctNames, Bool.and_eq_true, Bool.not_eq_true', List.contains_eq_mem,
    decide_eq_false_iff_not] at distinct
  obtain ⟨⟨⟨inner, nameApart⟩, wireApart⟩, later⟩ := distinct
  exact ⟨inner, nameApart, wireApart, later⟩

theorem Fields.dump_keys : ∀ (fields : Fields) (object : fields.Denote),
    ∀ key ∈ Items.keys (fields.dump object), key ∈ fields.names
  | .cons name wire type default rest, object, key, member => by
      rcases List.mem_cons.mp member with rfl | later
      · exact List.mem_cons_of_mem _ List.mem_cons_self
      · have inside := rest.dump_keys object.2 key later
        exact List.mem_cons_of_mem _ (List.mem_cons_of_mem _ inside)

/-! ### A member added below a field -/

variable {key : Str} {member : Value}

namespace FieldPlace

theorem get_of_adds : ∀ {fields : Fields} (place : FieldPlace fields)
    {items items' : Items Str Value}, place.Adds key member items items' →
      ∀ other ∉ fields.names, items'.get other = items.get other
  | .cons name wire _ _ rest, .head place, items, items', added, other, outside => by
      obtain ⟨before, after, found, rfl, _⟩ := added
      have different : fieldKey name wire items ≠ other := by
        intro same
        exact outside (same ▸ fieldKey_mem name wire items rest.names)
      exact Items.get_set_ne items after different
  | .cons name wire _ _ rest, .tail place, _, _, added, other, outside =>
      get_of_adds place added other (fun inside =>
        outside (List.mem_cons_of_mem _ (List.mem_cons_of_mem _ inside)))

/-- What is kept of an object beside its fields is the same. -/
theorem filter_of_adds : ∀ {fields : Fields} (place : FieldPlace fields)
    {items items' : Items Str Value}, place.Adds key member items items' →
      ∀ keep : Str → Bool, (∀ declared ∈ fields.names, keep declared = false) →
        items'.filter (fun item => keep item.1) = items.filter (fun item => keep item.1)
  | .cons name wire _ _ rest, .head place, items, items', added, keep, dropped => by
      obtain ⟨before, after, found, rfl, _⟩ := added
      exact Items.filter_set_of_dropped items after
        (dropped _ (fieldKey_mem name wire items rest.names))
  | _, .tail place, _, _, added, keep, dropped =>
      filter_of_adds place added keep (fun declared inside =>
        dropped declared (List.mem_cons_of_mem _ (List.mem_cons_of_mem _ inside)))

/-- A pair under another name changes nothing of it. -/
theorem adds_cons : ∀ {fields : Fields} (place : FieldPlace fields)
    {items items' : Items Str Value}, place.Adds key member items items' →
      ∀ other ∉ fields.names, ∀ value,
        place.Adds key member ((other, value) :: items) ((other, value) :: items')
  | .cons name wire _ _ rest, .head place, items, items', added, other, outside, value => by
      obtain ⟨before, after, found, rfl, inside⟩ := added
      have notWire : other ≠ wire := by
        rintro rfl
        exact outside (List.mem_cons_of_mem _ List.mem_cons_self)
      have sameKey : fieldKey name wire ((other, value) :: items) = fieldKey name wire items := by
        unfold fieldKey
        rw [Items.get_cons_ne value items notWire]
      have different : other ≠ fieldKey name wire items := by
        rintro rfl
        exact outside (fieldKey_mem name wire items rest.names)
      refine ⟨before, after, ?_, ?_, inside⟩
      · rw [sameKey, Items.get_cons_ne value items different]
        exact found
      · rw [sameKey, Items.set_cons_ne value items different]
  | .cons name wire _ _ rest, .tail place, _, _, added, other, outside, value =>
      adds_cons place added other (fun inside =>
        outside (List.mem_cons_of_mem _ (List.mem_cons_of_mem _ inside))) value

end FieldPlace

/-! ### A member added at a place -/

/-- What the reading becomes: the dump gains the member where it is kept, nothing
changes where it is ignored. -/
structure Place.Gains (key : Str) (member : Value) {type : Ty} (place : Place type)
    (read read' : type.Denote) : Prop where
  bare : type.bare read' = type.bare read
  kept : place.extra = .allow → place.Adds key member (type.dump read) (type.dump read')
  ignored : place.extra = .ignore → read' = read

structure FieldPlace.Gains (key : Str) (member : Value) {fields : Fields}
    (place : FieldPlace fields) (object object' : fields.Denote) : Prop where
  bare : fields.bare object' = fields.bare object
  kept : place.extra = .allow → ∀ beside : Items Str Value,
    place.Adds key member (fields.dump object ++ beside) (fields.dump object' ++ beside)
  ignored : place.extra = .ignore → object' = object

namespace Place

theorem ne_none_of_adds : ∀ {type : Ty} (place : Place type) {small large : Value},
    place.Adds key member small large → small ≠ .none ∧ large ≠ .none
  | _, .here, _, _, added => by
      obtain ⟨front, back, rfl, rfl, _⟩ := added
      exact ⟨Value.noConfusion, Value.noConfusion⟩
  | _, .under place, _, _, added => ne_none_of_adds place added
  | _, .element _ _, _, _, added => by
      obtain ⟨front, before, after, back, _, rfl, rfl, _⟩ := added
      exact ⟨Value.noConfusion, Value.noConfusion⟩
  | _, .within _, _, _, added => by
      obtain ⟨items, items', rfl, rfl, _⟩ := added
      exact ⟨Value.noConfusion, Value.noConfusion⟩

theorem dict_of_adds : ∀ {type : Ty} (place : Place type) {items : Items Str Value} {large : Value},
    place.Adds key member (.dict items) large → ∃ items', large = .dict items'
  | _, .here, _, _, added => by
      obtain ⟨front, back, _, rfl, _⟩ := added
      exact ⟨_, rfl⟩
  | _, .under place, _, _, added => dict_of_adds place added
  | _, .element _ _, _, _, added => by
      obtain ⟨front, before, after, back, _, impossible, _⟩ := added
      cases impossible
  | _, .within _, _, _, added => by
      obtain ⟨items, items', _, rfl, _⟩ := added
      exact ⟨items', rfl⟩

end Place

private theorem orNone_of_ne_none {α : Type} (validate : Value → Except Errors α) {value : Value}
    (present : value ≠ .none) : orNone validate value = (validate value).map some := by
  cases value with
  | none => exact absurd rfl present
  | _ => rfl

/-- One element is replaced by another that is read as well. -/
private theorem validateElements_middle {α : Type} {validate : Value → Except Errors α}
    {element : Value} {back : List Value} (front : List Value) (index : Nat) {read : List α}
    (valid : validateElements validate index (front ++ element :: back) = .ok read) :
    ∃ readFront middle readBack, read = readFront ++ middle :: readBack ∧
      readFront.length = front.length ∧ validate element = .ok middle ∧
        ∀ other middle', validate other = .ok middle' →
          validateElements validate index (front ++ other :: back) =
            .ok (readFront ++ middle' :: readBack) := by
  induction front generalizing index read with
  | nil =>
      obtain ⟨⟨middle, readBack⟩, both, rfl⟩ := map_eq_ok_iff.mp valid
      obtain ⟨here, later⟩ := both_eq_ok_iff.mp both
      refine ⟨[], middle, readBack, rfl, rfl, at_eq_ok_iff.mp here, ?_⟩
      intro other middle' validOther
      apply map_eq_ok_iff.mpr
      exact ⟨(middle', readBack), both_eq_ok_iff.mpr ⟨at_eq_ok_iff.mpr validOther, later⟩, rfl⟩
  | cons first front ih =>
      obtain ⟨⟨head, rest⟩, both, rfl⟩ := map_eq_ok_iff.mp valid
      obtain ⟨here, later⟩ := both_eq_ok_iff.mp both
      obtain ⟨readFront, middle, readBack, rfl, length, validMiddle, replaced⟩ := ih _ later
      refine ⟨head :: readFront, middle, readBack, rfl, congrArg (· + 1) length, validMiddle, ?_⟩
      intro other middle' validOther
      apply map_eq_ok_iff.mpr
      exact ⟨(head, readFront ++ middle' :: readBack),
        both_eq_ok_iff.mpr ⟨here, replaced other middle' validOther⟩, rfl⟩

/-- At an object itself: its declared fields are read as before. -/
private theorem validate_here (lax : Lax) {extra : Extra} {fields : Fields} {small large : Value}
    {read : (Ty.record extra fields).Denote}
    (added : (Place.here : Place (.record extra fields)).Adds key member small large)
    (valid : (Ty.record extra fields).validate lax small = .ok read) :
    ∃ read', (Ty.record extra fields).validate lax large = .ok read' ∧
      (Place.here : Place (.record extra fields)).Gains key member read read' := by
  obtain ⟨front, back, rfl, rfl, fresh, undeclared⟩ := added
  rw [Ty.validate] at valid
  obtain ⟨object, validated, rfl⟩ := map_eq_ok_iff.mp valid
  have sameLookup : ∀ other ∈ fields.names,
      Items.get (front ++ (key, member) :: back) other = Items.get (front ++ back) other := by
    intro other declared
    apply Items.get_insert_ne
    rintro rfl
    exact undeclared declared
  refine ⟨(object, extraItems extra fields (front ++ (key, member) :: back)), ?_, rfl, ?_, ?_⟩
  · rw [Ty.validate]
    apply map_eq_ok_iff.mpr
    exact ⟨object, (fields.validate_congr lax sameLookup).trans validated, rfl⟩
  · intro policy
    change extra = .allow at policy
    subst policy
    have unused : fields.names.contains key = false := by
      rw [List.contains_eq_mem, decide_eq_false_iff_not]
      exact undeclared
    have keep : ∀ items : Items Str Value,
        ∃ kept, items.filter (fun item => !fields.names.contains item.1) = kept ∧
          ∀ other ∈ Items.keys kept, other ∈ Items.keys items :=
      fun items => ⟨_, rfl, fun other inside =>
        (List.Sublist.map Prod.fst List.filter_sublist).subset inside⟩
    obtain ⟨keptFront, filteredFront, subsetFront⟩ := keep front
    obtain ⟨keptBack, filteredBack, subsetBack⟩ := keep back
    have before : extraItems .allow fields (front ++ back) = keptFront ++ keptBack := by
      unfold extraItems
      rw [List.filter_append, filteredFront, filteredBack]
    have after : extraItems .allow fields (front ++ (key, member) :: back) =
        keptFront ++ (key, member) :: keptBack := by
      unfold extraItems
      dsimp only
      rw [List.filter_append, List.filter_cons_of_pos (by rw [unused]; rfl), filteredFront,
        filteredBack]
    refine ⟨fields.dump object ++ keptFront, keptBack, ?_, ?_, ?_, undeclared⟩
    · change Value.dict (fields.dump object ++ extraItems .allow fields _) = _
      rw [before, List.append_assoc]
    · change Value.dict (fields.dump object ++ extraItems .allow fields _) = _
      rw [after, List.append_assoc]
    · intro inside
      rw [Items.keys, List.map_append, List.map_append, List.mem_append,
        List.mem_append] at inside
      rw [Items.keys, List.map_append, List.mem_append] at fresh
      rcases inside with (declared | early) | late
      · exact undeclared (fields.dump_keys object key declared)
      · exact fresh (.inl (subsetFront key early))
      · exact fresh (.inr (subsetBack key late))
  · intro policy
    change extra = .ignore at policy
    subst policy
    rfl

mutual

/-- Adding a member at a place leaves a value accepted and its declared fields as they
were; the member is then in the dump, or nothing has changed. -/
theorem Place.validate_adds (lax : Lax) : ∀ {type : Ty} (place : Place type) {small large : Value}
    {read : type.Denote}, type.distinctNames = true → place.Adds key member small large →
      type.validate lax small = .ok read →
        ∃ read', type.validate lax large = .ok read' ∧ place.Gains key member read read'
  | _, .here, _, _, _, _, added, valid => validate_here lax added valid
  | _, @Place.under inner place, small, large, read, distinct, added, valid => by
      have present := place.ne_none_of_adds added
      rw [Ty.validate, orNone_of_ne_none _ present.1] at valid
      obtain ⟨given, validGiven, rfl⟩ := map_eq_ok_iff.mp valid
      obtain ⟨given', validGiven', gains⟩ := place.validate_adds lax distinct added validGiven
      refine ⟨some given', ?_, congrArg some gains.bare, gains.kept, ?_⟩
      · rw [Ty.validate, orNone_of_ne_none _ present.2, validGiven']
        rfl
      · intro policy
        exact congrArg some (gains.ignored policy)
  | _, @Place.element inner index place, small, large, read, distinct, added, valid => by
      obtain ⟨front, before, after, back, length, rfl, rfl, inside⟩ := added
      rw [Ty.validate] at valid
      obtain ⟨readFront, middle, readBack, rfl, readLength, validBefore, replaced⟩ :=
        validateElements_middle front 0 valid
      obtain ⟨middle', validAfter, gains⟩ := place.validate_adds lax distinct inside validBefore
      refine ⟨readFront ++ middle' :: readBack, ?_, ?_, ?_, ?_⟩
      · rw [Ty.validate]
        exact replaced after middle' validAfter
      · change List.map inner.bare _ = List.map inner.bare _
        rw [List.map_append, List.map_append, List.map_cons, List.map_cons, gains.bare]
      · intro policy
        refine ⟨readFront.map inner.dump, inner.dump middle, inner.dump middle',
          readBack.map inner.dump, ?_, ?_, ?_, gains.kept policy⟩
        · rw [List.length_map, readLength, length]
        · change Value.list (List.map inner.dump _) = _
          rw [List.map_append, List.map_cons]
        · change Value.list (List.map inner.dump _) = _
          rw [List.map_append, List.map_cons]
      · intro policy
        rw [gains.ignored policy]
  | _, @Place.within extra fields place, small, large, read, distinct, added, valid => by
      obtain ⟨items, items', rfl, rfl, inside⟩ := added
      rw [Ty.validate] at valid
      obtain ⟨object, validated, rfl⟩ := map_eq_ok_iff.mp valid
      obtain ⟨object', validated', gains⟩ := place.validate_adds lax distinct inside validated
      have sameExtra : extraItems extra fields items' = extraItems extra fields items := by
        cases extra with
        | ignore => rfl
        | allow =>
            apply place.filter_of_adds inside (fun other => !fields.names.contains other)
            intro declared listed
            rw [Bool.not_eq_false', List.contains_eq_mem, decide_eq_true_eq]
            exact listed
      refine ⟨(object', extraItems extra fields items), ?_, ?_, ?_, ?_⟩
      · rw [Ty.validate]
        apply map_eq_ok_iff.mpr
        exact ⟨object', validated', by rw [sameExtra]⟩
      · exact congrArg (fun bare : fields.Denote => (bare, ([] : Items Str Value))) gains.bare
      · intro policy
        exact ⟨_, _, rfl, rfl, gains.kept policy _⟩
      · intro policy
        rw [gains.ignored policy]

theorem FieldPlace.validate_adds (lax : Lax) : ∀ {fields : Fields} (place : FieldPlace fields)
    {items items' : Items Str Value} {object : fields.Denote}, fields.distinctNames = true →
      place.Adds key member items items' → fields.validate lax items = .ok object →
        ∃ object', fields.validate lax items' = .ok object' ∧
          place.Gains key member object object'
  | .cons name wire type default rest, .head place, items, items', object, distinct, added,
      valid => by
      obtain ⟨before, after, found, rfl, inside⟩ := added
      obtain ⟨inner, nameApart, wireApart, restDistinct⟩ := distinctNames_cons distinct
      obtain ⟨value, others⟩ := object
      rw [Fields.validate] at valid
      obtain ⟨first, later⟩ := both_eq_ok_iff.mp valid
      rw [fieldValue_eq, found] at first
      obtain ⟨value', validAfter, gains⟩ :=
        place.validate_adds lax inner inside (at_eq_ok_iff.mp first)
      have sameKey : fieldKey name wire (items.set (fieldKey name wire items) after) =
          fieldKey name wire items := by
        have same := Items.isSome_get_set_of_mem (Items.mem_keys_of_get found) after wire
        unfold fieldKey at same ⊢
        rw [same]
      have read : fieldValue name wire default (items.set (fieldKey name wire items) after) =
          some after := by
        rw [fieldValue_eq, sameKey, Items.get_set_self]
        rfl
      have unread : ∀ other ∈ rest.names,
          (items.set (fieldKey name wire items) after).get other = items.get other := by
        intro other declared
        apply Items.get_set_ne
        rintro rfl
        unfold fieldKey at declared
        split at declared
        · exact wireApart declared
        · exact nameApart declared
      refine ⟨(value', others), ?_, ?_, ?_, ?_⟩
      · rw [Fields.validate, read]
        apply both_eq_ok_iff.mpr
        exact ⟨at_eq_ok_iff.mpr validAfter, (rest.validate_congr lax unread).trans later⟩
      · exact congrArg (fun bare : type.Denote => (bare, rest.bare others)) gains.bare
      · intro policy beside
        have dumped : ∀ value : type.Denote, fieldKey name wire
            ((wire, type.dump value) :: (rest.dump others ++ beside)) = wire := by
          intro value
          unfold fieldKey
          rw [Items.get_cons_self]
          rfl
        refine ⟨type.dump value, type.dump value', ?_, ?_, gains.kept policy⟩
        · exact (congrArg _ (dumped value)).trans (Items.get_cons_self _ _ _)
        · refine Eq.trans ?_ (congrArg (fun key => Items.set _ key _) (dumped value)).symm
          exact (if_pos rfl).symm
      · intro policy
        rw [gains.ignored policy]
  | .cons name wire type default rest, .tail place, items, items', object, distinct, added,
      valid => by
      obtain ⟨_, nameApart, wireApart, restDistinct⟩ := distinctNames_cons distinct
      obtain ⟨value, others⟩ := object
      rw [Fields.validate] at valid
      obtain ⟨first, later⟩ := both_eq_ok_iff.mp valid
      obtain ⟨others', validated, gains⟩ := place.validate_adds lax restDistinct added later
      have read : fieldValue name wire default items' = fieldValue name wire default items := by
        unfold fieldValue
        rw [place.get_of_adds added name nameApart, place.get_of_adds added wire wireApart]
      refine ⟨(value, others'), ?_, ?_, ?_, ?_⟩
      · rw [Fields.validate, read]
        apply both_eq_ok_iff.mpr
        exact ⟨first, validated⟩
      · exact congrArg (fun bare : rest.Denote => (type.bare value, bare)) gains.bare
      · intro policy beside
        exact place.adds_cons (gains.kept policy beside) wire wireApart _
      · intro policy
        rw [gains.ignored policy]

end

mutual

/-- In a shape whose objects all treat extra members alike, so does every place. -/
theorem Place.extra_of_treats {extra : Extra} : ∀ {type : Ty} (place : Place type),
    type.treats extra = true → place.extra = extra
  | _, @Place.here own fields, treats => by
      rw [Ty.treats, Bool.and_eq_true, decide_eq_true_eq] at treats
      exact treats.1
  | _, .under place, treats => place.extra_of_treats treats
  | _, .element _ place, treats => place.extra_of_treats treats
  | _, .within place, treats => by
      rw [Ty.treats, Bool.and_eq_true] at treats
      exact place.extra_of_treats treats.2

theorem FieldPlace.extra_of_treats {extra : Extra} : ∀ {fields : Fields}
    (place : FieldPlace fields), fields.treats extra = true → place.extra = extra
  | .cons _ _ _ _ _, .head place, treats => by
      rw [Fields.treats, Bool.and_eq_true] at treats
      exact place.extra_of_treats treats.1
  | .cons _ _ _ _ _, .tail place, treats => by
      rw [Fields.treats, Bool.and_eq_true] at treats
      exact place.extra_of_treats treats.2

end

end Schema
