import Mathlib.Data.List.Induction
import MailkubeSdk.BaseClient

/-
The send encoding is lossless.

Every parameter but the idempotency key becomes one entry of the body, under its
wire name; the key becomes the one header.  Instants are written as ISO-8601
text and raw attachment contents as base64, everything else as it stands, and a
decoder reads the parameters back.
-/

namespace MailkubeSdk

open Python

def idempotencyKey : Str := str "idempotency_key"

def idempotencyHeader : Str := str "Idempotency-Key"

/-- The name of a parameter on the wire: `from_` is spelled `from`, the others are kept. -/
def wireKey (key : Str) : Str := if key = str "from_" then str "from" else key

theorem wireRenames_get (key : Str) : (wireRenames.get key).getD key = wireKey key := by
  have single : wireRenames.get key = if str "from_" = key then some (str "from") else none :=
    Items.get_cons _ _ _
  rw [single, wireKey]
  by_cases same : key = str "from_"
  · rw [if_pos same, if_pos same.symm]
    rfl
  · rw [if_neg same, if_neg (Ne.symm same)]
    rfl

/-! ### The headers of any send -/

theorem headerParams_get (key : Str) :
    headerParams.get key = if key = idempotencyKey then some idempotencyHeader else none := by
  have single : headerParams.get key =
      if idempotencyKey = key then some idempotencyHeader else none := Items.get_cons _ _ _
  rw [single]
  by_cases same : key = idempotencyKey
  · rw [if_pos same, if_pos same.symm]
  · rw [if_neg same, if_neg (Ne.symm same)]

theorem sendStep_headers (runtime : Runtime) {built next : Items Str Value × Items Str Str}
    {param : Str × Value} (stepped : sendStep runtime built param = .ok next) :
    if param.1 = idempotencyKey then ∃ text, next.2 = built.2.set idempotencyHeader text
    else next.2 = built.2 := by
  unfold sendStep at stepped
  rw [headerParams_get] at stepped
  by_cases isKey : param.1 = idempotencyKey
  · rw [if_pos isKey]
    rw [if_pos isKey] at stepped
    obtain ⟨text, _, same⟩ := bind_eq_ok_iff.mp stepped
    cases same
    exact ⟨text, rfl⟩
  · rw [if_neg isKey]
    rw [if_neg isKey] at stepped
    dsimp only at stepped
    split at stepped
    · obtain ⟨encoded, _, same⟩ := bind_eq_ok_iff.mp stepped
      cases same
      rfl
    · split at stepped
      · obtain ⟨text, _, same⟩ := bind_eq_ok_iff.mp stepped
        cases same
        rfl
      · cases stepped
        rfl

/-- Whether the header is there. -/
def headerNames (given : Bool) : List Str := if given then [idempotencyHeader] else []

private theorem foldlM_headers (runtime : Runtime) {params : Items Str Value} {given : Bool}
    {start final : Items Str Value × Items Str Str}
    (done : params.foldlM (sendStep runtime) start = .ok final)
    (before : start.2.keys = headerNames given) :
    final.2.keys = headerNames (given || params.keys.contains idempotencyKey) := by
  induction params generalizing start given with
  | nil =>
      cases done
      rw [before]
      exact congrArg headerNames (Bool.or_false given).symm
  | cons param rest ih =>
      rw [List.foldlM_cons] at done
      obtain ⟨next, stepped, more⟩ := bind_eq_ok_iff.mp done
      have header := sendStep_headers runtime stepped
      obtain ⟨key, value⟩ := param
      rw [Items.keys_cons, List.contains_cons]
      by_cases isKey : key = idempotencyKey
      · rw [if_pos isKey] at header
        obtain ⟨text, grown⟩ := header
        have here : next.2.keys = headerNames true := by
          rw [grown]
          cases given with
          | false =>
              have absent : idempotencyHeader ∉ start.2.keys := by
                rw [before]
                exact List.not_mem_nil
              rw [Items.set_of_fresh absent, Items.keys, List.map_append, ← Items.keys, before]
              rfl
          | true =>
              have present : idempotencyHeader ∈ start.2.keys := by
                rw [before]
                exact List.mem_singleton.mpr rfl
              rw [Items.keys_set_of_mem present, before]
        have named : (idempotencyKey == key) = true := beq_iff_eq.mpr isKey.symm
        rw [ih more here, named]
        simp only [Bool.true_or, Bool.or_true]
      · rw [if_neg isKey] at header
        have other : (idempotencyKey == key) = false := beq_eq_false_iff_ne.mpr (Ne.symm isKey)
        rw [ih more (header ▸ before), other, Bool.false_or]

/-- Whatever is sent, the only header it may add is the idempotency key's. -/
theorem buildSendBody_headers (runtime : Runtime) {params : Items Str Value} {spec : RequestSpec}
    (built : buildSendBody runtime params = .ok spec) :
    spec.headers.keys = headerNames (params.keys.contains idempotencyKey) := by
  obtain ⟨⟨body, headers⟩, folded, same⟩ := bind_eq_ok_iff.mp built
  cases same
  have none : (([], []) : Items Str Value × Items Str Str).2.keys = headerNames false := rfl
  have keys := foldlM_headers runtime folded none
  rw [Bool.false_or] at keys
  exact keys

/-! ### What is written -/

def writtenContent : Value → Value
  | .bytes octets => .str (Codecs.b64encode octets)
  | value => value

def writtenAttachment : Value → Value
  | .dict items => .dict (items.map fun item => (item.1, writtenContent item.2))
  | value => value

/-- A parameter as it is written: an instant as its ISO-8601 text, the raw
content of an attachment as base64. -/
def written : Value → Value
  | .datetime value => .str value.isoformat
  | .list elements => .list (elements.map writtenAttachment)
  | value => value

def textOf : Value → Str
  | .str text => text
  | _ => []

/-! ### Well-typed parameters -/

/-- What the step does with a declared key, by the type the key is declared with. -/
theorem sendEmailParams_table : ∀ decl ∈ sendEmailParams,
    (decl.key = idempotencyKey ∧ decl.type = .text) ∨
    (decl.key ≠ idempotencyKey ∧ decl.key = attachmentsKey ∧ decl.type = .attachments) ∨
    (decl.key ≠ idempotencyKey ∧ decl.key ≠ attachmentsKey ∧ decl.key ∈ isoParams ∧
      wireKey decl.key = decl.key ∧ decl.type = .textOrInstant) ∨
    (decl.key ≠ idempotencyKey ∧ decl.key ≠ attachmentsKey ∧ decl.key ∉ isoParams ∧
      decl.type ∈ [.text, .textOrTexts, .textMapping, .tags]) := by
  decide

theorem isTypedDict_dict {declared required : List Str} {fits : Str → Value → Bool}
    {value : Value} (typed : isTypedDict declared required fits value = true) :
    ∃ items, value = .dict items ∧ (Items.keys items).Nodup ∧
      ∀ item ∈ items, fits item.1 item.2 = true := by
  cases value with
  | dict items =>
      simp only [isTypedDict, Bool.and_eq_true, decide_eq_true_eq] at typed
      exact ⟨items, rfl, typed.1.1.1, List.all_eq_true.mp typed.2⟩
  | _ => cases typed

theorem isText_str {value : Value} (typed : isText value = true) :
    ∃ text, value = .str text := by
  cases value with
  | str text => exact ⟨text, rfl⟩
  | _ => cases typed

/-- A value that is no number is a text, an instant or a list of texts. -/
theorem textual_cases {type : ParamType} {value : Value}
    (listed : type ∈ [ParamType.text, .textOrInstant, .textOrTexts])
    (typed : type.holds value = true) :
    (∃ text, value = .str text) ∨ (∃ instant, value = .datetime instant) ∨
      ∃ elements, value = .list elements ∧ elements.all isText = true := by
  simp only [List.mem_cons, List.not_mem_nil, or_false] at listed
  rcases listed with rfl | rfl | rfl
  · exact .inl (isText_str typed)
  · cases value with
    | str text => exact .inl ⟨text, rfl⟩
    | datetime instant => exact .inr (.inl ⟨instant, rfl⟩)
    | _ => cases typed
  · cases value with
    | str text => exact .inl ⟨text, rfl⟩
    | list elements => exact .inr (.inr ⟨elements, rfl, typed⟩)
    | _ => cases typed

private theorem writtenAttachment_text {value : Value} (typed : isText value = true) :
    writtenAttachment value = value := by
  obtain ⟨text, rfl⟩ := isText_str typed
  rfl

private theorem writtenAttachment_tag {value : Value} (typed : isTag value = true) :
    writtenAttachment value = value := by
  obtain ⟨items, rfl, _, texts⟩ := isTypedDict_dict typed
  have untouched : ∀ item ∈ items, (item.1, writtenContent item.2) = id item := by
    intro item member
    obtain ⟨text, same⟩ := isText_str (texts item member)
    obtain ⟨key, value⟩ := item
    cases same
    rfl
  have same : items.map (fun item => (item.1, writtenContent item.2)) = items := by
    rw [List.map_congr_left untouched, List.map_id]
  exact congrArg Value.dict same

/-- What is declared neither an instant nor attachments is written as it stands. -/
theorem written_plain {type : ParamType} {value : Value}
    (plain : type ∈ [ParamType.text, .textOrTexts, .textMapping, .tags])
    (typed : type.holds value = true) : written value = value := by
  have elementwise : ∀ {elements : List Value} {fits : Value → Bool},
      (∀ value, fits value = true → writtenAttachment value = value) →
      elements.all fits = true → written (.list elements) = .list elements := by
    intro elements fits untouched all
    have same : ∀ element ∈ elements, writtenAttachment element = id element :=
      fun element member => untouched element (List.all_eq_true.mp all element member)
    rw [written, List.map_congr_left same, List.map_id]
  cases value with
  | list elements =>
      cases type with
      | textOrTexts => exact elementwise (fun _ => writtenAttachment_text) typed
      | tags => exact elementwise (fun _ => writtenAttachment_tag) typed
      | attachments => simp only [List.mem_cons, reduceCtorEq, List.not_mem_nil, or_self] at plain
      | text => cases typed
      | integer => cases typed
      | textOrInstant => cases typed
      | textMapping => cases typed
  | datetime value =>
      cases type with
      | textOrInstant => simp only [List.mem_cons, reduceCtorEq, List.not_mem_nil, or_self] at plain
      | text => cases typed
      | integer => cases typed
      | textOrTexts => cases typed
      | textMapping => cases typed
      | attachments => cases typed
      | tags => cases typed
  | none => rfl
  | bool value => rfl
  | int value => rfl
  | float literal => rfl
  | str text => rfl
  | bytes octets => rfl
  | dict items => rfl

theorem toIso_written (runtime : Runtime) {value : Value}
    (typed : ParamType.textOrInstant.holds value = true) :
    ∃ text, toIso runtime value = .ok text ∧ written value = .str text := by
  cases value with
  | str text => exact ⟨text, rfl, rfl⟩
  | datetime value => exact ⟨value.isoformat, rfl, rfl⟩
  | _ => cases typed

/-! ### Attachments -/

theorem encodeAttachment_written {value : Value} (typed : isAttachment value = true) :
    encodeAttachment value = .ok (writtenAttachment value) := by
  obtain ⟨items, rfl, distinct, fits⟩ := isTypedDict_dict typed
  have elsewhere : ∀ item ∈ items, item.1 ≠ contentKey →
      (item.1, writtenContent item.2) = item := by
    intro item member other
    have fit := fits item member
    obtain ⟨key, value⟩ := item
    cases value with
    | bytes octets => exact absurd (beq_iff_eq.mp fit) other
    | _ => rfl
  have kept : (∀ octets, Items.get items contentKey ≠ some (.bytes octets)) →
      items.map (fun item => (item.1, writtenContent item.2)) = items := by
    intro noOctets
    have untouched : ∀ item ∈ items, (item.1, writtenContent item.2) = id item := by
      intro item member
      by_cases named : item.1 = contentKey
      · obtain ⟨key, value⟩ := item
        change key = contentKey at named
        subst named
        have here := Items.get_of_mem distinct member
        cases value with
        | bytes octets => exact absurd here (noOctets octets)
        | _ => rfl
      · exact elsewhere item member named
    rw [List.map_congr_left untouched, List.map_id]
  by_cases raw : ∃ octets, Items.get items contentKey = some (.bytes octets)
  · obtain ⟨octets, found⟩ := raw
    have present : contentKey ∈ Items.keys items :=
      List.mem_map_of_mem (f := Prod.fst) (Items.mem_of_get found)
    have replaced : ∀ item ∈ items,
        (if item.1 = contentKey then (contentKey, Value.str (Codecs.b64encode octets)) else item) =
          (item.1, writtenContent item.2) := by
      intro item member
      by_cases named : item.1 = contentKey
      · obtain ⟨key, value⟩ := item
        change key = contentKey at named
        subst named
        have here := Items.get_of_mem distinct member
        rw [found] at here
        cases here
        exact if_pos rfl
      · rw [if_neg named, elsewhere item member named]
    rw [encodeAttachment_octets found, writtenAttachment, Items.set_of_mem distinct present,
      List.map_congr_left replaced]
  · have plain := not_exists.mp raw
    rw [encodeAttachment_plain plain, writtenAttachment, kept plain]

private theorem encodeAttachments_written {value : Value}
    (typed : ParamType.attachments.holds value = true) :
    encodeAttachments value = .ok (written value) := by
  cases value with
  | list elements =>
      have each : ∀ {elements : List Value}, elements.all isAttachment = true →
          elements.mapM encodeAttachment = .ok (elements.map writtenAttachment) := by
        intro elements all
        induction elements with
        | nil => rfl
        | cons element rest ih =>
            rw [List.all_cons, Bool.and_eq_true] at all
            rw [List.mapM_cons, encodeAttachment_written all.1, ih all.2]
            rfl
      rw [encodeAttachments, each typed]
      rfl
  | _ => cases typed

/-! ### The loop -/

/-- What a parameter adds to the body. -/
def bodyItem (param : Str × Value) : Option (Str × Value) :=
  if param.1 = idempotencyKey then none else some (wireKey param.1, written param.2)

/-- What a parameter adds to the headers. -/
def headerItem (param : Str × Value) : Option (Str × Str) :=
  if param.1 = idempotencyKey then some (idempotencyHeader, textOf param.2) else none

/-- A well-typed parameter under a new name appends its own item and nothing else. -/
private theorem sendStep_written (runtime : Runtime) {built : Items Str Value × Items Str Str}
    {param : Str × Value}
    (declared : ∃ decl ∈ sendEmailParams, decl.key = param.1 ∧ decl.type.holds param.2 = true)
    (fresh : wireKey param.1 ∉ built.1.keys)
    (freshHeader : param.1 = idempotencyKey → idempotencyHeader ∉ built.2.keys) :
    sendStep runtime built param =
      .ok (built.1 ++ (bodyItem param).toList, built.2 ++ (headerItem param).toList) := by
  obtain ⟨decl, member, named, typed⟩ := declared
  obtain ⟨key, value⟩ := param
  change decl.key = key at named
  subst named
  unfold sendStep bodyItem headerItem
  rw [headerParams_get]
  rcases sendEmailParams_table decl member with
    ⟨isKey, type⟩ | ⟨notKey, isAttachments, type⟩ | ⟨notKey, other, instant, sameName, type⟩ |
    ⟨notKey, other, noInstant, plain⟩
  · rw [type] at typed
    obtain ⟨text, rfl⟩ := isText_str typed
    simp only [if_pos isKey, Option.toList_none, Option.toList_some, List.append_nil]
    rw [← Items.set_of_fresh (freshHeader isKey)]
    rfl
  · rw [type] at typed
    have sameName : wireKey decl.key = attachmentsKey := by
      rw [isAttachments]
      decide
    rw [sameName] at fresh
    simp only [if_neg notKey, if_pos isAttachments, Option.toList_none, Option.toList_some,
      List.append_nil, sameName]
    rw [encodeAttachments_written typed, ← Items.set_of_fresh fresh]
    rfl
  · rw [type] at typed
    obtain ⟨text, rendered, same⟩ := toIso_written runtime typed
    rw [sameName] at fresh
    simp only [if_neg notKey, if_neg other, if_pos instant, Option.toList_none, Option.toList_some,
      List.append_nil, sameName]
    rw [rendered, same, ← Items.set_of_fresh fresh]
    rfl
  · simp only [if_neg notKey, if_neg other, if_neg noInstant, Option.toList_none,
      Option.toList_some, List.append_nil, wireRenames_get]
    rw [written_plain plain typed, ← Items.set_of_fresh fresh]

/-- The declared key a name on the wire stands for. -/
def paramKey (name : Str) : Str := if name = str "from" then str "from_" else name

theorem paramKey_wireKey {key : Str} (declared : ∃ decl ∈ sendEmailParams, decl.key = key) :
    paramKey (wireKey key) = key := by
  have table : ∀ decl ∈ sendEmailParams, paramKey (wireKey decl.key) = decl.key := by decide
  obtain ⟨decl, member, rfl⟩ := declared
  exact table decl member

def Declared (params : Items Str Value) : Prop :=
  ∀ param ∈ params, ∃ decl ∈ sendEmailParams,
    decl.key = param.1 ∧ decl.type.holds param.2 = true

def bodyOf (params : Items Str Value) : Items Str Value := params.filterMap bodyItem

def headersOf (params : Items Str Value) : Items Str Str := params.filterMap headerItem

private theorem bodyOf_keys (params : Items Str Value) :
    (bodyOf params).keys = (params.keys.filter (· ≠ idempotencyKey)).map wireKey := by
  induction params with
  | nil => rfl
  | cons param rest ih =>
      obtain ⟨key, value⟩ := param
      rw [Items.keys_cons]
      by_cases isKey : key = idempotencyKey
      · have skipped : bodyItem (key, value) = none := if_pos isKey
        rw [List.filter_cons_of_neg (by simpa using isKey), ← ih, bodyOf,
          List.filterMap_cons_none skipped, bodyOf]
      · have kept : bodyItem (key, value) = some (wireKey key, written value) := if_neg isKey
        rw [List.filter_cons_of_pos (by simpa using isKey), List.map_cons, ← ih, bodyOf,
          List.filterMap_cons_some kept, Items.keys_cons, bodyOf]

private theorem wireKey_fresh {params : Items Str Value} {key : Str}
    (declared : Declared params) (here : ∃ decl ∈ sendEmailParams, decl.key = key)
    (fresh : key ∉ params.keys) : wireKey key ∉ (bodyOf params).keys := by
  rw [bodyOf_keys]
  intro member
  obtain ⟨other, kept, same⟩ := List.mem_map.mp member
  have present : other ∈ params.keys := (List.mem_filter.mp kept).1
  obtain ⟨param, inside, rfl⟩ := List.mem_map.mp present
  obtain ⟨decl, listed, named, _⟩ := declared param inside
  apply fresh
  rw [← paramKey_wireKey here, ← same, paramKey_wireKey ⟨decl, listed, named⟩]
  exact present

private theorem headersOf_keys (params : Items Str Value) (absent : idempotencyKey ∉ params.keys) :
    headersOf params = [] := by
  apply List.filterMap_eq_nil_iff.mpr
  intro param member
  apply if_neg
  intro isKey
  exact absent (isKey ▸ List.mem_map_of_mem (f := Prod.fst) member)

/-- The loop writes every parameter once, in order. -/
theorem foldlM_written (runtime : Runtime) {params : Items Str Value}
    (declared : Declared params) (distinct : params.keys.Nodup) :
    params.foldlM (sendStep runtime) ([], []) = .ok (bodyOf params, headersOf params) := by
  induction params using List.reverseRecOn with
  | nil => rfl
  | append_singleton front last ih =>
      have inFront : Declared front :=
        fun param member => declared param (List.mem_append_left _ member)
      have here := declared last (List.mem_append_right _ (List.mem_singleton.mpr rfl))
      have apart : (Items.keys front).Nodup ∧ last.1 ∉ Items.keys front := by
        rw [Items.keys, List.map_append] at distinct
        have parts := List.nodup_append.mp distinct
        refine ⟨parts.1, ?_⟩
        intro member
        exact parts.2.2 last.1 member last.1 (List.mem_singleton.mpr rfl) rfl
      have freshName : wireKey last.1 ∉ (bodyOf front).keys := by
        obtain ⟨decl, listed, named, _⟩ := here
        exact wireKey_fresh inFront ⟨decl, listed, named⟩ apart.2
      have freshHeader : last.1 = idempotencyKey → idempotencyHeader ∉ (headersOf front).keys := by
        intro isKey
        rw [headersOf_keys front (isKey ▸ apart.2)]
        exact List.not_mem_nil
      rw [List.foldlM_append, ih inFront apart.1]
      change [last].foldlM (sendStep runtime) (bodyOf front, headersOf front) = _
      rw [List.foldlM_cons, sendStep_written runtime here freshName freshHeader]
      unfold bodyOf headersOf
      rw [List.filterMap_append, List.filterMap_append]
      rw [List.filterMap_cons, List.filterMap_cons]
      cases bodyItem last <;> cases headerItem last <;> rfl

/-! ### Reading a send back -/

/-- The parameters, read back from the headers and the body of a send. -/
def decodeSend (headers : Items Str Str) (body : Items Str Value) : Items Str Value :=
  headers.map (fun item => (idempotencyKey, .str item.2)) ++
    body.map (fun item => (paramKey item.1, item.2))

private theorem decodeSend_perm {params : Items Str Value} (declared : Declared params) :
    (decodeSend (headersOf params) (bodyOf params)).Perm
      (params.map fun param => (param.1, written param.2)) := by
  induction params with
  | nil => exact List.Perm.nil
  | cons param rest ih =>
      have later := ih (fun param member => declared param (List.mem_cons_of_mem _ member))
      obtain ⟨decl, listed, named, typed⟩ := declared param List.mem_cons_self
      rw [List.map_cons]
      by_cases isKey : param.1 = idempotencyKey
      · have here : written param.2 = .str (textOf param.2) := by
          rcases sendEmailParams_table decl listed with ⟨_, type⟩ | other | other | other
          · rw [type] at typed
            obtain ⟨text, same⟩ := isText_str typed
            rw [same]
            rfl
          all_goals exact absurd (named.trans isKey) other.1
        have header : headerItem param = some (idempotencyHeader, textOf param.2) := if_pos isKey
        have skipped : bodyItem param = none := if_pos isKey
        unfold headersOf bodyOf decodeSend
        rw [List.filterMap_cons_some header, List.filterMap_cons_none skipped, here, isKey]
        exact List.Perm.cons _ later
      · have header : headerItem param = none := if_neg isKey
        have kept : bodyItem param = some (wireKey param.1, written param.2) := if_neg isKey
        unfold headersOf bodyOf decodeSend
        rw [List.filterMap_cons_none header, List.filterMap_cons_some kept, List.map_cons,
          paramKey_wireKey ⟨decl, listed, named⟩]
        exact List.perm_middle.trans (List.Perm.cons _ later)

/-- Raw content is read back by base64, any other content as it is. -/
def KeepsContent (given read : Option Value) : Prop :=
  match given with
  | some (.bytes octets) => ∃ text, read = some (.str text) ∧ Codecs.b64decode text = some octets
  | other => read = other

def KeepsAttachment (given read : Value) : Prop :=
  ∃ fields back, given = .dict fields ∧ read = .dict back ∧ Items.keys back = Items.keys fields ∧
    (∀ key, key ≠ contentKey → Items.get back key = Items.get fields key) ∧
      KeepsContent (Items.get fields contentKey) (Items.get back contentKey)

/-- What is read is what was given, up to the text of an instant and the base64 of
raw attachment contents. -/
def KeepsParam (key : Str) (given read : Value) : Prop :=
  if key = attachmentsKey then
    ∃ attachments back, given = .list attachments ∧ read = .list back ∧
      List.Forall₂ KeepsAttachment attachments back
  else
    match given with
    | .datetime value => read = .str value.isoformat
    | value => read = value

theorem get_map (change : Value → Value) (items : Items Str Value) (key : Str) :
    Items.get (items.map fun item => (item.1, change item.2)) key = (items.get key).map change := by
  induction items with
  | nil => rfl
  | cons item rest ih =>
      rw [List.map_cons, Items.get_cons, Items.get_cons, ih]
      by_cases same : item.1 = key
      · rw [if_pos same, if_pos same]
        rfl
      · rw [if_neg same, if_neg same]

private theorem writtenAttachment_keeps {value : Value} (typed : isAttachment value = true) :
    KeepsAttachment value (writtenAttachment value) := by
  obtain ⟨items, rfl, distinct, fits⟩ := isTypedDict_dict typed
  refine ⟨items, _, rfl, rfl, ?_, ?_, ?_⟩
  · unfold Items.keys
    rw [List.map_map]
    rfl
  · intro key other
    rw [get_map]
    cases found : Items.get items key with
    | none => rfl
    | some value =>
        have fit := fits (key, value) (Items.mem_of_get found)
        cases value with
        | bytes octets => exact absurd (beq_iff_eq.mp fit) other
        | _ => rfl
  · rw [get_map]
    cases Items.get items contentKey with
    | none => rfl
    | some value =>
        cases value with
        | bytes octets => exact ⟨_, rfl, Codecs.b64decode_b64encode octets⟩
        | _ => rfl

theorem written_keeps {decl : ParamDecl} {value : Value} (listed : decl ∈ sendEmailParams)
    (typed : decl.type.holds value = true) : KeepsParam decl.key value (written value) := by
  unfold KeepsParam
  rcases sendEmailParams_table decl listed with
    ⟨isKey, type⟩ | ⟨_, isAttachments, type⟩ | ⟨_, other, _, _, type⟩ | ⟨_, other, _, plain⟩
  · rw [type] at typed
    obtain ⟨text, rfl⟩ := isText_str typed
    rw [isKey, if_neg (by decide)]
    rfl
  · rw [type] at typed
    rw [if_pos isAttachments]
    cases value with
    | list elements =>
        refine ⟨elements, elements.map writtenAttachment, rfl, rfl, ?_⟩
        rw [List.forall₂_map_right_iff, List.forall₂_same]
        exact fun element member =>
          writtenAttachment_keeps (List.all_eq_true.mp typed element member)
    | _ => cases typed
  · rw [type] at typed
    rw [if_neg other]
    cases value with
    | str text => rfl
    | datetime value => rfl
    | _ => cases typed
  · have same := written_plain plain typed
    rw [if_neg other]
    cases value with
    | datetime value => cases same
    | _ => exact same

/-! ### The encoding as a whole -/

/-- The specification carries the parameters, each under its own name, and reads
back as them. -/
structure CarriesParams (params : Items Str Value) (spec : RequestSpec) (body : Items Str Value) :
    Prop where
  method : spec.method = str "POST"
  path : spec.path = str "emails"
  json : spec.json = some body
  query : spec.params = none
  headers : spec.headers =
    match params.get idempotencyKey with
    | some (.str key) => [(str "Idempotency-Key", key)]
    | _ => []
  names : body.keys = (params.keys.filter (· ≠ idempotencyKey)).map wireKey
  distinct : body.keys.Nodup
  keys : (decodeSend spec.headers body).keys.Perm params.keys
  values : ∀ key value, params.get key = some value →
    ∃ read, (decodeSend spec.headers body).get key = some read ∧ KeepsParam key value read

private theorem headersOf_get {params : Items Str Value} (declared : Declared params)
    (distinct : params.keys.Nodup) :
    headersOf params =
      match params.get idempotencyKey with
      | some (.str key) => [(idempotencyHeader, key)]
      | _ => [] := by
  induction params with
  | nil => rfl
  | cons param rest ih =>
      have later := ih (fun param member => declared param (List.mem_cons_of_mem _ member))
      obtain ⟨decl, listed, named, typed⟩ := declared param List.mem_cons_self
      obtain ⟨key, value⟩ := param
      rw [Items.keys_cons, List.nodup_cons] at distinct
      rw [Items.get_cons]
      unfold headersOf
      by_cases isKey : key = idempotencyKey
      · have header : headerItem (key, value) = some (idempotencyHeader, textOf value) :=
          if_pos isKey
        rw [List.filterMap_cons_some header, if_pos isKey]
        have none : rest.filterMap headerItem = [] := headersOf_keys rest (isKey ▸ distinct.1)
        rw [none]
        rcases sendEmailParams_table decl listed with ⟨_, type⟩ | other | other | other
        · rw [type] at typed
          obtain ⟨text, rfl⟩ := isText_str typed
          rfl
        all_goals exact absurd (named.trans isKey) other.1
      · have header : headerItem (key, value) = none := if_neg isKey
        rw [List.filterMap_cons_none header, if_neg isKey]
        exact later distinct.2

theorem bodyOf_distinct {params : Items Str Value} (declared : Declared params)
    (distinct : params.keys.Nodup) : (bodyOf params).keys.Nodup := by
  rw [bodyOf_keys]
  apply List.Nodup.map_on _ (distinct.filter _)
  intro left leftKept right rightKept same
  obtain ⟨param, inside, rfl⟩ := List.mem_map.mp (List.mem_filter.mp leftKept).1
  obtain ⟨other, within, rfl⟩ := List.mem_map.mp (List.mem_filter.mp rightKept).1
  obtain ⟨decl, listed, named, _⟩ := declared param inside
  obtain ⟨decl', listed', named', _⟩ := declared other within
  rw [← paramKey_wireKey ⟨decl, listed, named⟩, same, paramKey_wireKey ⟨decl', listed', named'⟩]

theorem buildSendBody_eq (runtime : Runtime) {params : Items Str Value} (declared : Declared params)
    (distinct : params.keys.Nodup) :
    buildSendBody runtime params =
      .ok { path := sendPath, json := some (bodyOf params), headers := headersOf params } := by
  unfold buildSendBody
  rw [foldlM_written runtime declared distinct]
  rfl

theorem carriesParams_written {params : Items Str Value} (declared : Declared params)
    (distinct : params.keys.Nodup) :
    CarriesParams params
      { path := sendPath, json := some (bodyOf params), headers := headersOf params }
      (bodyOf params) := by
  have perm := decodeSend_perm declared
  have sameKeys :
      Items.keys (params.map fun param => (param.1, written param.2)) = params.keys := by
    unfold Items.keys
    rw [List.map_map]
    rfl
  have keys : (decodeSend (headersOf params) (bodyOf params)).keys.Perm params.keys :=
    sameKeys ▸ perm.map Prod.fst
  exact
    { method := rfl
      path := rfl
      json := rfl
      query := rfl
      headers := headersOf_get declared distinct
      names := bodyOf_keys params
      distinct := bodyOf_distinct declared distinct
      keys := keys
      values := by
        intro key value found
        obtain ⟨decl, listed, named, typed⟩ := declared (key, value) (Items.mem_of_get found)
        change decl.key = key at named
        subst named
        refine ⟨written value, ?_, written_keeps listed typed⟩
        rw [Items.same_of_perm (keys.nodup_iff.mpr distinct) perm decl.key, get_map, found]
        rfl }

theorem written_of_perm {params params' : Items Str Value} (declared : Declared params)
    (distinct : params.keys.Nodup) (perm : params.Perm params') :
    Items.Same (bodyOf params) (bodyOf params') ∧ headersOf params' = headersOf params := by
  have declared' : Declared params' := fun param member => declared param (perm.mem_iff.mpr member)
  have distinct' : params'.keys.Nodup := (perm.map Prod.fst).nodup_iff.mp distinct
  refine ⟨Items.same_of_perm (bodyOf_distinct declared distinct) (perm.filterMap bodyItem), ?_⟩
  rw [headersOf_get declared distinct, headersOf_get declared' distinct',
    Items.same_of_perm distinct perm]

end MailkubeSdk
