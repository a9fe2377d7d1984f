import MailkubeSdk.ErrorMapping
import MailkubeSdk.Webhooks

/-
Parsing a webhook body whose type is not in the catalogue.

The discriminator sends every such body to the fallback; the fallback declares
`created_at` as a text and `data` as an object, so it takes the bodies that have
both and raises on the others.
-/

namespace MailkubeSdk

open Python Schema

/-! ### The discriminator -/

theorem validateEvent_unlisted (lax : Lax) {items : Items Str Value} {tag : Str}
    (typed : Items.get items (str "type") = some (.str tag)) (unlisted : tag ∉ knownTags) :
    validateEvent lax (.dict items) =
      (EventClass.unknownEvent.shape.validate lax (.dict items)).map
        (fun event => ⟨.unknownEvent, event⟩) := by
  have routed : eventDiscriminator (.dict items) = unknownTag := by
    unfold eventDiscriminator
    simp only [typed, if_neg unlisted]
  unfold validateEvent
  rw [routed]
  rfl

/-! ### The fallback -/

theorem unknownEvent_reads (lax : Lax) {items : Items Str Value} {event : UnknownEvent}
    (read : EventClass.unknownEvent.shape.validate lax (.dict items) = .ok event) :
    Items.get items (str "created_at") = some (.str event.createdAt) ∧
      Items.get items (str "type") = some (.str event.type) ∧
      Items.get items (str "data") = some (.dict event.data) := by
  obtain ⟨_, same, validated⟩ := onItems_eq_ok_iff.mp read
  cases same
  obtain ⟨fields, readFields, rfl⟩ := map_eq_ok_iff.mp validated
  obtain ⟨⟨created, createdMember, createdRead⟩, afterCreated⟩ :=
    (validate_required_eq_ok_iff lax).mp readFields
  obtain ⟨⟨type, typeMember, typeRead⟩, afterType⟩ :=
    (validate_required_eq_ok_iff lax).mp afterCreated
  obtain ⟨⟨data, dataMember, dataRead⟩, _⟩ := (validate_required_eq_ok_iff lax).mp afterType
  obtain ⟨members, rfl, membersRead⟩ := onItems_eq_ok_iff.mp dataRead
  have untouched := (validateItems_any members).symm.trans membersRead
  refine ⟨?_, ?_, ?_⟩
  · rw [createdMember, ofText_eq_ok_iff.mp createdRead]
    rfl
  · rw [typeMember, ofText_eq_ok_iff.mp typeRead]
    rfl
  · rw [dataMember, Except.ok.inj untouched]
    rfl

/-- The fallback takes an object exactly when `created_at` and `type` are texts
and `data` is an object. -/
theorem unknownEvent_succeeds_iff (lax : Lax) (items : Items Str Value) :
    Succeeds (EventClass.unknownEvent.shape.validate lax (.dict items)) ↔
      (∃ text, Items.get items (str "created_at") = some (.str text)) ∧
        (∃ text, Items.get items (str "type") = some (.str text)) ∧
        ∃ data, Items.get items (str "data") = some (.dict data) := by
  rw [Ty.succeeds_validate]
  simp only [Ty.Accepts, Fields.Accepts, fieldValue_required, Value.dict.injEq,
    exists_eq_left', and_true, implies_true]
  constructor
  · rintro ⟨⟨created, createdMember, text, rfl⟩, ⟨type, typeMember, name, rfl⟩, data, dataMember,
      members, rfl⟩
    exact ⟨⟨text, createdMember⟩, ⟨name, typeMember⟩, members, dataMember⟩
  · rintro ⟨⟨text, createdMember⟩, ⟨name, typeMember⟩, members, dataMember⟩
    exact ⟨⟨_, createdMember, text, rfl⟩, ⟨_, typeMember, name, rfl⟩, _, dataMember, members, rfl⟩

/-! ### Bodies of an unlisted type -/

/-- A body is an object of an unlisted type: its octets, its members and its type. -/
structure UnlistedBody (platform : Platform) (payload : Payload) where
  raw : Bytes
  items : Items Str Value
  tag : Str
  encoded : asBytes payload = .ok raw
  decoded : platform.readJson raw = some (.dict items)
  typed : Items.get items (str "type") = some (.str tag)
  unlisted : tag ∉ knownTags

/-- What a receiver may expect of such a body: an `UnknownEvent` of its type that
holds its data. -/
def DegradesToUnknown (platform : Platform) (payload : Payload)
    (body : UnlistedBody platform payload) : Prop :=
  ∃ event : UnknownEvent, parseEvent platform payload = .ok ⟨.unknownEvent, event⟩ ∧
    event.type = body.tag ∧
    ∀ data, Items.get body.items (str "data") = some data → data = .dict event.data

/-- `parse_event` on such a body is the validation of its members by the fallback. -/
theorem parseEvent_unlisted (platform : Platform) {payload : Payload}
    (body : UnlistedBody platform payload) :
    parseEvent platform payload =
      ((EventClass.unknownEvent.shape.validate platform.lax (.dict body.items)).map
        (fun event => ⟨.unknownEvent, event⟩)).mapError (fun _ => .validationError) := by
  unfold parseEvent
  rw [body.encoded]
  simp only [liftBuiltin_ok, bind, Except.bind, body.decoded,
    validateEvent_unlisted platform.lax body.typed body.unlisted]

/-- An unlisted type degrades to an `UnknownEvent` exactly when `created_at` is a
text and `data` is an object. -/
theorem degradesToUnknown_iff (platform : Platform) (payload : Payload)
    (body : UnlistedBody platform payload) :
    DegradesToUnknown platform payload body ↔
      (∃ text, Items.get body.items (str "created_at") = some (.str text)) ∧
        ∃ data, Items.get body.items (str "data") = some (.dict data) := by
  have accepted := unknownEvent_succeeds_iff platform.lax body.items
  unfold DegradesToUnknown
  rw [parseEvent_unlisted platform body]
  cases read : EventClass.unknownEvent.shape.validate platform.lax (.dict body.items) with
  | error errors =>
      rw [read] at accepted
      constructor
      · rintro ⟨event, parsed, _⟩
        cases parsed
      · rintro ⟨created, data⟩
        exact absurd (accepted.mpr ⟨created, ⟨body.tag, body.typed⟩, data⟩)
          (not_succeeds_error errors)
  | ok event =>
      obtain ⟨created, type, data⟩ := unknownEvent_reads platform.lax read
      refine ⟨fun _ => ⟨⟨_, created⟩, _, data⟩, fun _ => ⟨event, rfl, ?_, ?_⟩⟩
      · exact Value.str.inj (Option.some.inj (type.symm.trans body.typed))
      · intro given member
        exact Option.some.inj (member.symm.trans data)

/-! ### A new event type -/

/-- The members of an event of type `x`. -/
def newEvent (data : Value) : Items Str Value :=
  [(str "type", .str (str "x")), (str "created_at", .str (str "t")), (str "data", data)]

def emptyDataBody : Bytes :=
  asciiBytes "\x7b\"type\":\"x\",\"created_at\":\"t\",\"data\":\x7b\x7d\x7d"

/-- The body of a new event type whose `data` is null. -/
def nullDataBody : Bytes :=
  asciiBytes "\x7b\"type\":\"x\",\"created_at\":\"t\",\"data\":null\x7d"

def newEventBody {body : Bytes} {data : Value}
    (decoded : Platform.plain.readJson body = some (.dict (newEvent data))) :
    UnlistedBody Platform.plain (.bytes body) :=
  ⟨body, newEvent data, str "x", rfl, decoded, rfl, by decide⟩

theorem degradesToUnknown_iff_sample :
    ∃ body : UnlistedBody Platform.plain (.bytes emptyDataBody),
      DegradesToUnknown Platform.plain (.bytes emptyDataBody) body := by
  have decoded : Platform.plain.readJson emptyDataBody = some (.dict (newEvent (.dict []))) := by
    decide +kernel
  exact ⟨newEventBody decoded,
    (degradesToUnknown_iff Platform.plain _ (newEventBody decoded)).mpr ⟨⟨_, rfl⟩, _, rfl⟩⟩

/-- A new event type whose `data` is null raises pydantic's `ValidationError`. -/
theorem null_data_raises :
    ∃ body : UnlistedBody Platform.plain (.bytes nullDataBody),
      parseEvent Platform.plain (.bytes nullDataBody) = .error .validationError ∧
        ¬DegradesToUnknown Platform.plain (.bytes nullDataBody) body := by
  have decoded : Platform.plain.readJson nullDataBody = some (.dict (newEvent .none)) := by
    decide +kernel
  have failed : (EventClass.unknownEvent.shape.validate Platform.plain.lax
      (.dict (newEvent .none))).toOption.isNone = true := by
    decide +kernel
  have raises : parseEvent Platform.plain (.bytes nullDataBody) = .error .validationError := by
    rw [parseEvent_unlisted Platform.plain (newEventBody decoded)]
    unfold newEventBody
    dsimp only
    cases read : EventClass.unknownEvent.shape.validate Platform.plain.lax
        (.dict (newEvent .none)) with
    | error errors => rfl
    | ok event =>
        rw [read] at failed
        cases failed
  refine ⟨newEventBody decoded, raises, ?_⟩
  rintro ⟨event, parsed, _⟩
  rw [raises] at parsed
  cases parsed

end MailkubeSdk
