import MailkubeSdk.ErrorMapping
import MailkubeSdk.Schema.Addition
import MailkubeSdk.Webhooks

/-
Fields a server adds.

A new member of any object the package declares a shape for leaves a webhook
body and a response body accepted, as the same class and with the same declared
fields, as long as the body with the member is one the reader of JSON does not
give up on.  An event keeps the member, where it was added; a response model
drops it.
-/

namespace MailkubeSdk

open Python Schema

/-! ### The declared shapes -/

/-- The models of the response bodies. -/
def responseModels : List Model :=
  [ScheduledEmail.model, ScheduledEmailPage.model, CanceledScheduledEmail.model,
    ScheduledEmailBatchCancel.model, ScheduledEmailBatchUpdate.model, APIKey.model]

/-- The names of `Email` in the body. -/
def emailNames : List Str :=
  [str "id", str "message_id", str "status", str "scheduled_at", str "batch_id"]

/-- Every object of an event keeps unknown members, the tags of a message included. -/
theorem event_lenient (cls : EventClass) :
    cls.shape.distinctNames = true ∧ cls.shape.treats .allow = true := by
  cases cls <;> decide

theorem responseModels_frozen : ∀ model ∈ responseModels,
    model.shape.distinctNames = true ∧ model.shape.treats .ignore = true := by
  decide

/-! ### Events -/

section Events

variable {platform : Platform} {payload : Payload} {value value' : Value}

/-- What pydantic reads a payload as. -/
def ReadsAs (platform : Platform) (payload : Payload) (value : Value) : Prop :=
  ∃ raw, asBytes payload = .ok raw ∧ platform.readJson raw = some value

/-- The octets of the payload, if it has any, are a JSON text of the value. -/
def Spells (payload : Payload) (value : Value) : Prop :=
  ∀ raw, asBytes payload = .ok raw → Json.Denotes raw value

/-- A reader of JSON reads what a text denotes, where it reads it at all. -/
def ReadsText (readJson : Bytes → Option Value) : Prop :=
  ∀ octets value, readJson octets = some value → Json.Denotes octets value

theorem reads_of_parsed {event : WebhookEvent}
    (parsed : parseEvent platform payload = .ok event) :
    ∃ value, ReadsAs platform payload value := by
  unfold parseEvent at parsed
  obtain ⟨raw, encoded, more⟩ := bind_eq_ok_iff.mp parsed
  cases read : platform.readJson raw with
  | none =>
      rw [read] at more
      cases more
  | some value => exact ⟨value, raw, liftBuiltin_eq_ok_iff.mp encoded, read⟩

theorem Spells.readsAs (faithful : ReadsText platform.readJson) (told : Spells payload value)
    (reads : ReadsAs platform payload value') : ReadsAs platform payload value := by
  obtain ⟨raw, encoded, read⟩ := reads
  rw [(told raw encoded).unique (faithful _ _ read)] at read
  exact ⟨raw, encoded, read⟩

theorem parseEvent_eq_ok_iff (reads : ReadsAs platform payload value) {event : WebhookEvent} :
    parseEvent platform payload = .ok event ↔
      event.1 = armOf (eventDiscriminator value) ∧
        event.1.shape.validate platform.lax value = .ok event.2 := by
  obtain ⟨raw, encoded, read⟩ := reads
  unfold parseEvent validateEvent
  rw [encoded]
  simp only [liftBuiltin_ok, bind, Except.bind, read]
  cases valid : (armOf (eventDiscriminator value)).shape.validate platform.lax value with
  | error errors =>
      apply iff_of_false
      · intro parsed
        cases parsed
      · rintro ⟨selected, accepted⟩
        obtain ⟨cls, object⟩ := event
        dsimp only at selected accepted
        subst selected
        rw [valid] at accepted
        cases accepted
  | ok object =>
      constructor
      · intro parsed
        cases parsed
        exact ⟨rfl, valid⟩
      · rintro ⟨selected, accepted⟩
        obtain ⟨cls, other⟩ := event
        dsimp only at selected accepted
        subst selected
        rw [valid] at accepted
        cases accepted
        rfl

/-- The discriminator reads what an arm then validates as its `type`. -/
private theorem discriminator_of_envelope {lax : Lax} {type data : Ty}
    (exact : ∀ {member : Value} {read : type.Denote}, type.validate lax member = .ok read →
      member = type.dump read ∧ type.bare read = read)
    {event event' : (eventEnvelope type data).Denote}
    (valid : (eventEnvelope type data).validate lax value = .ok event)
    (valid' : (eventEnvelope type data).validate lax value' = .ok event')
    (same : (eventEnvelope type data).bare event' = (eventEnvelope type data).bare event) :
    eventDiscriminator value' = eventDiscriminator value := by
  have typed : ∀ {value : Value} {event : (eventEnvelope type data).Denote},
      (eventEnvelope type data).validate lax value = .ok event →
        type.bare event.1.2.1 = event.1.2.1 ∧
          ∃ items, value = .dict items ∧
            Items.get items (str "type") = some (type.dump event.1.2.1) := by
    intro value event valid
    obtain ⟨items, rfl, validated⟩ := onItems_eq_ok_iff.mp valid
    obtain ⟨fields, read, rfl⟩ := map_eq_ok_iff.mp validated
    obtain ⟨_, afterCreated⟩ := (validate_required_eq_ok_iff lax).mp read
    obtain ⟨⟨member, found, readType⟩, _⟩ := (validate_required_eq_ok_iff lax).mp afterCreated
    obtain ⟨dumped, bare⟩ := exact readType
    exact ⟨bare, items, rfl, found.trans (congrArg some dumped)⟩
  obtain ⟨bare, items, rfl, found⟩ := typed valid
  obtain ⟨bare', items', rfl, found'⟩ := typed valid'
  have sameType : type.bare event'.1.2.1 = type.bare event.1.2.1 :=
    congrArg (fun object : (eventEnvelope type data).Denote => object.1.2.1) same
  rw [bare, bare'] at sameType
  unfold eventDiscriminator
  dsimp only
  rw [found, found', sameType]

private theorem literal_exact {lax : Lax} {text : Str} {member : Value}
    {read : (Ty.literal text).Denote} (valid : (Ty.literal text).validate lax member = .ok read) :
    member = (Ty.literal text).dump read ∧ (Ty.literal text).bare read = read := by
  refine ⟨?_, rfl⟩
  change ofLiteral text member = .ok read at valid
  cases member with
  | str given =>
      unfold ofLiteral at valid
      dsimp only at valid
      split at valid
      · cases valid
        rfl
      · cases valid
  | _ => cases valid

private theorem str_exact {lax : Lax} {member : Value} {read : Ty.str.Denote}
    (valid : Ty.str.validate lax member = .ok read) :
    member = Ty.str.dump read ∧ Ty.str.bare read = read :=
  ⟨ofText_eq_ok_iff.mp valid, rfl⟩

/-- Readings with the same declared fields are of the same arm. -/
theorem discriminator_of_bare {lax : Lax} (cls : EventClass)
    {event event' : cls.shape.Denote} (valid : cls.shape.validate lax value = .ok event)
    (valid' : cls.shape.validate lax value' = .ok event')
    (same : cls.shape.bare event' = cls.shape.bare event) :
    eventDiscriminator value' = eventDiscriminator value := by
  cases cls with
  | unknownEvent => exact discriminator_of_envelope str_exact valid valid' same
  | _ => exact discriminator_of_envelope literal_exact valid valid' same

/-- An event body with one more member is an event of the same class, with the same
declared fields; its dump has the member at the same place. -/
theorem parseEvent_adds {cls : EventClass} {event : cls.shape.Denote} {payload' : Payload}
    {key : Str} {member : Value} (reads : ReadsAs platform payload value)
    (reads' : ReadsAs platform payload' value') (place : Place cls.shape)
    (added : place.Adds key member value value')
    (parsed : parseEvent platform payload = .ok ⟨cls, event⟩) :
    ∃ event' : cls.shape.Denote, parseEvent platform payload' = .ok ⟨cls, event'⟩ ∧
      cls.shape.bare event' = cls.shape.bare event ∧
        place.Adds key member (cls.shape.dump event) (cls.shape.dump event') := by
  obtain ⟨distinct, lenient⟩ := event_lenient cls
  obtain ⟨selected, valid⟩ := (parseEvent_eq_ok_iff reads).mp parsed
  obtain ⟨event', valid', gains⟩ := place.validate_adds platform.lax distinct added valid
  refine ⟨event', ?_, gains.bare, gains.kept (place.extra_of_treats lenient)⟩
  apply (parseEvent_eq_ok_iff reads').mpr
  refine ⟨?_, valid'⟩
  rw [discriminator_of_bare cls valid valid' gains.bare]
  exact selected

end Events

/-! ### Responses -/

section Responses

variable {platform : Platform} {status : Nat} {headers : Items Str Str} {body body' : Bytes}
  {value value' : Value} {key : Str} {member : Value}

/-- A response body with one more member is read as the same instance of its model. -/
theorem processModel_adds {model : Model} (listed : model ∈ responseModels)
    (decoded : decodeJson platform.runtime body = .ok value)
    (decoded' : decodeJson platform.runtime body' = .ok value') (place : Place model.shape)
    (added : place.Adds key member value value') {result : model.Instance}
    (parsed : processModel platform model ⟨status, body, headers⟩ = .ok result) :
    processModel platform model ⟨status, body', headers⟩ = .ok result := by
  obtain ⟨distinct, frozen⟩ := responseModels_frozen model listed
  obtain ⟨ok, ⟨items, rfl⟩, valid⟩ := (processModel_eq_ok_iff decoded).mp parsed
  obtain ⟨result', valid', gains⟩ := place.validate_adds platform.lax distinct added valid
  cases gains.ignored (place.extra_of_treats frozen)
  apply (processModel_eq_ok_iff decoded').mpr
  exact ⟨ok, place.dict_of_adds added, valid'⟩

/-- `Email` is read through the lookups of its own names. -/
private theorem processResponse_congr {response response' : Response}
    {items items' : Items Str Value} (passed : okBody platform response = .ok (.dict items))
    (passed' : okBody platform response' = .ok (.dict items'))
    (status : response'.statusCode = response.statusCode)
    (headers : response'.headers = response.headers)
    (same : ∀ name ∈ emailNames, items'.get name = items.get name) :
    processResponse platform response' = processResponse platform response := by
  have optional : ∀ name : String, str name ∈ emailNames →
      optionalStr platform.runtime items' name = optionalStr platform.runtime items name := by
    intro name listed
    unfold optionalStr
    rw [same _ listed]
  unfold processResponse
  rw [passed, passed', status, headers]
  simp only [bind, Except.bind, same (str "id") (by decide), optional "message_id" (by decide),
    optional "status" (by decide), optional "scheduled_at" (by decide),
    optional "batch_id" (by decide)]

/-- An acknowledgement with one more member is read as the same `Email`. -/
theorem processResponse_adds {front back : Items Str Value} (undeclared : key ∉ emailNames)
    (decoded : decodeJson platform.runtime body = .ok (.dict (front ++ back)))
    (decoded' : decodeJson platform.runtime body' = .ok (.dict (front ++ (key, member) :: back)))
    {email : Email} (parsed : processResponse platform ⟨status, body, headers⟩ = .ok email) :
    processResponse platform ⟨status, body', headers⟩ = .ok email := by
  cases ok : isOkStatus status with
  | false =>
      have raised : okBody platform ⟨status, body, headers⟩ = .error _ :=
        okBody_raises platform ok decoded
      rw [processResponse_of_okBody platform raised] at parsed
      cases parsed
  | true =>
      have passed : okBody platform ⟨status, body, headers⟩ = .ok _ :=
        okBody_accepts platform ok decoded
      have passed' : okBody platform ⟨status, body', headers⟩ = .ok _ :=
        okBody_accepts platform ok decoded'
      rw [← parsed]
      apply processResponse_congr passed passed' rfl rfl
      intro name listed
      apply Items.get_insert_ne
      rintro rfl
      exact undeclared listed

end Responses

/-! ### Both directions -/

/-- A member the server adds to any declared object, under a name not declared there:
exactly when the grown payload is read, an event stays an event of its class, with its
declared fields as they were and the member in its dump at that place, and a response
is read as if the member were not there. -/
theorem added_field_tolerated_iff (platform : Platform) (faithful : ReadsText platform.readJson) :
    (∀ (cls : EventClass) (event : cls.shape.Denote) (place : Place cls.shape)
      (payload payload' : Payload) (value value' : Value) (key : Str) (member : Value),
      Spells payload value → Spells payload' value' → place.Adds key member value value' →
      parseEvent platform payload = .ok ⟨cls, event⟩ →
        ((∃ event' : cls.shape.Denote, parseEvent platform payload' = .ok ⟨cls, event'⟩ ∧
          cls.shape.bare event' = cls.shape.bare event ∧
            place.Adds key member (cls.shape.dump event) (cls.shape.dump event')) ↔
          ∃ read, ReadsAs platform payload' read)) ∧
    (∀ model ∈ responseModels, ∀ (place : Place model.shape) (status : Nat)
      (headers : Items Str Str) (body body' : Bytes) (value value' : Value) (key : Str)
      (member : Value) (result : model.Instance),
      Json.Denotes body value → Json.Denotes body' value' →
      place.Adds key member value value' →
      processModel platform model ⟨status, body, headers⟩ = .ok result →
        (processModel platform model ⟨status, body', headers⟩ = .ok result ↔
          Json.Within platform.runtime.scanDepth body')) ∧
    ∀ (status : Nat) (headers : Items Str Str) (body body' : Bytes) (front back : Items Str Value)
      (key : Str) (member : Value) (email : Email),
      Json.Denotes body (.dict (front ++ back)) →
      Json.Denotes body' (.dict (front ++ (key, member) :: back)) →
      key ∉ emailNames →
      processResponse platform ⟨status, body, headers⟩ = .ok email →
        (processResponse platform ⟨status, body', headers⟩ = .ok email ↔
          Json.Within platform.runtime.scanDepth body') := by
  refine ⟨?_, ?_, ?_⟩
  · intro cls event place payload payload' value value' key member told told' added parsed
    constructor
    · rintro ⟨event', parsed', _⟩
      exact reads_of_parsed parsed'
    · rintro ⟨read, reads'⟩
      obtain ⟨given, reads⟩ := reads_of_parsed parsed
      exact parseEvent_adds (told.readsAs faithful reads) (told'.readsAs faithful reads') place
        added parsed
  · intro model listed place status headers body body' value value' key member result denotes
      denotes' added parsed
    rw [← decoded_iff_within platform.runtime denotes']
    constructor
    · intro parsed'
      obtain ⟨given', decoded'⟩ := decoded_of_processed parsed'
      exact decoded_as_denoted denotes' decoded'
    · intro decoded'
      obtain ⟨given, decoded⟩ := decoded_of_processed parsed
      exact processModel_adds listed (decoded_as_denoted denotes decoded) decoded' place added
        parsed
  · intro status headers body body' front back key member email denotes denotes' undeclared parsed
    rw [← decoded_iff_within platform.runtime denotes']
    constructor
    · intro parsed'
      obtain ⟨given', decoded'⟩ := decoded_of_acknowledged parsed'
      exact decoded_as_denoted denotes' decoded'
    · intro decoded'
      obtain ⟨given, decoded⟩ := decoded_of_acknowledged parsed
      exact processResponse_adds undeclared (decoded_as_denoted denotes decoded) decoded' parsed

/-! ### A domain event whose previous state told more -/

/-- A `domain.status` body, with more members of `data.previous`. -/
def domainText (more : String) : Bytes :=
  asciiBytes ("\x7b\"type\":\"domain.status\",\"created_at\":\"t\"," ++
    "\"data\":\x7b\"domain\":\"d\"," ++
    "\"status\":\"s\",\"onboarding_state\":\"o\",\"previous\":\x7b\"status\":\"p\"" ++ more ++
    ",\"onboarding_state\":\"q\"\x7d\x7d\x7d")

def domainValue (more : Items Str Value) : Value :=
  .dict [(str "type", .str (str "domain.status")), (str "created_at", .str (str "t")),
    (str "data", .dict [(str "domain", .str (str "d")), (str "status", .str (str "s")),
      (str "onboarding_state", .str (str "o")),
      (str "previous", .dict ((str "status", .str (str "p")) ::
        (more ++ [(str "onboarding_state", .str (str "q"))])))])]

/-- `data.previous`. -/
def previousPlace : Place EventClass.domainStatusEvent.shape :=
  .within <| .tail <| .tail <| .head <| .within <| .tail <| .tail <| .tail <| .head .here

theorem plain_readsText : ReadsText Platform.plain.readJson :=
  fun _ _ read => Json.denotes_of_loads (eq_ok_of_toOption read)

theorem added_field_tolerated_iff_sample :
    ∃ event event' : EventClass.domainStatusEvent.shape.Denote,
      parseEvent Platform.plain (.bytes (domainText "")) = .ok ⟨_, event⟩ ∧
      parseEvent Platform.plain (.bytes (domainText ",\"reason\":null")) = .ok ⟨_, event'⟩ ∧
        previousPlace.Adds (str "reason") .none (Ty.dump _ event) (Ty.dump _ event') := by
  have reads : ReadsAs Platform.plain (.bytes (domainText "")) (domainValue []) :=
    ⟨_, rfl, by decide +kernel⟩
  have reads' : ReadsAs Platform.plain (.bytes (domainText ",\"reason\":null"))
      (domainValue [(str "reason", .none)]) :=
    ⟨_, rfl, by decide +kernel⟩
  have told : ∀ {payload value}, ReadsAs Platform.plain payload value → Spells payload value := by
    rintro payload value ⟨raw, encoded, read⟩ other same
    rw [encoded] at same
    cases same
    exact plain_readsText raw value read
  have added : previousPlace.Adds (str "reason") .none (domainValue [])
      (domainValue [(str "reason", .none)]) :=
    ⟨_, _, rfl, rfl, _, _, rfl, rfl, _, _, rfl, rfl, _, _, rfl, rfl,
      [(str "status", .str (str "p"))], [(str "onboarding_state", .str (str "q"))], rfl, rfl,
      by decide, by decide⟩
  have parsed : ∃ event : EventClass.domainStatusEvent.shape.Denote,
      parseEvent Platform.plain (.bytes (domainText "")) = .ok ⟨_, event⟩ :=
    ⟨_, (parseEvent_eq_ok_iff reads).mpr ⟨by decide, rfl⟩⟩
  obtain ⟨event, parsed⟩ := parsed
  obtain ⟨event', parsed', _, dumped⟩ := ((added_field_tolerated_iff Platform.plain
    plain_readsText).1 _ event previousPlace _ _ _ _ _ _ (told reads) (told reads') added
      parsed).mpr ⟨_, reads'⟩
  exact ⟨event, event', parsed, parsed', dumped⟩

/-! ### A key with a number that is not read -/

/-- The body of an API key. -/
def keyText : Bytes := asciiBytes "\x7b\"key_id\":\"k\"\x7d"

/-- With a member whose value has 4301 digits. -/
def longKeyText : Bytes :=
  asciiBytes "\x7b\"key_id\":\"k\",\"x\":" ++
    (List.replicate 4301 (Utf8.octet 55) ++ asciiBytes "\x7d")

def keyValue (more : Items Str Value) : Value := .dict ((str "key_id", .str (str "k")) :: more)

def longInteger : Value := .int ((10 ^ 4301 - 1) / 9 * 7)

set_option maxRecDepth 100000 in
private theorem longKeyText_stops :
    Json.loads Runtime.ascii.scanDepth longKeyText = .error .valueError := by
  decide +kernel

set_option maxRecDepth 100000 in
private theorem longKeyText_denotes :
    Json.Denotes longKeyText (keyValue [(str "x", longInteger)]) :=
  ⟨⟨900, 4301⟩, by decide +kernel⟩

private theorem okBody_stopped {platform : Platform} {status : Nat} {content : Bytes}
    {headers : Items Str Str}
    (stopped : Json.loads platform.runtime.scanDepth content = .error .valueError)
    (present : content ≠ []) :
    okBody platform ⟨status, content, headers⟩ = .error (.builtin .valueError) := by
  unfold okBody decodeJson
  rw [if_neg present, stopped]
  rfl

/-- With the member the body raises a plain `ValueError`, where it was accepted before. -/
theorem long_member_escapes :
    ∃ (value value' member : Value) (key : APIKey),
      Json.Denotes keyText value ∧ Json.Denotes longKeyText value' ∧
      (Place.here : Place APIKey.model.shape).Adds (str "x") member value value' ∧
      processModel Platform.plain APIKey.model ⟨200, keyText, []⟩ = .ok key ∧
        processModel Platform.plain APIKey.model ⟨200, longKeyText, []⟩ =
          .error (.builtin .valueError) := by
  have denotes : Json.Denotes keyText (keyValue []) :=
    ⟨⟨900, 4300⟩, by decide +kernel⟩
  have decoded : decodeJson Platform.plain.runtime keyText = .ok (keyValue []) := by
    decide +kernel
  have added : (Place.here : Place APIKey.model.shape).Adds (str "x") longInteger
      (keyValue []) (keyValue [(str "x", longInteger)]) :=
    ⟨[(str "key_id", .str (str "k"))], [], rfl, rfl, by decide, by decide⟩
  have fits : (APIKey.model.shape.validate Platform.plain.lax (keyValue [])).isOk = true := by
    decide +kernel
  cases valid : APIKey.model.shape.validate Platform.plain.lax (keyValue []) with
  | error errors =>
      rw [valid] at fits
      cases fits
  | ok key =>
      have parsed : processModel Platform.plain APIKey.model ⟨200, keyText, []⟩ = .ok key := by
        apply (@processModel_eq_ok_iff Platform.plain (keyValue []) APIKey.model
          ⟨200, keyText, []⟩ decoded key).mpr
        exact ⟨rfl, ⟨_, rfl⟩, valid⟩
      refine ⟨_, _, _, key, denotes, longKeyText_denotes, added, parsed, ?_⟩
      exact processModel_of_okBody Platform.plain APIKey.model
        (okBody_stopped longKeyText_stops (List.cons_ne_nil _ _))

end MailkubeSdk
