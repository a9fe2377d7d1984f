import MailkubeSdk.ErrorMapping
import MailkubeSdk.RoundTrip

/-
The acknowledgement of a send.

The client builds an `Email` from the body by hand, through `str`, where the
model-based verbs validate.  The two agree on an `id` that is a text and on one
that is missing; any other `id` is rejected by a model and accepted here.  What
the body denotes is looked at only where `json.loads` stays within its limits.
-/

namespace MailkubeSdk

open Python Schema

/-- An optional member as it stands: its text where it is a string, and nothing
where it is absent or null. -/
structure VerbatimMember (member : Option Value) (field : Option Str) : Prop where
  string : ∀ text, member = some (.str text) → field = some text
  missing : member = none ∨ member = some .none → field = none

/-- An `Email` that holds what the server sent. -/
structure Acknowledges (items : Items Str Value) (email : Email) : Prop where
  id : Items.get items (str "id") = some (.str email.id)
  messageId : VerbatimMember (Items.get items (str "message_id")) email.messageId
  status : VerbatimMember (Items.get items (str "status")) email.status
  scheduledAt : VerbatimMember (Items.get items (str "scheduled_at")) email.scheduledAt
  batchId : VerbatimMember (Items.get items (str "batch_id")) email.batchId

/-- The body is an object whose `id` is a text. -/
def HasRealId (body : Value) : Prop :=
  ∃ items id, body = .dict items ∧ Items.get items (str "id") = some (.str id)

/-- The `id` of the body, if it has one, is a text. -/
def NoOtherId (body : Value) : Prop :=
  ∀ items id, body = .dict items → Items.get items (str "id") = some id → ∃ text, id = .str text

/-- A send that is acknowledged only with a real `id`, and verbatim. -/
structure AcknowledgedVerbatim (body : Value) (outcome : Except Exn Email) : Prop where
  accepted : ∀ email, outcome = .ok email → ∃ items, body = .dict items ∧ Acknowledges items email
  refused : ¬HasRealId body → ∃ message, outcome = .error (.mailkubeError message)

/-! ### The members -/

theorem optionalStr_verbatim {runtime : Runtime} {items : Items Str Value} {key : String}
    {field : Option Str} (read : optionalStr runtime items key = .ok field) :
    VerbatimMember (Items.get items (str key)) field := by
  unfold optionalStr at read
  cases member : Items.get items (str key) with
  | none =>
      rw [member] at read
      cases read
      refine ⟨?_, fun _ => rfl⟩
      intro text present
      cases present
  | some value =>
      rw [member] at read
      cases value with
      | none =>
          cases read
          refine ⟨?_, fun _ => rfl⟩
          intro text present
          cases present
      | str given =>
          cases read
          constructor
          · intro text present
            cases present
            rfl
          · rintro (absent | null)
            · cases absent
            · cases null
      | _ =>
          constructor
          · intro text present
            cases present
          · rintro (absent | null)
            · cases absent
            · cases null

variable (platform : Platform)

/-! ### The two parsers -/

private theorem ok_bind {ε α β : Type} (value : α) (next : α → Except ε β) :
    (Except.ok value >>= next) = next value := rfl

theorem processResponse_unacknowledged {response : Response} {body : Value}
    (passed : okBody platform response = .ok body)
    (missing : ∀ items, body = .dict items → Items.get items (str "id") = none) :
    ∃ message, processResponse platform response = .error (.mailkubeError message) := by
  unfold processResponse
  rw [passed]
  cases body with
  | dict items =>
      have absent := missing items rfl
      simp only [ok_bind, absent]
      exact ⟨_, rfl⟩
  | _ => exact ⟨_, rfl⟩

/-- What is read when there is an `id`: its text and those of the optional members. -/
theorem processResponse_read {response : Response} {items : Items Str Value} {id : Value}
    (passed : okBody platform response = .ok (.dict items))
    (present : Items.get items (str "id") = some id) {email : Email}
    (made : processResponse platform response = .ok email) :
    platform.runtime.str id = .ok email.id ∧
      optionalStr platform.runtime items "message_id" = .ok email.messageId ∧
      optionalStr platform.runtime items "status" = .ok email.status ∧
      optionalStr platform.runtime items "scheduled_at" = .ok email.scheduledAt ∧
      optionalStr platform.runtime items "batch_id" = .ok email.batchId := by
  unfold processResponse at made
  rw [passed] at made
  simp only [ok_bind, present] at made
  obtain ⟨idText, readId, made⟩ := bind_eq_ok_iff.mp (liftBuiltin_eq_ok_iff.mp made)
  obtain ⟨messageId, readMessageId, made⟩ := bind_eq_ok_iff.mp made
  obtain ⟨status, readStatus, made⟩ := bind_eq_ok_iff.mp made
  obtain ⟨scheduledAt, readScheduledAt, made⟩ := bind_eq_ok_iff.mp made
  obtain ⟨batchId, readBatchId, made⟩ := bind_eq_ok_iff.mp made
  cases made
  exact ⟨readId, readMessageId, readStatus, readScheduledAt, readBatchId⟩

theorem processResponse_ne_mailkubeError {response : Response} {items : Items Str Value}
    {id : Value}
    (passed : okBody platform response = .ok (.dict items))
    (present : Items.get items (str "id") = some id) (message : Str) :
    processResponse platform response ≠ .error (.mailkubeError message) := by
  unfold processResponse
  rw [passed]
  simp only [ok_bind, present]
  intro raised
  obtain ⟨exception, same⟩ := exists_builtin_of_liftBuiltin raised
  cases same

theorem processModel_rejects {response : Response} {items : Items Str Value} (model : Model)
    (passed : okBody platform response = .ok (.dict items))
    (unfit : ¬model.shape.Accepts platform.lax (.dict items)) :
    ∃ message, processModel platform model response = .error (.mailkubeError message) := by
  unfold processModel
  rw [passed]
  rw [← model.shape.succeeds_validate] at unfit
  simp only [ok_bind]
  cases read : model.shape.validate platform.lax (.dict items) with
  | ok value => exact absurd ⟨value, read⟩ unfit
  | error errors => exact ⟨_, rfl⟩

/-! ### The acknowledgement -/

theorem processResponse_verbatim_iff {response : Response} {body : Value}
    (passed : okBody platform response = .ok body) :
    AcknowledgedVerbatim body (processResponse platform response) ↔ NoOtherId body := by
  constructor
  · rintro acknowledged items id rfl present
    by_contra other
    have unreal : ¬HasRealId (.dict items) := by
      rintro ⟨found, text, same, real⟩
      cases same
      rw [present] at real
      exact other ⟨text, Option.some.inj real⟩
    obtain ⟨message, refused⟩ := acknowledged.refused unreal
    exact processResponse_ne_mailkubeError platform passed present message refused
  · intro noOther
    constructor
    · intro email made
      cases body with
      | dict items =>
          cases present : Items.get items (str "id") with
          | none =>
              obtain ⟨message, refused⟩ := processResponse_unacknowledged platform passed
                (fun found same => by cases same; exact present)
              rw [refused] at made
              cases made
          | some id =>
              obtain ⟨text, rfl⟩ := noOther items id rfl present
              obtain ⟨readId, messageId, status, scheduledAt, batchId⟩ :=
                processResponse_read platform passed present made
              cases readId
              exact ⟨items, rfl, present, optionalStr_verbatim messageId,
                optionalStr_verbatim status, optionalStr_verbatim scheduledAt,
                optionalStr_verbatim batchId⟩
      | _ =>
          obtain ⟨message, refused⟩ := processResponse_unacknowledged platform passed
            (fun found same => by cases same)
          rw [refused] at made
          cases made
    · intro unreal
      apply processResponse_unacknowledged platform passed
      rintro items rfl
      cases present : Items.get items (str "id") with
      | none => rfl
      | some id =>
          obtain ⟨text, rfl⟩ := noOther items id rfl present
          exact absurd ⟨items, text, rfl, present⟩ unreal

/-- The models of the other verbs that answer with one email, or what is left of it. -/
def identifiedModels : List Model := [ScheduledEmail.model, CanceledScheduledEmail.model]

theorem identified_rejects {response : Response} {body : Value} {model : Model}
    (member : model ∈ identifiedModels) (passed : okBody platform response = .ok body)
    (other : ¬NoOtherId body) :
    ∃ message, processModel platform model response = .error (.mailkubeError message) := by
  simp only [NoOtherId, not_forall] at other
  obtain ⟨items, id, rfl, present, notText⟩ := other
  apply processModel_rejects platform model passed
  have unfit : ¬∃ value, fieldValue (str "id") (str "id") none items = some value ∧
      Ty.str.Accepts platform.lax value := by
    rintro ⟨value, read, text, rfl⟩
    rw [fieldValue_required, present] at read
    exact notText ⟨text, Option.some.inj read⟩
  rcases List.mem_cons.mp member with rfl | later
  · rintro ⟨found, same, accepted⟩
    cases same
    exact unfit accepted.1
  · cases List.mem_singleton.mp later
    rintro ⟨found, same, accepted⟩
    cases same
    exact unfit accepted.1

theorem HasRealId.noOtherId {body : Value} (real : HasRealId body) : NoOtherId body := by
  obtain ⟨items, text, rfl, present⟩ := real
  intro found id same other
  cases same
  rw [present] at other
  exact ⟨text, (Option.some.inj other).symm⟩

/-- Where a built-in exception comes out, only a real `id` was promised nothing. -/
theorem escaped_verbatim_iff {body : Value} (exception : Builtin) :
    AcknowledgedVerbatim body (.error (.builtin exception)) ↔ HasRealId body := by
  constructor
  · intro acknowledged
    by_contra unreal
    obtain ⟨message, impossible⟩ := acknowledged.refused unreal
    cases impossible
  · intro real
    refine ⟨?_, fun unreal => absurd real unreal⟩
    intro email impossible
    cases impossible

/-- A send acknowledges a 2xx body only with a real `id`, and verbatim, exactly
when the body has a real `id`, or is read and has no `id` at all; the model-based
verbs refuse an `id` of another type. -/
theorem send_acknowledged_iff (params : Items Str Value) {response : Response} {body : Value}
    (ok : isOkStatus response.statusCode = true)
    (denotes : Json.Denotes response.content body) :
    (AcknowledgedVerbatim body ((Verb.emailsSend params).parse platform response) ↔
      HasRealId body ∨
        (Json.Within platform.runtime.scanDepth response.content ∧ NoOtherId body)) ∧
    (Json.Within platform.runtime.scanDepth response.content → ¬NoOtherId body →
      ∀ model ∈ identifiedModels,
        ∃ message, processModel platform model response = .error (.mailkubeError message)) := by
  by_cases within : Json.Within platform.runtime.scanDepth response.content
  · have decoded := (decoded_iff_within platform.runtime denotes).mpr within
    have passed := okBody_accepts platform ok decoded
    constructor
    · refine (processResponse_verbatim_iff platform passed).trans ?_
      constructor
      · exact fun noOther => .inr ⟨within, noOther⟩
      · rintro (real | ⟨_, noOther⟩)
        · exact real.noOtherId
        · exact noOther
    · intro _ other model member
      exact identified_rejects platform member passed other
  · obtain ⟨limit, stopped⟩ := decodeJson_beyond platform.runtime denotes within
    have raised : okBody platform response = .error (.builtin limit) := by
      unfold okBody
      rw [stopped]
      rfl
    have escaped : (Verb.emailsSend params).parse platform response = .error (.builtin limit) :=
      processResponse_of_okBody platform raised
    refine ⟨?_, fun impossible => absurd impossible within⟩
    rw [escaped, escaped_verbatim_iff]
    constructor
    · exact .inl
    · rintro (real | ⟨impossible, _⟩)
      · exact real
      · exact absurd impossible within

/-! ### An acknowledgement with a null id -/

def nullIdItems : Items Str Value := [(str "id", .none)]

def nullIdResponse : Response := ⟨200, asciiBytes "\x7b\"id\": null\x7d", []⟩

private theorem nullId_denotes : Json.Denotes nullIdResponse.content (.dict nullIdItems) :=
  ⟨⟨900, 4300⟩, by decide +kernel⟩

private theorem nullId_decoded :
    decodeJson Platform.plain.runtime nullIdResponse.content = .ok (.dict nullIdItems) :=
  eq_ok_of_toOption (by decide +kernel)

theorem send_acknowledged_iff_sample :
    AcknowledgedVerbatim (.dict nullIdItems)
        ((Verb.emailsSend []).parse Platform.plain nullIdResponse) ↔
      HasRealId (.dict nullIdItems) ∨
        (Json.Within Platform.plain.runtime.scanDepth nullIdResponse.content ∧
          NoOtherId (.dict nullIdItems)) :=
  (send_acknowledged_iff Platform.plain [] rfl nullId_denotes).1

/-- A null id is returned as the id `None`. -/
theorem null_id_acknowledged :
    Json.Denotes nullIdResponse.content (.dict nullIdItems) ∧
      ∃ email, (Verb.emailsSend []).parse Platform.plain nullIdResponse = .ok email ∧
        email.id = str "None" ∧
        ¬AcknowledgedVerbatim (.dict nullIdItems)
          ((Verb.emailsSend []).parse Platform.plain nullIdResponse) := by
  refine ⟨nullId_denotes, ?_⟩
  have passed := okBody_accepts Platform.plain rfl nullId_decoded
  have made : (Verb.emailsSend []).parse Platform.plain nullIdResponse =
      .ok ⟨str "None", none, false, none, [], none, none, none⟩ := by
    change processResponse Platform.plain nullIdResponse = _
    unfold processResponse
    rw [passed]
    rfl
  refine ⟨_, made, rfl, ?_⟩
  intro acknowledged
  obtain ⟨items, same, acknowledges⟩ := acknowledged.accepted _ made
  cases same
  have id := acknowledges.id
  cases id

end MailkubeSdk
