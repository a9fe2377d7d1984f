import MailkubeSdk.BaseClient
import MailkubeSdk.Python.JsonText

/-
From a response to the exception its status selects.

The body is decoded before the status is looked at.  A body that is empty,
malformed or readable leaves the choice to the status; one that the decoder lets
an exception through for never reaches the mapping.
-/

namespace MailkubeSdk

open Python Utf8

variable (platform : Platform)

/-! ### The promise and the bodies that keep it -/

def Success (status : Nat) : Prop := 200 ≤ status ∧ status ≤ 299

/-- The class a status selects. -/
inductive Selects : Nat → APIErrorClass → Prop where
  | badRequest : Selects 400 .badRequestError
  | authentication : Selects 403 .authenticationError
  | notFound : Selects 404 .notFoundError
  | conflict : Selects 409 .conflictError
  | invalidRequest : Selects 422 .invalidRequestError
  | rateLimit : Selects 429 .rateLimitError
  | server {status : Nat} (atLeast : 500 ≤ status) (atMost : status ≤ 599) :
      Selects status .serverError
  | other {status : Nat} (unlisted : status ∉ [400, 403, 404, 409, 422, 429])
      (elsewhere : status < 500 ∨ 599 < status) : Selects status .apiError

/-- Both response processors raise the API error the status selects for a
non-2xx response, and no API error for a 2xx one. -/
structure MapsByStatus (response : Response) : Prop where
  send : ¬Success response.statusCode →
    ∃ error, processResponse platform response = .error (.apiError error) ∧
      Selects response.statusCode error.cls
  model : ¬Success response.statusCode → ∀ model,
    ∃ error, processModel platform model response = .error (.apiError error) ∧
      Selects response.statusCode error.cls
  send_ok : Success response.statusCode →
    ∀ error, processResponse platform response ≠ .error (.apiError error)
  model_ok : Success response.statusCode →
    ∀ model error, processModel platform model response ≠ .error (.apiError error)

/-- The member of an envelope has a text, when the envelope has the member. -/
def HasText (runtime : Runtime) (items : Items Str Value) (key : String) : Prop :=
  ∀ value, Items.get items (str key) = some value → ∃ text, runtime.str value = .ok text

/-- A decoded body whose `name` and `message`, where it is an object, have a text. -/
def EnvelopeReads (runtime : Runtime) (body : Value) : Prop :=
  match body with
  | .dict items => HasText runtime items "name" ∧ HasText runtime items "message"
  | _ => True

/-- A body that is empty, that `json.loads` finds malformed, or that it reads
with an envelope that reads. -/
def Readable (runtime : Runtime) (body : Bytes) : Prop :=
  body = [] ∨
    match Json.loads runtime.scanDepth body with
    | .ok value => EnvelopeReads runtime value
    | .error reason => reason = .jsonDecodeError ∨ reason = .unicodeDecodeError

/-! ### The status -/

theorem isOkStatus_iff {status : Nat} : isOkStatus status = true ↔ Success status := by
  unfold isOkStatus Success
  simp only [Bool.and_eq_true, decide_eq_true_eq]
  omega

/-- Every status selects the class it is given, and no other. -/
theorem selects_iff {status : Nat} {cls : APIErrorClass} :
    Selects status cls ↔ cls = exceptionClass status := by
  have given : ∀ status, Selects status (exceptionClass status) := by
    intro status
    by_cases listed : status ∈ [400, 403, 404, 409, 422, 429]
    · simp only [List.mem_cons, List.not_mem_nil, or_false] at listed
      rcases listed with rfl | rfl | rfl | rfl | rfl | rfl
      · exact .badRequest
      · exact .authentication
      · exact .notFound
      · exact .conflict
      · exact .invalidRequest
      · exact .rateLimit
    · have unmapped : statusExceptions.get status = none := Items.get_eq_none_iff.mpr listed
      unfold exceptionClass
      rw [unmapped]
      cases server : isServerError status with
      | true =>
          simp only [isServerError, Bool.and_eq_true, decide_eq_true_eq] at server
          exact .server server.1 (by omega)
      | false =>
          simp only [isServerError, Bool.and_eq_false_iff, decide_eq_false_iff_not] at server
          exact .other listed (by omega)
  constructor
  · intro selects
    cases selects with
    | server atLeast atMost =>
        have unmapped : statusExceptions.get status = none := by
          apply Items.get_eq_none_iff.mpr
          intro listed
          have small : ∀ key ∈ statusExceptions.keys, key < 500 := by decide
          exact absurd (small status listed) (by omega)
        have server : isServerError status = true := by
          simp only [isServerError, Bool.and_eq_true, decide_eq_true_eq]
          omega
        unfold exceptionClass
        rw [unmapped, server]
        rfl
    | other unlisted elsewhere =>
        have unmapped : statusExceptions.get status = none := Items.get_eq_none_iff.mpr unlisted
        have server : isServerError status = false := by
          simp only [isServerError, Bool.and_eq_false_iff, decide_eq_false_iff_not]
          omega
        unfold exceptionClass
        rw [unmapped, server]
        rfl
    | _ => rfl
  · rintro rfl
    exact given status

/-! ### The envelope -/

theorem envelopeText_reads_iff (runtime : Runtime) (items : Items Str Value)
    (key : String) :
    (∃ text, envelopeText runtime (.dict items) key = .ok text) ↔ HasText runtime items key := by
  change (∃ text, runtime.str ((Items.get items (str key)).getD (.str [])) = .ok text) ↔ _
  unfold HasText
  cases member : Items.get items (str key) with
  | none =>
      constructor
      · intro _ value present
        cases present
      · intro _
        exact ⟨[], rfl⟩
  | some value =>
      constructor
      · rintro ⟨text, read⟩ _ present
        cases present
        exact ⟨text, read⟩
      · intro reads
        obtain ⟨text, read⟩ := reads value rfl
        exact ⟨text, read⟩

/-- What `raise_for_response` raises: the API error of the status when the
envelope reads, otherwise whatever `str` raised. -/
theorem raiseForResponse_cases (runtime : Runtime) (status : Nat) (body : Value)
    (retryAfter : Option Int) (requestId : Option Str) :
    (EnvelopeReads runtime body ∧
      ∃ error, raiseForResponse runtime status body retryAfter requestId = .apiError error ∧
        error.cls = exceptionClass status) ∨
    (¬EnvelopeReads runtime body ∧
      ∃ exception,
        raiseForResponse runtime status body retryAfter requestId = .builtin exception) := by
  unfold raiseForResponse
  cases body with
  | dict items =>
      have nameReads := envelopeText_reads_iff runtime items "name"
      have messageReads := envelopeText_reads_iff runtime items "message"
      cases name : envelopeText runtime (.dict items) "name" with
      | error exception =>
          refine .inr ⟨?_, exception, rfl⟩
          rintro ⟨reads, _⟩
          obtain ⟨text, read⟩ := nameReads.mpr reads
          rw [name] at read
          cases read
      | ok nameText =>
          cases message : envelopeText runtime (.dict items) "message" with
          | error exception =>
              refine .inr ⟨?_, exception, rfl⟩
              rintro ⟨_, reads⟩
              obtain ⟨text, read⟩ := messageReads.mpr reads
              rw [message] at read
              cases read
          | ok messageText =>
              exact .inl ⟨⟨nameReads.mp ⟨nameText, name⟩, messageReads.mp ⟨messageText, message⟩⟩,
                _, rfl, rfl⟩
  | _ => exact .inl ⟨trivial, _, rfl, rfl⟩

/-! ### The decoder -/

/-- What the body of a response decodes to: the reader goes on exactly when the
envelope of the decoded value reads. -/
theorem decodeJson_cases (runtime : Runtime) (body : Bytes) :
    (∃ value, decodeJson runtime body = .ok value ∧
      (Readable runtime body ↔ EnvelopeReads runtime value)) ∨
    (∃ exception, decodeJson runtime body = .error exception ∧ ¬Readable runtime body) := by
  unfold decodeJson Readable
  by_cases empty : body = []
  · rw [if_pos empty]
    exact .inl ⟨.none, rfl, ⟨fun _ => trivial, fun _ => .inl empty⟩⟩
  · rw [if_neg empty]
    cases Json.loads runtime.scanDepth body with
    | ok value =>
        exact .inl ⟨value, rfl, by simp only [empty, false_or]⟩
    | error reason =>
        cases reason with
        | jsonDecodeError => exact .inl ⟨.none, rfl, by simp only [EnvelopeReads, true_or, or_true]⟩
        | unicodeDecodeError => exact .inl ⟨.none, rfl, by simp only [EnvelopeReads, or_true]⟩
        | valueError => exact .inr ⟨_, rfl, by simp [empty]⟩
        | recursionError => exact .inr ⟨_, rfl, by simp [empty]⟩

/-- A JSON text is decoded as what it denotes, unless `json.loads` stops at a limit. -/
theorem decodeJson_of_denotes (runtime : Runtime) {body : Bytes} {value : Value}
    (denotes : Json.Denotes body value) :
    (Json.Within runtime.scanDepth body ∧ decodeJson runtime body = .ok value) ∨
      (Json.loads runtime.scanDepth body = .error .valueError ∧
        decodeJson runtime body = .error .valueError) ∨
      (Json.loads runtime.scanDepth body = .error .recursionError ∧
        decodeJson runtime body = .error .recursionError) := by
  unfold decodeJson Json.Within
  rw [if_neg denotes.ne_nil]
  rcases denotes.loads runtime.scanDepth with read | stopped | stopped
  · rw [read]
    exact .inl ⟨⟨value, rfl⟩, rfl⟩
  · rw [stopped]
    exact .inr (.inl ⟨rfl, rfl⟩)
  · rw [stopped]
    exact .inr (.inr ⟨rfl, rfl⟩)

theorem decodeJson_beyond (runtime : Runtime) {body : Bytes} {value : Value}
    (denotes : Json.Denotes body value) (beyond : ¬Json.Within runtime.scanDepth body) :
    ∃ limit, decodeJson runtime body = .error limit := by
  rcases decodeJson_of_denotes runtime denotes with ⟨within, _⟩ | ⟨_, stopped⟩ | ⟨_, stopped⟩
  · exact absurd within beyond
  · exact ⟨_, stopped⟩
  · exact ⟨_, stopped⟩

/-- A text is decoded exactly when `json.loads` stays within its limits. -/
theorem decoded_iff_within (runtime : Runtime) {body : Bytes} {value : Value}
    (denotes : Json.Denotes body value) :
    decodeJson runtime body = .ok value ↔ Json.Within runtime.scanDepth body := by
  rcases decodeJson_of_denotes runtime denotes with
    ⟨within, read⟩ | ⟨stopped, raised⟩ | ⟨stopped, raised⟩
  · exact iff_of_true read within
  · rw [raised]
    refine iff_of_false (fun impossible => ?_) (Json.not_within stopped)
    cases impossible
  · rw [raised]
    refine iff_of_false (fun impossible => ?_) (Json.not_within stopped)
    cases impossible

/-! ### The two processors -/

/-- The exception of a response, its body decoded. -/
def raisedFor (response : Response) (body : Value) : Exn :=
  raiseForResponse platform.runtime response.statusCode body
    (parseRetryAfter platform.runtime
      (header platform.runtime response.headers (str "retry-after")))
    (header platform.runtime response.headers (str "x-request-id"))

theorem okBody_raises {response : Response} {body : Value}
    (failed : isOkStatus response.statusCode = false)
    (decoded : decodeJson platform.runtime response.content = .ok body) :
    okBody platform response = .error (raisedFor platform response body) := by
  unfold okBody
  rw [decoded]
  simp only [liftBuiltin_ok, bind, Except.bind, failed, Bool.false_eq_true, if_false]
  rfl

theorem okBody_accepts {response : Response} {body : Value}
    (ok : isOkStatus response.statusCode = true)
    (decoded : decodeJson platform.runtime response.content = .ok body) :
    okBody platform response = .ok body := by
  unfold okBody
  rw [decoded]
  simp only [liftBuiltin_ok, bind, Except.bind, ok, if_true]

/-- The outcome of a non-2xx response, before either processor looks at the body. -/
theorem okBody_failed (response : Response) (failed : isOkStatus response.statusCode = false) :
    (Readable platform.runtime response.content ∧
      ∃ error, okBody platform response = .error (.apiError error) ∧
        error.cls = exceptionClass response.statusCode) ∨
    (¬Readable platform.runtime response.content ∧
      ∃ exception, okBody platform response = .error (.builtin exception)) := by
  rcases decodeJson_cases platform.runtime response.content with
    ⟨value, decoded, readable⟩ | ⟨exception, decoded, unreadable⟩
  · rw [okBody_raises platform failed decoded, readable]
    rcases raiseForResponse_cases platform.runtime response.statusCode value
        (parseRetryAfter platform.runtime
          (header platform.runtime response.headers (str "retry-after")))
        (header platform.runtime response.headers (str "x-request-id")) with
      ⟨reads, error, raised, cls⟩ | ⟨unread, exception, raised⟩
    · exact .inl ⟨reads, error, congrArg Except.error raised, cls⟩
    · exact .inr ⟨unread, exception, congrArg Except.error raised⟩
  · unfold okBody
    rw [decoded]
    exact .inr ⟨unreadable, exception, rfl⟩

theorem okBody_succeeded (response : Response) (ok : isOkStatus response.statusCode = true)
    (error : APIError) : okBody platform response ≠ .error (.apiError error) := by
  unfold okBody
  cases decodeJson platform.runtime response.content with
  | error exception => nofun
  | ok value =>
      simp only [liftBuiltin_ok, ok, if_true]
      nofun

theorem processResponse_of_okBody {response : Response} {exn : Exn}
    (raised : okBody platform response = .error exn) :
    processResponse platform response = .error exn := by
  unfold processResponse
  rw [raised]
  rfl

theorem processModel_of_okBody {response : Response} {exn : Exn} (model : Model)
    (raised : okBody platform response = .error exn) :
    processModel platform model response = .error exn := by
  unfold processModel
  rw [raised]
  rfl

theorem processResponse_of_body {response : Response} {body : Value}
    (passed : okBody platform response = .ok body) (error : APIError) :
    processResponse platform response ≠ .error (.apiError error) := by
  unfold processResponse
  rw [passed]
  cases body with
  | dict items =>
      simp only [bind, Except.bind]
      cases Items.get items (str "id") with
      | none =>
          intro raised
          cases raised
      | some id =>
          intro raised
          obtain ⟨exception, same⟩ := exists_builtin_of_liftBuiltin raised
          cases same
  | _ =>
      intro raised
      cases raised

theorem processModel_of_body {response : Response} {body : Value} (model : Model)
    (passed : okBody platform response = .ok body) (error : APIError) :
    processModel platform model response ≠ .error (.apiError error) := by
  unfold processModel
  rw [passed]
  cases body with
  | dict items =>
      simp only [bind, Except.bind]
      cases model.shape.validate platform.lax (.dict items) with
      | ok value =>
          intro raised
          cases raised
      | error errors =>
          intro raised
          cases raised
  | _ =>
      intro raised
      cases raised

section Accepted

variable {platform} {body : Bytes} {value value' : Value}

theorem decoded_of_okBody {response : Response} (passed : okBody platform response = .ok value) :
    decodeJson platform.runtime response.content = .ok value := by
  unfold okBody at passed
  cases decoded : decodeJson platform.runtime response.content with
  | error exception =>
      rw [decoded] at passed
      cases passed
  | ok body =>
      rw [decoded] at passed
      simp only [liftBuiltin_ok, bind, Except.bind] at passed
      split at passed
      · exact congrArg Except.ok (Except.ok.inj passed)
      · cases passed

theorem decoded_of_processed {model : Model} {response : Response} {result : model.Instance}
    (parsed : processModel platform model response = .ok result) :
    ∃ value, decodeJson platform.runtime response.content = .ok value := by
  cases outcome : okBody platform response with
  | error exn =>
      rw [processModel_of_okBody platform model outcome] at parsed
      cases parsed
  | ok value => exact ⟨value, decoded_of_okBody outcome⟩

theorem decoded_of_acknowledged {response : Response} {email : Email}
    (parsed : processResponse platform response = .ok email) :
    ∃ value, decodeJson platform.runtime response.content = .ok value := by
  cases outcome : okBody platform response with
  | error exn =>
      rw [processResponse_of_okBody platform outcome] at parsed
      cases parsed
  | ok value => exact ⟨value, decoded_of_okBody outcome⟩

theorem decoded_as_denoted (denotes : Json.Denotes body value)
    (decoded : decodeJson platform.runtime body = .ok value') :
    decodeJson platform.runtime body = .ok value := by
  by_cases within : Json.Within platform.runtime.scanDepth body
  · exact (decoded_iff_within platform.runtime denotes).mpr within
  · obtain ⟨limit, stopped⟩ := decodeJson_beyond platform.runtime denotes within
    rw [stopped] at decoded
    cases decoded

theorem processModel_eq_ok_iff {model : Model} {response : Response}
    (decoded : decodeJson platform.runtime response.content = .ok value)
    {result : model.Instance} :
    processModel platform model response = .ok result ↔
      isOkStatus response.statusCode = true ∧ (∃ items, value = .dict items) ∧
        model.shape.validate platform.lax value = .ok result := by
  cases ok : isOkStatus response.statusCode with
  | false =>
      rw [processModel_of_okBody platform model (okBody_raises platform ok decoded)]
      simp only [reduceCtorEq, Bool.false_eq_true, false_and]
  | true =>
      unfold processModel
      rw [okBody_accepts platform ok decoded]
      cases value with
      | dict items =>
          simp only [bind, Except.bind, Value.dict.injEq, exists_eq', true_and]
          cases model.shape.validate platform.lax (.dict items) with
          | ok read => simp only [Except.ok.injEq]
          | error errors => simp only [reduceCtorEq]
      | _ => simp only [bind, Except.bind, reduceCtorEq, exists_false, false_and, and_false]

end Accepted

/-- The mapping is total on exactly the responses that succeed or whose body is readable. -/
theorem mapsByStatus_iff (response : Response) :
    MapsByStatus platform response ↔
      Success response.statusCode ∨ Readable platform.runtime response.content := by
  by_cases success : Success response.statusCode
  · have ok := isOkStatus_iff.mpr success
    refine ⟨fun _ => .inl success, fun _ => ⟨absurd success, absurd success, ?_, ?_⟩⟩
    · intro _ error raised
      cases outcome : okBody platform response with
      | ok body => exact processResponse_of_body platform outcome error raised
      | error exn =>
          rw [processResponse_of_okBody platform outcome] at raised
          cases raised
          exact okBody_succeeded platform response ok error outcome
    · intro _ model error raised
      cases outcome : okBody platform response with
      | ok body => exact processModel_of_body platform model outcome error raised
      | error exn =>
          rw [processModel_of_okBody platform model outcome] at raised
          cases raised
          exact okBody_succeeded platform response ok error outcome
  · have failed : isOkStatus response.statusCode = false :=
      Bool.eq_false_iff.mpr fun ok => success (isOkStatus_iff.mp ok)
    rcases okBody_failed platform response failed with
      ⟨readable, error, raised, cls⟩ | ⟨unreadable, exception, raised⟩
    · have selected := selects_iff.mpr cls
      refine ⟨fun _ => .inr readable, fun _ =>
        ⟨?_, ?_, fun ok => absurd ok success, fun ok => absurd ok success⟩⟩
      · exact fun _ => ⟨error, processResponse_of_okBody platform raised, selected⟩
      · exact fun _ model => ⟨error, processModel_of_okBody platform model raised, selected⟩
    · constructor
      · intro maps
        obtain ⟨error, mapped, _⟩ := maps.send success
        rw [processResponse_of_okBody platform raised] at mapped
        cases mapped
      · rintro (ok | readable)
        · exact absurd ok success
        · exact absurd readable unreadable

/-! ### Bodies that are not readable -/

theorem not_readable_of_long_integer (runtime : Runtime) {digits : Nat}
    (long : maxStrDigits < digits) : ¬Readable runtime (List.replicate digits (octet 55)) := by
  unfold Readable
  rw [Json.loads_long_integer _ long]
  rintro (empty | named | named)
  · rw [List.replicate_eq_nil_iff] at empty
    omega
  · cases named
  · cases named

theorem not_readable_of_nesting (runtime : Runtime) {depth : Nat}
    (deep : runtime.scanDepth < depth) :
    ¬Readable runtime (List.replicate (depth + 3) (octet 91)) := by
  unfold Readable
  rw [Json.loads_deep deep]
  rintro (empty | named | named)
  · rw [List.replicate_eq_nil_iff] at empty
    omega
  · cases named
  · cases named

/-- A server error whose body is one integer of 4301 digits: the processors
raise a plain `ValueError`. -/
theorem long_integer_escapes :
    processResponse Platform.plain ⟨500, List.replicate 4301 (octet 55), []⟩ =
        .error (.builtin .valueError) ∧
      ¬MapsByStatus Platform.plain ⟨500, List.replicate 4301 (octet 55), []⟩ := by
  have loaded : Json.loads Platform.plain.runtime.scanDepth (List.replicate 4301 (octet 55)) =
      .error .valueError := Json.loads_long_integer _ (by decide)
  have decoded : decodeJson Platform.plain.runtime (List.replicate 4301 (octet 55)) =
      .error .valueError := by
    unfold decodeJson
    rw [loaded]
    rfl
  have escaped : processResponse Platform.plain ⟨500, List.replicate 4301 (octet 55), []⟩ =
      .error (.builtin .valueError) := by
    apply processResponse_of_okBody
    unfold okBody
    rw [decoded]
    rfl
  refine ⟨escaped, fun maps => ?_⟩
  obtain ⟨error, mapped, _⟩ := maps.send (show ¬(200 ≤ 500 ∧ 500 ≤ 299) by decide)
  rw [escaped] at mapped
  cases mapped

end MailkubeSdk
