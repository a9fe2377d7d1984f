import MailkubeSdk.ErrorMapping
import MailkubeSdk.RoundTrip

/-
What an API error takes from its envelope.

The members of an error envelope are read with `str`, which has a text for a null
too, while the optional members of a success body read a null as absent.  So the
texts are the server's own exactly where the envelope is read and has no null.
-/

namespace MailkubeSdk

open Python

/-- The field a member gives: the text of a JSON string as it is, and the empty
text where the member is absent or null. -/
structure TextOf (member : Option Value) (field : Str) : Prop where
  string : ∀ text, member = some (.str text) → field = text
  missing : member = none ∨ member = some .none → field = []

/-- The first text that is not empty. -/
def firstInked : List Str → Str
  | [] => []
  | text :: rest => if text = [] then firstInked rest else text

/-- An error with the texts of an envelope. -/
structure CarriesEnvelope (items : Items Str Value) (status : Nat) (error : APIError) : Prop where
  errorName : TextOf (Items.get items (str "name")) error.errorName
  message : TextOf (Items.get items (str "message")) error.message
  text : error.text = firstInked [error.message, error.errorName, str "HTTP " ++ natText status]

/-- An envelope whose `name` and `message` are not null, and have a text where present. -/
structure PlainEnvelope (runtime : Runtime) (items : Items Str Value) : Prop where
  name : Items.get items (str "name") ≠ some .none
  message : Items.get items (str "message") ≠ some .none
  reads : EnvelopeReads runtime (.dict items)

/-- `str` raises on the member. -/
def Unread (runtime : Runtime) (items : Items Str Value) (key : String) (exception : Builtin) :
    Prop :=
  ∃ value, Items.get items (str key) = some value ∧ runtime.str value = .error exception

/-- The built-in exception that comes out in place of an error: `json.loads` stops at a
limit, or `str` raises on a member. -/
inductive Escapes (runtime : Runtime) (content : Bytes) (items : Items Str Value) :
    Builtin → Prop where
  | digits (stopped : Json.loads runtime.scanDepth content = .error .valueError) :
      Escapes runtime content items .valueError
  | nesting (stopped : Json.loads runtime.scanDepth content = .error .recursionError) :
      Escapes runtime content items .recursionError
  | name {exception : Builtin} (within : Json.Within runtime.scanDepth content)
      (raised : Unread runtime items "name" exception) : Escapes runtime content items exception
  | message {exception : Builtin} (within : Json.Within runtime.scanDepth content)
      (named : HasText runtime items "name") (raised : Unread runtime items "message" exception) :
      Escapes runtime content items exception

/-- The same envelope with an absent member set to null. -/
structure Nulled (key : String) (items nulled : Items Str Value) : Prop where
  absent : Items.get items (str key) = none
  null : Items.get nulled (str key) = some .none
  others : ∀ other ≠ str key, Items.get nulled other = Items.get items other

/-- Two exceptions a caller cannot tell apart by class, texts or `str()`. -/
def Exn.Alike : Exn → Exn → Prop
  | .apiError left, .apiError right =>
      left.cls = right.cls ∧ left.errorName = right.errorName ∧ left.message = right.message ∧
        left.text = right.text
  | left, right => left = right

/-! ### One member -/

theorem envelopeText_dict (runtime : Runtime) (items : Items Str Value) (key : String) :
    envelopeText runtime (.dict items) key =
      runtime.str ((Items.get items (str key)).getD (.str [])) := rfl

theorem str_none (runtime : Runtime) : runtime.str .none = .ok (str "None") := by
  rw [Runtime.str, Runtime.repr] <;> intro text same <;> cases same

theorem str_text (runtime : Runtime) (text : Str) : runtime.str (.str text) = .ok text := by
  rw [Runtime.str]

theorem textOf_iff {runtime : Runtime} {items : Items Str Value} {key : String} {field : Str}
    (read : envelopeText runtime (.dict items) key = .ok field) :
    TextOf (Items.get items (str key)) field ↔ Items.get items (str key) ≠ some .none := by
  rw [envelopeText_dict] at read
  cases member : Items.get items (str key) with
  | none =>
      rw [member, Option.getD_none, str_text] at read
      cases read
      refine iff_of_true ⟨?_, fun _ => rfl⟩ ?_
      · intro text present
        cases present
      · intro present
        cases present
  | some value =>
      rw [member, Option.getD_some] at read
      by_cases null : value = .none
      · rw [null, str_none] at read
        refine iff_of_false ?_ ?_
        · intro textOf
          have empty := textOf.missing (.inr (congrArg some null))
          rw [empty] at read
          cases read
        · intro different
          exact different (congrArg some null)
      · refine iff_of_true ⟨?_, ?_⟩ (fun same => null (Option.some.inj same))
        · intro text same
          rw [Option.some.inj same, str_text] at read
          exact (Except.ok.inj read).symm
        · rintro (absent | same)
          · cases absent
          · exact absurd (Option.some.inj same) null

/-! ### The exception -/

theorem raiseForResponse_of_texts {runtime : Runtime} {body : Value} {name message : Str}
    (readName : envelopeText runtime body "name" = .ok name)
    (readMessage : envelopeText runtime body "message" = .ok message) (status : Nat)
    (retryAfter : Option Int) (requestId : Option Str) :
    raiseForResponse runtime status body retryAfter requestId =
      .apiError ⟨exceptionClass status, name, message, status, body, retryAfter, requestId⟩ := by
  unfold raiseForResponse
  rw [readName, readMessage]
  rfl

theorem APIError.text_eq (error : APIError) :
    error.text =
      firstInked [error.message, error.errorName, str "HTTP " ++ natText error.statusCode] := by
  unfold APIError.text firstInked
  by_cases message : error.message = []
  · rw [if_neg (not_not.mpr message), if_pos message]
    by_cases name : error.errorName = []
    · rw [if_neg (not_not.mpr name), firstInked, if_pos name]
      exact (if_neg (List.cons_ne_nil _ _)).symm
    · rw [if_pos name, firstInked, if_neg name]
  · rw [if_pos message, if_neg message]

theorem raised_carries_iff (runtime : Runtime) (status : Nat) (items : Items Str Value)
    (retryAfter : Option Int) (requestId : Option Str) :
    (∃ error, raiseForResponse runtime status (.dict items) retryAfter requestId =
        .apiError error ∧ CarriesEnvelope items status error) ↔ PlainEnvelope runtime items := by
  rcases raiseForResponse_cases runtime status (.dict items) retryAfter requestId with
    ⟨reads, _⟩ | ⟨unread, exception, raised⟩
  · obtain ⟨name, readName⟩ := (envelopeText_reads_iff runtime items "name").mpr reads.1
    obtain ⟨message, readMessage⟩ := (envelopeText_reads_iff runtime items "message").mpr reads.2
    have named := textOf_iff readName
    have worded := textOf_iff readMessage
    rw [raiseForResponse_of_texts readName readMessage]
    constructor
    · rintro ⟨error, same, carries⟩
      cases same
      exact ⟨named.mp carries.errorName, worded.mp carries.message, reads⟩
    · intro plain
      exact ⟨_, rfl, named.mpr plain.name, worded.mpr plain.message, APIError.text_eq _⟩
  · rw [raised]
    apply iff_of_false
    · rintro ⟨error, same, _⟩
      cases same
    · intro plain
      exact unread plain.reads

/-! ### A null in place of an absent member -/

namespace Nulled

variable {runtime : Runtime} {key : String} {items nulled : Items Str Value}

theorem text_before (change : Nulled key items nulled) :
    envelopeText runtime (.dict items) key = .ok [] := by
  rw [envelopeText_dict, change.absent, Option.getD_none, str_text]

theorem text_after (change : Nulled key items nulled) :
    envelopeText runtime (.dict nulled) key = .ok (str "None") := by
  rw [envelopeText_dict, change.null, Option.getD_some, str_none]

theorem text_other (change : Nulled key items nulled) {other : String}
    (different : str other ≠ str key) :
    envelopeText runtime (.dict nulled) other = envelopeText runtime (.dict items) other := by
  rw [envelopeText_dict, envelopeText_dict, change.others _ different]

theorem hasText (change : Nulled key items nulled) : HasText runtime items key := by
  intro value present
  rw [change.absent] at present
  cases present

end Nulled

/-- The null is told apart from the absent member, unless `str` raises on the
other member in both cases. -/
theorem nulled_alike_iff {runtime : Runtime} {key : String}
    (member : key = "name" ∨ key = "message")
    {items nulled : Items Str Value} (change : Nulled key items nulled) (status : Nat)
    (retryAfter : Option Int) (requestId : Option Str) :
    (raiseForResponse runtime status (.dict items) retryAfter requestId).Alike
        (raiseForResponse runtime status (.dict nulled) retryAfter requestId) ↔
      ¬EnvelopeReads runtime (.dict items) := by
  have reads := envelopeText_reads_iff runtime items
  rcases member with rfl | rfl
  · have same : envelopeText runtime (.dict nulled) "message" = _ := change.text_other (by decide)
    cases message : envelopeText runtime (.dict items) "message" with
    | ok text =>
        rw [message] at same
        rw [raiseForResponse_of_texts change.text_before message,
          raiseForResponse_of_texts change.text_after same]
        apply iff_of_false
        · rintro ⟨_, names, _⟩
          cases names
        · intro unread
          exact unread ⟨change.hasText, (reads "message").mp ⟨text, message⟩⟩
    | error exception =>
        rw [message] at same
        unfold raiseForResponse
        rw [change.text_before, change.text_after, message, same]
        refine iff_of_true rfl ?_
        rintro ⟨_, worded⟩
        obtain ⟨text, read⟩ := (reads "message").mpr worded
        rw [message] at read
        cases read
  · have same : envelopeText runtime (.dict nulled) "name" = _ := change.text_other (by decide)
    cases name : envelopeText runtime (.dict items) "name" with
    | ok text =>
        rw [name] at same
        rw [raiseForResponse_of_texts name change.text_before,
          raiseForResponse_of_texts same change.text_after]
        apply iff_of_false
        · rintro ⟨_, _, messages, _⟩
          cases messages
        · intro unread
          exact unread ⟨(reads "name").mp ⟨text, name⟩, change.hasText⟩
    | error exception =>
        rw [name] at same
        unfold raiseForResponse
        rw [name, same]
        refine iff_of_true rfl ?_
        rintro ⟨named, _⟩
        obtain ⟨text, read⟩ := (reads "name").mpr named
        rw [name] at read
        cases read

/-! ### Every verb -/

theorem parse_of_okBody (platform : Platform) (verb : Verb) {response : Response} {exn : Exn}
    (raised : okBody platform response = .error exn) :
    verb.parse platform response = .error exn := by
  cases verb with
  | emailsSend params => exact processResponse_of_okBody platform raised
  | _ => exact processModel_of_okBody platform _ raised

theorem parse_raises (platform : Platform) (verb : Verb) {response : Response} {body : Value}
    (failed : isOkStatus response.statusCode = false)
    (decoded : decodeJson platform.runtime response.content = .ok body) :
    verb.parse platform response = .error (raisedFor platform response body) :=
  parse_of_okBody platform verb (okBody_raises platform failed decoded)

theorem envelopeText_error_iff {runtime : Runtime} {items : Items Str Value} {key : String}
    {exception : Builtin} :
    envelopeText runtime (.dict items) key = .error exception ↔
      Unread runtime items key exception := by
  rw [envelopeText_dict]
  unfold Unread
  cases Items.get items (str key) with
  | none =>
      rw [Option.getD_none, str_text]
      simp only [reduceCtorEq, false_and, exists_false]
  | some value => simp only [Option.getD_some, Option.some.injEq, exists_eq_left']

theorem raised_builtin_iff {runtime : Runtime} {items : Items Str Value} {status : Nat}
    {retryAfter : Option Int} {requestId : Option Str} {exception : Builtin} :
    raiseForResponse runtime status (.dict items) retryAfter requestId = .builtin exception ↔
      Unread runtime items "name" exception ∨
        (HasText runtime items "name" ∧ Unread runtime items "message" exception) := by
  simp only [← envelopeText_error_iff, ← envelopeText_reads_iff]
  unfold raiseForResponse
  cases envelopeText runtime (.dict items) "name" with
  | error reason =>
      simp only [bind, Except.bind, Exn.builtin.injEq, Except.error.injEq, reduceCtorEq,
        exists_false, false_and, or_false]
  | ok name =>
      cases envelopeText runtime (.dict items) "message" with
      | error reason =>
          simp only [bind, Except.bind, Exn.builtin.injEq, Except.error.injEq, reduceCtorEq,
            Except.ok.injEq, exists_eq', true_and, false_or]
      | ok message =>
          simp only [bind, Except.bind, reduceCtorEq, and_false, or_self]

section Parsed

variable (platform : Platform) (verb : Verb) {response : Response} {items : Items Str Value}

theorem parse_stopped {limit : Builtin}
    (stopped : decodeJson platform.runtime response.content = .error limit) :
    verb.parse platform response = .error (.builtin limit) := by
  apply parse_of_okBody
  unfold okBody
  rw [stopped]
  rfl

theorem parse_failed (response : Response) (failed : isOkStatus response.statusCode = false) :
    (∃ exception, verb.parse platform response = .error (.builtin exception)) ∨
      ∃ error, verb.parse platform response = .error (.apiError error) := by
  rcases okBody_failed platform response failed with
    ⟨_, error, raised, _⟩ | ⟨_, exception, raised⟩
  · exact .inr ⟨error, parse_of_okBody platform verb raised⟩
  · exact .inl ⟨exception, parse_of_okBody platform verb raised⟩

/-- A built-in exception comes out exactly where the envelope says so. -/
theorem parse_escapes_iff (failed : isOkStatus response.statusCode = false)
    (denotes : Json.Denotes response.content (.dict items)) {exception : Builtin} :
    verb.parse platform response = .error (.builtin exception) ↔
      Escapes platform.runtime response.content items exception := by
  rcases decodeJson_of_denotes platform.runtime denotes with
    ⟨within, decoded⟩ | ⟨stopped, raised⟩ | ⟨stopped, raised⟩
  · rw [parse_raises platform verb failed decoded, Except.error.injEq]
    refine raised_builtin_iff.trans ?_
    constructor
    · rintro (unread | ⟨named, unread⟩)
      · exact .name within unread
      · exact .message within named unread
    · intro escapes
      cases escapes with
      | digits stopped => exact absurd within (Json.not_within stopped)
      | nesting stopped => exact absurd within (Json.not_within stopped)
      | name _ unread => exact .inl unread
      | message _ named unread => exact .inr ⟨named, unread⟩
  · rw [parse_stopped platform verb raised, Except.error.injEq, Exn.builtin.injEq]
    constructor
    · rintro rfl
      exact .digits stopped
    · intro escapes
      cases escapes with
      | digits _ => rfl
      | nesting other =>
          rw [stopped] at other
          cases other
      | name within _ => exact absurd within (Json.not_within stopped)
      | message within _ _ => exact absurd within (Json.not_within stopped)
  · rw [parse_stopped platform verb raised, Except.error.injEq, Exn.builtin.injEq]
    constructor
    · rintro rfl
      exact .nesting stopped
    · intro escapes
      cases escapes with
      | digits other =>
          rw [stopped] at other
          cases other
      | nesting _ => rfl
      | name within _ => exact absurd within (Json.not_within stopped)
      | message within _ _ => exact absurd within (Json.not_within stopped)

/-- An error of the package comes out only of a body that is read. -/
theorem decoded_of_apiError (denotes : Json.Denotes response.content (.dict items))
    {error : APIError} (raised : verb.parse platform response = .error (.apiError error)) :
    decodeJson platform.runtime response.content = .ok (.dict items) := by
  by_cases within : Json.Within platform.runtime.scanDepth response.content
  · exact (decoded_iff_within platform.runtime denotes).mpr within
  · obtain ⟨limit, stopped⟩ := decodeJson_beyond platform.runtime denotes within
    rw [parse_stopped platform verb stopped] at raised
    cases raised

theorem parse_carries_iff (failed : isOkStatus response.statusCode = false)
    (denotes : Json.Denotes response.content (.dict items)) :
    (∃ error, verb.parse platform response = .error (.apiError error) ∧
        CarriesEnvelope items response.statusCode error) ↔
      Json.Within platform.runtime.scanDepth response.content ∧
        PlainEnvelope platform.runtime items := by
  rw [← decoded_iff_within platform.runtime denotes]
  constructor
  · rintro ⟨error, raised, carries⟩
    have decoded := decoded_of_apiError platform verb denotes raised
    rw [parse_raises platform verb failed decoded] at raised
    exact ⟨decoded, (raised_carries_iff _ _ _ _ _).mp ⟨error, Except.error.inj raised, carries⟩⟩
  · rintro ⟨decoded, plain⟩
    obtain ⟨error, raised, carries⟩ := (raised_carries_iff platform.runtime response.statusCode
      items _ _).mpr plain
    exact ⟨error, (parse_raises platform verb failed decoded).trans (congrArg _ raised), carries⟩

end Parsed

/-- A verb raises an error with the texts of the envelope exactly when the body is read,
neither `name` nor `message` is null and both have a text; and a null in place of an
absent member is seen unless the same built-in exception comes out of both bodies. -/
theorem envelope_verbatim_iff (platform : Platform) (verb : Verb) {response : Response}
    {items : Items Str Value} (failed : isOkStatus response.statusCode = false)
    (denotes : Json.Denotes response.content (.dict items)) :
    ((∃ error, verb.parse platform response = .error (.apiError error) ∧
        CarriesEnvelope items response.statusCode error) ↔
      Json.Within platform.runtime.scanDepth response.content ∧
        PlainEnvelope platform.runtime items) ∧
    ∀ key nulled content, key = "name" ∨ key = "message" → Nulled key items nulled →
      Json.Denotes content (.dict nulled) →
        ((∃ first second, verb.parse platform response = .error first ∧
            verb.parse platform { response with content } = .error second ∧ first.Alike second) ↔
          ∃ exception, Escapes platform.runtime response.content items exception ∧
            Escapes platform.runtime content nulled exception) := by
  refine ⟨parse_carries_iff platform verb failed denotes, ?_⟩
  intro key nulled content member change denotes'
  have before := fun exception =>
    @parse_escapes_iff platform verb response items failed denotes exception
  have after := fun exception =>
    @parse_escapes_iff platform verb { response with content } nulled failed denotes' exception
  constructor
  · rintro ⟨first, second, raised, raised', alike⟩
    rcases parse_failed platform verb response failed with ⟨exception, escaped⟩ | ⟨error, made⟩
    · rw [escaped] at raised
      cases raised
      cases alike
      exact ⟨exception, (before exception).mp escaped, (after exception).mp raised'⟩
    · rw [made] at raised
      cases raised
      rcases parse_failed platform verb { response with content } failed with
        ⟨exception, escaped⟩ | ⟨other, made'⟩
      · rw [escaped] at raised'
        cases raised'
        cases alike
      · -- both envelopes are read, and the null is seen
        rw [made'] at raised'
        cases raised'
        have decoded := decoded_of_apiError platform verb denotes made
        have decoded' := decoded_of_apiError platform verb denotes' made'
        rw [parse_raises platform verb failed decoded] at made
        rw [@parse_raises platform verb { response with content } _ failed decoded'] at made'
        rw [← Except.error.inj made, ← Except.error.inj made'] at alike
        have unread := (nulled_alike_iff member change _ _ _).mp alike
        rcases raiseForResponse_cases platform.runtime response.statusCode (.dict items) _ _
          with ⟨reads, _⟩ | ⟨_, exception, escaped⟩
        · exact absurd reads unread
        · cases escaped.symm.trans (Except.error.inj made)
  · rintro ⟨exception, escapes, escapes'⟩
    exact ⟨_, _, (before exception).mpr escapes, (after exception).mpr escapes', rfl⟩

/-! ### An envelope with a null name -/

def nullNameItems : Items Str Value := [(str "name", .none)]

def nullNameResponse : Response := ⟨400, asciiBytes "\x7b\"name\": null\x7d", []⟩

private theorem nullName_denotes :
    Json.Denotes nullNameResponse.content (.dict nullNameItems) :=
  ⟨⟨900, 4300⟩, by decide +kernel⟩

private theorem nullName_decoded :
    decodeJson Platform.plain.runtime nullNameResponse.content = .ok (.dict nullNameItems) :=
  eq_ok_of_toOption (by decide +kernel)

theorem envelope_verbatim_iff_sample :
    (∃ error, Verb.credentialInfo.parse Platform.plain nullNameResponse =
        .error (.apiError error) ∧ CarriesEnvelope nullNameItems 400 error) ↔
      Json.Within Platform.plain.runtime.scanDepth nullNameResponse.content ∧
        PlainEnvelope Platform.plain.runtime nullNameItems :=
  (envelope_verbatim_iff Platform.plain .credentialInfo rfl nullName_denotes).1

/-- A null name becomes the error name `None`. -/
theorem null_name_is_named :
    Json.Denotes nullNameResponse.content (.dict nullNameItems) ∧
      ∃ error, Verb.credentialInfo.parse Platform.plain nullNameResponse =
          .error (.apiError error) ∧
        error.errorName = str "None" ∧ ¬CarriesEnvelope nullNameItems 400 error := by
  refine ⟨nullName_denotes, ?_⟩
  have read : envelopeText Platform.plain.runtime (.dict nullNameItems) "name" =
      .ok (str "None") := str_none Platform.plain.runtime
  have silent : envelopeText Platform.plain.runtime (.dict nullNameItems) "message" = .ok [] :=
    str_text Platform.plain.runtime []
  rw [parse_raises Platform.plain .credentialInfo rfl nullName_decoded, raisedFor,
    raiseForResponse_of_texts read silent]
  refine ⟨_, rfl, rfl, ?_⟩
  intro carries
  have empty := carries.errorName.missing (.inr rfl)
  revert empty
  decide

end MailkubeSdk
