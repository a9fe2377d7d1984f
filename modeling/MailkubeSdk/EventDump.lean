import MailkubeSdk.FieldAddition
import MailkubeSdk.Schema.Reread

/-
Dumps of events and of responses.

A parsed object may be kept as its dump and read again later: it is the same
object, of the same class.  The dump of an event says all that was delivered;
that of a response all that its model declares.
-/

namespace MailkubeSdk

open Python Schema

/-- `event.model_dump(by_alias=True)`. -/
def dumpEvent (event : WebhookEvent) : Value := event.1.shape.dump event.2

variable (platform : Platform)

/-- An event is read again from its dump. -/
theorem parseEvent_dump {payload payload' : Payload} {event : WebhookEvent}
    (parsed : parseEvent platform payload = .ok event)
    (reads' : ReadsAs platform payload' (dumpEvent event)) :
    parseEvent platform payload' = .ok event := by
  obtain ⟨value, reads⟩ := reads_of_parsed parsed
  obtain ⟨selected, valid⟩ := (parseEvent_eq_ok_iff reads).mp parsed
  have again := event.1.shape.validate_dump platform.lax (event_lenient event.1).1 value event.2
    valid
  apply (parseEvent_eq_ok_iff reads').mpr
  refine ⟨?_, again⟩
  rw [selected, ← discriminator_of_bare event.1 valid again rfl]
  rfl

theorem dump_object : ∀ model ∈ responseModels, ∀ instance_ : model.Instance,
    ∃ items, model.shape.dump instance_ = .dict items := by
  unfold responseModels
  simp only [List.forall_mem_cons, List.not_mem_nil, false_implies, implies_true, and_true]
  exact ⟨fun _ => ⟨_, rfl⟩, fun _ => ⟨_, rfl⟩, fun _ => ⟨_, rfl⟩, fun _ => ⟨_, rfl⟩,
    fun _ => ⟨_, rfl⟩, fun _ => ⟨_, rfl⟩⟩

/-- A response is read again from the dump of its instance, under any 2xx status. -/
theorem processModel_dump {model : Model} (listed : model ∈ responseModels)
    {response response' : Response} {instance_ : model.Instance}
    (parsed : processModel platform model response = .ok instance_)
    (success : isOkStatus response'.statusCode = true)
    (decoded' : decodeJson platform.runtime response'.content =
      .ok (model.shape.dump instance_)) :
    processModel platform model response' = .ok instance_ := by
  obtain ⟨value, decoded⟩ := decoded_of_processed parsed
  have valid := ((processModel_eq_ok_iff decoded).mp parsed).2.2
  have again := model.shape.validate_dump platform.lax (responseModels_frozen model listed).1 value
    instance_ valid
  apply (processModel_eq_ok_iff decoded').mpr
  exact ⟨success, dump_object model listed instance_, again⟩

/-- What was parsed once is parsed again from its dump, as the same object. -/
theorem dump_reparsed :
    (∀ payload event, parseEvent platform payload = .ok event →
      ∀ payload', ReadsAs platform payload' (dumpEvent event) →
        parseEvent platform payload' = .ok event) ∧
    ∀ model ∈ responseModels, ∀ response instance_,
      processModel platform model response = .ok instance_ →
        ∀ response', isOkStatus response'.statusCode = true →
          decodeJson platform.runtime response'.content = .ok (model.shape.dump instance_) →
            processModel platform model response' = .ok instance_ :=
  ⟨fun _ _ parsed _ reads' => parseEvent_dump platform parsed reads',
    fun _ listed _ _ parsed _ success decoded' =>
      processModel_dump platform listed parsed success decoded'⟩

/-- An event of a new type with a member no model declares, in an order of its own. -/
def novelBody : Bytes :=
  asciiBytes "\x7b\"hint\":1,\"type\":\"x\",\"data\":\x7b\x7d,\"created_at\":\"t\"\x7d"

def novelEvent : WebhookEvent :=
  ⟨.unknownEvent, ((str "t", str "x", [], ()), [(str "hint", .int 1)])⟩

/-- The text of its dump. -/
def novelDump : Bytes :=
  asciiBytes "\x7b\"created_at\":\"t\",\"type\":\"x\",\"data\":\x7b\x7d,\"hint\":1\x7d"

private theorem novelBody_parsed :
    parseEvent Platform.plain (.bytes novelBody) = .ok novelEvent := by
  have read : ReadsAs Platform.plain (.bytes novelBody)
      (.dict [(str "hint", .int 1), (str "type", .str (str "x")), (str "data", .dict []),
        (str "created_at", .str (str "t"))]) := ⟨novelBody, rfl, by decide +kernel⟩
  exact (parseEvent_eq_ok_iff read).mpr ⟨by decide, rfl⟩

theorem dump_reparsed_sample :
    parseEvent Platform.plain (.bytes novelDump) = .ok novelEvent :=
  (dump_reparsed Platform.plain).1 (.bytes novelBody) novelEvent novelBody_parsed
    (.bytes novelDump) ⟨novelDump, rfl, by decide +kernel⟩

/-! ### What a dump says -/

/-- The dump of a parsed object says all its body says, and nothing else but defaults. -/
theorem dump_conveys :
    (∀ payload event, parseEvent platform payload = .ok event →
      ∃ value, ReadsAs platform payload value ∧
        event.1.shape.Conveys platform.lax value (dumpEvent event)) ∧
    ∀ model ∈ responseModels, ∀ response instance_,
      processModel platform model response = .ok instance_ →
        ∃ value, decodeJson platform.runtime response.content = .ok value ∧
          model.shape.Conveys platform.lax value (model.shape.dump instance_) := by
  constructor
  · intro payload event parsed
    obtain ⟨value, reads⟩ := reads_of_parsed parsed
    have valid := ((parseEvent_eq_ok_iff reads).mp parsed).2
    exact ⟨value, reads, event.1.shape.conveys_dump platform.lax (event_lenient event.1).1 value
      event.2 valid⟩
  · intro model listed response instance_ parsed
    obtain ⟨value, decoded⟩ := decoded_of_processed parsed
    have valid := ((processModel_eq_ok_iff decoded).mp parsed).2.2
    exact ⟨value, decoded, model.shape.conveys_dump platform.lax
      (responseModels_frozen model listed).1 value instance_ valid⟩

theorem dump_conveys_sample :
    ∃ value, ReadsAs Platform.plain (.bytes novelBody) value ∧
      novelEvent.1.shape.Conveys Platform.plain.lax value (dumpEvent novelEvent) :=
  (dump_conveys Platform.plain).1 (.bytes novelBody) novelEvent novelBody_parsed

end MailkubeSdk
