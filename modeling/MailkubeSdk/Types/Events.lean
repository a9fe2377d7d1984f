import MailkubeSdk.Types.Responses

/-
The webhook events.

Every event is an envelope of `type`, `created_at` and `data`, keeps unknown
members, and is selected by its `type`.  A type outside the catalogue selects
the fallback.
-/

namespace MailkubeSdk

open Python Schema

/-- `_Model`: unknown members are kept. -/
abbrev lenientModel (fields : Fields) : Ty := .record .allow fields

/-- A text field that is always sent but may be null. -/
abbrev Fields.nullableText (name : String) (rest : Fields) : Fields :=
  .required name (.nullable .str) rest

/-! ### Nested context blocks -/

/-- `MessageContext`, followed by the fields of a derived payload. -/
abbrev messageContext (own : Fields) : Ty := lenientModel <|
  .required "email_id" .str <|
  .required "created_at" .str <|
  Fields.nullableText "domain" <|
  Fields.nullableText "subject" <|
  .required "to" (.nullable (.list .str)) <|
  .aliased "from_" "from" (.nullable .str) none <|
  .defaulted "tags" (.list (tagShape .allow)) (.list []) own

abbrev deliveryFields (own : Fields) : Fields :=
  .required "recipient" .str <| .required "timestamp" .str own

abbrev deliveryContext : Ty := lenientModel (deliveryFields .nil)

abbrev failureContext : Ty := lenientModel <| deliveryFields <|
  .required "code" .int <| .required "reason" .str .nil

abbrev engagementFields (own : Fields) : Fields :=
  .aliased "ip_address" "ipAddress" (.nullable .str) (some .none) <|
  Fields.optionalText "country" <|
  .aliased "user_agent" "userAgent" (.nullable .str) (some .none) <|
  .required "timestamp" .str own

abbrev engagementContext : Ty := lenientModel (engagementFields .nil)

abbrev clickContext : Ty := lenientModel <| engagementFields <| .required "link" .str .nil

abbrev suppressionContext : Ty := lenientModel <|
  .required "recipients" (.list .str) <| .required "timestamp" .str .nil

abbrev scheduledContext : Ty := lenientModel <|
  .required "scheduled_at" .str <| Fields.nullableText "batch_id" .nil

abbrev sendFailureContext : Ty := lenientModel <|
  .required "reason" .str <| .required "timestamp" .str .nil

abbrev domainStatusPrevious : Ty := lenientModel <|
  .required "status" .str <| .required "onboarding_state" .str .nil

abbrev webhookStatusPrevious : Ty := lenientModel <|
  .required "is_active" .bool <| .required "is_deleted" .bool <|
  .required "disabled_reason" .str .nil

/-! ### Per-event data payloads -/

abbrev deliveredData : Ty := messageContext <| .required "delivery" deliveryContext .nil
abbrev sentData : Ty := messageContext <| .required "sent" deliveryContext .nil
abbrev bouncedData : Ty := messageContext <| .required "bounce" failureContext .nil
abbrev delayedData : Ty := messageContext <| .required "delay" failureContext .nil
abbrev suppressedData : Ty := messageContext <| .required "suppression" suppressionContext .nil
abbrev scheduledData : Ty := messageContext <| .required "scheduled" scheduledContext .nil
abbrev failedData : Ty := messageContext <| .required "failed" sendFailureContext .nil
abbrev openedData : Ty := messageContext <| .required "open" engagementContext .nil
abbrev clickedData : Ty := messageContext <| .required "click" clickContext .nil

abbrev domainStatusData : Ty := lenientModel <|
  .required "domain" .str <| .required "status" .str <| .required "onboarding_state" .str <|
  .required "previous" domainStatusPrevious .nil

abbrev webhookStatusData : Ty := lenientModel <|
  .required "endpoint_url" .str <| .required "is_active" .bool <|
  .required "is_deleted" .bool <| .required "disabled_reason" .str <|
  .required "previous" webhookStatusPrevious .nil

/-! ### Event envelopes -/

/-- `_Event` with the two fields every arm declares. -/
abbrev eventEnvelope (type data : Ty) : Ty := lenientModel <|
  .required "created_at" .str <| .required "type" type <| .required "data" data .nil

/-- The arms of the union. -/
inductive EventClass where
  | emailSentEvent
  | emailDeliveredEvent
  | emailBouncedEvent
  | emailDeliveryDelayedEvent
  | emailSuppressedEvent
  | emailScheduledEvent
  | emailFailedEvent
  | emailOpenedEvent
  | emailClickedEvent
  | domainStatusEvent
  | webhookStatusEvent
  | unknownEvent
deriving DecidableEq

namespace EventClass

/-- Every arm with its union tag, in the order of the union. -/
def arms : List (Str × EventClass) :=
  [(str "email.sent", emailSentEvent), (str "email.delivered", emailDeliveredEvent),
    (str "email.bounced", emailBouncedEvent),
    (str "email.delivery_delayed", emailDeliveryDelayedEvent),
    (str "email.suppressed", emailSuppressedEvent), (str "email.scheduled", emailScheduledEvent),
    (str "email.failed", emailFailedEvent), (str "email.opened", emailOpenedEvent),
    (str "email.clicked", emailClickedEvent), (str "domain.status", domainStatusEvent),
    (str "webhook.status", webhookStatusEvent), (str "unknown", unknownEvent)]

/-- An arm declares its `type` as the one literal, the fallback as any text. -/
abbrev shape : EventClass → Ty
  | emailSentEvent => eventEnvelope (.literal (str "email.sent")) sentData
  | emailDeliveredEvent => eventEnvelope (.literal (str "email.delivered")) deliveredData
  | emailBouncedEvent => eventEnvelope (.literal (str "email.bounced")) bouncedData
  | emailDeliveryDelayedEvent => eventEnvelope (.literal (str "email.delivery_delayed")) delayedData
  | emailSuppressedEvent => eventEnvelope (.literal (str "email.suppressed")) suppressedData
  | emailScheduledEvent => eventEnvelope (.literal (str "email.scheduled")) scheduledData
  | emailFailedEvent => eventEnvelope (.literal (str "email.failed")) failedData
  | emailOpenedEvent => eventEnvelope (.literal (str "email.opened")) openedData
  | emailClickedEvent => eventEnvelope (.literal (str "email.clicked")) clickedData
  | domainStatusEvent => eventEnvelope (.literal (str "domain.status")) domainStatusData
  | webhookStatusEvent => eventEnvelope (.literal (str "webhook.status")) webhookStatusData
  | unknownEvent => eventEnvelope .str (.dict .any)

end EventClass

/-- `_UNKNOWN_TAG`. -/
def unknownTag : Str := str "unknown"

/-- `_KNOWN_TAGS`: every tag of the union but the fallback's. -/
def knownTags : List Str := (EventClass.arms.map Prod.fst).filter (· ≠ unknownTag)

def eventDiscriminator (value : Value) : Str :=
  match value with
  | .dict items =>
      match Items.get items (str "type") with
      | some (.str tag) => if tag ∈ knownTags then tag else unknownTag
      | _ => unknownTag
  | _ => unknownTag

/-- The arm of a tag. -/
def armOf (tag : Str) : EventClass := (Items.get EventClass.arms tag).getD .unknownEvent

/-- A parsed event: its class and an instance of that class. -/
abbrev WebhookEvent : Type := Σ cls : EventClass, cls.shape.Denote

abbrev UnknownEvent : Type := EventClass.unknownEvent.shape.Denote

def UnknownEvent.createdAt (event : UnknownEvent) : Str := event.1.1

def UnknownEvent.type (event : UnknownEvent) : Str := event.1.2.1

def UnknownEvent.data (event : UnknownEvent) : Items Str Value := event.1.2.2.1

/-- `_EVENT_ADAPTER`: the arm the discriminator names validates the value. -/
def validateEvent (lax : Lax) (value : Value) : Except Errors WebhookEvent :=
  let cls := armOf (eventDiscriminator value)
  (cls.shape.validate lax value).map (fun event => ⟨cls, event⟩)

end MailkubeSdk
