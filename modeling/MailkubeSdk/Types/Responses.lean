import MailkubeSdk.Transport

/-
The response models.

A model is declared by its shape.  `Email` is the exception: the client builds
it from the body and the response headers, so it is a structure of its own.
-/

namespace MailkubeSdk

open Python Schema

/-- The result of a successful send. -/
structure Email where
  id : Str
  messageId : Option Str
  idempotentReplayed : Bool
  requestId : Option Str
  headers : Items Str Str
  status : Option Str
  scheduledAt : Option Str
  batchId : Option Str
deriving DecidableEq

/-- A model's own configuration: unknown members are ignored. -/
abbrev frozenModel (fields : Fields) : Ty := .record .ignore fields

/-- `Tag`, a `TypedDict`: what it does with unknown members is up to the model around it. -/
abbrev tagShape (extra : Extra) : Ty :=
  .record extra <| .required "name" .str <| .required "value" .str .nil

/-- An optional text field that defaults to `None`. -/
abbrev Fields.optionalText (name : String) (rest : Fields) : Fields :=
  .defaulted name (.nullable .str) .none rest

/-- A text field with a default. -/
abbrev Fields.textOr (name default : String) (rest : Fields) : Fields :=
  .defaulted name .str (.str (Python.str default)) rest

abbrev ScheduledEmail.shape : Ty := frozenModel <|
  .required "id" .str <|
  Fields.optionalText "message_id" <|
  Fields.textOr "object" "scheduled_email" <|
  Fields.textOr "status" "" <|
  Fields.optionalText "scheduled_at" <|
  Fields.optionalText "created_at" <|
  Fields.optionalText "batch_id" <|
  Fields.optionalText "subject" <|
  Fields.optionalText "recipients" <|
  Fields.optionalText "topic" <|
  .defaulted "tags" (.list (tagShape .ignore)) (.list []) .nil

abbrev PageSteps.shape : Ty := frozenModel <|
  Fields.optionalText "next" <|
  Fields.optionalText "previous" .nil

abbrev Pagination.shape : Ty := frozenModel <|
  .defaulted "steps" PageSteps.shape (.dict []) <|
  .defaulted "total_count" .int (.int 0) <|
  .defaulted "current_page" .int (.int 1) .nil

abbrev ScheduledEmailPage.shape : Ty := frozenModel <|
  .defaulted "pagination" Pagination.shape (.dict []) <|
  .defaulted "data" (.list ScheduledEmail.shape) (.list []) .nil

abbrev CanceledScheduledEmail.shape : Ty := frozenModel <|
  .required "id" .str <|
  Fields.textOr "object" "scheduled_email" <|
  Fields.textOr "status" "canceled" .nil

abbrev ScheduledEmailBatchCancel.shape : Ty := frozenModel <|
  Fields.textOr "object" "scheduled_email.batch" <|
  Fields.textOr "batch_id" "" <|
  .defaulted "canceled_count" .int (.int 0) .nil

abbrev ScheduledEmailBatchUpdate.shape : Ty := frozenModel <|
  Fields.textOr "object" "scheduled_email.batch" <|
  Fields.textOr "batch_id" "" <|
  .defaulted "rescheduled_count" .int (.int 0) <|
  Fields.optionalText "scheduled_at" .nil

abbrev APIKeyDomain.shape : Ty := frozenModel <| Fields.textOr "name" "" .nil

abbrev APIKeyOrganization.shape : Ty := frozenModel <|
  Fields.textOr "name" "" <|
  Fields.textOr "alias" "" .nil

abbrev APIKeyQuota.shape : Ty := frozenModel <|
  Fields.textOr "name" "" <|
  .defaulted "limit" .int (.int 0) <|
  .defaulted "used" .int (.int 0) <|
  .defaulted "remaining" .int (.int 0) <|
  Fields.textOr "period" "" .nil

abbrev APIKeyPlan.shape : Ty := frozenModel <|
  Fields.textOr "code" "" <|
  Fields.textOr "name" "" <|
  Fields.textOr "status" "" <|
  .defaulted "quotas" (.list APIKeyQuota.shape) (.list []) .nil

abbrev APIKey.shape : Ty := frozenModel <|
  Fields.textOr "object" "api_key" <|
  .required "key_id" .str <|
  Fields.textOr "name" "" <|
  Fields.optionalText "description" <|
  Fields.textOr "created_at" "" <|
  Fields.optionalText "last_auth_at" <|
  .defaulted "allowed_source_ips" (.list .str) (.list []) <|
  .defaulted "domain" APIKeyDomain.shape (.dict []) <|
  .defaulted "organization" APIKeyOrganization.shape (.dict []) <|
  .defaulted "plan" (.nullable APIKeyPlan.shape) .none .nil

abbrev ScheduledEmail.model : Model := ⟨str "ScheduledEmail", ScheduledEmail.shape⟩
abbrev ScheduledEmailPage.model : Model := ⟨str "ScheduledEmailPage", ScheduledEmailPage.shape⟩
abbrev CanceledScheduledEmail.model : Model :=
  ⟨str "CanceledScheduledEmail", CanceledScheduledEmail.shape⟩
abbrev ScheduledEmailBatchCancel.model : Model :=
  ⟨str "ScheduledEmailBatchCancel", ScheduledEmailBatchCancel.shape⟩
abbrev ScheduledEmailBatchUpdate.model : Model :=
  ⟨str "ScheduledEmailBatchUpdate", ScheduledEmailBatchUpdate.shape⟩
abbrev APIKey.model : Model := ⟨str "APIKey", APIKey.shape⟩

abbrev ScheduledEmail : Type := ScheduledEmail.shape.Denote
abbrev PageSteps : Type := PageSteps.shape.Denote
abbrev Pagination : Type := Pagination.shape.Denote
abbrev ScheduledEmailPage : Type := ScheduledEmailPage.shape.Denote
abbrev CanceledScheduledEmail : Type := CanceledScheduledEmail.shape.Denote
abbrev ScheduledEmailBatchCancel : Type := ScheduledEmailBatchCancel.shape.Denote
abbrev ScheduledEmailBatchUpdate : Type := ScheduledEmailBatchUpdate.shape.Denote
abbrev APIKey : Type := APIKey.shape.Denote

/-! ### The fields a page walk reads -/

def ScheduledEmailPage.pagination (page : ScheduledEmailPage) : Pagination := page.1.1

def ScheduledEmailPage.data (page : ScheduledEmailPage) : List ScheduledEmail := page.1.2.1

def Pagination.steps (pagination : Pagination) : PageSteps := pagination.1.1

def PageSteps.next (steps : PageSteps) : Option Str := steps.1.1

def PageSteps.previous (steps : PageSteps) : Option Str := steps.1.2.1

/-- `page.pagination.steps.next`. -/
def ScheduledEmailPage.nextUrl (page : ScheduledEmailPage) : Option Str :=
  PageSteps.next (Pagination.steps (ScheduledEmailPage.pagination page))

end MailkubeSdk
