import MailkubeSdk.Python.Value

/-
The declared types of the keyword parameters.

The package checks none of this at run time.  A well-typed parameter set is what
a caller may pass: a dictionary whose keys are declared, whose values have the
declared types and which has the required keys.
-/

namespace MailkubeSdk

open Python

inductive ParamType where
  | text
  | integer
  | textOrInstant
  | textOrTexts
  | textMapping
  | attachments
  | tags
deriving DecidableEq

structure ParamDecl where
  key : Str
  type : ParamType
  required : Bool

def isText : Value → Bool
  | .str _ => true
  | _ => false

/-- A `TypedDict` value: its keys are distinct and declared, its required keys present. -/
def isTypedDict (declared required : List Str) (fits : Str → Value → Bool) : Value → Bool
  | .dict items =>
      decide (items.map Prod.fst).Nodup && items.all (fun item => declared.contains item.1) &&
        required.all (fun key => (items.map Prod.fst).contains key) &&
        items.all (fun item => fits item.1 item.2)
  | _ => false

/-- An `Attachment`: text fields, but the content may be raw octets. -/
def isAttachment : Value → Bool :=
  isTypedDict [str "filename", str "content", str "content_type"] [str "filename", str "content"]
    fun key value =>
      match value with
      | .str _ => true
      | .bytes _ => key == str "content"
      | _ => false

def isTag : Value → Bool :=
  isTypedDict [str "name", str "value"] [str "name", str "value"] fun _ value => isText value

/-- A value of the declared type. -/
def ParamType.holds : ParamType → Value → Bool
  | .text, value => isText value
  | .integer, .int _ => true
  | .textOrInstant, .str _ => true
  | .textOrInstant, .datetime _ => true
  | .textOrTexts, .str _ => true
  | .textOrTexts, .list elements => elements.all isText
  | .textMapping, .dict items =>
      decide (items.map Prod.fst).Nodup && items.all (fun item => isText item.2)
  | .attachments, .list elements => elements.all isAttachment
  | .tags, .list elements => elements.all isTag
  | _, _ => false

def sendEmailParams : List ParamDecl :=
  [⟨str "from_", .text, true⟩, ⟨str "to", .textOrTexts, true⟩, ⟨str "subject", .text, true⟩,
    ⟨str "html", .text, false⟩, ⟨str "text", .text, false⟩, ⟨str "cc", .textOrTexts, false⟩,
    ⟨str "bcc", .textOrTexts, false⟩, ⟨str "reply_to", .textOrTexts, false⟩,
    ⟨str "headers", .textMapping, false⟩, ⟨str "attachments", .attachments, false⟩,
    ⟨str "tags", .tags, false⟩, ⟨str "template_id", .text, false⟩,
    ⟨str "template_version", .text, false⟩, ⟨str "variables", .textMapping, false⟩,
    ⟨str "topic", .text, false⟩, ⟨str "idempotency_key", .text, false⟩,
    ⟨str "scheduled_at", .textOrInstant, false⟩, ⟨str "batch_id", .text, false⟩]

def scheduledEmailListParams : List ParamDecl :=
  [⟨str "status", .textOrTexts, false⟩, ⟨str "batch_id", .text, false⟩,
    ⟨str "scheduled_at_gte", .textOrInstant, false⟩,
    ⟨str "scheduled_at_lte", .textOrInstant, false⟩, ⟨str "page", .integer, false⟩]

def scheduledEmailUpdateParams : List ParamDecl :=
  [⟨str "scheduled_at", .textOrInstant, true⟩, ⟨str "batch_id", .text, false⟩]

def scheduledEmailBatchUpdateParams : List ParamDecl :=
  [⟨str "scheduled_at", .textOrInstant, true⟩]

/-- The keyword arguments a declaration allows. -/
structure WellTyped (declared : List ParamDecl) (params : Items Str Value) : Prop where
  distinct : params.keys.Nodup
  fits : ∀ item ∈ params, ∃ decl ∈ declared, decl.key = item.1 ∧ decl.type.holds item.2 = true
  complete : ∀ decl ∈ declared, decl.required = true → decl.key ∈ params.keys

end MailkubeSdk
