import MailkubeSdk.BaseClient
import MailkubeSdk.Python.Codecs

/-
The resources, over a transport.

The request builders are shared.  Every verb exists twice, once for a blocking
transport and once for one whose calls are awaited; an awaited call is a
suspension point of the program.
-/

namespace MailkubeSdk

open Python Effect

def scheduledPath : Str := str "scheduled-emails"

def batchPath : Str := str "scheduled-emails/batches"

def infoPath : Str := str "api-keys/me"

def scheduledAtKey : Str := str "scheduled_at"

def batchIdKey : Str := str "batch_id"

/-! ### Request builders -/

/-- `_item_path`: the identifier is escaped; a lone surrogate has no octets to escape. -/
def itemPath (base identifier : Str) : Except Builtin Str :=
  match Codecs.quote identifier with
  | some quoted => .ok (base ++ str "/" ++ quoted)
  | none => .error .unicodeEncodeError

def listSpec (runtime : Runtime) (params : Items Str Value) : Except Builtin RequestSpec := do
  let query ← params.mapM (fun (key, value) => do
    let text ← queryValue runtime value
    .ok (key, text))
  .ok { path := scheduledPath, method := str "GET", params := some query }

def nextPageSpec (page : ScheduledEmailPage) : Option RequestSpec :=
  page.nextUrl.map fun url => { path := url, method := str "GET" }

def getSpec (emailId : Str) : Except Builtin RequestSpec := do
  let path ← itemPath scheduledPath emailId
  .ok { path, method := str "GET" }

/-- `to_iso(params["scheduled_at"])`. -/
def scheduledAtText (runtime : Runtime) (params : Items Str Value) : Except Builtin Str :=
  match params.get scheduledAtKey with
  | some value => toIso runtime value
  | none => .error .keyError

def updateSpec (runtime : Runtime) (emailId : Str) (params : Items Str Value) :
    Except Builtin RequestSpec := do
  let scheduledAt ← scheduledAtText runtime params
  let body : Items Str Value := [(scheduledAtKey, .str scheduledAt)]
  let body := match params.get batchIdKey with
    | none => body
    | some .none => body
    | some batchId => body.set batchIdKey batchId
  let path ← itemPath scheduledPath emailId
  .ok { path, method := str "PATCH", json := some body }

def cancelSpec (emailId : Str) : Except Builtin RequestSpec := do
  let path ← itemPath scheduledPath emailId
  .ok { path, method := str "DELETE" }

def batchUpdateSpec (runtime : Runtime) (batchId : Str) (params : Items Str Value) :
    Except Builtin RequestSpec := do
  let scheduledAt ← scheduledAtText runtime params
  let path ← itemPath batchPath batchId
  .ok { path, method := str "PATCH", json := some [(scheduledAtKey, .str scheduledAt)] }

def batchCancelSpec (batchId : Str) : Except Builtin RequestSpec := do
  let path ← itemPath batchPath batchId
  .ok { path, method := str "DELETE" }

def infoSpec : RequestSpec := { path := infoPath, method := str "GET" }

/-! ### Transports -/

structure Transport where
  runtime : Runtime
  sendEmail : Items Str Value → Sdk Email
  request : RequestSpec → (model : Model) → Sdk model.Instance

/-- Where the walk over all pages stands: at its entry, or inside a page. -/
inductive IterAll where
  | entry
  | within (page : ScheduledEmailPage) (rest : List ScheduledEmail)

abbrev ScheduledEmailIterator :=
  Generator HttpRequest HttpOutcome LogRecord Exn IterAll ScheduledEmail

/-- A request builder that may raise, then the call it is for. -/
def withSpec {α : Type} (spec : Except Builtin RequestSpec) (call : RequestSpec → Sdk α) : Sdk α :=
  (Program.ofExcept (liftBuiltin spec)).bind call

section Blocking

variable (transport : Transport)

def EmailsResource.send (params : Items Str Value) : Sdk Email := transport.sendEmail params

def CredentialResource.info : Sdk APIKey := transport.request infoSpec APIKey.model

def ScheduledEmailBatchesResource.update (batchId : Str) (params : Items Str Value) :
    Sdk ScheduledEmailBatchUpdate :=
  withSpec (batchUpdateSpec transport.runtime batchId params)
    (transport.request · ScheduledEmailBatchUpdate.model)

def ScheduledEmailBatchesResource.cancel (batchId : Str) : Sdk ScheduledEmailBatchCancel :=
  withSpec (batchCancelSpec batchId) (transport.request · ScheduledEmailBatchCancel.model)

def ScheduledEmailsResource.list (params : Items Str Value) : Sdk ScheduledEmailPage :=
  withSpec (listSpec transport.runtime params) (transport.request · ScheduledEmailPage.model)

/-- `yield from page.data`, then the next page or the end. -/
def ScheduledEmailsResource.iterAll (params : Items Str Value) : ScheduledEmailIterator
  | .entry =>
      (ScheduledEmailsResource.list transport params).bind fun page =>
        .done (.silent (.within page page.data))
  | .within page (item :: rest) => .done (.item item (.within page rest))
  | .within page [] =>
      match nextPageSpec page with
      | none => .done .finished
      | some spec =>
          (transport.request spec ScheduledEmailPage.model).bind fun page =>
            .done (.silent (.within page (ScheduledEmailPage.data page)))

def ScheduledEmailsResource.get (emailId : Str) : Sdk ScheduledEmail :=
  withSpec (getSpec emailId) (transport.request · ScheduledEmail.model)

def ScheduledEmailsResource.update (emailId : Str) (params : Items Str Value) :
    Sdk ScheduledEmail :=
  withSpec (updateSpec transport.runtime emailId params) (transport.request · ScheduledEmail.model)

def ScheduledEmailsResource.cancel (emailId : Str) : Sdk CanceledScheduledEmail :=
  withSpec (cancelSpec emailId) (transport.request · CanceledScheduledEmail.model)

end Blocking

/-- `await`. -/
def awaiting {α : Type} (call : Sdk α) : Sdk α := .suspend call

section Awaited

variable (transport : Transport)

def AsyncEmailsResource.send (params : Items Str Value) : Sdk Email :=
  awaiting (transport.sendEmail params)

def AsyncCredentialResource.info : Sdk APIKey := awaiting (transport.request infoSpec APIKey.model)

def AsyncScheduledEmailBatchesResource.update (batchId : Str) (params : Items Str Value) :
    Sdk ScheduledEmailBatchUpdate :=
  withSpec (batchUpdateSpec transport.runtime batchId params) fun spec =>
    awaiting (transport.request spec ScheduledEmailBatchUpdate.model)

def AsyncScheduledEmailBatchesResource.cancel (batchId : Str) : Sdk ScheduledEmailBatchCancel :=
  withSpec (batchCancelSpec batchId) fun spec =>
    awaiting (transport.request spec ScheduledEmailBatchCancel.model)

def AsyncScheduledEmailsResource.list (params : Items Str Value) : Sdk ScheduledEmailPage :=
  withSpec (listSpec transport.runtime params) fun spec =>
    awaiting (transport.request spec ScheduledEmailPage.model)

/-- `async for` over this yields the items of the page one by one. -/
def AsyncScheduledEmailsResource.iterAll (params : Items Str Value) : ScheduledEmailIterator
  | .entry =>
      (awaiting (AsyncScheduledEmailsResource.list transport params)).bind fun page =>
        .done (.silent (.within page page.data))
  | .within page (item :: rest) => .done (.item item (.within page rest))
  | .within page [] =>
      match nextPageSpec page with
      | none => .done .finished
      | some spec =>
          (awaiting (transport.request spec ScheduledEmailPage.model)).bind fun page =>
            .done (.silent (.within page (ScheduledEmailPage.data page)))

def AsyncScheduledEmailsResource.get (emailId : Str) : Sdk ScheduledEmail :=
  withSpec (getSpec emailId) fun spec => awaiting (transport.request spec ScheduledEmail.model)

def AsyncScheduledEmailsResource.update (emailId : Str) (params : Items Str Value) :
    Sdk ScheduledEmail :=
  withSpec (updateSpec transport.runtime emailId params) fun spec =>
    awaiting (transport.request spec ScheduledEmail.model)

def AsyncScheduledEmailsResource.cancel (emailId : Str) : Sdk CanceledScheduledEmail :=
  withSpec (cancelSpec emailId) fun spec =>
    awaiting (transport.request spec CanceledScheduledEmail.model)

end Awaited

end MailkubeSdk
