import MailkubeSdk.Resources

/-
The two clients.

They differ in one method, the round trip, and in the resources they carry.  A
verb is the choice of a public method with its arguments.
-/

namespace MailkubeSdk

open Python Effect

/-- The arguments of the HTTP library's call. -/
def httpRequest (spec : RequestSpec) (url : Str) (headers : Items Str Str) : HttpRequest :=
  { method := spec.method, url, json := spec.json, params := spec.params, headers }

section Flavours

variable (platform : Platform) (client : BaseClient)

/-! ### The synchronous client -/

namespace Mailkube

/-- `Mailkube._raw`: one round trip. -/
def raw (spec : RequestSpec) : Sdk Response :=
  (Program.ofExcept (client.prepare platform spec)).bind fun (url, headers) =>
    .note (logRequest platform.runtime spec.method url headers) <|
      .ask (httpRequest spec url headers) fun
        | .httpError message => .fail (.mailkubeConnectionError message)
        | .invalidUrl message => .fail (.mailkubeConnectionError message)
        | .other exception => .fail (.builtin exception)
        | .response response =>
            .note (logResponse platform.runtime spec.method url response.statusCode
              response.headers) (.done response)

def sendEmail (params : Items Str Value) : Sdk Email :=
  withSpec (buildSendBody platform.runtime params) fun spec =>
    (raw platform client spec).bind fun response =>
      Program.ofExcept (processResponse platform response)

def request (spec : RequestSpec) (model : Model) : Sdk model.Instance :=
  (raw platform client spec).bind fun response =>
    Program.ofExcept (processModel platform model response)

def transport : Transport :=
  { runtime := platform.runtime, sendEmail := sendEmail platform client
    request := request platform client }

end Mailkube

/-! ### The asynchronous client -/

namespace AsyncMailkube

/-- `AsyncMailkube._raw`: one round trip, awaited. -/
def raw (spec : RequestSpec) : Sdk Response :=
  (Program.ofExcept (client.prepare platform spec)).bind fun (url, headers) =>
    .note (logRequest platform.runtime spec.method url headers) <|
      awaiting <| .ask (httpRequest spec url headers) fun
        | .httpError message => .fail (.mailkubeConnectionError message)
        | .invalidUrl message => .fail (.mailkubeConnectionError message)
        | .other exception => .fail (.builtin exception)
        | .response response =>
            .note (logResponse platform.runtime spec.method url response.statusCode
              response.headers) (.done response)

def sendEmail (params : Items Str Value) : Sdk Email :=
  withSpec (buildSendBody platform.runtime params) fun spec =>
    (awaiting (raw platform client spec)).bind fun response =>
      Program.ofExcept (processResponse platform response)

def request (spec : RequestSpec) (model : Model) : Sdk model.Instance :=
  (awaiting (raw platform client spec)).bind fun response =>
    Program.ofExcept (processModel platform model response)

def transport : Transport :=
  { runtime := platform.runtime, sendEmail := sendEmail platform client
    request := request platform client }

end AsyncMailkube

end Flavours

/-! ### Verbs -/

/-- The public methods that make one request, with their arguments. -/
inductive Verb where
  | emailsSend (params : Items Str Value)
  | credentialInfo
  | scheduledEmailsList (params : Items Str Value)
  | scheduledEmailsGet (emailId : Str)
  | scheduledEmailsUpdate (emailId : Str) (params : Items Str Value)
  | scheduledEmailsCancel (emailId : Str)
  | batchesUpdate (batchId : Str) (params : Items Str Value)
  | batchesCancel (batchId : Str)

abbrev Verb.Result : Verb → Type
  | .emailsSend _ => Email
  | .credentialInfo => APIKey
  | .scheduledEmailsList _ => ScheduledEmailPage
  | .scheduledEmailsGet _ => ScheduledEmail
  | .scheduledEmailsUpdate _ _ => ScheduledEmail
  | .scheduledEmailsCancel _ => CanceledScheduledEmail
  | .batchesUpdate _ _ => ScheduledEmailBatchUpdate
  | .batchesCancel _ => ScheduledEmailBatchCancel

inductive Flavour where
  | sync
  | async
deriving DecidableEq

/-- A verb of `Mailkube`. -/
def Mailkube.call (transport : Transport) : (verb : Verb) → Sdk verb.Result
  | .emailsSend params => EmailsResource.send transport params
  | .credentialInfo => CredentialResource.info transport
  | .scheduledEmailsList params => ScheduledEmailsResource.list transport params
  | .scheduledEmailsGet emailId => ScheduledEmailsResource.get transport emailId
  | .scheduledEmailsUpdate emailId params =>
      ScheduledEmailsResource.update transport emailId params
  | .scheduledEmailsCancel emailId => ScheduledEmailsResource.cancel transport emailId
  | .batchesUpdate batchId params => ScheduledEmailBatchesResource.update transport batchId params
  | .batchesCancel batchId => ScheduledEmailBatchesResource.cancel transport batchId

/-- A verb of `AsyncMailkube`. -/
def AsyncMailkube.call (transport : Transport) : (verb : Verb) → Sdk verb.Result
  | .emailsSend params => AsyncEmailsResource.send transport params
  | .credentialInfo => AsyncCredentialResource.info transport
  | .scheduledEmailsList params => AsyncScheduledEmailsResource.list transport params
  | .scheduledEmailsGet emailId => AsyncScheduledEmailsResource.get transport emailId
  | .scheduledEmailsUpdate emailId params =>
      AsyncScheduledEmailsResource.update transport emailId params
  | .scheduledEmailsCancel emailId => AsyncScheduledEmailsResource.cancel transport emailId
  | .batchesUpdate batchId params =>
      AsyncScheduledEmailBatchesResource.update transport batchId params
  | .batchesCancel batchId => AsyncScheduledEmailBatchesResource.cancel transport batchId

variable (platform : Platform) (client : BaseClient)

/-- A verb of either client. -/
def call (flavour : Flavour) (verb : Verb) : Sdk verb.Result :=
  match flavour with
  | .sync => Mailkube.call (Mailkube.transport platform client) verb
  | .async => AsyncMailkube.call (AsyncMailkube.transport platform client) verb

/-- `scheduled_emails.iter_all` of either client. -/
def iterAll (flavour : Flavour) (params : Items Str Value) : ScheduledEmailIterator :=
  match flavour with
  | .sync => ScheduledEmailsResource.iterAll (Mailkube.transport platform client) params
  | .async => AsyncScheduledEmailsResource.iterAll (AsyncMailkube.transport platform client) params

/-- What a consumer of `iter_all` holds after `steps` resumptions. -/
def walk (flavour : Flavour) (params : Items Str Value) (server : Server) (steps : Nat) :
    Walk HttpRequest HttpOutcome LogRecord Exn IterAll ScheduledEmail :=
  Walk.after (iterAll platform client flavour params) server steps (Walk.start .entry)

end MailkubeSdk
