import MailkubeSdk.RoundTrip
import MailkubeSdk.SendEncoding

/-
The envelope of a request: its route and its headers.

The route of a verb is fixed by the verb and by the identifier of its item or
batch, and the one header a verb may add is that of the idempotency key.
-/

namespace MailkubeSdk

open Python

/-- The method and the path of a verb. -/
def Verb.route : Verb → Except Builtin (Str × Str)
  | .emailsSend _ => .ok (str "POST", sendPath)
  | .credentialInfo => .ok (str "GET", infoPath)
  | .scheduledEmailsList _ => .ok (str "GET", scheduledPath)
  | .scheduledEmailsGet emailId => (itemPath scheduledPath emailId).map (str "GET", ·)
  | .scheduledEmailsUpdate emailId _ => (itemPath scheduledPath emailId).map (str "PATCH", ·)
  | .scheduledEmailsCancel emailId => (itemPath scheduledPath emailId).map (str "DELETE", ·)
  | .batchesUpdate batchId _ => (itemPath batchPath batchId).map (str "PATCH", ·)
  | .batchesCancel batchId => (itemPath batchPath batchId).map (str "DELETE", ·)

/-- Whether a verb carries an idempotency key. -/
def Verb.keyGiven : Verb → Bool
  | .emailsSend params => params.keys.contains idempotencyKey
  | _ => false

structure Enveloped (verb : Verb) (spec : RequestSpec) : Prop where
  route : verb.route = .ok (spec.method, spec.path)
  headers : spec.headers.keys = headerNames verb.keyGiven

private theorem enveloped_item {verb : Verb} {spec : RequestSpec} {path : Str}
    {base identifier : Str} (found : itemPath base identifier = .ok path)
    (route : verb.route = (itemPath base identifier).map (spec.method, ·))
    (same : spec.path = path) (headers : spec.headers = []) (noKey : verb.keyGiven = false) :
    Enveloped verb spec := by
  constructor
  · rw [route, found, same]
    rfl
  · rw [headers, noKey]
    rfl

/-- What else a verb is given decides nothing of the envelope. -/
theorem built_enveloped {runtime : Runtime} {verb : Verb} {spec : RequestSpec}
    (built : verb.built runtime = .ok spec) : Enveloped verb spec := by
  cases verb with
  | emailsSend params =>
      refine ⟨?_, buildSendBody_headers runtime built⟩
      obtain ⟨_, _, same⟩ := bind_eq_ok_iff.mp built
      cases same
      rfl
  | credentialInfo =>
      cases built
      exact ⟨rfl, rfl⟩
  | scheduledEmailsList params =>
      obtain ⟨_, _, same⟩ := bind_eq_ok_iff.mp built
      cases same
      exact ⟨rfl, rfl⟩
  | scheduledEmailsGet emailId =>
      obtain ⟨_, found, same⟩ := bind_eq_ok_iff.mp built
      cases same
      exact enveloped_item found rfl rfl rfl rfl
  | scheduledEmailsUpdate emailId params =>
      obtain ⟨_, _, more⟩ := bind_eq_ok_iff.mp built
      obtain ⟨_, found, same⟩ := bind_eq_ok_iff.mp more
      cases same
      exact enveloped_item found rfl rfl rfl rfl
  | scheduledEmailsCancel emailId =>
      obtain ⟨_, found, same⟩ := bind_eq_ok_iff.mp built
      cases same
      exact enveloped_item found rfl rfl rfl rfl
  | batchesUpdate batchId params =>
      obtain ⟨_, _, more⟩ := bind_eq_ok_iff.mp built
      obtain ⟨_, found, same⟩ := bind_eq_ok_iff.mp more
      cases same
      exact enveloped_item found rfl rfl rfl rfl
  | batchesCancel batchId =>
      obtain ⟨_, found, same⟩ := bind_eq_ok_iff.mp built
      cases same
      exact enveloped_item found rfl rfl rfl rfl

end MailkubeSdk
