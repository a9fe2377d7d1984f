import MailkubeSdk.Python.Binary64
import MailkubeSdk.Python.Codecs
import MailkubeSdk.Types.Events

/-
Verifying, signing and parsing inbound webhooks.

The signed input is the id, a dot, the timestamp, a dot and the raw body.  The
clock reading of `verify_signature` is an argument of the model.
-/

namespace MailkubeSdk

open Python

def signaturePrefix : Str := str "sha256="

def defaultToleranceSeconds : Int := 300

def idHeader : Str := str "x-webhook-id"

def tsHeader : Str := str "x-webhook-ts"

def sigHeader : Str := str "x-webhook-sig"

inductive Payload where
  | bytes (octets : Bytes)
  | text (text : Str)

/-- `str.encode("utf-8")`. -/
def encodeText (text : Str) : Except Builtin Bytes :=
  match Utf8.encode text with
  | some octets => .ok octets
  | none => .error .unicodeEncodeError

def asBytes : Payload → Except Builtin Bytes
  | .bytes octets => .ok octets
  | .text text => encodeText text

def getHeader (runtime : Runtime) (headers : Items Str Str) (name : Str) : Option Str :=
  (headers.find? (fun item => runtime.lower item.1 == name)).map Prod.snd

/-- `abs((now - parsed).total_seconds()) > tolerance_seconds`, on the float the
interpreter computes. -/
def isOutside (now parsed : Datetime) (tolerance : Int) : Bool :=
  tolerance * Binary64.one < (Binary64.ofRatio (now.instant - parsed.instant).natAbs 1000000 : Int)

def checkFreshness (now : Datetime) (timestamp : Str) (tolerance : Int) : Except Exn Unit :=
  match Datetime.fromisoformat timestamp with
  | none => .error (.signatureVerificationError (str "Malformed X-Webhook-Ts timestamp."))
  | some parsed =>
      if isOutside now parsed tolerance then
        .error (.signatureVerificationError
          (str "Webhook timestamp is outside the freshness window."))
      else .ok ()

variable (platform : Platform)

def signingInput (webhookId timestamp : Str) (raw : Bytes) : Except Builtin Bytes := do
  let front ← encodeText (webhookId ++ str "." ++ timestamp ++ str ".")
  .ok (front ++ raw)

def signatureHex (webhookId timestamp : Str) (raw : Bytes) (secret : Str) : Except Builtin Str := do
  let input ← signingInput webhookId timestamp raw
  let key ← encodeText secret
  .ok (Codecs.hexdigest (platform.hmacSha256 key input))

def sign (webhookId timestamp : Str) (payload : Payload) (secret : Str) : Except Builtin Str := do
  let raw ← asBytes payload
  let digest ← signatureHex platform webhookId timestamp raw secret
  .ok (signaturePrefix ++ digest)

/-- `hmac.compare_digest` on two texts: both must be ASCII. -/
def compareDigest (expected provided : Str) : Except Builtin Bool :=
  if isAsciiText expected && isAsciiText provided then .ok (expected == provided)
  else .error .typeError

/-- The signature without its prefix, if it has one. -/
def providedDigest (signature : Str) : Str :=
  if signature.take signaturePrefix.length = signaturePrefix
    then signature.drop signaturePrefix.length else signature

/-- A header that is there and not empty. -/
def requiredHeader (headers : Items Str Str) (name : Str) : Option Str :=
  (getHeader platform.runtime headers name).filter (· ≠ [])

/-- `verify_signature`, read at the clock time `now`. -/
def verifySignature (now : Datetime) (payload : Payload) (headers : Items Str Str) (secret : Str)
    (tolerance : Int) : Except Exn Bytes := do
  let raw ← liftBuiltin (asBytes payload)
  match requiredHeader platform headers idHeader, requiredHeader platform headers tsHeader,
      requiredHeader platform headers sigHeader with
  | some webhookId, some timestamp, some signature => do
      checkFreshness now timestamp tolerance
      let expected ← liftBuiltin (signatureHex platform webhookId timestamp raw secret)
      let same ← liftBuiltin (compareDigest expected (providedDigest signature))
      if same then .ok raw
      else .error (.signatureVerificationError (str "Webhook signature mismatch."))
  | _, _, _ =>
      .error (.signatureVerificationError (str "Missing required webhook signature headers."))

/-- `parse_event`: pydantic raises on a body that is not JSON or does not fit. -/
def parseEvent (payload : Payload) : Except Exn WebhookEvent := do
  let raw ← liftBuiltin (asBytes payload)
  match platform.readJson raw with
  | none => .error .validationError
  | some value => (validateEvent platform.lax value).mapError (fun _ => .validationError)

def verify (now : Datetime) (payload : Payload) (headers : Items Str Str) (secret : Str)
    (tolerance : Int) : Except Exn WebhookEvent := do
  let raw ← verifySignature platform now payload headers secret tolerance
  parseEvent platform (.bytes raw)

end MailkubeSdk
