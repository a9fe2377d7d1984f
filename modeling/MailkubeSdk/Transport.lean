import MailkubeSdk.Exceptions
import MailkubeSdk.Python.Json
import MailkubeSdk.Schema
import MailkubeSdk.Effect.Generator

/-
The transport seam.

A request specification is what a resource asks for, an HTTP request is what
the HTTP library is handed, and its outcome is a response or an exception.  A
computation of the package is a program that asks the HTTP library and leaves
log records.
-/

namespace MailkubeSdk

open Python

/-- What the package takes from outside its own source: the interpreter, what
pydantic reads leniently and how it reads JSON, and the keyed digest. -/
structure Platform where
  runtime : Runtime
  lax : Schema.Lax
  readJson : Bytes → Option Value
  hmacSha256 : Bytes → Bytes → Bytes
  hmac_nonempty : ∀ key message, hmacSha256 key message ≠ []
  /-- `__version__`, from the distribution metadata. -/
  version : Str

/-- The interpreter on ASCII text, with the default recursion limit. -/
def Runtime.ascii : Runtime where
  lower := lowerAscii
  lower_ascii _ _ := rfl
  printable _ := false
  decimal _ := none
  floatRepr := id
  bytesRepr _ := []
  datetimeRepr _ := []
  hosts := { nfkc := id, bracketed := fun _ => true }
  scanDepth := 900
  reprDepth := 900

/-- Integers and booleans spelled as such. -/
def exactLax : Schema.Lax where
  int value := match value with
    | .int n => some n
    | _ => none
  bool value := match value with
    | .bool b => some b
    | _ => none
  int_exact _ := rfl
  bool_exact _ := rfl

/-- A platform that behaves as the real one does on ASCII text, for a given digest. -/
def Platform.ascii (digest : Bytes → Bytes → Bytes)
    (nonempty : ∀ key message, digest key message ≠ []) : Platform where
  runtime := Runtime.ascii
  lax := exactLax
  readJson body := (Json.loads Runtime.ascii.scanDepth body).toOption
  hmacSha256 := digest
  hmac_nonempty := nonempty
  version := str "0.0.0"

/-- The ASCII platform where nothing is signed. -/
def Platform.plain : Platform :=
  Platform.ascii (fun _ _ => [Utf8.octet 0]) (fun _ _ => List.cons_ne_nil _ _)

structure RequestSpec where
  path : Str
  method : Str := str "POST"
  json : Option (Items Str Value) := none
  params : Option (Items Str Str) := none
  headers : Items Str Str := []

/-- The arguments of `httpx.Client.request`. -/
structure HttpRequest where
  method : Str
  url : Str
  json : Option (Items Str Value)
  params : Option (Items Str Str)
  headers : Items Str Str

structure Response where
  statusCode : Nat
  content : Bytes
  headers : Items Str Str

inductive HttpOutcome where
  | response (response : Response)
  | httpError (message : Str)
  | invalidUrl (message : Str)
  | other (exception : Builtin)

inductive LogArg where
  | text (value : Str)
  | number (value : Nat)
  | optional (value : Option Str)
  | mapping (value : Items Str Str)
deriving DecidableEq

/-- A record of the package's logger: the message is the template with the
arguments filled in. -/
structure LogRecord where
  template : Str
  args : List LogArg
deriving DecidableEq

abbrev Sdk (α : Type) := Effect.Program HttpRequest HttpOutcome LogRecord Exn α

abbrev Server := Effect.Environment HttpRequest HttpOutcome LogRecord

abbrev Trace := List (Effect.Event HttpRequest HttpOutcome LogRecord)

/-- A response model: its class name and its declaration. -/
structure Model where
  name : Str
  shape : Schema.Ty

abbrev Model.Instance (model : Model) : Type := model.shape.Denote

end MailkubeSdk
