import MailkubeSdk.Transport

/-
Log records, and where they go.

The request and the response half of a round trip are logged at DEBUG: method,
URL, status, request id and headers, with the secret headers masked by their
lower-cased name.  The package's logger has no stream until logging is enabled.
-/

namespace MailkubeSdk

open Python

/-- `_SENSITIVE_HEADERS`. -/
def sensitiveHeaders : List Str := [str "authorization", str "idempotency-key"]

def isSensitive (runtime : Runtime) (name : Str) : Bool :=
  sensitiveHeaders.contains (runtime.lower name)

def redactHeaders (runtime : Runtime) (headers : Items Str Str) : Items Str Str :=
  headers.map fun (name, value) => (name, if isSensitive runtime name then str "***" else value)

/-- `_header`: case-insensitive lookup. -/
def header (runtime : Runtime) (headers : Items Str Str) (name : Str) : Option Str :=
  (headers.find? (fun item => runtime.lower item.1 == runtime.lower name)).map Prod.snd

def logRequest (runtime : Runtime) (method url : Str) (headers : Items Str Str) : LogRecord :=
  { template := str "request %s %s headers=%s"
    args := [.text method, .text url, .mapping (redactHeaders runtime headers)] }

def logResponse (runtime : Runtime) (method url : Str) (status : Nat) (headers : Items Str Str) :
    LogRecord :=
  { template := str "response %s %s status=%s request_id=%s headers=%s"
    args := [.text method, .text url, .number status,
      .optional (header runtime headers (str "x-request-id")),
      .mapping (redactHeaders runtime headers)] }

/-! ### Levels and handlers -/

/-- A level as `setLevel` takes it. -/
inductive LevelArg where
  | number (level : Int)
  | name (text : Str)

/-- The levels the standard library knows by name. -/
def levelNames : Items Str Int :=
  [(str "CRITICAL", 50), (str "FATAL", 50), (str "ERROR", 40), (str "WARN", 30),
    (str "WARNING", 30), (str "INFO", 20), (str "DEBUG", 10), (str "NOTSET", 0)]

/-- What a stream handler writes of a record, the time left out. -/
structure LogLine where
  name : Str
  levelname : Str
  message : LogRecord
deriving DecidableEq

/-- What the host application decides: the root's level, and what it disables. -/
structure LoggingHost where
  rootLevel : Int
  disable : Int

/-- The `mailkube` logger: its level, and what each of its stream handlers has written. -/
structure Logger where
  level : Int
  streams : List (List LogLine)

/-- The logger as the package sets it up, with a `NullHandler` only. -/
def Logger.silent : Logger := ⟨0, []⟩

/-- `isEnabledFor`; a level of 0 is that of the root. -/
def isEnabledFor (host : LoggingHost) (level levelno : Int) : Bool :=
  host.disable < levelno && (if level = 0 then host.rootLevel else level) ≤ levelno

def Logger.log (host : LoggingHost) (logger : Logger) (levelno : Int) (line : LogLine) : Logger :=
  if isEnabledFor host logger.level levelno then
    { logger with streams := logger.streams.map (· ++ [line]) }
  else logger

/-- A record of `_base_client`, as a stream handler writes it. -/
def debugLine (record : LogRecord) : LogLine :=
  ⟨str "mailkube._base_client", str "DEBUG", record⟩

def unrecognizedLine (level : Str) : LogLine :=
  { name := str "mailkube"
    levelname := str "WARNING"
    message :=
      { template := str "Unrecognized log level %r; falling back to DEBUG."
        args := [.text level] } }

def enableLogging (host : LoggingHost) (logger : Logger) (level : LevelArg) : Logger :=
  let attached := { logger with streams := logger.streams ++ [[]] }
  match level with
  | .number number => { attached with level := number }
  | .name text =>
      match levelNames.get text with
      | some number => { attached with level := number }
      | none => { attached with level := 10 }.log host 30 (unrecognizedLine text)

/-- What importing the package does with `MAILKUBE_LOG`. -/
def importLogging (host : LoggingHost) (upper : Str → Str) (environ : Items Str Str) : Logger :=
  match environ.get (str "MAILKUBE_LOG") with
  | none => .silent
  | some [] => .silent
  | some text => enableLogging host .silent (.name (upper text))

end MailkubeSdk
