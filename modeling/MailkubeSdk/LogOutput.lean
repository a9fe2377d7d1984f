import MailkubeSdk.Effect.Broadcast
import MailkubeSdk.LogConfidentiality
import MailkubeSdk.Traffic

/-
What the package writes to the log of a host program.

A host program uses a client and enables logging as it likes.  Each enabling
attaches one more handler, and a handler writes what the program makes from then
on: the two lines of every exchange while the level in force lets DEBUG pass,
and a warning for every level that is none.
-/

namespace MailkubeSdk

open Python Effect

/-- A step of a host program. -/
inductive HostStep where
  | enable (level : LevelArg)
  | operate (operation : Operation)

/-- A host program between two steps. -/
structure HostState where
  session : Session
  logger : Logger

variable (platform : Platform) (http : HttpLibrary) (flavour : Flavour) (host : LoggingHost)

/-- The events an operation adds to a session. -/
def Session.made (session : Session) : Operation → Trace
  | .call verb => (session.run platform http flavour verb).events
  | .close => []

/-- The records of an operation reach the logger as they are made. -/
def HostState.step (state : HostState) : HostStep → HostState
  | .enable level => { state with logger := enableLogging host state.logger level }
  | .operate operation =>
      { session := state.session.step platform http flavour operation
        logger := (notes (state.session.made platform http flavour operation)).foldl
          (fun logger record => logger.log host 10 (debugLine record)) state.logger }

def HostState.run (state : HostState) (program : List HostStep) : HostState :=
  program.foldl (HostState.step platform http flavour host) state

/-! ### What the steps of a program send to the handlers -/

/-- The level in force once a level is set. -/
def levelSet : LevelArg → Int
  | .number number => number
  | .name text => (levelNames.get text).getD 10

/-- What is written because of a level that is none. -/
def warning (host : LoggingHost) : LevelArg → List LogLine
  | .number _ => []
  | .name text =>
      match levelNames.get text with
      | some _ => []
      | none => if isEnabledFor host 10 30 then [unrecognizedLine text] else []

/-- The records of an exchange: one for the request, one for its response. -/
def exchangeRecords (runtime : Runtime) (exchange : HttpRequest × HttpOutcome) :
    List LogRecord :=
  logRequest runtime exchange.1.method exchange.1.url exchange.1.headers ::
    match exchange.2 with
    | .response response =>
        [logResponse runtime exchange.1.method exchange.1.url response.statusCode
          response.headers]
    | _ => []

/-- What is written of some events under a level. -/
def exchangeLines (platform : Platform) (host : LoggingHost) (level : Int) (events : Trace) :
    List LogLine :=
  if isEnabledFor host level 10 then
    ((exchanges events).flatMap (exchangeRecords platform.runtime)).map debugLine
  else []

/-- What a handler that is there before these steps writes of them. -/
def transcript : Session → Int → List HostStep → List LogLine
  | _, _, [] => []
  | session, _, .enable level :: rest =>
      warning host level ++ transcript session (levelSet level) rest
  | session, level, .operate operation :: rest =>
      exchangeLines platform host level (session.made platform http flavour operation) ++
        transcript (session.step platform http flavour operation) level rest

def HostStep.operation? : HostStep → Option Operation
  | .enable _ => none
  | .operate operation => some operation

def HostStep.enables : HostStep → Bool
  | .enable _ => true
  | .operate _ => false

/-- The session after the steps of a program. -/
def sessionAfter (session : Session) (program : List HostStep) : Session :=
  session.after platform http flavour (program.filterMap HostStep.operation?)

def levelStep (level : Int) : HostStep → Int
  | .enable arg => levelSet arg
  | .operate _ => level

/-- The joinings and lines of a program. -/
def signals : Session → Int → List HostStep → List (Broadcast LogLine)
  | _, _, [] => []
  | session, _, .enable level :: rest =>
      .join :: ((warning host level).map .sent ++ signals session (levelSet level) rest)
  | session, level, .operate operation :: rest =>
      (exchangeLines platform host level
          (session.made platform http flavour operation)).map .sent ++
        signals (session.step platform http flavour operation) level rest

/-- The enabling that importing the package does. -/
def importSteps (upper : Str → Str) (environ : Items Str Str) : List HostStep :=
  match environ.get (str "MAILKUBE_LOG") with
  | none => []
  | some [] => []
  | some text => [.enable (.name (upper text))]

section Logger

variable {host}

theorem log_eq (logger : Logger) (levelno : Int) (line : LogLine) :
    logger.log host levelno line =
      { logger with
        streams := ((if isEnabledFor host logger.level levelno then [line] else []).map
          Broadcast.sent).foldl deliver logger.streams } := by
  unfold Logger.log
  split <;> rfl

theorem enableLogging_eq (logger : Logger) (level : LevelArg) :
    enableLogging host logger level =
      { level := levelSet level
        streams := (.join :: (warning host level).map Broadcast.sent).foldl deliver
          logger.streams } := by
  cases level with
  | number number => rfl
  | name text =>
      unfold enableLogging levelSet warning
      dsimp only
      cases levelNames.get text with
      | some number => rfl
      | none => exact log_eq _ _ _

theorem logAll_eq (logger : Logger) (records : List LogRecord) :
    records.foldl (fun logger record => logger.log host 10 (debugLine record)) logger =
      { logger with
        streams := ((if isEnabledFor host logger.level 10 then records.map debugLine else []).map
          Broadcast.sent).foldl deliver logger.streams } := by
  induction records generalizing logger with
  | nil => split <;> rfl
  | cons record rest ih =>
      rw [List.foldl_cons, ih, log_eq]
      split <;> rfl

end Logger

section Accountable

variable {runtime : Runtime}

theorem notes_conversation (exchange : HttpRequest × HttpOutcome) :
    notes (conversation runtime exchange) = exchangeRecords runtime exchange := by
  obtain ⟨request, answer⟩ := exchange
  cases answer <;> rfl

theorem Accountable.notes_eq {events : Trace} (accountable : Accountable runtime events) :
    notes events = (exchanges events).flatMap (exchangeRecords runtime) := by
  have each : ∀ pairs : List (HttpRequest × HttpOutcome),
      notes (pairs.flatMap (conversation runtime)) = pairs.flatMap (exchangeRecords runtime) := by
    intro pairs
    induction pairs with
    | nil => rfl
    | cons pair rest ih =>
        rw [List.flatMap_cons, notes_append, ih, notes_conversation, List.flatMap_cons]
  exact (congrArg notes accountable).trans (each _)

end Accountable

variable {platform http flavour host}

theorem importLogging_eq (upper : Str → Str) (environ : Items Str Str) (session : Session) :
    HostState.mk session (importLogging host upper environ) =
      HostState.run platform http flavour host ⟨session, .silent⟩ (importSteps upper environ) := by
  unfold importLogging importSteps
  cases environ.get (str "MAILKUBE_LOG") with
  | none => rfl
  | some text => cases text <;> rfl

theorem made_notes (session : Session) (operation : Operation) :
    notes (session.made platform http flavour operation) =
      (exchanges (session.made platform http flavour operation)).flatMap
        (exchangeRecords platform.runtime) := by
  cases operation with
  | call verb =>
      exact (verb_events platform session.client flavour verb (http session.httpOpen)
        session.events).2.notes_eq
  | close => rfl

/-- The lines an operation makes are those of its exchanges. -/
theorem operate_eq (state : HostState) (operation : Operation) :
    state.step platform http flavour host (.operate operation) =
      { session := state.session.step platform http flavour operation
        logger :=
          { level := state.logger.level
            streams := ((exchangeLines platform host state.logger.level
              (state.session.made platform http flavour operation)).map Broadcast.sent).foldl
                deliver state.logger.streams } } := by
  unfold HostState.step exchangeLines
  dsimp only
  rw [logAll_eq, made_notes]

theorem streams_run (state : HostState) (program : List HostStep) :
    (state.run platform http flavour host program).logger.streams =
      (signals platform http flavour host state.session state.logger.level program).foldl
        deliver state.logger.streams := by
  induction program generalizing state with
  | nil => rfl
  | cons step rest ih =>
      refine (ih (state.step platform http flavour host step)).trans ?_
      cases step with
      | enable level =>
          rw [HostState.step, enableLogging_eq, signals, List.foldl_cons, List.foldl_cons,
            List.foldl_append]
      | operate operation =>
          rw [operate_eq, signals, List.foldl_append]

theorem sentMessages_signals (session : Session) (level : Int) (program : List HostStep) :
    sentMessages (signals platform http flavour host session level program) =
      transcript platform http flavour host session level program := by
  induction program generalizing session level with
  | nil => rfl
  | cons step rest ih =>
      cases step with
      | enable arg =>
          rw [transcript, ← ih, signals, sentMessages_join, sentMessages_append,
            sentMessages_sent]
      | operate operation =>
          rw [transcript, ← ih, signals, sentMessages_append, sentMessages_sent]

theorem joins_sent (lines : List LogLine) :
    (lines.map Broadcast.sent).countP Broadcast.isJoin = 0 := by
  rw [List.countP_map]
  exact List.countP_eq_zero.mpr (fun _ _ => nofun)

theorem joins_signals (session : Session) (level : Int) (program : List HostStep) :
    (signals platform http flavour host session level program).countP Broadcast.isJoin =
      program.countP HostStep.enables := by
  induction program generalizing session level with
  | nil => rfl
  | cons step rest ih =>
      cases step with
      | enable arg =>
          rw [signals, List.countP_cons_of_pos (by rfl), List.countP_append, ih, joins_sent,
            List.countP_cons_of_pos (by rfl), Nat.zero_add]
      | operate operation =>
          rw [signals, List.countP_append, ih, joins_sent, List.countP_cons_of_neg (by nofun),
            Nat.zero_add]

theorem signals_append (session : Session) (level : Int) (first second : List HostStep) :
    signals platform http flavour host session level (first ++ second) =
      signals platform http flavour host session level first ++
        signals platform http flavour host (sessionAfter platform http flavour session first)
          (first.foldl levelStep level) second := by
  induction first generalizing session level with
  | nil => rfl
  | cons step rest ih =>
      cases step with
      | enable arg =>
          rw [List.cons_append, signals, ih, signals, List.cons_append, List.append_assoc]
          rfl
      | operate operation =>
          rw [List.cons_append, signals, ih, signals, List.append_assoc]
          rfl

/-- Each enabling of logging, the import's included, attaches one handler, and that writes
the lines of the exchanges made since under a level that lets them pass, and the warnings. -/
theorem log_transcribed (upper : Str → Str) (environ : Items Str Str) (session : Session)
    (program : List HostStep) :
    let steps := importSteps upper environ ++ program
    let streams := (HostState.run platform http flavour host
      ⟨session, importLogging host upper environ⟩ program).logger.streams
    streams.length = steps.countP HostStep.enables ∧
      ∀ before level after, steps = before ++ .enable level :: after →
        streams[before.countP HostStep.enables]? =
          some (warning host level ++
            transcript platform http flavour host
              (sessionAfter platform http flavour session before) (levelSet level) after) := by
  intro steps streams
  have whole : streams = tails (signals platform http flavour host session 0 steps) := by
    have booted := @importLogging_eq platform http flavour host upper environ session
    change (HostState.run platform http flavour host (.mk session _) program).logger.streams = _
    rw [booted, HostState.run, HostState.run, ← List.foldl_append]
    exact (streams_run ⟨session, .silent⟩ steps).trans (foldl_deliver _ _)
  constructor
  · rw [whole, length_tails, joins_signals]
  · intro before level after split
    rw [whole, split, signals_append, ← joins_signals session 0, signals]
    refine (tails_joined _ _).trans ?_
    rw [sentMessages_append, sentMessages_sent, sentMessages_signals]

/-- A default client's program that logs its one exchange under a level that is none. -/
theorem log_transcribed_sample :
    (HostState.run Platform.plain quietLibrary .sync ⟨30, 0⟩
        ⟨defaultSession, importLogging ⟨30, 0⟩ lowerAscii []⟩
        [.operate (.call .credentialInfo), .enable (.name (str "LOUD")),
          .operate (.call .credentialInfo)]).logger.streams[0]? =
      some (unrecognizedLine (str "LOUD") ::
        transcript Platform.plain quietLibrary .sync ⟨30, 0⟩
          (defaultSession.step Platform.plain quietLibrary .sync (.call .credentialInfo)) 10
          [.operate (.call .credentialInfo)]) :=
  (@log_transcribed Platform.plain quietLibrary .sync ⟨30, 0⟩ lowerAscii [] defaultSession
    [.operate (.call .credentialInfo), .enable (.name (str "LOUD")),
      .operate (.call .credentialInfo)]).2 [.operate (.call .credentialInfo)] _ _ rfl

/-! ### Programs that differ in secrets and contents -/

variable {session session' : Session}

/-- Two programs that do alike things alike, whatever secrets and contents pass. -/
inductive AlikePrograms (platform : Platform) (http http' : HttpLibrary)
    (flavour flavour' : Flavour) :
    Session → Session → List HostStep → List HostStep → Prop
  | done (session session' : Session) :
      AlikePrograms platform http http' flavour flavour' session session' [] []
  | enable (session session' : Session) (level : LevelArg) {rest rest' : List HostStep}
      (later : AlikePrograms platform http http' flavour flavour' session session' rest rest') :
      AlikePrograms platform http http' flavour flavour' session session'
        (.enable level :: rest) (.enable level :: rest')
  | close (session session' : Session) {rest rest' : List HostStep}
      (later : AlikePrograms platform http http' flavour flavour' session.close session'.close
        rest rest') :
      AlikePrograms platform http http' flavour flavour' session session'
        (.operate .close :: rest) (.operate .close :: rest')
  | call (session session' : Session) {verb verb' : Verb} (verbs : AlikeVerb verb verb')
      (answered : List.Forall₂ (AlikeAnswer platform.runtime)
        (answers (session.run platform http flavour verb).events)
        (answers (session'.run platform http' flavour' verb').events))
      {rest rest' : List HostStep}
      (later : AlikePrograms platform http http' flavour flavour'
        (session.step platform http flavour (.call verb))
        (session'.step platform http' flavour' (.call verb')) rest rest') :
      AlikePrograms platform http http' flavour flavour' session session'
        (.operate (.call verb) :: rest) (.operate (.call verb') :: rest')

theorem close_client (session : Session) : session.close.client = session.client := by
  unfold Session.close
  split <;> rfl

variable {http' : HttpLibrary} {flavour' : Flavour}

/-- Operations that make the same records leave the same logger. -/
theorem operate_logger {operation operation' : Operation}
    (same : notes (session.made platform http flavour operation) =
      notes (session'.made platform http' flavour' operation')) (logger : Logger) :
    (HostState.step platform http flavour host ⟨session, logger⟩ (.operate operation)).logger =
      (HostState.step platform http' flavour' host ⟨session', logger⟩
        (.operate operation')).logger := by
  unfold HostState.step
  dsimp only
  rw [same]

theorem run_confidential {program program' : List HostStep}
    (alike : AlikePrograms platform http http' flavour flavour' session session' program program')
    (clients : AlikeClients session.client session'.client) (logger : Logger) :
    (HostState.run platform http flavour host ⟨session, logger⟩ program).logger =
      (HostState.run platform http' flavour' host ⟨session', logger⟩ program').logger := by
  induction alike generalizing logger with
  | done session session' => rfl
  | enable session session' level later ih => exact ih clients _
  | close session session' later ih =>
      rw [close_client, close_client] at ih
      exact ih clients logger
  | @call session session' verb verb' verbs answered rest rest' later ih =>
      have same : notes (session.made platform http flavour (.call verb)) =
          notes (session'.made platform http' flavour' (.call verb')) :=
        call_confidential clients verbs flavour flavour' _ _ _ _ answered
      refine (ih clients _).trans ?_
      exact congrArg (fun logger =>
        (HostState.run platform http' flavour' host
          ⟨session'.step platform http' flavour' (.call verb'), logger⟩ rest').logger)
        (operate_logger same logger)

/-- What is written to the handlers of a host program does not depend on the secrets and
the contents that pass: alike programs on clients with the same base URL and suffix, under
the same level in the environment, leave the same lines on every handler. -/
theorem output_confidential (clients : AlikeClients session.client session'.client)
    (upper : Str → Str) {environ environ' : Items Str Str}
    (level : environ.get (str "MAILKUBE_LOG") = environ'.get (str "MAILKUBE_LOG"))
    {program program' : List HostStep}
    (alike : AlikePrograms platform http http' flavour flavour' session session' program
      program') :
    (HostState.run platform http flavour host
        ⟨session, importLogging host upper environ⟩ program).logger.streams =
      (HostState.run platform http' flavour' host
        ⟨session', importLogging host upper environ'⟩ program').logger.streams := by
  have booted : importLogging host upper environ = importLogging host upper environ' := by
    unfold importLogging
    rw [level]
  rw [booted, run_confidential alike clients]

/-- An HTTP library that echoes a secret. -/
def echoLibrary (secret : String) (content : Bytes) : HttpLibrary :=
  fun _ _ _ => echoing secret content

def otherSession : Session := ⟨otherClient, true, true, []⟩

/-- The send of one message logged, with another key and echo than in another program. -/
theorem output_confidential_sample :
    (HostState.run Platform.plain (echoLibrary "mk_key" [Utf8.octet 1]) .sync ⟨30, 0⟩
        ⟨defaultSession, importLogging ⟨30, 0⟩ lowerAscii []⟩
        [.enable (.number 10), .operate (.call (.emailsSend sampleParams))]).logger.streams =
      (HostState.run Platform.plain (echoLibrary "mk_other" []) .async ⟨30, 0⟩
        ⟨otherSession, importLogging ⟨30, 0⟩ lowerAscii []⟩
        [.enable (.number 10), .operate (.call (.emailsSend otherParams))]).logger.streams := by
  have secret : IsSecret Runtime.ascii (str "Authorization") := by decide
  have echoes : AlikeAnswer Platform.plain.runtime (echoing "mk_key" [Utf8.octet 1])
      (echoing "mk_other" []) :=
    ⟨rfl, .cons ⟨rfl, Or.inr rfl⟩ (.cons ⟨rfl, Or.inl secret⟩ .nil)⟩
  have verbs : AlikeVerb (.emailsSend sampleParams) (.emailsSend otherParams) := by
    apply iff_of_true
    · decide
    · decide
  have url : defaultClient.buildUrl Platform.plain sendPath =
      .ok (str "https://api.mailkube.com/mta/v1/emails") :=
    eq_ok_of_toOption (by decide +kernel)
  have url' : otherClient.buildUrl Platform.plain sendPath =
      .ok (str "https://api.mailkube.com/mta/v1/emails") := url
  have built : Verb.built Platform.plain.runtime (.emailsSend sampleParams) = .ok _ :=
    buildSendBody_eq _ (show Declared sampleParams by unfold Declared; decide) (by decide)
  have built' : Verb.built Platform.plain.runtime (.emailsSend otherParams) = .ok _ :=
    buildSendBody_eq _ (show Declared otherParams by unfold Declared; decide) (by decide)
  have clients : AlikeClients defaultSession.client otherSession.client := ⟨rfl, rfl⟩
  refine output_confidential clients lowerAscii rfl (.enable defaultSession otherSession _
    (.call defaultSession otherSession verbs ?_ (.done _ _)))
  unfold Session.run
  refine (congrArg₂ (List.Forall₂ _) ?_ ?_).mpr (.cons echoes .nil)
  · exact (congrArg answers (call_reaches _ _ built url _ _ _)).trans (answers_roundTrip _ _ _ _ _)
  · exact (congrArg answers (call_reaches _ _ built' url' _ _ _)).trans
      (answers_roundTrip _ _ _ _ _)

end MailkubeSdk
