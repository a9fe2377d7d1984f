import MailkubeSdk.BasePath
import MailkubeSdk.Python.Isoformat
import MailkubeSdk.Python.IntLiteral
import MailkubeSdk.Traffic

/-
API calls, as a caller means them and as the service reads them.

An API call says what is wanted in the terms of the service: moments, octets,
alternatives and page numbers, not their spellings.  A caller means one by the
arguments of a verb, and the service reads one off a request below its base.
Each part of a request is read as it was meant.
-/

namespace MailkubeSdk

open Python Effect Url

/-! ### Due times -/

/-- A moment, or words that name none. -/
inductive DueTime where
  | moment (value : Datetime)
  | words (text : Str)
deriving DecidableEq

namespace DueTime

def read (text : Str) : DueTime :=
  match Datetime.fromisoformat text with
  | some value => .moment value
  | none => .words text

/-- What a caller means by an instant or a text. -/
def meant : Value → DueTime
  | .datetime value => .moment value.asRead
  | value => read (textOf value)

/-- The text an instant is sent as. -/
theorem read_rendered (runtime : Runtime) {value : Value} {text : Str}
    (typed : ParamType.textOrInstant.holds value = true)
    (rendered : toIso runtime value = .ok text) : read text = meant value := by
  cases value with
  | str given =>
      cases rendered
      rfl
  | datetime given =>
      have same : given.isoformat = text := Except.ok.inj rendered
      unfold read
      rw [← same, Datetime.fromisoformat_isoformat]
      rfl
  | _ => cases typed

theorem read_written {value : Value} (typed : ParamType.textOrInstant.holds value = true) :
    read (textOf (written value)) = meant value := by
  cases value with
  | str given => rfl
  | datetime given =>
      unfold written textOf read
      dsimp only
      rw [Datetime.fromisoformat_isoformat]
      rfl
  | _ => cases typed

end DueTime

/-! ### Filters of a list -/

/-- The alternatives a text names, separated by commas. -/
def alternatives (text : Str) : List Str := (text.splitOn (cp ',')).filter (· ≠ [])

theorem alternatives_append (front back : Str) :
    alternatives (front ++ cp ',' :: back) = alternatives front ++ alternatives back := by
  unfold alternatives
  rw [List.splitOn_append_cons_self, List.filter_append]

theorem alternatives_intercalate (parts : List Str) :
    alternatives ((str ",").intercalate parts) = parts.flatMap alternatives := by
  induction parts with
  | nil => rfl
  | cons part rest ih =>
      cases rest with
      | nil => simp only [List.intercalate_singleton, List.flatMap_cons, List.flatMap_nil,
          List.append_nil]
      | cons next more =>
          have comma : str "," = [cp ','] := rfl
          rw [List.intercalate_cons_of_ne_nil (List.cons_ne_nil _ _), List.flatMap_cons, ← ih,
            comma, List.append_assoc, List.singleton_append, alternatives_append]

/-- What a caller means by one status or several. -/
def statusMeant : Value → List Str
  | .list elements => elements.flatMap fun element => alternatives (textOf element)
  | value => alternatives (textOf value)

def integerMeant : Value → Option Int
  | .int n => some n
  | _ => none

structure ListFilter where
  status : Option (List Str)
  batch : Option Str
  dueFrom : Option DueTime
  dueUntil : Option DueTime
  page : Option Int
deriving DecidableEq

def statusKey : Str := str "status"

def dueFromKey : Str := str "scheduled_at_gte"

def dueUntilKey : Str := str "scheduled_at_lte"

def pageKey : Str := str "page"

namespace ListFilter

def read (runtime : Runtime) (query : Items Str Str) : ListFilter where
  status := (query.get statusKey).map alternatives
  batch := query.get batchIdKey
  dueFrom := (query.get dueFromKey).map DueTime.read
  dueUntil := (query.get dueUntilKey).map DueTime.read
  page := (query.get pageKey).bind runtime.int

def meant (params : Items Str Value) : ListFilter where
  status := (params.get statusKey).map statusMeant
  batch := (params.get batchIdKey).map textOf
  dueFrom := (params.get dueFromKey).map DueTime.meant
  dueUntil := (params.get dueUntilKey).map DueTime.meant
  page := (params.get pageKey).bind integerMeant

end ListFilter

/-- The value of a declared parameter is of its type. -/
theorem WellTyped.holds_of_get {declared : List ParamDecl} {params : Items Str Value}
    (typed : WellTyped declared params) {key : Str} {type : ParamType}
    (only : ∀ decl ∈ declared, decl.key = key → decl.type = type) {value : Value}
    (found : params.get key = some value) : type.holds value = true := by
  obtain ⟨decl, listed, named, fits⟩ := typed.fits _ (Items.mem_of_get found)
  rw [only decl listed named] at fits
  exact fits

theorem query_get (runtime : Runtime) {params : Items Str Value} {query : Items Str Str}
    (rendered : (params.mapM fun (key, value) => do
      let text ← queryValue runtime value
      .ok (key, text)) = .ok query) (key : Str) :
    (params.get key).map (queryValue runtime) = (query.get key).map .ok := by
  induction params generalizing query with
  | nil =>
      cases rendered
      rfl
  | cons param rest ih =>
      obtain ⟨name, value⟩ := param
      rw [List.mapM_cons] at rendered
      obtain ⟨item, made, more⟩ := bind_eq_ok_iff.mp rendered
      obtain ⟨later, mapped, same⟩ := bind_eq_ok_iff.mp more
      obtain ⟨text, valued, named⟩ := bind_eq_ok_iff.mp made
      cases same
      cases named
      rw [Items.get_cons, Items.get_cons]
      by_cases here : name = key
      · rw [if_pos here, if_pos here, Option.map_some, Option.map_some]
        exact congrArg some valued
      · rw [if_neg here, if_neg here]
        exact ih mapped

/-- A parameter is read out of the query as it was meant. -/
theorem query_read {β : Type} (runtime : Runtime) {params : Items Str Value}
    {query : Items Str Str} {key : Str} {read : Str → β} {meant : Value → β}
    (agree : (params.get key).map (queryValue runtime) = (query.get key).map .ok)
    (same : ∀ value text, params.get key = some value → queryValue runtime value = .ok text →
      read text = meant value) :
    (query.get key).map read = (params.get key).map meant := by
  cases given : params.get key with
  | none =>
      rw [given, Option.map_none] at agree
      rw [Option.map_eq_none_iff.mp agree.symm]
      rfl
  | some value =>
      rw [given, Option.map_some] at agree
      obtain ⟨text, found, rendered⟩ := Option.map_eq_some_iff.mp agree.symm
      rw [found, Option.map_some, Option.map_some, same value text given rendered.symm]

theorem status_read (runtime : Runtime) {value : Value} {text : Str}
    (typed : ParamType.textOrTexts.holds value = true)
    (rendered : queryValue runtime value = .ok text) : alternatives text = statusMeant value := by
  cases value with
  | str given =>
      cases rendered
      rfl
  | list elements =>
      obtain ⟨parts, mapped, same⟩ := bind_eq_ok_iff.mp rendered
      cases same
      rw [alternatives_intercalate]
      unfold statusMeant
      have texts : ∀ {elements : List Value} {parts : List Str}, elements.all isText = true →
          elements.mapM (toIso runtime) = .ok parts → parts = elements.map textOf := by
        intro elements parts all mapped
        induction elements generalizing parts with
        | nil =>
            cases mapped
            rfl
        | cons element rest ih =>
            rw [List.all_cons, Bool.and_eq_true] at all
            obtain ⟨given, rfl⟩ := isText_str all.1
            rw [List.mapM_cons] at mapped
            obtain ⟨first, made, more⟩ := bind_eq_ok_iff.mp mapped
            obtain ⟨later, others, same⟩ := bind_eq_ok_iff.mp more
            cases made
            cases same
            rw [ih all.2 others]
            rfl
      rw [texts typed mapped, List.flatMap_map]
  | _ => cases typed

theorem page_read (runtime : Runtime) {value : Value} {text : Str}
    (typed : ParamType.integer.holds value = true)
    (rendered : queryValue runtime value = .ok text) : runtime.int text = integerMeant value := by
  cases value with
  | int n =>
      have written : intText n = .ok text := by
        simpa only [queryValue, toIso, Runtime.str, Runtime.repr] using rendered
      exact int_intText written
  | _ => cases typed

/-! ### Messages -/

/-- Content as octets, where its text is base64. -/
def contentRead : Value → Value
  | .str text =>
      match Codecs.b64decode text with
      | some octets => .bytes octets
      | none => .str text
  | value => value

def attachmentRead : Value → Value
  | .dict items =>
      .dict (items.map fun item =>
        (item.1, if item.1 = contentKey then contentRead item.2 else item.2))
  | value => value

/-- The value of a message parameter, the contents of attachments as octets. -/
def messageRead (name : Str) (value : Value) : Value :=
  if name = attachmentsKey then
    match value with
    | .list elements => .list (elements.map attachmentRead)
    | value => value
  else value

theorem contentRead_written (value : Value) : contentRead (writtenContent value) =
    contentRead value := by
  cases value with
  | bytes octets =>
      unfold writtenContent contentRead
      dsimp only
      rw [Codecs.b64decode_b64encode]
  | _ => rfl

theorem attachmentRead_written {value : Value} (typed : isAttachment value = true) :
    attachmentRead (writtenAttachment value) = attachmentRead value := by
  obtain ⟨items, rfl, _, fits⟩ := isTypedDict_dict typed
  unfold writtenAttachment attachmentRead
  dsimp only
  rw [List.map_map]
  congr 1
  refine List.map_congr_left fun item member => ?_
  obtain ⟨key, value⟩ := item
  have fit := fits (key, value) member
  unfold Function.comp
  dsimp only
  by_cases named : key = contentKey
  · rw [if_pos named, if_pos named, contentRead_written]
  · rw [if_neg named, if_neg named]
    cases value with
    | bytes octets => exact absurd (beq_iff_eq.mp fit) named
    | _ => rfl

/-- The names of the parameters of a message that is sent. -/
theorem sendEmailParams_names : ∀ decl ∈ sendEmailParams, decl.key ≠ idempotencyKey →
    (wireKey decl.key = scheduledAtKey ↔ decl.key = scheduledAtKey) ∧
      (wireKey decl.key = attachmentsKey ↔ decl.key = attachmentsKey) ∧
      (decl.key = attachmentsKey → decl.type = .attachments) ∧
      (decl.key = scheduledAtKey → decl.type = .textOrInstant) ∧
      (decl.key ≠ attachmentsKey → decl.key ≠ scheduledAtKey →
        decl.type ∈ [.text, .textOrTexts, .textMapping, .tags]) := by
  decide

theorem messageRead_written {decl : ParamDecl} {value : Value} (listed : decl ∈ sendEmailParams)
    (notKey : decl.key ≠ idempotencyKey) (notDue : decl.key ≠ scheduledAtKey)
    (typed : decl.type.holds value = true) :
    messageRead (wireKey decl.key) (written value) = messageRead (wireKey decl.key) value := by
  obtain ⟨_, sameName, attached, _, plain⟩ := sendEmailParams_names decl listed notKey
  unfold messageRead
  by_cases isAttachments : decl.key = attachmentsKey
  · rw [if_pos (sameName.mpr isAttachments), if_pos (sameName.mpr isAttachments)]
    rw [attached isAttachments] at typed
    cases value with
    | list elements =>
        unfold written
        dsimp only
        rw [List.map_map]
        congr 1
        exact List.map_congr_left fun element member =>
          attachmentRead_written (List.all_eq_true.mp typed element member)
    | _ => cases typed
  · rw [if_neg (mt sameName.mp isAttachments), if_neg (mt sameName.mp isAttachments),
      written_plain (plain isAttachments notDue) typed]

/-! ### API calls -/

inductive ApiCall where
  | send (key : Option Str) (due : Option DueTime) (message : Items Str Value)
  | describeKey
  | list (filter : ListFilter)
  | get (emailId : Str)
  | reschedule (emailId : Str) (due : DueTime) (batch : Option Str)
  | cancel (emailId : Str)
  | rescheduleBatch (batchId : Str) (due : DueTime)
  | cancelBatch (batchId : Str)
deriving DecidableEq

/-- The parameters of a message, but for its key and its due time. -/
def messageMeant (params : Items Str Value) : Items Str Value :=
  (params.filter fun param => param.1 ≠ idempotencyKey ∧ param.1 ≠ scheduledAtKey).map
    fun param => (wireKey param.1, messageRead (wireKey param.1) param.2)

/-- A due time that is required. -/
def dueMeant (params : Items Str Value) : DueTime :=
  DueTime.meant ((params.get scheduledAtKey).getD .none)

/-- What a caller means by a verb. -/
def Verb.meaning : Verb → ApiCall
  | .emailsSend params =>
      .send ((params.get idempotencyKey).map textOf)
        ((params.get scheduledAtKey).map DueTime.meant) (messageMeant params)
  | .credentialInfo => .describeKey
  | .scheduledEmailsList params => .list (ListFilter.meant params)
  | .scheduledEmailsGet emailId => .get emailId
  | .scheduledEmailsUpdate emailId params =>
      .reschedule emailId (dueMeant params) ((params.get batchIdKey).map textOf)
  | .scheduledEmailsCancel emailId => .cancel emailId
  | .batchesUpdate batchId params => .rescheduleBatch batchId (dueMeant params)
  | .batchesCancel batchId => .cancelBatch batchId

/-! ### The service -/

/-- What a path below the base names. -/
inductive Endpoint where
  | emails
  | key
  | scheduledEmails
  | scheduledEmail (emailId : Str)
  | batch (batchId : Str)

def Endpoint.read : List Str → Option Endpoint
  | [first] =>
      if first = str "emails" then some .emails
      else if first = str "scheduled-emails" then some .scheduledEmails
      else none
  | [first, second] =>
      if first = str "api-keys" ∧ second = str "me" then some .key
      else if first = str "scheduled-emails" then some (.scheduledEmail second)
      else none
  | [first, second, third] =>
      if first = str "scheduled-emails" ∧ second = str "batches" then some (.batch third) else none
  | _ => none

/-- The due time of a body. -/
def dueRead (body : Items Str Value) : Option DueTime :=
  (body.get scheduledAtKey).map fun value => DueTime.read (textOf value)

def sendRead (headers : Items Str Str) (body : Items Str Value) : ApiCall :=
  .send (headers.get idempotencyHeader) (dueRead body)
    ((body.filter fun item => item.1 ≠ scheduledAtKey).map fun item =>
      (item.1, messageRead item.1 item.2))

/-- The call a request makes on an endpoint. -/
def ApiCall.read (runtime : Runtime) (request : HttpRequest) : Endpoint → Option ApiCall
  | .emails =>
      if request.method = str "POST" then request.json.map (sendRead request.headers) else none
  | .key => if request.method = str "GET" then some .describeKey else none
  | .scheduledEmails =>
      if request.method = str "GET" then
        request.params.map fun query => .list (ListFilter.read runtime query)
      else none
  | .scheduledEmail emailId =>
      if request.method = str "GET" then some (.get emailId)
      else if request.method = str "PATCH" then do
        let body ← request.json
        let due ← dueRead body
        some (.reschedule emailId due ((body.get batchIdKey).map textOf))
      else if request.method = str "DELETE" then some (.cancel emailId)
      else none
  | .batch batchId =>
      if request.method = str "PATCH" then do
        let body ← request.json
        let due ← dueRead body
        some (.rescheduleBatch batchId due)
      else if request.method = str "DELETE" then some (.cancelBatch batchId)
      else none

/-- What follows a text that is there. -/
def after (front text : Str) : Option Str :=
  if front <+: text then some (text.drop front.length) else none

/-- The key that is shown and the call that is made, read off a request below a directory. -/
def receive (runtime : Runtime) (directory : Str) (request : HttpRequest) :
    Option (Str × ApiCall) := do
  let authorization ← request.headers.get (str "Authorization")
  let key ← after (str "Bearer ") authorization
  let path ← after directory request.url
  let segments ← (path.splitOn (cp '/')).mapM Codecs.unquote
  let endpoint ← Endpoint.read segments
  let call ← ApiCall.read runtime request endpoint
  some (key, call)

@[simp] theorem after_append (front back : Str) : after front (front ++ back) = some back := by
  unfold after
  rw [if_pos (List.prefix_append front back), List.drop_left]

/-! ### Bodies -/

section Bodies

variable {params : Items Str Value}

/-- The due time is found in the body of a send. -/
theorem bodyOf_due (declared : Declared params) :
    dueRead (bodyOf params) = (params.get scheduledAtKey).map DueTime.meant := by
  induction params with
  | nil => rfl
  | cons param rest ih =>
      have later := ih fun param member => declared param (List.mem_cons_of_mem _ member)
      obtain ⟨decl, listed, named, typed⟩ := declared param List.mem_cons_self
      obtain ⟨key, value⟩ := param
      change decl.key = key at named
      subst named
      unfold dueRead bodyOf at later ⊢
      rw [Items.get_cons]
      by_cases isKey : decl.key = idempotencyKey
      · have skipped : bodyItem (decl.key, value) = none := if_pos isKey
        have other : decl.key ≠ scheduledAtKey := by
          rw [isKey]
          decide
        rw [List.filterMap_cons_none skipped, if_neg other, later]
      · have kept : bodyItem (decl.key, value) = some (wireKey decl.key, written value) :=
          if_neg isKey
        obtain ⟨sameName, _, _, instant, _⟩ := sendEmailParams_names decl listed isKey
        rw [List.filterMap_cons_some kept, Items.get_cons]
        by_cases isDue : decl.key = scheduledAtKey
        · rw [instant isDue] at typed
          rw [if_pos isDue, if_pos (sameName.mpr isDue), Option.map_some, Option.map_some,
            DueTime.read_written typed]
        · rw [if_neg isDue, if_neg (mt sameName.mp isDue), later]

theorem bodyOf_message (declared : Declared params) :
    (((bodyOf params).filter fun item => item.1 ≠ scheduledAtKey).map fun item =>
      (item.1, messageRead item.1 item.2)) = messageMeant params := by
  induction params with
  | nil => rfl
  | cons param rest ih =>
      have later := ih fun param member => declared param (List.mem_cons_of_mem _ member)
      obtain ⟨decl, listed, named, typed⟩ := declared param List.mem_cons_self
      obtain ⟨key, value⟩ := param
      change decl.key = key at named
      subst named
      unfold bodyOf messageMeant at later ⊢
      by_cases isKey : decl.key = idempotencyKey
      · have skipped : bodyItem (decl.key, value) = none := if_pos isKey
        rw [List.filterMap_cons_none skipped, later, List.filter_cons_of_neg]
        simp only [isKey, ne_eq, not_true_eq_false, false_and, decide_false, Bool.false_eq_true,
          not_false_eq_true]
      · have kept : bodyItem (decl.key, value) = some (wireKey decl.key, written value) :=
          if_neg isKey
        obtain ⟨sameName, _⟩ := sendEmailParams_names decl listed isKey
        rw [List.filterMap_cons_some kept]
        by_cases isDue : decl.key = scheduledAtKey
        · rw [List.filter_cons_of_neg (by simpa using sameName.mpr isDue), later,
            List.filter_cons_of_neg (by simp [isDue])]
        · rw [List.filter_cons_of_pos (by simpa using mt sameName.mp isDue),
            List.filter_cons_of_pos (by simp [isKey, isDue]), List.map_cons, List.map_cons, later,
            messageRead_written listed isKey isDue typed]

end Bodies

/-! ### Paths -/

/-- The endpoint of a verb. -/
def Verb.endpoint : Verb → Endpoint
  | .emailsSend _ => .emails
  | .credentialInfo => .key
  | .scheduledEmailsList _ => .scheduledEmails
  | .scheduledEmailsGet emailId => .scheduledEmail emailId
  | .scheduledEmailsUpdate emailId _ => .scheduledEmail emailId
  | .scheduledEmailsCancel emailId => .scheduledEmail emailId
  | .batchesUpdate batchId _ => .batch batchId
  | .batchesCancel batchId => .batch batchId

/-- The endpoint a path names. -/
def endpointOf (path : Str) : Option Endpoint :=
  ((path.splitOn (cp '/')).mapM Codecs.unquote).bind Endpoint.read

theorem endpointOf_segments {segments : List Str} {last : Str}
    (plain : ∀ segment ∈ segments, cp '/' ∉ segment) (lastPlain : cp '/' ∉ last) :
    endpointOf (directory segments ++ last) =
      ((segments ++ [last]).mapM Codecs.unquote).bind Endpoint.read := by
  unfold endpointOf
  rw [splitOn_segments plain lastPlain]

/-- The names in the paths are their own escapes. -/
theorem constant_segments : ∀ name ∈ [str "emails", str "api-keys", str "me",
    str "scheduled-emails", str "batches"],
    Codecs.unquote name = some name ∧ cp '/' ∉ name := by
  have safe : ∀ name ∈ [str "emails", str "api-keys", str "me", str "scheduled-emails",
      str "batches"], name.all Codecs.isAlwaysSafe = true := by decide
  intro name listed
  have chars := List.all_eq_true.mp (safe name listed)
  exact ⟨Codecs.unquote_safe chars, fun slash => absurd (chars _ slash) (by decide)⟩

theorem endpointOf_constants : endpointOf sendPath = some .emails ∧
    endpointOf infoPath = some .key ∧ endpointOf scheduledPath = some .scheduledEmails := by
  have constant := constant_segments
  simp only [List.forall_mem_cons] at constant
  obtain ⟨emails, apiKeys, me, scheduled, _⟩ := constant
  have none : ∀ segment ∈ ([] : List Str), cp '/' ∉ segment := fun _ member => nomatch member
  have info : infoPath = directory [str "api-keys"] ++ str "me" := by decide
  refine ⟨?_, ?_, ?_⟩
  · refine (endpointOf_segments none emails.2).trans ?_
    simp only [List.nil_append, List.mapM_cons, List.mapM_nil, emails.1, Option.pure_def,
      Option.bind_eq_bind, Option.bind_some, Endpoint.read, if_true]
  · have plain : ∀ segment ∈ [str "api-keys"], cp '/' ∉ segment := by
      intro segment member
      rw [List.mem_singleton.mp member]
      exact apiKeys.2
    rw [info, endpointOf_segments plain me.2]
    simp only [List.cons_append, List.nil_append, List.mapM_cons, List.mapM_nil, apiKeys.1, me.1,
      Option.pure_def, Option.bind_eq_bind, Option.bind_some, Endpoint.read, and_self, if_true]
  · refine (endpointOf_segments none scheduled.2).trans ?_
    have other : str "scheduled-emails" ≠ str "emails" := by decide
    simp only [List.nil_append, List.mapM_cons, List.mapM_nil, scheduled.1, Option.pure_def,
      Option.bind_eq_bind, Option.bind_some, Endpoint.read, if_neg other, if_true]

/-- The item a path names. -/
def Collection.item (identifier : Str) : Collection → Endpoint
  | .scheduledEmails => .scheduledEmail identifier
  | .batches => .batch identifier

theorem endpointOf_item (collection : Collection) {identifier path : Str}
    (built : itemPath collection.path identifier = .ok path) :
    endpointOf path = some (collection.item identifier) := by
  obtain ⟨quoted, escaped, rfl⟩ := ItemBuilder.itemPath_eq_ok collection built
  have slashFree : cp '/' ∉ quoted := fun slash =>
    absurd (quoted_pathChars escaped _ slash) (by decide)
  have read := Codecs.unquote_quote escaped
  have constant := constant_segments
  simp only [List.forall_mem_cons] at constant
  obtain ⟨_, _, _, scheduled, batches, _⟩ := constant
  rw [endpointOf_segments collection.segments_slashFree slashFree]
  cases collection with
  | scheduledEmails =>
      have other : ¬(str "scheduled-emails" = str "api-keys" ∧ identifier = str "me") :=
        fun both => absurd both.1 (by decide)
      simp only [Collection.segments, List.cons_append, List.nil_append, List.mapM_cons,
        List.mapM_nil, scheduled.1, read, Option.pure_def, Option.bind_eq_bind, Option.bind_some,
        Endpoint.read]
      rw [if_neg other, if_pos trivial]
      rfl
  | batches =>
      simp only [Collection.segments, List.cons_append, List.nil_append, List.mapM_cons,
        List.mapM_nil, scheduled.1, batches.1, read, Option.pure_def, Option.bind_eq_bind,
        Option.bind_some, Endpoint.read]
      rw [if_pos ⟨trivial, trivial⟩]
      rfl

/-- The route of a verb leads to its endpoint. -/
theorem endpointOf_route {verb : Verb} {method path : Str}
    (route : verb.route = .ok (method, path)) : endpointOf path = some verb.endpoint := by
  have item : ∀ (collection : Collection) {identifier given : Str},
      (itemPath collection.path identifier).map (given, ·) = .ok (method, path) →
        endpointOf path = some (collection.item identifier) := by
    intro collection identifier given mapped
    cases found : itemPath collection.path identifier with
    | error exception =>
        rw [found] at mapped
        cases mapped
    | ok built =>
        rw [found] at mapped
        cases mapped
        exact endpointOf_item collection found
  cases verb with
  | emailsSend params =>
      cases route
      exact endpointOf_constants.1
  | credentialInfo =>
      cases route
      exact endpointOf_constants.2.1
  | scheduledEmailsList params =>
      cases route
      exact endpointOf_constants.2.2
  | scheduledEmailsGet emailId => exact item .scheduledEmails route
  | scheduledEmailsUpdate emailId params => exact item .scheduledEmails route
  | scheduledEmailsCancel emailId => exact item .scheduledEmails route
  | batchesUpdate batchId params => exact item .batches route
  | batchesCancel batchId => exact item .batches route

end MailkubeSdk
