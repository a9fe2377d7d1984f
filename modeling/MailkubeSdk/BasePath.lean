import MailkubeSdk.Envelope
import MailkubeSdk.Requests
import MailkubeSdk.Routes

/-
The path of the base and the paths of the verbs.

`urljoin` resolves a relative path in the directory the base stands in, which is
the base itself when its path ends with a slash or is empty.  A segment after
the last slash is replaced.
-/

namespace MailkubeSdk

open Python Effect Url

/-! ### The configured base -/

/-- The base of a client: the argument, the environment or the default, the
first that is there and not empty. -/
def resolvedBaseUrl (environ : Items Str Str) (baseUrl : Option Str) : Str :=
  match baseUrl, environ.get (str "MAILKUBE_BASE_URL") with
  | some (c :: rest), _ => c :: rest
  | _, some (c :: rest) => c :: rest
  | _, _ => defaultBaseUrl

theorem init_baseUrl {environ : Items Str Str} {apiKey baseUrl suffix : Option Str}
    {client : BaseClient} (made : BaseClient.init environ apiKey baseUrl suffix = .ok client) :
    client.baseUrl = resolvedBaseUrl environ baseUrl := by
  unfold BaseClient.init at made
  split at made
  · cases made
  · cases made
    unfold resolvedBaseUrl BaseClient.orElse
    rcases baseUrl with _ | _ | ⟨c, rest⟩
    · rcases environ.get (str "MAILKUBE_BASE_URL") with _ | _ | ⟨c, rest⟩ <;> rfl
    · rcases environ.get (str "MAILKUBE_BASE_URL") with _ | _ | ⟨c, rest⟩ <;> rfl
    · rfl

/-- The directory a base stands in: the base up to the last slash of its path. -/
def directoryText (base : PathUrl) : Str :=
  assemble base.scheme base.authority (str "/" ++ directory base.segments)

/-- The base, with one slash added if it does not end with one. -/
def completed (base : PathUrl) : Str :=
  if base.text.getLast? = some (cp '/') then base.text else base.text ++ str "/"

theorem directoryText_append (base : PathUrl) (more : Str) :
    directoryText base ++ more =
      assemble base.scheme base.authority (str "/" ++ (directory base.segments ++ more)) := by
  simp only [directoryText, assemble, List.append_assoc]

private theorem directoryText_ends (base : PathUrl) :
    (directoryText base).getLast? = some (cp '/') := by
  obtain ⟨front, ends⟩ := rooted_ends base.segments
  unfold directoryText assemble
  rw [ends, ← List.append_assoc, List.getLast?_concat]

private theorem getLast?_append_right {α : Type} {front back : List α} (nonempty : back ≠ []) :
    (front ++ back).getLast? = back.getLast? := by
  rw [List.getLast?_append, List.getLast?_eq_some_getLast nonempty]
  rfl

private theorem text_of_path {base : PathUrl}
    (path : base.tail = str "/" ++ (directory base.segments ++ base.last)) :
    base.text = directoryText base ++ base.last := by
  rw [directoryText_append, ← path]
  rfl

/-- The directory is the completed base exactly when nothing follows the base's
last slash. -/
theorem directoryText_eq_completed_iff (base : PathUrl) :
    directoryText base = completed base ↔ base.last = [] := by
  unfold completed
  rcases base.tailEq with path | ⟨empty, none, noLast⟩
  · have text := text_of_path path
    by_cases last : base.last = []
    · rw [last, List.append_nil] at text
      rw [text, if_pos (directoryText_ends base)]
      exact iff_of_true rfl last
    · have final : ¬base.text.getLast? = some (cp '/') := by
        rw [text, getLast?_append_right last]
        intro slash
        exact base.last_slashFree (List.mem_of_getLast? slash)
      rw [if_neg final]
      refine iff_of_false ?_ last
      intro same
      have lengths := congrArg List.length same
      rw [text] at lengths
      simp only [List.length_append] at lengths
      have slash : (str "/").length = 1 := by decide
      omega
  · have final : ¬base.text.getLast? = some (cp '/') := by
      have text : base.text = (base.scheme ++ str "://") ++ base.authority := by
        unfold AbsoluteUrl.text assemble
        rw [empty, List.append_nil]
      rw [text, getLast?_append_right base.authorityNonempty]
      intro slash
      exact absurd (base.authorityPlain _ (List.mem_of_getLast? slash)) (by decide)
    rw [if_neg final]
    refine iff_of_true ?_ noLast
    unfold directoryText AbsoluteUrl.text assemble
    rw [none, empty, List.append_nil]
    rfl

/-! ### The paths of the verbs -/

/-- A path of kept directories and a last segment that is kept too. -/
def RelativePath (path : Str) : Prop :=
  ∃ front last, path = directory front ++ last ∧ (∀ segment ∈ front, KeptSegment segment) ∧
    (∀ segment ∈ front, ∀ c ∈ segment, isPathChar c = true) ∧
    (∀ c ∈ last, isPathChar c = true) ∧ KeptSegment last

/-- The identifier of the item or batch a verb names. -/
def Verb.identifier : Verb → Option Str
  | .emailsSend _ => none
  | .credentialInfo => none
  | .scheduledEmailsList _ => none
  | .scheduledEmailsGet emailId => some emailId
  | .scheduledEmailsUpdate emailId _ => some emailId
  | .scheduledEmailsCancel emailId => some emailId
  | .batchesUpdate batchId _ => some batchId
  | .batchesCancel batchId => some batchId

/-- A verb whose identifier, if it takes one, is not empty and not made of dots. -/
def Verb.NamesPlainly (verb : Verb) : Prop :=
  ∀ identifier, verb.identifier = some identifier → KeptSegment identifier

private theorem relativePath_item (collection : Collection) {identifier path : Str}
    (kept : KeptSegment identifier) (found : itemPath collection.path identifier = .ok path) :
    RelativePath path := by
  obtain ⟨quoted, escaped, rfl⟩ := ItemBuilder.itemPath_eq_ok collection found
  have notDots := mt (quoted_dots_iff escaped).mp (not_or.mpr kept.2)
  exact ⟨collection.segments, quoted, rfl, collection.segments_kept, collection.segments_chars,
    quoted_pathChars escaped, Codecs.quote_ne_nil escaped kept.1, not_or.mp notDots⟩

private theorem relativePath_listed {front : List Str} {last : Str}
    (kept : ∀ segment ∈ front ++ [last], segment ≠ [] ∧ segment ≠ str "." ∧ segment ≠ str "..")
    (chars : ∀ segment ∈ front ++ [last], segment.all isPathChar = true) :
    RelativePath (directory front ++ last) := by
  have inside : ∀ segment ∈ front, segment ∈ front ++ [last] :=
    fun segment member => List.mem_append_left _ member
  have final : last ∈ front ++ [last] := List.mem_append_right _ List.mem_cons_self
  exact ⟨front, last, rfl, fun segment member => kept segment (inside segment member),
    fun segment member => List.all_eq_true.mp (chars segment (inside segment member)),
    List.all_eq_true.mp (chars last final), kept last final⟩

theorem route_relative {verb : Verb} {method path : Str} (route : verb.route = .ok (method, path))
    (plainly : verb.NamesPlainly) : RelativePath path := by
  have item : ∀ (collection : Collection) {identifier given : Str},
      verb.identifier = some identifier →
      (itemPath collection.path identifier).map (given, ·) = .ok (method, path) →
        RelativePath path := by
    intro collection identifier given named mapped
    cases found : itemPath collection.path identifier with
    | error exception =>
        rw [found] at mapped
        cases mapped
    | ok built =>
        rw [found] at mapped
        cases mapped
        exact relativePath_item collection (plainly identifier named) found
  cases verb with
  | emailsSend params =>
      cases route
      exact @relativePath_listed [] sendPath (by decide) (by decide)
  | credentialInfo =>
      cases route
      exact @relativePath_listed [str "api-keys"] (str "me") (by decide) (by decide)
  | scheduledEmailsList params =>
      cases route
      exact @relativePath_listed [] scheduledPath (by decide) (by decide)
  | scheduledEmailsGet emailId => exact item .scheduledEmails rfl route
  | scheduledEmailsUpdate emailId params => exact item .scheduledEmails rfl route
  | scheduledEmailsCancel emailId => exact item .scheduledEmails rfl route
  | batchesUpdate batchId params => exact item .batches rfl route
  | batchesCancel batchId => exact item .batches rfl route

/-! ### What the builders reach -/

theorem buildUrl_relative {platform : Platform} {client : BaseClient} {base : PathUrl}
    (configured : client.baseUrl = base.text)
    (accepted : acceptsNetloc platform.runtime.hosts base.authority = true) {path : Str}
    (relative : RelativePath path) :
    client.buildUrl platform path = .ok (directoryText base ++ path) := by
  obtain ⟨front, last, rfl, frontKept, frontChars, lastChars, lastKept⟩ := relative
  have built := buildUrl_path configured accepted frontKept frontChars lastChars lastKept.1
  have kept : landing (base.segments ++ front) last =
      directory base.segments ++ (directory front ++ last) := by
    unfold landing
    rw [if_neg lastKept.2.1, if_neg lastKept.2.2, directory_append, List.append_assoc]
  rw [built, kept, directoryText_append]

/-- The requests of a verb go to its route below the directory of the base. -/
theorem call_below {platform : Platform} {client : BaseClient} {base : PathUrl}
    (configured : client.baseUrl = base.text)
    (accepted : acceptsNetloc platform.runtime.hosts base.authority = true) {verb : Verb}
    (plainly : verb.NamesPlainly) (flavour : Flavour) (server : Server) (past : Trace) :
    ∀ request ∈ queries ((call platform client flavour verb).run server past).events,
      ∃ path, verb.route = .ok (request.method, path) ∧
        request.url = directoryText base ++ path := by
  intro request asked
  obtain ⟨spec, url, headers, built, prepared, rfl⟩ :=
    call_prepared flavour verb server past request asked
  have route := (built_enveloped built).route
  have reached := buildUrl_relative configured accepted (route_relative route plainly)
  have own := (prepare_eq_ok_iff.mp prepared).1
  rw [reached] at own
  exact ⟨spec.path, route, (Except.ok.inj own).symm⟩

/-- On every configured base the paths of the verbs are resolved in the directory
the base stands in, which is the completed base exactly when its path is empty or
ends with a slash; and the requests of the verbs go there. -/
theorem base_path_resolved {environ : Items Str Str} {apiKey baseUrl suffix : Option Str}
    {client : BaseClient} (platform : Platform) {base : PathUrl}
    (made : BaseClient.init environ apiKey baseUrl suffix = .ok client)
    (resolved : resolvedBaseUrl environ baseUrl = base.text)
    (accepted : acceptsNetloc platform.runtime.hosts base.authority = true) :
    (∀ path, RelativePath path →
      client.buildUrl platform path = .ok (directoryText base ++ path)) ∧
    (∀ (verb : Verb) method path, verb.NamesPlainly → verb.route = .ok (method, path) →
      RelativePath path) ∧
    (directoryText base = completed base ↔ base.last = []) ∧
    ∀ flavour (verb : Verb) server past, verb.NamesPlainly →
      ∀ request ∈ queries ((call platform client flavour verb).run server past).events,
        ∃ path, verb.route = .ok (request.method, path) ∧
          request.url = directoryText base ++ path := by
  have configured : client.baseUrl = base.text := (init_baseUrl made).trans resolved
  refine ⟨?_, ?_, directoryText_eq_completed_iff base, ?_⟩
  · intro path relative
    exact buildUrl_relative configured accepted relative
  · intro verb method path plainly route
    exact route_relative route plainly
  · intro flavour verb server past plainly
    exact call_below configured accepted plainly flavour server past

/-! ### A base without its last slash -/

/-- The default base as a caller may well spell it. -/
def slashlessBase : PathUrl where
  scheme := str "https"
  authority := str "api.mailkube.com"
  tail := str "/mta/v1"
  http := defaultBase.http
  authorityNonempty := defaultBase.authorityNonempty
  authorityPlain := defaultBase.authorityPlain
  tailDelimited := by
    intro c rest same
    rw [← (List.cons.inj same).1]
    decide
  authorityPrintable := defaultBase.authorityPrintable
  tailPrintable := List.all_eq_true.mp (by decide)
  segments := [str "mta"]
  last := str "v1"
  schemeLower := defaultBase.schemeLower
  tailEq := .inl (by decide)
  segmentsKept segment member :=
    defaultBase.segmentsKept segment (List.mem_cons.mpr (.inl (List.mem_singleton.mp member)))
  segmentsPlain segment member :=
    defaultBase.segmentsPlain segment (List.mem_cons.mpr (.inl (List.mem_singleton.mp member)))
  lastPlain c member := by
    have plain : (str "v1").all (fun c => !isDelimiter c && !(c == cp ';')) = true := by decide
    have here := List.all_eq_true.mp plain c member
    simpa only [Bool.and_eq_true, Bool.not_eq_true', beq_eq_false_iff_ne, ne_eq] using here

/-- A client on it, configured by the environment. -/
def slashlessClient : BaseClient := ⟨str "mk_key", slashlessBase.text, []⟩

private theorem slashlessClient_init :
    BaseClient.init [(str "MAILKUBE_BASE_URL", slashlessBase.text)] (some (str "mk_key")) none
      none = .ok slashlessClient := by
  rfl

theorem base_path_resolved_sample :
    slashlessClient.buildUrl Platform.plain (str "emails") =
      .ok (directoryText slashlessBase ++ str "emails") :=
  (@base_path_resolved _ _ _ _ _ Platform.plain slashlessBase slashlessClient_init rfl
    (by decide)).1 (str "emails")
      ⟨[], str "emails", rfl, fun segment member => absurd member List.not_mem_nil,
        fun segment member => absurd member List.not_mem_nil,
        List.all_eq_true.mp (by decide), by decide, by decide, by decide⟩

/-- `v1` is lost: the message goes to `/mta/emails`. -/
theorem slashless_base_loses_segment :
    BaseClient.init [(str "MAILKUBE_BASE_URL", str "https://api.mailkube.com/mta/v1")]
        (some (str "mk_key")) none none = .ok slashlessClient ∧
      slashlessClient.buildUrl Platform.plain (str "emails") =
        .ok (str "https://api.mailkube.com/mta/emails") ∧
      slashlessClient.buildUrl Platform.plain (str "emails") ≠
        .ok (completed slashlessBase ++ str "emails") := by
  have reached : slashlessClient.buildUrl Platform.plain (str "emails") =
      .ok (str "https://api.mailkube.com/mta/emails") := eq_ok_of_toOption (by decide +kernel)
  refine ⟨rfl, reached, ?_⟩
  rw [reached]
  intro same
  have lengths := congrArg List.length (Except.ok.inj same)
  revert lengths
  decide

end MailkubeSdk
