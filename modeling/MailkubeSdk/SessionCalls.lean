import MailkubeSdk.ApiCalls

/-
What the service reads off a session.

A call that is proper, its arguments of the declared types and its identifier
a kept segment, is made exactly when its texts can be written, and then it is
received as what it means.
-/

namespace MailkubeSdk

open Python Effect Url

/-! ### What the service reads -/

section Reading

variable {platform : Platform} {client : BaseClient} {verb : Verb} {spec : RequestSpec}

theorem authorization_shown (built : verb.built platform.runtime = .ok spec) :
    Items.get ((client.defaultHeaders platform).update spec.headers) (str "Authorization") =
      some (str "Bearer " ++ client.apiKey) := by
  have absent : str "Authorization" ∉ spec.headers.keys := by
    rw [(built_enveloped built).headers]
    cases verb.keyGiven with
    | false => exact List.not_mem_nil
    | true => decide
  rw [Items.get_update_of_not_mem absent]
  exact Items.get_cons_self _ _ _

theorem idempotency_read {params : Items Str Value} (typed : WellTyped sendEmailParams params) :
    Items.get ((client.defaultHeaders platform).update (headersOf params)) idempotencyHeader =
      (params.get idempotencyKey).map textOf := by
  have fresh : (client.defaultHeaders platform).get idempotencyHeader = none := by
    refine Items.get_eq_none_iff.mpr ?_
    unfold BaseClient.defaultHeaders
    simp only [Items.keys_cons, Items.keys_nil]
    decide
  have headers := (carriesParams_written typed.fits typed.distinct).headers
  dsimp only at headers
  rw [headers]
  cases given : params.get idempotencyKey with
  | none => exact fresh
  | some value =>
      have isString : ParamType.text.holds value = true := typed.holds_of_get (by decide) given
      obtain ⟨text, rfl⟩ := isText_str isString
      exact Items.get_set_self _ _ _

theorem dueRead_head {text : Str} {value : Value} (rest : Items Str Value)
    (typed : ParamType.textOrInstant.holds value = true)
    (rendered : toIso platform.runtime value = .ok text) :
    dueRead ((scheduledAtKey, .str text) :: rest) = some (DueTime.meant value) := by
  unfold dueRead
  rw [Items.get_cons_self, Option.map_some, ← DueTime.read_rendered platform.runtime typed rendered]
  rfl

/-- The due time of a well-typed update is there, and is what is sent. -/
theorem dueMeant_rendered {declared : List ParamDecl} {params : Items Str Value} {text : Str}
    (typed : WellTyped declared params)
    (only : ∀ decl ∈ declared, decl.key = scheduledAtKey → decl.type = .textOrInstant)
    (rendered : scheduledAtText platform.runtime params = .ok text) :
    ∃ value, ParamType.textOrInstant.holds value = true ∧
      toIso platform.runtime value = .ok text ∧ dueMeant params = DueTime.meant value := by
  unfold scheduledAtText at rendered
  unfold dueMeant
  cases given : params.get scheduledAtKey with
  | none =>
      rw [given] at rendered
      cases rendered
  | some value =>
      rw [given] at rendered
      exact ⟨value, typed.holds_of_get only given, rendered, rfl⟩

theorem listFilter_read {params : Items Str Value} {query : Items Str Str}
    (typed : WellTyped scheduledEmailListParams params)
    (rendered : (params.mapM fun (key, value) => do
      let text ← queryValue platform.runtime value
      .ok (key, text)) = .ok query) :
    ListFilter.read platform.runtime query = ListFilter.meant params := by
  have agree := query_get platform.runtime rendered
  have instant : ∀ {key : Str}, (∀ decl ∈ scheduledEmailListParams, decl.key = key →
      decl.type = .textOrInstant) →
      (query.get key).map DueTime.read = (params.get key).map DueTime.meant := by
    intro key only
    refine query_read platform.runtime (agree key) fun value text given valued => ?_
    have fits := typed.holds_of_get only given
    refine DueTime.read_rendered platform.runtime fits ?_
    cases value with
    | list elements => cases fits
    | _ => exact valued
  have status : (query.get statusKey).map alternatives = (params.get statusKey).map statusMeant :=
    query_read platform.runtime (agree statusKey) fun value text given valued =>
      status_read platform.runtime (typed.holds_of_get (by decide) given) valued
  have batch : (query.get batchIdKey).map id = (params.get batchIdKey).map textOf := by
    refine query_read platform.runtime (agree batchIdKey) fun value text given valued => ?_
    have isString : ParamType.text.holds value = true := typed.holds_of_get (by decide) given
    obtain ⟨given, rfl⟩ := isText_str isString
    exact (Except.ok.inj valued).symm
  have page : (query.get pageKey).map platform.runtime.int =
      (params.get pageKey).map integerMeant :=
    query_read platform.runtime (agree pageKey) fun value text given valued =>
      page_read platform.runtime (typed.holds_of_get (by decide) given) valued
  have joined : (query.get pageKey).bind platform.runtime.int =
      (params.get pageKey).bind integerMeant := by
    have flattened := congrArg (Option.bind · id) page
    simpa only [Option.bind_map, Function.id_comp] using flattened
  unfold ListFilter.read ListFilter.meant
  rw [status, instant (by decide), instant (by decide), joined, ← batch, Option.map_id_apply]

theorem update_read {emailId : Str} {params : Items Str Value}
    (typed : WellTyped scheduledEmailUpdateParams params)
    (built : updateSpec platform.runtime emailId params = .ok spec) (url : Str)
    (headers : Items Str Str) :
    ApiCall.read platform.runtime (httpRequest spec url headers) (.scheduledEmail emailId) =
      some (Verb.scheduledEmailsUpdate emailId params).meaning := by
  obtain ⟨text, rendered, more⟩ := bind_eq_ok_iff.mp built
  obtain ⟨path, _, same⟩ := bind_eq_ok_iff.mp more
  obtain ⟨value, instant, written, due⟩ := dueMeant_rendered typed (by decide) rendered
  have named : ∀ value, params.get batchIdKey = some value → ∃ batch, value = .str batch :=
    fun value given => isText_str (typed.holds_of_get (by decide) given :
      ParamType.text.holds value = true)
  have patch : str "PATCH" ≠ str "GET" := by decide
  have apart : scheduledAtKey ≠ batchIdKey := by decide
  have meant : (Verb.scheduledEmailsUpdate emailId params).meaning =
      .reschedule emailId (DueTime.meant value) ((params.get batchIdKey).map textOf) := by
    rw [← due]
    rfl
  rw [← Except.ok.inj same, meant]
  simp only [ApiCall.read, httpRequest, patch, if_false, if_true]
  cases given : params.get batchIdKey with
  | none =>
      simp only [Option.bind_eq_bind, Option.bind_some, dueRead_head [] instant written,
        Items.get_cons_ne _ _ apart, Items.get_nil]
  | some batchId =>
      obtain ⟨batch, rfl⟩ := named batchId given
      have grown : Items.set [(scheduledAtKey, Value.str text)] batchIdKey (.str batch) =
          [(scheduledAtKey, .str text), (batchIdKey, .str batch)] :=
        Items.set_of_fresh (fun member => apart (List.mem_singleton.mp member).symm) _
      simp only [grown, Option.bind_eq_bind, Option.bind_some, dueRead_head _ instant written,
        Items.get_cons_ne _ _ apart, Items.get_cons_self]

theorem read_meaning (typed : verb.WellTyped) (built : verb.built platform.runtime = .ok spec)
    (url : Str) :
    ApiCall.read platform.runtime
      (httpRequest spec url ((client.defaultHeaders platform).update spec.headers))
      verb.endpoint = some verb.meaning := by
  have delete : str "DELETE" ≠ str "GET" ∧ str "DELETE" ≠ str "PATCH" := by decide
  cases verb with
  | emailsSend params =>
      have same := (buildSendBody_eq platform.runtime typed.fits typed.distinct).symm.trans built
      rw [← Except.ok.inj same]
      simp only [Verb.endpoint, ApiCall.read, httpRequest, if_true, Option.map_some, sendRead,
        bodyOf_due typed.fits, bodyOf_message typed.fits, idempotency_read typed]
      rfl
  | credentialInfo =>
      rw [← Except.ok.inj built]
      simp only [Verb.endpoint, ApiCall.read, httpRequest, infoSpec, if_true]
      rfl
  | scheduledEmailsList params =>
      obtain ⟨query, rendered, same⟩ := bind_eq_ok_iff.mp built
      rw [← Except.ok.inj same]
      simp only [Verb.endpoint, ApiCall.read, httpRequest, if_true, Option.map_some,
        listFilter_read typed rendered]
      rfl
  | scheduledEmailsGet emailId =>
      obtain ⟨path, _, same⟩ := bind_eq_ok_iff.mp built
      rw [← Except.ok.inj same]
      simp only [Verb.endpoint, ApiCall.read, httpRequest, if_true]
      rfl
  | scheduledEmailsUpdate emailId params => exact update_read typed built url _
  | scheduledEmailsCancel emailId =>
      obtain ⟨path, _, same⟩ := bind_eq_ok_iff.mp built
      rw [← Except.ok.inj same]
      simp only [Verb.endpoint, ApiCall.read, httpRequest, delete, if_false, if_true]
      rfl
  | batchesUpdate batchId params =>
      obtain ⟨text, rendered, more⟩ := bind_eq_ok_iff.mp built
      obtain ⟨path, _, same⟩ := bind_eq_ok_iff.mp more
      obtain ⟨value, instant, written, due⟩ := dueMeant_rendered typed (by decide) rendered
      rw [← Except.ok.inj same]
      simp only [Verb.endpoint, ApiCall.read, httpRequest, if_true, Option.bind_eq_bind,
        Option.bind_some, dueRead_head [] instant written, ← due]
      rfl
  | batchesCancel batchId =>
      obtain ⟨path, _, same⟩ := bind_eq_ok_iff.mp built
      rw [← Except.ok.inj same]
      simp only [Verb.endpoint, ApiCall.read, httpRequest, delete, if_false, if_true]
      rfl

/-- A request of a verb is received as the call the verb means. -/
theorem receive_issued {base : PathUrl} (configured : client.baseUrl = base.text)
    (accepted : acceptsNetloc platform.runtime.hosts base.authority = true)
    (typed : verb.WellTyped) (plainly : verb.NamesPlainly) {request : HttpRequest}
    (issued : verb.issued platform client = .ok request) :
    receive platform.runtime (directoryText base) request =
      some (client.apiKey, verb.meaning) := by
  obtain ⟨spec, lifted, made⟩ := bind_eq_ok_iff.mp issued
  obtain ⟨⟨url, headers⟩, prepared, same⟩ := bind_eq_ok_iff.mp made
  have built := liftBuiltin_eq_ok_iff.mp lifted
  obtain ⟨reached, rfl⟩ := prepare_eq_ok_iff.mp prepared
  have route := (built_enveloped built).route
  rw [buildUrl_relative configured accepted (route_relative route plainly)] at reached
  have below : url = directoryText base ++ spec.path := (Except.ok.inj reached).symm
  have endpoint : ((spec.path.splitOn (cp '/')).mapM Codecs.unquote).bind Endpoint.read =
      some verb.endpoint := endpointOf_route route
  obtain ⟨segments, unquoted, read⟩ := Option.bind_eq_some_iff.mp endpoint
  rw [← Except.ok.inj same]
  have meaning := @read_meaning platform client verb spec typed built url
  unfold receive
  rw [below] at meaning
  simp only [httpRequest] at meaning ⊢
  simp only [authorization_shown built, below, after_append, unquoted, read, meaning,
    Option.bind_eq_bind, Option.bind_some]

end Reading

/-! ### Sessions -/

/-- A call whose texts can be written: its identifier has no lone surrogate, and its
page is not too long to print. -/
def Verb.spellable : Verb → Bool
  | .scheduledEmailsList params =>
      ((params.get pageKey).bind integerMeant).all fun page =>
        decide ((natText page.natAbs).length ≤ maxStrDigits)
  | verb => verb.identifier.all fun identifier => identifier.all fun c => !Utf8.isSurrogate c

theorem itemPath_built_iff (base identifier : Str) :
    (∃ path, itemPath base identifier = .ok path) ↔
      identifier.all (fun c => !Utf8.isSurrogate c) = true := by
  have plain : identifier.all (fun c => !Utf8.isSurrogate c) = true ↔
      ∀ c ∈ identifier, Utf8.isSurrogate c = false := by
    simp only [List.all_eq_true, Bool.not_eq_true']
  rw [plain]
  unfold itemPath Codecs.quote
  constructor
  · intro built
    cases encoded : Utf8.encode identifier with
    | none =>
        rw [encoded] at built
        obtain ⟨path, absurdity⟩ := built
        cases absurdity
    | some octets => exact Utf8.no_surrogate_of_encode encoded
  · intro scalar
    obtain ⟨octets, encoded⟩ := Utf8.encode_of_no_surrogate scalar
    rw [encoded]
    exact ⟨_, rfl⟩

theorem printablePage_iff (params : Items Str Value) :
    PrintablePage params ↔ ((params.get pageKey).bind integerMeant).all
      (fun page => decide ((natText page.natAbs).length ≤ maxStrDigits)) = true := by
  unfold PrintablePage
  change (∀ n, params.get pageKey = some (.int n) → _) ↔ _
  cases params.get pageKey with
  | none => exact iff_of_true (fun n impossible => by cases impossible) rfl
  | some value =>
      cases value with
      | int n =>
          simp only [Option.some.injEq, Value.int.injEq, forall_eq', Option.bind_some,
            integerMeant, Option.all_some, decide_eq_true_eq]
      | _ => exact iff_of_true (fun n impossible => by cases impossible) rfl

/-- A builder of an item builds when the path does. -/
theorem item_built_iff (base identifier : Str) (rest : Str → RequestSpec) :
    (∃ spec, (itemPath base identifier >>= fun path => .ok (rest path)) = .ok spec) ↔
      identifier.all (fun c => !Utf8.isSurrogate c) = true := by
  rw [← itemPath_built_iff base identifier]
  constructor
  · rintro ⟨spec, built⟩
    obtain ⟨path, found, _⟩ := bind_eq_ok_iff.mp built
    exact ⟨path, found⟩
  · rintro ⟨path, found⟩
    exact ⟨rest path, bind_eq_ok_iff.mpr ⟨path, found, rfl⟩⟩

/-- A well-typed verb that names an item fails in nothing but the path of the item. -/
theorem built_item (runtime : Runtime) {verb : Verb} (typed : verb.WellTyped) {identifier : Str}
    (named : verb.identifier = some identifier) :
    ∃ (base : Str) (rest : Str → RequestSpec), verb.built runtime =
      (itemPath base identifier >>= fun path => .ok (rest path)) := by
  cases verb with
  | emailsSend params => cases named
  | credentialInfo => cases named
  | scheduledEmailsList params => cases named
  | scheduledEmailsUpdate emailId params =>
      obtain ⟨text, rendered⟩ :=
        scheduledAtText_eq_ok runtime typed List.mem_cons_self (by decide)
      cases named
      simp only [Verb.built, updateSpec, rendered]
      exact ⟨scheduledPath, _, rfl⟩
  | batchesUpdate batchId params =>
      obtain ⟨text, rendered⟩ :=
        scheduledAtText_eq_ok runtime typed List.mem_cons_self (by decide)
      cases named
      simp only [Verb.built, batchUpdateSpec, rendered]
      exact ⟨batchPath, _, rfl⟩
  | _ =>
      cases named
      exact ⟨_, _, rfl⟩

/-- A well-typed verb builds its request exactly when its texts can be written. -/
theorem built_iff_spellable (runtime : Runtime) {verb : Verb} (typed : verb.WellTyped) :
    (∃ spec, verb.built runtime = .ok spec) ↔ verb.spellable = true := by
  cases verb with
  | emailsSend params =>
      exact iff_of_true ⟨_, buildSendBody_eq runtime typed.fits typed.distinct⟩ rfl
  | credentialInfo => exact iff_of_true ⟨_, rfl⟩ rfl
  | scheduledEmailsList params =>
      exact (listSpec_built_iff runtime typed).trans (printablePage_iff params)
  | _ =>
      obtain ⟨base, rest, built⟩ := built_item runtime typed rfl
      rw [built]
      exact item_built_iff base _ rest

/-- What a call raises that cannot be written: `str` on a long page, the escaping of an
identifier otherwise. -/
def Verb.unspelled (verb : Verb) : Option Builtin :=
  if verb.spellable then none
  else
    match verb with
    | .scheduledEmailsList _ => some .valueError
    | _ => some .unicodeEncodeError

theorem item_error {base identifier : Str} {rest : Str → RequestSpec} {exception : Builtin}
    (failed : (itemPath base identifier >>= fun path => .ok (rest path)) = .error exception) :
    exception = .unicodeEncodeError := by
  rcases bind_eq_error_iff.mp failed with unescaped | ⟨path, _, impossible⟩
  · unfold itemPath at unescaped
    split at unescaped
    · cases unescaped
    · cases unescaped
      rfl
  · cases impossible

theorem built_unspelled (runtime : Runtime) {verb : Verb} {exception : Builtin}
    (typed : verb.WellTyped) (unspelled : verb.unspelled = some exception) :
    verb.built runtime = .error exception := by
  unfold Verb.unspelled at unspelled
  split at unspelled
  · cases unspelled
  rename_i unspellable
  cases built : verb.built runtime with
  | ok spec => exact absurd ((built_iff_spellable runtime typed).mp ⟨spec, built⟩) unspellable
  | error other =>
      refine congrArg Except.error ?_
      cases verb with
      | emailsSend params => exact absurd rfl unspellable
      | credentialInfo => exact absurd rfl unspellable
      | scheduledEmailsList params =>
          cases unspelled
          exact listSpec_error typed built
      | _ =>
          cases unspelled
          obtain ⟨base, rest, made⟩ := built_item runtime typed rfl
          exact item_error (made.symm.trans built)

/-- A call that can be written has a request. -/
theorem spellable_of_unspelled {verb : Verb} (spelled : verb.unspelled = none) :
    verb.spellable = true := by
  unfold Verb.unspelled at spelled
  split at spelled
  · assumption
  · split at spelled <;> cases spelled

/-- What an operation on a client means for the service. -/
def Operation.meaning : Operation → Option ApiCall
  | .call verb => if verb.spellable then some verb.meaning else none
  | .close => none

section Sessions

variable {platform : Platform} {client : BaseClient} {base : PathUrl}
  (configured : client.baseUrl = base.text)
  (accepted : acceptsNetloc platform.runtime.hosts base.authority = true)

include configured accepted

/-- A proper call is made exactly when its texts can be written. -/
theorem issued_iff_spellable {verb : Verb} (typed : verb.WellTyped)
    (plainly : verb.NamesPlainly) :
    (∃ request, verb.issued platform client = .ok request) ↔ verb.spellable = true := by
  have whole : (∃ request, verb.issued platform client = .ok request) ↔
      ∃ spec, verb.built platform.runtime = .ok spec := by
    constructor
    · rintro ⟨request, issued⟩
      obtain ⟨spec, lifted, _⟩ := bind_eq_ok_iff.mp issued
      exact ⟨spec, liftBuiltin_eq_ok_iff.mp lifted⟩
    · rintro ⟨spec, built⟩
      have route := (built_enveloped built).route
      have reached := buildUrl_relative configured accepted (route_relative route plainly)
      have prepared := prepare_eq_ok_iff.mpr ⟨reached, rfl⟩
      exact ⟨_, bind_eq_ok_iff.mpr ⟨spec, liftBuiltin_eq_ok_iff.mpr built,
        bind_eq_ok_iff.mpr ⟨_, prepared, rfl⟩⟩⟩
  rw [whole, built_iff_spellable platform.runtime typed]

/-- What is sent of a call is what it means, when it can be written. -/
theorem sends_received {verb : Verb} (typed : verb.WellTyped) (plainly : verb.NamesPlainly) :
    (verb.issued platform client).toOption.toList.map
        (receive platform.runtime (directoryText base)) =
      (Operation.call verb).meaning.toList.map fun call => some (client.apiKey, call) := by
  have made := issued_iff_spellable configured accepted typed plainly
  unfold Operation.meaning
  dsimp only
  cases issued : verb.issued platform client with
  | error exn =>
      have unspellable : ¬verb.spellable = true := by
        rw [← made, issued]
        exact nofun
      rw [if_neg unspellable]
      rfl
  | ok request =>
      rw [if_pos (made.mp ⟨request, issued⟩)]
      have read := receive_issued configured accepted typed plainly issued
      exact congrArg (fun received => [received]) read

end Sessions

/-- The service reads off a session of proper calls what they mean, each once and in order;
only a call that cannot be written is not made. -/
theorem session_understood (platform : Platform) (http : HttpLibrary) (flavour : Flavour)
    {environ : Items Str Str} {apiKey baseUrl userAgentSuffix : Option Str}
    {httpClient : Option Bool} {session : Session} {base : PathUrl}
    (made : Session.init environ apiKey baseUrl userAgentSuffix httpClient = .ok session)
    (resolved : resolvedBaseUrl environ baseUrl = base.text)
    (accepted : acceptsNetloc platform.runtime.hosts base.authority = true)
    {operations : List Operation}
    (proper : ∀ verb, .call verb ∈ operations → verb.WellTyped ∧ verb.NamesPlainly) :
    (queries (session.after platform http flavour operations).events).map
        (receive platform.runtime (directoryText base)) =
      (operations.filterMap Operation.meaning).map fun call =>
        some (session.client.apiKey, call) := by
  obtain ⟨client, configured, same⟩ := bind_eq_ok_iff.mp made
  have text : session.client.baseUrl = base.text := by
    cases same
    exact (init_baseUrl configured).trans resolved
  have sent := (after_traffic platform http flavour session operations (by
    cases same
    exact accountable_nil)).1
  have start : queries session.events = [] := by
    cases same
    rfl
  rw [start, List.nil_append] at sent
  rw [sent]
  clear sent
  induction operations with
  | nil => rfl
  | cons operation rest ih =>
      have later := ih fun verb member => proper verb (List.mem_cons_of_mem _ member)
      cases operation with
      | close => exact later
      | call verb =>
          obtain ⟨typed, plainly⟩ := proper verb List.mem_cons_self
          have here := sends_received text accepted typed plainly
          have whole : (Operation.call verb :: rest).filterMap Operation.meaning =
              (Operation.call verb).meaning.toList ++ rest.filterMap Operation.meaning := by
            rw [List.filterMap_cons]
            cases (Operation.call verb).meaning <;> rfl
          rw [sends_call, List.map_append, here, later, whole, List.map_append]

/-- Half past nine, two hours east of Greenwich. -/
def springMorning : Datetime where
  year := 2030
  month := 3
  day := 5
  hour := 9
  minute := 30
  second := 0
  microsecond := 0
  offset := some 7200000000
  yearRange := by decide
  monthRange := by decide
  dayRange := by decide
  timeRange := by decide
  offsetRange _ given := by
    rw [← Option.some.inj given]
    decide

/-- A reminder is put off, and the client is closed. -/
def puttingOff : List Operation :=
  [.call (.scheduledEmailsUpdate (str "em/1") [(scheduledAtKey, .datetime springMorning)]), .close]

theorem session_understood_sample :
    (queries (defaultSession.after Platform.plain quietLibrary .async puttingOff).events).map
        (receive Platform.plain.runtime (directoryText defaultBase.pathUrl)) =
      [some (str "mk_key", .reschedule (str "em/1") (.moment springMorning.asRead) none)] :=
  @session_understood Platform.plain quietLibrary .async [] (some (str "mk_key")) none none none
    defaultSession defaultBase.pathUrl rfl (by decide) (by decide) puttingOff (by
      intro verb listed
      rcases List.mem_cons.mp listed with same | absurdity
      · cases same
        exact ⟨⟨by decide, by decide, by decide⟩, fun _ named => by
          cases named
          exact ⟨by decide, by decide, by decide⟩⟩
      · cases List.mem_singleton.mp absurdity)

end MailkubeSdk
