import MailkubeSdk.Envelope
import MailkubeSdk.Requests

/-
The user agent of every request.

The documented rule is about the suffix as the caller gave it: one that holds a
line break is ignored as a whole.  The constructor trims it first, so the rule
is kept exactly when trimming does not take the last line break away.
-/

namespace MailkubeSdk

open Python Effect

/-- A carriage return or a line feed stands somewhere in the text. -/
def HasLineBreak (text : Str) : Prop := cp '\r' ∈ text ∨ cp '\n' ∈ text

instance decidableHasLineBreak (text : Str) : Decidable (HasLineBreak text) :=
  inferInstanceAs (Decidable (_ ∨ _))

variable (platform : Platform)

def sdkToken : Str := str "mailkube-python/" ++ platform.version

/-- The header the contract documents for a suffix. -/
def documentedAgent (suffix : Str) : Str :=
  if HasLineBreak suffix then sdkToken platform
  else if strip suffix = [] then sdkToken platform
  else sdkToken platform ++ str " " ++ strip suffix

def userAgentOf (request : HttpRequest) : Option Str :=
  Items.get request.headers (str "User-Agent")

/-- No line break of the suffix is lost before the constructor looks for one. -/
def BreaksSurvive (suffix : Str) : Prop :=
  HasLineBreak suffix → strip suffix = [] ∨ HasLineBreak (strip suffix)

/-- A request carries the header documented for the suffix. -/
def FollowsRule (suffix : Str) (request : HttpRequest) : Prop :=
  userAgentOf request = some (documentedAgent platform suffix)

/-- A request's header has no line break that the token does not have. -/
def AddsNoBreak (request : HttpRequest) : Prop :=
  ∀ agent, userAgentOf request = some agent → HasLineBreak agent →
    HasLineBreak (sdkToken platform)

/-! ### The suffix -/

private theorem hasLineBreak_of_strip {text : Str} (broken : HasLineBreak (strip text)) :
    HasLineBreak text := by
  have inside : ∀ c, c ∈ strip text → c ∈ text := fun c => @mem_of_mem_trim isSpace c text
  exact broken.imp (inside _) (inside _)

variable {platform}

theorem init_userAgentSuffix {environ : Items Str Str} {apiKey baseUrl : Option Str} {suffix : Str}
    {client : BaseClient}
    (made : BaseClient.init environ apiKey baseUrl (some suffix) = .ok client) :
    client.userAgentSuffix = if HasLineBreak (strip suffix) then [] else strip suffix := by
  unfold BaseClient.init at made
  split at made
  · cases made
  · cases made
    rfl

theorem userAgent_init {environ : Items Str Str} {apiKey baseUrl : Option Str} {suffix : Str}
    {client : BaseClient}
    (made : BaseClient.init environ apiKey baseUrl (some suffix) = .ok client) :
    client.userAgent platform =
      if HasLineBreak (strip suffix) ∨ strip suffix = [] then sdkToken platform
      else sdkToken platform ++ str " " ++ strip suffix := by
  have kept := init_userAgentSuffix made
  by_cases broken : HasLineBreak (strip suffix) ∨ strip suffix = []
  · rw [if_pos broken]
    have dropped : client.userAgentSuffix = [] := by
      rw [kept]
      rcases broken with broken | blank
      · exact if_pos broken
      · rw [blank, ite_self]
    exact if_neg (not_not.mpr dropped)
  · rw [if_neg broken]
    obtain ⟨whole, inked⟩ := not_or.mp broken
    rw [if_neg whole] at kept
    unfold BaseClient.userAgent
    rw [kept]
    exact if_pos inked

theorem documentedAgent_iff (suffix : Str) :
    (if HasLineBreak (strip suffix) ∨ strip suffix = [] then sdkToken platform
      else sdkToken platform ++ str " " ++ strip suffix) = documentedAgent platform suffix ↔
      BreaksSurvive suffix := by
  unfold documentedAgent BreaksSurvive
  by_cases broken : HasLineBreak (strip suffix) ∨ strip suffix = []
  · rw [if_pos broken]
    refine iff_of_true ?_ (fun _ => broken.symm)
    rcases broken with broken | blank
    · rw [if_pos (hasLineBreak_of_strip broken)]
    · rw [if_pos blank, ite_self]
  · rw [if_neg broken]
    obtain ⟨whole, inked⟩ := not_or.mp broken
    by_cases given : HasLineBreak suffix
    · rw [if_pos given]
      apply iff_of_false
      · intro same
        rw [List.append_assoc] at same
        exact List.cons_ne_nil _ _ (List.append_right_eq_self.mp same)
      · intro survive
        exact (survive given).elim inked whole
    · rw [if_neg given, if_neg inked]
      exact iff_of_true rfl (fun given' => absurd given' given)

/-! ### Every request -/

theorem issued_userAgent {client : BaseClient} {request : HttpRequest}
    (issued : Issued platform client request) :
    userAgentOf request = some (client.userAgent platform) := by
  obtain ⟨spec, url, headers, own, prepared, rfl⟩ := issued
  obtain ⟨_, rfl⟩ := prepare_eq_ok_iff.mp prepared
  have absent : str "User-Agent" ∉ Items.keys spec.headers := by
    cases own with
    | built verb made =>
        rw [(built_enveloped made).headers]
        intro member
        unfold headerNames at member
        split at member
        · exact absurd (List.mem_singleton.mp member) (by decide)
        · cases member
    | linked page more =>
        obtain ⟨link, _, same⟩ := Option.map_eq_some_iff.mp more
        cases same
        exact List.not_mem_nil
  change Items.get ((client.defaultHeaders platform).update spec.headers) _ = _
  rw [Items.get_update_of_not_mem absent]
  rfl

theorem issued_followsRule_iff {environ : Items Str Str} {apiKey baseUrl : Option Str}
    {suffix : Str} {client : BaseClient}
    (made : BaseClient.init environ apiKey baseUrl (some suffix) = .ok client)
    {request : HttpRequest} (issued : Issued platform client request) :
    FollowsRule platform suffix request ↔ BreaksSurvive suffix := by
  unfold FollowsRule
  rw [issued_userAgent issued, Option.some.injEq, userAgent_init made]
  exact documentedAgent_iff suffix

theorem issued_addsNoBreak {environ : Items Str Str} {apiKey baseUrl : Option Str} {suffix : Str}
    {client : BaseClient}
    (made : BaseClient.init environ apiKey baseUrl (some suffix) = .ok client)
    {request : HttpRequest} (issued : Issued platform client request) :
    AddsNoBreak platform request := by
  intro agent found broken
  rw [issued_userAgent issued, Option.some.injEq, userAgent_init made] at found
  subst found
  split at broken
  · exact broken
  · rename_i kept
    rcases broken with member | member
    · rcases List.mem_append.mp member with front | back
      · rcases List.mem_append.mp front with token | space
        · exact .inl token
        · exact absurd space (by decide)
      · exact absurd (.inl (.inl back)) kept
    · rcases List.mem_append.mp member with front | back
      · rcases List.mem_append.mp front with token | space
        · exact .inr token
        · exact absurd space (by decide)
      · exact absurd (.inl (.inr back)) kept

/-- Each request of a client made with a suffix carries the documented header
exactly when trimming leaves a line break of the suffix in place, and in no case
a line break that the token does not have. -/
theorem suffix_rule_iff {environ : Items Str Str} {apiKey baseUrl : Option Str} {suffix : Str}
    {client : BaseClient}
    (made : BaseClient.init environ apiKey baseUrl (some suffix) = .ok client) :
    (∀ flavour verb server past,
      ∀ request ∈ queries ((call platform client flavour verb).run server past).events,
        (FollowsRule platform suffix request ↔ BreaksSurvive suffix) ∧
          AddsNoBreak platform request) ∧
    ∀ flavour params server steps,
      ∀ request ∈ queries (walk platform client flavour params server steps).events,
        (FollowsRule platform suffix request ↔ BreaksSurvive suffix) ∧
          AddsNoBreak platform request := by
  constructor
  · intro flavour verb server past request asked
    have issued := call_issued flavour verb server past request asked
    exact ⟨issued_followsRule_iff made issued, issued_addsNoBreak made issued⟩
  · intro flavour params server steps request asked
    have issued := walk_issued flavour params server steps request asked
    exact ⟨issued_followsRule_iff made issued, issued_addsNoBreak made issued⟩

/-! ### A suffix with a line break at its end -/

def brokenSuffix : Str := str "acme/1.0\n"

/-- What the constructor makes of it, with the default base. -/
def repairedClient : BaseClient := ⟨str "mk_key", defaultBaseUrl, str "acme/1.0"⟩

private theorem repairedClient_init :
    BaseClient.init [] (some (str "mk_key")) none (some brokenSuffix) = .ok repairedClient := by
  rfl

private theorem repairedClient_asks : ∃ request,
    queries ((call Platform.plain repairedClient .sync .credentialInfo).run
      (fun _ _ => .httpError []) []).events = [request] := by
  have joined : repairedClient.buildUrl Platform.plain infoSpec.path =
      .ok (str "https://api.mailkube.com/mta/v1/api-keys/me") :=
    eq_ok_of_toOption (by decide +kernel)
  have built : Verb.built Platform.plain.runtime .credentialInfo = .ok infoSpec := rfl
  have asked := congrArg queries
    (call_reaches _ _ built joined .sync (.httpError []) [])
  rw [queries_roundTrip] at asked
  exact ⟨_, asked⟩

theorem suffix_rule_iff_sample :
    ∃ request, queries ((call Platform.plain repairedClient .sync .credentialInfo).run
        (fun _ _ => .httpError []) []).events = [request] ∧
      (FollowsRule Platform.plain brokenSuffix request ↔ BreaksSurvive brokenSuffix) := by
  obtain ⟨request, asked⟩ := repairedClient_asks
  refine ⟨request, asked, ((@suffix_rule_iff Platform.plain _ _ _ _ _ repairedClient_init).1
    .sync .credentialInfo (fun _ _ => .httpError []) [] request ?_).1⟩
  rw [asked]
  exact List.mem_singleton.mpr rfl

/-- The line break is trimmed away and the rest is sent. -/
theorem suffix_repaired :
    BaseClient.init [] (some (str "mk_key")) none (some brokenSuffix) = .ok repairedClient ∧
      ∃ request, queries ((call Platform.plain repairedClient .sync .credentialInfo).run
          (fun _ _ => .httpError []) []).events = [request] ∧
        userAgentOf request = some (str "mailkube-python/0.0.0 acme/1.0") ∧
        documentedAgent Platform.plain brokenSuffix = str "mailkube-python/0.0.0" ∧
        ¬FollowsRule Platform.plain brokenSuffix request := by
  refine ⟨repairedClient_init, ?_⟩
  obtain ⟨request, asked⟩ := repairedClient_asks
  have issued := call_issued .sync .credentialInfo (fun _ _ => .httpError []) []
    request (by rw [asked]; exact List.mem_singleton.mpr rfl)
  have agent := issued_userAgent issued
  refine ⟨request, asked, ?_, by decide, ?_⟩
  · rw [agent]
    decide
  · intro follows
    unfold FollowsRule at follows
    rw [agent] at follows
    revert follows
    decide

end MailkubeSdk
