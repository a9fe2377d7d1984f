import MailkubeSdk.Concurrency
import MailkubeSdk.Effect.Serving
import MailkubeSdk.ServiceCalls
import MailkubeSdk.WalkReplay

/-
Callers of one client before one service.

The callers of a client run at once, and the service handles their requests one
at a time, each while its caller waits.  Every call has the result, and leaves
the service in the state, that it has when it is handed to the service at its
place in the history; a walk yields the items of the pages it was served.
-/

namespace MailkubeSdk

open Python Effect Url

variable {platform : Platform} {State : Type}

/-- What answers the requests of an open client is a service behind the HTTP library: proper
calls that the library refuses fail and leave the service alone, and the service handles the
requests of the others.  Other requests may be answered in any way. -/
structure Service.AnswersBehind (service : Service platform State) (directory : Str)
    (client : BaseClient) (refusal : Refusal)
    (serve : Responder State HttpRequest HttpOutcome) : Prop where
  refuses : ∀ state verb request failure, Operation.Proper (.call verb) →
    verb.issued platform client = .ok request → refusal true verb = some failure →
      serve state request = (state, failure.outcome)
  delivers : ∀ state verb request, Operation.Proper (.call verb) →
    verb.issued platform client = .ok request → refusal true verb = none →
      serve state request = (service.absorb directory state request,
        .response (service.respond directory state request))

/-- An open client whose service is at hand, in a state. -/
abbrev Direct.opened (state : State) : Direct State := ⟨true, true, state⟩

section Calls

variable {service : Service platform State} {client : BaseClient} {base : PathUrl}
  {refusal : Refusal} {serve : Responder State HttpRequest HttpOutcome}
  (configured : client.baseUrl = base.text)
  (accepted : acceptsNetloc platform.runtime.hosts base.authority = true)

include configured accepted

/-- What becomes of the request of a call is what becomes of the call. -/
theorem serve_issued
    (answers : service.AnswersBehind (directoryText base) client refusal serve) {verb : Verb}
    (proper : Operation.Proper (.call verb)) {request : HttpRequest}
    (issued : verb.issued platform client = .ok request) (state : State) :
    let handled := serve state request
    let called := (Direct.opened state).call service client refusal verb
    handled.1 = called.1.state ∧ answered handled.2 >>= verb.parse platform = called.2 := by
  have spelled : verb.unspelled = none := by
    cases unspelled : verb.unspelled with
    | none => rfl
    | some exception =>
        rw [issued_unspelled proper.1 unspelled] at issued
        cases issued
  unfold Direct.call
  rw [spelled]
  dsimp only
  cases refused : refusal true verb with
  | some failure =>
      rw [answers.refuses state verb request failure proper issued refused]
      dsimp only
      rw [failure.answered_outcome]
      exact ⟨rfl, rfl⟩
  | none =>
      rw [answers.delivers state verb request proper issued refused]
      constructor
      · exact absorb_issued configured accepted proper issued state
      · exact parse_respond configured accepted proper issued (.opened state)

end Calls

/-! ### What a caller may rely on -/

section Relying

variable {I : Type} [DecidableEq I] (service : Service platform State) (client : BaseClient)
  (refusal : Refusal) (serve : Responder State HttpRequest HttpOutcome)
  (history : List (Handled I HttpRequest HttpOutcome))

/-- A call that is over asked for nothing, and its result depends on no service; or it asked
once, and its result and the next state are those of the call at that place. -/
def CallLinearized (caller : I) (verb : Verb) (thread : Caller I (.call verb)) : Prop :=
  ∀ result, thread.Ended result →
    (exchangesOf caller history = [] ∧
      ∀ direct : Direct State, direct.call service client refusal verb = (direct, result)) ∨
    ∃ before request answer after, history = before ++ ⟨caller, request, answer⟩ :: after ∧
      exchangesOf caller history = [(request, answer)] ∧
      let called := (Direct.opened (serve.stateAfter service.start before)).call service client
        refusal verb
      result = called.2 ∧
        serve.stateAfter service.start (before ++ [⟨caller, request, answer⟩]) = called.1.state

/-- A walk has yielded items of the pages it was served, in order, and all of them if it
has returned. -/
structure WalkLinearized (platform : Platform) (caller : I) (params : Items Str Value)
    (thread : Caller I (.walk params)) : Prop where
  items : thread.items <+: (replay platform client (listingStage platform client params)
    (exchangesOf caller history)).1
  whole : thread.phase = .resting .returned →
    thread.items = (replay platform client (listingStage platform client params)
      (exchangesOf caller history)).1

def Use.Linearized (caller : I) : (use : Use) → Caller I use → Prop
  | .call verb, thread => CallLinearized service client refusal serve history caller verb thread
  | .walk params, thread => WalkLinearized client history platform caller params thread

end Relying

section Linear

variable {I : Type} [DecidableEq I] {service : Service platform State} {client : BaseClient}
  {base : PathUrl} {refusal : Refusal} {serve : Responder State HttpRequest HttpOutcome}
  {history : List (Handled I HttpRequest HttpOutcome)} {caller : I}

/-- A call that is over waits for nothing. -/
theorem ended_accounts {verb : Verb} {thread : Caller I (.call verb)} {server : Server}
    {memory : Memory (@Cell.Content I)} {inFlight : Option HttpOutcome}
    {exchanged : List (HttpRequest × HttpOutcome)}
    (follows : thread.Follows (once (call platform client .sync verb)) false server memory)
    (accounts : Serving.Accounts exchanged thread inFlight)
    {result : Except Exn verb.Result} (ended : thread.Ended result) :
    exchanged = exchanges thread.events ∧
      (call platform client .sync verb).run server [] = ⟨thread.events, result⟩ := by
  obtain ⟨sent, _, ends⟩ := Thread.once_account follows
  have ran := ends result ended
  refine ⟨?_, ran⟩
  cases inFlight with
  | none => exact accounts
  | some answer =>
      obtain ⟨query, next, waiting, _⟩ := accounts
      unfold Thread.sent at sent
      rw [waiting, ran] at sent
      have short := sent.length_le
      rw [List.length_append, List.length_singleton] at short
      exact absurd short (Nat.not_succ_le_self _)

theorem call_linearized (configured : client.baseUrl = base.text)
    (accepted : acceptsNetloc platform.runtime.hosts base.authority = true)
    (answers : service.AnswersBehind (directoryText base) client refusal serve) {verb : Verb}
    (proper : Operation.Proper (.call verb)) {thread : Caller I (.call verb)}
    {memory : Memory (@Cell.Content I)} {inFlight : Option HttpOutcome}
    (follows : ∀ server, Agrees server thread.events →
      thread.Follows (once (call platform client .sync verb)) false server memory)
    (sequential : serve.Sequential service.start history)
    (accounts : Serving.Accounts (exchangesOf caller history) thread inFlight) :
    CallLinearized service client refusal serve history caller verb thread := by
  intro result ended
  have someone : Nonempty HttpOutcome := ⟨.httpError []⟩
  obtain ⟨server, agrees⟩ : ∃ server : Server, Agrees server thread.events := exists_agrees _
  obtain ⟨exchanged, ran⟩ := ended_accounts (follows server agrees) accounts ended
  cases unspelled : verb.unspelled with
  | some exception =>
      have refused := @issued_unspelled platform client verb exception proper.1 unspelled
      have silent := (verb_run_refused platform client refused .sync server []).symm.trans ran
      have events := congrArg Run.events silent
      have same := congrArg Run.result silent
      dsimp only at events same
      refine Or.inl ⟨?_, fun direct => ?_⟩
      · rw [exchanged, ← events]
        rfl
      · unfold Direct.call
        rw [unspelled, ← same]
  | none =>
      obtain ⟨request, issued⟩ := (issued_iff_spellable configured accepted proper.1 proper.2).mpr
        (spellable_of_unspelled unspelled)
      have asked := (verb_run_issued platform client issued .sync server []).symm.trans ran
      have events := congrArg Run.events asked
      have same := congrArg Run.result asked
      dsimp only at events same
      rw [← events, exchanges_conversation] at exchanged
      obtain ⟨before, after, split⟩ := exists_of_exchangesOf (exchanged ▸ List.mem_singleton_self _)
      refine Or.inr ⟨before, request, _, after, split, exchanged, ?_⟩
      rw [split] at sequential
      have answer := sequential.at
      dsimp only at answer
      obtain ⟨moved, shown⟩ := serve_issued configured accepted answers proper issued
        (serve.stateAfter service.start before)
      refine ⟨?_, ?_⟩
      · rw [← same, answer]
        exact shown
      · rw [Responder.stateAfter_append]
        exact moved

theorem replay_append (stage : Stage) (first second : List (HttpRequest × HttpOutcome)) :
    ∃ more, (replay platform client stage (first ++ second)).1 =
      (replay platform client stage first).1 ++ more := by
  induction first generalizing stage with
  | nil => exact ⟨_, rfl⟩
  | cons exchange rest ih =>
      obtain ⟨asked, given⟩ := exchange
      obtain ⟨more, later⟩ := ih (stage.next platform client given).2
      refine ⟨more, ?_⟩
      simp only [List.cons_append, replay]
      rw [later, List.append_assoc]

theorem walk_linearized {params : Items Str Value} {thread : Caller I (.walk params)}
    {memory : Memory (@Cell.Content I)} {inFlight : Option HttpOutcome}
    (follows : ∀ server, Agrees server thread.events →
      thread.Follows (iterAll platform client .sync params) .entry server memory)
    (accounts : Serving.Accounts (exchangesOf caller history) thread inFlight) :
    WalkLinearized client history platform caller params thread := by
  have someone : Nonempty HttpOutcome := ⟨.httpError []⟩
  obtain ⟨server, agrees⟩ : ∃ server : Server, Agrees server thread.events := exists_agrees _
  obtain ⟨steps, items, behind, _, _, resting⟩ := Thread.follows_account (follows server agrees)
  have replayed : WalkReplayed platform client (listingStage platform client params)
      (walk platform client .sync params server steps) :=
    walk_invariant platform client start_replayed moves_replayed .sync steps
  have stands := replayed.stands
  have yielded : (walk platform client .sync params server steps).items <+:
      (replay platform client (listingStage platform client params)
        (exchanges (walk platform client .sync params server steps).events)).1 := by
    cases status : (walk platform client .sync params server steps).status with
    | suspended state =>
        rw [status] at stands
        cases state with
        | entry => exact ⟨[], (List.append_nil _).trans stands.1⟩
        | within page rest => exact ⟨rest, stands.1⟩
    | returned =>
        rw [status] at stands
        exact ⟨[], (List.append_nil _).trans stands.1⟩
    | raised exn =>
        rw [status] at stands
        exact ⟨[], (List.append_nil _).trans stands.1⟩
  constructor
  · obtain ⟨later, grown⟩ := behind
    obtain ⟨more, exchanged⟩ : ∃ more, exchangesOf caller history =
        exchanges (walk platform client .sync params server steps).events ++ more := by
      have own : ∃ more, exchangesOf caller history = exchanges thread.events ++ more := by
        cases inFlight with
        | none => exact ⟨[], (Eq.trans accounts (List.append_nil _).symm)⟩
        | some answer =>
            obtain ⟨query, next, _, same⟩ := accounts
            exact ⟨_, same⟩
      obtain ⟨more, same⟩ := own
      refine ⟨exchanges later ++ more, ?_⟩
      rw [same, ← grown, exchanges_append, List.append_assoc]
      rfl
    obtain ⟨further, whole⟩ := @replay_append platform client
      (listingStage platform client params) _ more
    rw [items, exchanged, whole]
    exact yielded.trans (List.prefix_append _ _)
  · intro returned
    obtain ⟨status, events⟩ := resting _ returned
    change (walk platform client .sync params server steps).status = .returned at status
    change (walk platform client .sync params server steps).events = _ at events
    have exchanged : exchangesOf caller history = exchanges thread.events := by
      cases inFlight with
      | none => exact accounts
      | some answer =>
          obtain ⟨query, next, waiting, _⟩ := accounts
          rw [returned] at waiting
          cases waiting
    rw [status, events] at stands
    rw [items, exchanged]
    exact stands.1

theorem Use.linearized (configured : client.baseUrl = base.text)
    (accepted : acceptsNetloc platform.runtime.hosts base.authority = true)
    (answers : service.AnswersBehind (directoryText base) client refusal serve) (use : Use)
    (proper : ∀ verb, use = .call verb → Operation.Proper (.call verb))
    {thread : Caller I use} {memory : Memory (@Cell.Content I)} {inFlight : Option HttpOutcome}
    (follows : ∀ server, Agrees server thread.events →
      thread.Follows (use.alone platform client .sync) use.entry server memory)
    (sequential : serve.Sequential service.start history)
    (accounts : Serving.Accounts (exchangesOf caller history) thread inFlight) :
    use.Linearized service client refusal serve history caller thread := by
  cases use with
  | call verb =>
      exact call_linearized configured accepted answers (proper verb rfl) follows sequential
        accounts
  | walk params => exact walk_linearized follows accounts

end Linear

/-- A gate, and the service behind it. -/
def Service.responder (service : Service platform State) (directory : Str)
    (gate : HttpRequest → Option Failure) : Responder State HttpRequest HttpOutcome :=
  fun state request =>
    match gate request with
    | some failure => (state, failure.outcome)
    | none =>
        (service.absorb directory state request,
          .response (service.respond directory state request))

theorem responder_answers (service : Service platform State) (directory : Str)
    (client : BaseClient) (gate : Bool → HttpRequest → Option Failure) :
    service.AnswersBehind directory client (stopped gate platform client)
      (service.responder directory (gate true)) where
  refuses state verb request failure _ issued refused := by
    rw [stopped_of_issued gate issued] at refused
    unfold Service.responder
    rw [refused]
  delivers state verb request _ issued refused := by
    rw [stopped_of_issued gate issued] at refused
    unfold Service.responder
    rw [refused]

/-- One caller cancels a reminder while the other walks over all of them. -/
def cancelOrWalk : Bool → Use
  | true => .call (.scheduledEmailsCancel (str "em/1"))
  | false => .walk []

/-- Both ask, the walk's request is handled first, and the cancellation is answered first. -/
def crossedTurns : List (Turn Bool) :=
  List.replicate 12 (.step true) ++ List.replicate 12 (.step false) ++
    [.handle false, .handle true, .deliver true] ++ List.replicate 3 (.step true) ++
      [.deliver false]

end MailkubeSdk
