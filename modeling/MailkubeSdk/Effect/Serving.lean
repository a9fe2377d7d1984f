import MailkubeSdk.Effect.Interleaving

/-
Interleaved consumers of one server.

The server has a state of its own and handles one query at a time.  A query
waits until it is handled, and the answer is in flight until it is delivered; in
between anybody else may take a step.  Whatever the order, the server's history
is a sequential one, and each consumer has exchanged what the history says of it.
-/

namespace Effect

variable {I K : Type} {O : K → Type} {Q A N E S : Type}

/-- What the server answers to a query, and where it is then. -/
abbrev Responder (S Q A : Type) := S → Q → S × A

/-! ### Sequential histories -/

/-- A query that was handled, and for whom. -/
structure Handled (I Q A : Type) where
  consumer : I
  query : Q
  answer : A

namespace Responder

variable (serve : Responder S Q A)

def stateAfter (state : S) (history : List (Handled I Q A)) : S :=
  history.foldl (fun state handled => (serve state handled.query).1) state

/-- Each query is answered in the state that the queries before it lead to. -/
def Sequential : S → List (Handled I Q A) → Prop
  | _, [] => True
  | state, handled :: rest =>
      handled.answer = (serve state handled.query).2 ∧
        Sequential (serve state handled.query).1 rest

variable {serve}

theorem stateAfter_append (state : S) (first second : List (Handled I Q A)) :
    serve.stateAfter state (first ++ second) =
      serve.stateAfter (serve.stateAfter state first) second :=
  List.foldl_append

theorem Sequential.concat {state : S} {history : List (Handled I Q A)}
    (sequential : serve.Sequential state history) (consumer : I) (query : Q) :
    serve.Sequential state
      (history ++ [⟨consumer, query, (serve (serve.stateAfter state history) query).2⟩]) := by
  induction history generalizing state with
  | nil => exact ⟨rfl, trivial⟩
  | cons handled rest ih => exact ⟨sequential.1, ih sequential.2⟩

/-- What was handled between two stretches of a history was answered after the first. -/
theorem Sequential.at {state : S} {before after : List (Handled I Q A)} {handled : Handled I Q A}
    (sequential : serve.Sequential state (before ++ handled :: after)) :
    handled.answer = (serve (serve.stateAfter state before) handled.query).2 := by
  induction before generalizing state with
  | nil => exact sequential.1
  | cons earlier rest ih => exact ih sequential.2

end Responder

def Handled.of? [DecidableEq I] (consumer : I) (handled : Handled I Q A) : Option (Q × A) :=
  if handled.consumer = consumer then some (handled.query, handled.answer) else none

/-- What a history says of one consumer. -/
def exchangesOf [DecidableEq I] (consumer : I) (history : List (Handled I Q A)) : List (Q × A) :=
  history.filterMap (Handled.of? consumer)

section ExchangesOf

variable [DecidableEq I] {consumer : I} {history : List (Handled I Q A)}

theorem exchangesOf_concat_self (query : Q) (answer : A) :
    exchangesOf consumer (history ++ [⟨consumer, query, answer⟩]) =
      exchangesOf consumer history ++ [(query, answer)] := by
  have own : Handled.of? consumer ⟨consumer, query, answer⟩ = some (query, answer) := if_pos rfl
  unfold exchangesOf
  rw [List.filterMap_append, List.filterMap_cons_some own, List.filterMap_nil]

theorem exchangesOf_concat_of_ne {other : I} (apart : other ≠ consumer) (query : Q) (answer : A) :
    exchangesOf consumer (history ++ [⟨other, query, answer⟩]) = exchangesOf consumer history := by
  have skipped : Handled.of? consumer ⟨other, query, answer⟩ = none := if_neg apart
  unfold exchangesOf
  rw [List.filterMap_append, List.filterMap_cons_none skipped, List.filterMap_nil,
    List.append_nil]

/-- What a history says of a consumer stands somewhere in it. -/
theorem exists_of_exchangesOf {query : Q} {answer : A}
    (member : (query, answer) ∈ exchangesOf consumer history) :
    ∃ before after, history = before ++ ⟨consumer, query, answer⟩ :: after := by
  obtain ⟨⟨whose, asked, given⟩, inside, own⟩ := List.mem_filterMap.mp member
  unfold Handled.of? at own
  by_cases same : whose = consumer
  · rw [if_pos same] at own
    cases own
    cases same
    exact List.append_of_mem inside
  · rw [if_neg same] at own
    cases own

end ExchangesOf

/-! ### Consumers and their server -/

/-- Consumers between two turns, their server, and the answers that are in flight. -/
structure Serving (system : System I K O Q A N E) (S : Type) where
  config : Config system
  state : S
  inFlight : I → Option A
  history : List (Handled I Q A)

inductive Turn (I : Type) where
  | step (consumer : I)
  | handle (consumer : I)
  | deliver (consumer : I)

namespace Serving

variable {system : System I K O Q A N E}

def start (initial : Memory O) (state : S) : Serving system S :=
  ⟨.start initial, state, fun _ => none, []⟩

variable [DecidableEq I] [DecidableEq K] (serve : Responder S Q A)

def move (serving : Serving system S) : Turn I → Serving system S
  | .step consumer => { serving with config := serving.config.move (consumer, .step) }
  | .handle consumer =>
      match (serving.config.thread consumer).phase, serving.inFlight consumer with
      | .waiting query _, none =>
          { serving with
            state := (serve serving.state query).1
            inFlight := Function.update serving.inFlight consumer
              (some (serve serving.state query).2)
            history := serving.history ++
              [⟨consumer, query, (serve serving.state query).2⟩] }
      | _, _ => serving
  | .deliver consumer =>
      match serving.inFlight consumer with
      | some answer =>
          { serving with
            config := serving.config.move (consumer, .deliver answer)
            inFlight := Function.update serving.inFlight consumer none }
      | none => serving

def after (serving : Serving system S) (turns : List (Turn I)) : Serving system S :=
  turns.foldl (move serve) serving

/-- What the history says of a consumer is what it has exchanged, and the answer to what
it waits for, when that is in flight. -/
def Accounts (exchanged : List (Q × A)) {σ ι : Type} (thread : Thread K O Q A N E σ ι) :
    Option A → Prop
  | none => exchanged = exchanges thread.events
  | some answer => ∃ query next, thread.phase = .waiting query next ∧
      exchanged = exchanges thread.events ++ [(query, answer)]

/-- The server has answered in sequence, and each consumer is accounted for. -/
structure Linear (initial : Memory O) (origin : S) (serving : Serving system S) : Prop where
  scheduled : ∃ schedule, serving.config = (Config.start initial).after schedule
  state : serving.state = serve.stateAfter origin serving.history
  sequential : serve.Sequential origin serving.history
  accounts : ∀ consumer, Accounts (exchangesOf consumer serving.history)
    (serving.config.thread consumer) (serving.inFlight consumer)

variable {serve} {initial : Memory O} {origin : S} {serving : Serving system S}

theorem start_linear : (start initial origin : Serving system S).Linear serve initial origin where
  scheduled := ⟨[], rfl⟩
  state := rfl
  sequential := trivial
  accounts _ := rfl

/-- A step of a consumer exchanges nothing. -/
theorem act_step_exchanges {σ ι : Type} (jobs : σ → Job K O Q A N E (Signal σ ι))
    (memory : Memory O) (thread : Thread K O Q A N E σ ι) :
    exchanges (thread.act jobs memory .step).2.events = exchanges thread.events := by
  obtain ⟨phase, items, events⟩ := thread
  cases phase with
  | resting status => cases status <;> rfl
  | waiting query next => rfl
  | running job =>
      cases job with
      | note message next =>
          change exchanges (events ++ [.noted message]) = _
          rw [exchanges_append]
          exact List.append_nil _
      | done signal => cases signal <;> rfl
      | _ => rfl

theorem act_step_accounts {σ ι : Type} {jobs : σ → Job K O Q A N E (Signal σ ι)}
    {memory : Memory O} {thread : Thread K O Q A N E σ ι} {exchanged : List (Q × A)}
    {inFlight : Option A} (accounts : Accounts exchanged thread inFlight) :
    Accounts exchanged (thread.act jobs memory .step).2 inFlight := by
  cases inFlight with
  | none => exact Eq.trans accounts (act_step_exchanges jobs memory thread).symm
  | some answer =>
      obtain ⟨query, next, waiting, same⟩ := accounts
      have still : (thread.act jobs memory .step).2 = thread := by
        unfold Thread.act
        rw [waiting]
      rw [still]
      exact ⟨query, next, waiting, same⟩

theorem move_scheduled {config : Config system}
    (scheduled : ∃ schedule, config = (Config.start initial).after schedule)
    (turn : I × Action A) :
    ∃ schedule, config.move turn = (Config.start initial).after schedule := by
  obtain ⟨schedule, rfl⟩ := scheduled
  refine ⟨schedule ++ [turn], ?_⟩
  rw [Config.after_append]
  rfl

/-- Every turn keeps the history sequential and the consumers accounted for. -/
theorem move_linear (linear : serving.Linear serve initial origin) (turn : Turn I) :
    (serving.move serve turn).Linear serve initial origin := by
  cases turn with
  | step consumer =>
      refine ⟨move_scheduled linear.scheduled _, linear.state, linear.sequential, ?_⟩
      intro any
      change Accounts _ ((serving.config.move (consumer, .step)).thread any) _
      by_cases same : any = consumer
      · subst same
        rw [Config.move_thread_self]
        exact act_step_accounts (linear.accounts any)
      · rw [Config.move_thread_of_ne _ same]
        exact linear.accounts any
  | handle consumer =>
      unfold move
      dsimp only
      split
      case h_2 => exact linear
      case h_1 query next waiting free =>
        refine ⟨linear.scheduled, ?_, ?_, ?_⟩
        · change (serve serving.state query).1 = serve.stateAfter origin (serving.history ++ _)
          rw [Responder.stateAfter_append, ← linear.state]
          rfl
        · rw [linear.state]
          exact linear.sequential.concat consumer query
        · intro any
          by_cases same : any = consumer
          · subst same
            have before := linear.accounts any
            rw [free] at before
            dsimp only
            rw [Function.update_self, exchangesOf_concat_self]
            exact ⟨query, next, waiting, congrArg (· ++ _) before⟩
          · dsimp only
            rw [Function.update_of_ne same, exchangesOf_concat_of_ne (Ne.symm same)]
            exact linear.accounts any
  | deliver consumer =>
      unfold move
      dsimp only
      split
      case h_2 => exact linear
      case h_1 answer flying =>
        refine ⟨move_scheduled linear.scheduled _, linear.state, linear.sequential, ?_⟩
        intro any
        by_cases same : any = consumer
        · subst same
          obtain ⟨query, next, waiting, exchanged⟩ := (flying ▸ linear.accounts any :
            Accounts _ (serving.config.thread any) (some answer))
          dsimp only
          rw [Function.update_self, Config.move_thread_self]
          unfold Thread.act
          rw [waiting]
          refine exchanged.trans ?_
          dsimp only
          rw [exchanges_append]
          rfl
        · dsimp only
          rw [Function.update_of_ne same, Config.move_thread_of_ne _ same]
          exact linear.accounts any

theorem after_linear (turns : List (Turn I)) :
    ((start initial origin : Serving system S).after serve turns).Linear serve initial origin := by
  suffices general : ∀ serving : Serving system S, serving.Linear serve initial origin →
      (serving.after serve turns).Linear serve initial origin from general _ start_linear
  induction turns with
  | nil => exact fun serving linear => linear
  | cons turn rest ih => exact fun serving linear => ih _ (move_linear linear turn)

/-- Nothing that was handled is undone. -/
theorem after_history (serving : Serving system S) (turns : List (Turn I)) :
    serving.history <+: (serving.after serve turns).history := by
  induction turns generalizing serving with
  | nil => exact List.prefix_refl _
  | cons turn rest ih =>
      refine List.IsPrefix.trans ?_ (ih (serving.move serve turn))
      cases turn with
      | step consumer => exact List.prefix_refl _
      | handle consumer =>
          unfold move
          dsimp only
          split
          · exact List.prefix_append _ _
          · exact List.prefix_refl _
      | deliver consumer =>
          unfold move
          dsimp only
          split <;> exact List.prefix_refl _

theorem after_append (serving : Serving system S) (first second : List (Turn I)) :
    serving.after serve (first ++ second) = (serving.after serve first).after serve second :=
  List.foldl_append

end Serving

end Effect
