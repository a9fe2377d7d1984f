import MailkubeSdk.Effect.Generator
import MailkubeSdk.Effect.Job

/-
Interleaved consumers of one memory.

Any number of consumers run jobs over the same memory, a step at a time and in
any order; answers arrive in any order as well, each to the consumer that asked.
If every job is confined to the cells of its consumer, nobody observes anybody:
the shared cells stay as they were, and each consumer is where its own walk
would be, against any environment that answers it as it was answered.
-/

namespace Effect

variable {I K : Type} {O : K → Type} {Q A N E σ ι : Type}

/-! ### One consumer -/

inductive Phase (K : Type) (O : K → Type) (Q A N E σ ι : Type) where
  | resting (status : Status σ E)
  | running (job : Job K O Q A N E (Signal σ ι))
  | waiting (query : Q) (next : A → Job K O Q A N E (Signal σ ι))

structure Thread (K : Type) (O : K → Type) (Q A N E σ ι : Type) where
  phase : Phase K O Q A N E σ ι
  items : List ι
  events : List (Event Q A N)

/-- What the scheduler may do with a consumer. -/
inductive Action (A : Type) where
  | step
  | deliver (answer : A)

namespace Thread

def start (state : σ) : Thread K O Q A N E σ ι := ⟨.resting (.suspended state), [], []⟩

/-- A consumer that is where a walk is. -/
def atRest (walk : Walk Q A N E σ ι) : Thread K O Q A N E σ ι :=
  ⟨.resting walk.status, walk.items, walk.events⟩

/-- The queries handed over so far, the outstanding one included. -/
def sent (thread : Thread K O Q A N E σ ι) : List Q :=
  match thread.phase with
  | .waiting query _ => queries thread.events ++ [query]
  | _ => queries thread.events

def settle (thread : Thread K O Q A N E σ ι) : Signal σ ι → Thread K O Q A N E σ ι
  | .silent next => { thread with phase := .resting (.suspended next) }
  | .item value next =>
      { thread with phase := .resting (.suspended next), items := thread.items ++ [value] }
  | .finished => { thread with phase := .resting .returned }

variable [DecidableEq K] (jobs : σ → Job K O Q A N E (Signal σ ι))

/-- One action on a consumer; what it is not ready for changes nothing. -/
def act (memory : Memory O) (thread : Thread K O Q A N E σ ι) :
    Action A → Memory O × Thread K O Q A N E σ ι
  | .step =>
      match thread.phase with
      | .resting (.suspended state) => (memory, { thread with phase := .running (jobs state) })
      | .resting _ => (memory, thread)
      | .running (.done signal) => (memory, thread.settle signal)
      | .running (.fail error) => (memory, { thread with phase := .resting (.raised error) })
      | .running (.load cell next) =>
          (memory, { thread with phase := .running (next (memory cell)) })
      | .running (.store cell object next) =>
          (Function.update memory cell object, { thread with phase := .running next })
      | .running (.note message next) =>
          (memory,
            { thread with phase := .running next, events := thread.events ++ [.noted message] })
      | .running (.ask query next) => (memory, { thread with phase := .waiting query next })
      | .waiting _ _ => (memory, thread)
  | .deliver answer =>
      match thread.phase with
      | .waiting query next =>
          (memory,
            { thread with
              phase := .running (next answer)
              events := thread.events ++ [.exchanged query answer] })
      | _ => (memory, thread)

end Thread

/-! ### Many consumers -/

/-- Consumers, each with its own states, items and jobs. -/
structure System (I K : Type) (O : K → Type) (Q A N E : Type) where
  State : I → Type
  Item : I → Type
  entry : (consumer : I) → State consumer
  jobs : (consumer : I) → State consumer → Job K O Q A N E (Signal (State consumer) (Item consumer))

structure Config (system : System I K O Q A N E) where
  memory : Memory O
  thread : (consumer : I) → Thread K O Q A N E (system.State consumer) (system.Item consumer)

namespace Config

variable {system : System I K O Q A N E}

def start (initial : Memory O) : Config system :=
  ⟨initial, fun consumer => Thread.start (system.entry consumer)⟩

variable [DecidableEq I] [DecidableEq K]

def move (config : Config system) (turn : I × Action A) : Config system :=
  let acted := (config.thread turn.1).act (system.jobs turn.1) config.memory turn.2
  ⟨acted.1, Function.update config.thread turn.1 acted.2⟩

def after (config : Config system) (schedule : List (I × Action A)) : Config system :=
  schedule.foldl move config

end Config

/-! ### Agreeing environments -/

/-- The environment answers every query as the events say it was answered. -/
def Agrees (env : Environment Q A N) (events : List (Event Q A N)) : Prop :=
  ∀ past query answer later, events = past ++ .exchanged query answer :: later →
    env past query = answer

theorem Agrees.of_append {env : Environment Q A N} {events more : List (Event Q A N)}
    (agrees : Agrees env (events ++ more)) : Agrees env events := by
  intro past query answer later same
  apply agrees past query answer (later ++ more)
  rw [same, List.append_assoc, List.cons_append]

theorem Agrees.last {env : Environment Q A N} {events : List (Event Q A N)} {query : Q}
    {answer : A} (agrees : Agrees env (events ++ [.exchanged query answer])) :
    env events query = answer :=
  agrees events query answer [] rfl

/-- There is always one. -/
theorem exists_agrees [Nonempty A] (events : List (Event Q A N)) :
    ∃ env : Environment Q A N, Agrees env events := by
  refine ⟨fun past _ => ((events[past.length]?).bind Event.answer?).getD
    (Classical.choice inferInstance), ?_⟩
  rintro past query answer later rfl
  dsimp only
  rw [List.getElem?_append_right (Nat.le_refl _), Nat.sub_self]
  rfl

/-! ### Following one's own walk -/

/-- The program is what is left of the walk's current step. -/
def Midway (generator : Generator Q A N E σ ι) (env : Environment Q A N)
    (walk : Walk Q A N E σ ι) (events : List (Event Q A N))
    (program : Program Q A N E (Signal σ ι)) : Prop :=
  ∃ state before, walk.status = .suspended state ∧ events = walk.events ++ before ∧
    (generator state).run env walk.events =
      ⟨before ++ (program.run env events).events, (program.run env events).result⟩

namespace Midway

variable {generator : Generator Q A N E σ ι} {env : Environment Q A N} {walk : Walk Q A N E σ ι}
  {events : List (Event Q A N)}

theorem begun {state : σ} {program : Program Q A N E (Signal σ ι)}
    (suspended : walk.status = .suspended state)
    (same : program.run env walk.events = (generator state).run env walk.events) :
    Midway generator env walk walk.events program :=
  ⟨state, [], suspended, (List.append_nil _).symm, same.symm⟩

theorem noted {message : N} {rest : Program Q A N E (Signal σ ι)}
    (midway : Midway generator env walk events (.note message rest)) :
    Midway generator env walk (events ++ [.noted message]) rest := by
  obtain ⟨state, before, suspended, rfl, ran⟩ := midway
  refine ⟨state, before ++ [.noted message], suspended, List.append_assoc _ _ _, ?_⟩
  simp only [ran, Program.run_note, List.append_assoc, List.singleton_append]

theorem answered {query : Q} {answer : A} {next : A → Program Q A N E (Signal σ ι)}
    (midway : Midway generator env walk events (.ask query next))
    (same : env events query = answer) :
    Midway generator env walk (events ++ [.exchanged query answer]) (next answer) := by
  subst same
  obtain ⟨state, before, suspended, rfl, ran⟩ := midway
  refine ⟨state, before ++ [.exchanged query _], suspended, List.append_assoc _ _ _, ?_⟩
  simp only [ran, Program.run_ask, List.append_assoc, List.singleton_append]

/-- Where nothing is left to run, the walk has taken its step. -/
theorem ended {program : Program Q A N E (Signal σ ι)} {result : Except E (Signal σ ι)}
    (midway : Midway generator env walk events program)
    (nothing : program.run env events = ⟨[], result⟩) :
    ∃ before, events = walk.events ++ before ∧
      Walk.advance generator env walk = walk.resume ⟨before, result⟩ := by
  obtain ⟨state, before, suspended, same, ran⟩ := midway
  refine ⟨before, same, ?_⟩
  rw [Walk.advance_suspended suspended, ran, nothing, List.append_nil]

theorem behind {program : Program Q A N E (Signal σ ι)}
    (midway : Midway generator env walk events program) : walk.events <+: events := by
  obtain ⟨state, before, suspended, rfl, ran⟩ := midway
  exact List.prefix_append _ _

theorem ahead {program : Program Q A N E (Signal σ ι)}
    (midway : Midway generator env walk events program) :
    (Walk.advance generator env walk).events = events ++ (program.run env events).events := by
  obtain ⟨state, before, suspended, rfl, ran⟩ := midway
  rw [Walk.advance_suspended suspended, Walk.resume_events, ran, ← List.append_assoc]

end Midway

namespace Thread

variable [DecidableEq K]

/-- The consumer is where its own walk is after some steps, or midway through the next. -/
def Follows (generator : Generator Q A N E σ ι) (entry : σ) (env : Environment Q A N)
    (memory : Memory O) (thread : Thread K O Q A N E σ ι) : Prop :=
  ∃ steps, thread.items = (Walk.after generator env steps (Walk.start entry)).items ∧
    match thread.phase with
    | .resting status =>
        (Walk.after generator env steps (Walk.start entry)).status = status ∧
          (Walk.after generator env steps (Walk.start entry)).events = thread.events
    | .running job =>
        Midway generator env (Walk.after generator env steps (Walk.start entry)) thread.events
          (job.alone memory)
    | .waiting query next =>
        Midway generator env (Walk.after generator env steps (Walk.start entry)) thread.events
          (.ask query fun answer => (next answer).alone memory)

def Confined (owns : K → Option I) (owner : I) (thread : Thread K O Q A N E σ ι) : Prop :=
  match thread.phase with
  | .resting _ => True
  | .running job => job.Confined owns owner
  | .waiting _ next => ∀ answer, (next answer).Confined owns owner

/-! ### One action -/

variable {owns : K → Option I} {owner : I} {jobs : σ → Job K O Q A N E (Signal σ ι)}
  {memory : Memory O} {thread : Thread K O Q A N E σ ι}

/-- A confined consumer changes no cell of another. -/
theorem act_frame (confined : thread.Confined owns owner) (action : Action A) {cell : K}
    (other : owns cell ≠ some owner) : (thread.act jobs memory action).1 cell = memory cell := by
  obtain ⟨phase, items, events⟩ := thread
  cases action with
  | deliver answer => cases phase <;> rfl
  | step =>
      cases phase with
      | resting status => cases status <;> rfl
      | waiting query next => rfl
      | running job =>
          cases job with
          | store own object next =>
              apply Function.update_of_ne
              rintro rfl
              exact other confined.1
          | _ => rfl

theorem act_confined (each : ∀ state, (jobs state).Confined owns owner)
    (confined : thread.Confined owns owner) (action : Action A) :
    (thread.act jobs memory action).2.Confined owns owner := by
  obtain ⟨phase, items, events⟩ := thread
  cases action with
  | deliver answer =>
      cases phase with
      | waiting query next => exact confined answer
      | _ => exact confined
  | step =>
      cases phase with
      | resting status =>
          cases status with
          | suspended state => exact each state
          | _ => trivial
      | waiting query next => exact confined
      | running job =>
          cases job with
          | done signal => cases signal <;> trivial
          | fail error => trivial
          | load cell next => exact confined.2 _
          | store cell object next => exact confined.2
          | note message next => exact confined
          | ask query next => exact confined

theorem act_events (action : Action A) :
    ∃ more, (thread.act jobs memory action).2.events = thread.events ++ more := by
  obtain ⟨phase, items, events⟩ := thread
  have same : ∃ more, events = events ++ more := ⟨[], (List.append_nil _).symm⟩
  cases action with
  | deliver answer =>
      cases phase with
      | waiting query next => exact ⟨_, rfl⟩
      | _ => exact same
  | step =>
      cases phase with
      | resting status => cases status <;> exact same
      | waiting query next => exact same
      | running job =>
          cases job with
          | note message next => exact ⟨_, rfl⟩
          | done signal => cases signal <;> exact same
          | _ => exact same

variable {generator : Generator Q A N E σ ι} {entry : σ} {env : Environment Q A N}

/-- A consumer that follows its walk still does after an action on it. -/
theorem act_follows
    (implements : ∀ state past, ((jobs state).alone memory).run env past =
      (generator state).run env past)
    (follows : thread.Follows generator entry env memory) (action : Action A)
    (agrees : Agrees env (thread.act jobs memory action).2.events) :
    (thread.act jobs memory action).2.Follows generator entry env
      (thread.act jobs memory action).1 := by
  obtain ⟨phase, items, events⟩ := thread
  have still := follows
  obtain ⟨steps, sameItems, here⟩ := follows
  cases action with
  | deliver answer =>
      cases phase with
      | resting status => exact still
      | running job => exact still
      | waiting query next => exact ⟨steps, sameItems, Midway.answered here agrees.last⟩
  | step =>
      cases phase with
      | waiting query next => exact still
      | resting status =>
          cases status with
          | returned => exact still
          | raised error => exact still
          | suspended state =>
              obtain ⟨suspended, sameEvents⟩ := here
              change _ = events at sameEvents
              subst sameEvents
              exact ⟨steps, sameItems, Midway.begun suspended (implements state _)⟩
      | running job =>
          cases job with
          | load cell next => exact ⟨steps, sameItems, here⟩
          | store cell object next => exact ⟨steps, sameItems, here⟩
          | note message next => exact ⟨steps, sameItems, Midway.noted here⟩
          | ask query next => exact ⟨steps, sameItems, here⟩
          | fail error =>
              obtain ⟨before, sameEvents, advanced⟩ := Midway.ended here rfl
              refine ⟨steps + 1, ?_⟩
              rw [Walk.after_succ, advanced]
              exact ⟨sameItems, rfl, sameEvents.symm⟩
          | done signal =>
              obtain ⟨before, sameEvents, advanced⟩ := Midway.ended here rfl
              refine ⟨steps + 1, ?_⟩
              rw [Walk.after_succ, advanced]
              cases signal with
              | silent next => exact ⟨sameItems, rfl, sameEvents.symm⟩
              | item value next =>
                  exact ⟨congrArg (· ++ [value]) sameItems, rfl, sameEvents.symm⟩
              | finished => exact ⟨sameItems, rfl, sameEvents.symm⟩

theorem follows_account (follows : thread.Follows generator entry env memory) :
    ∃ steps, thread.items = (Walk.after generator env steps (Walk.start entry)).items ∧
      (Walk.after generator env steps (Walk.start entry)).events <+: thread.events ∧
      thread.events <+: (Walk.after generator env (steps + 1) (Walk.start entry)).events ∧
      thread.sent <+: queries (Walk.after generator env (steps + 1) (Walk.start entry)).events ∧
      ∀ status, thread.phase = .resting status →
        (Walk.after generator env steps (Walk.start entry)).status = status ∧
          (Walk.after generator env steps (Walk.start entry)).events = thread.events := by
  obtain ⟨phase, items, events⟩ := thread
  obtain ⟨steps, sameItems, here⟩ := follows
  refine ⟨steps, sameItems, ?_⟩
  rw [Walk.after_succ]
  cases phase with
  | resting status =>
      obtain ⟨sameStatus, sameEvents⟩ := here
      dsimp only at sameEvents
      subst sameEvents
      obtain ⟨more, grown⟩ : ∃ more, (Walk.advance generator env
          (Walk.after generator env steps (Walk.start entry))).events =
            (Walk.after generator env steps (Walk.start entry)).events ++ more :=
        Walk.advance_events _
      rw [grown]
      refine ⟨List.prefix_refl _, List.prefix_append _ _, ?_, ?_⟩
      · rw [queries_append]
        exact List.prefix_append _ _
      · intro other same
        cases same
        exact ⟨sameStatus, rfl⟩
  | running job =>
      rw [here.ahead]
      refine ⟨here.behind, List.prefix_append _ _, ?_, ?_⟩
      · rw [queries_append]
        exact List.prefix_append _ _
      · intro status impossible
        cases impossible
  | waiting query next =>
      rw [here.ahead]
      refine ⟨here.behind, List.prefix_append _ _, ?_, ?_⟩
      · rw [queries_append]
        exact ⟨_, List.append_assoc _ _ _⟩
      · intro status impossible
        cases impossible

/-- The value a consumer of one program has, or the error it ended with. -/
def Ended (thread : Thread K O Q A N E Bool ι) : Except E ι → Prop
  | .ok value => thread.items = [value]
  | .error error => thread.phase = .resting (.raised error)

/-- A consumer of one program has at most one value, and ends as the program does. -/
theorem once_account {program : Program Q A N E ι} {thread : Thread K O Q A N E Bool ι}
    (follows : thread.Follows (once program) false env memory) :
    thread.sent <+: queries (program.run env []).events ∧ thread.items.length ≤ 1 ∧
      ∀ result, thread.Ended result → program.run env [] = ⟨thread.events, result⟩ := by
  obtain ⟨steps, items, behind, ahead, sent, resting⟩ := follows_account follows
  refine ⟨?_, ?_, ?_⟩
  · apply sent.trans
    rcases once_after program env (steps + 1) with fresh | ran
    · rw [fresh]
      exact List.nil_prefix
    · exact ⟨[], by rw [List.append_nil, ran.events]⟩
  · rw [items]
    rcases once_after program env steps with fresh | ran
    · rw [fresh]
      exact Nat.zero_le 1
    · cases ended : (program.run env []).result with
      | ok value =>
          rw [(ran.value value ended).1]
          exact Nat.le_refl 1
      | error error =>
          rw [(ran.error error ended).1]
          exact Nat.zero_le 1
  · intro result halted
    rcases once_after program env steps with fresh | ran
    · rw [fresh] at items resting
      cases result with
      | ok value =>
          change _ = [value] at halted
          rw [items] at halted
          cases halted
      | error error => cases (resting _ halted).1
    · have same : (program.run env []).events = thread.events := by
        rw [Walk.after_succ, ran.advance.events] at ahead
        rw [ran.events] at behind
        exact behind.eq_of_length_le ahead.length_le
      suffices ends : (program.run env []).result = result by rw [← same, ← ends]
      cases ended : (program.run env []).result with
      | ok value =>
          obtain ⟨one, unraised⟩ := ran.value value ended
          cases result with
          | ok other =>
              change _ = [other] at halted
              rw [items, one] at halted
              cases halted
              rfl
          | error error => exact absurd (resting _ halted).1 (unraised error)
      | error error =>
          obtain ⟨none, raised⟩ := ran.error error ended
          cases result with
          | ok other =>
              change _ = [other] at halted
              rw [items, none] at halted
              cases halted
          | error other =>
              have status := (resting _ halted).1
              rw [raised] at status
              cases status
              rfl

/-- Nor does it notice a change of cells it cannot see. -/
theorem follows_congr {memory' : Memory O} (confined : thread.Confined owns owner)
    (same : ∀ cell, owns cell = none ∨ owns cell = some owner → memory' cell = memory cell)
    (follows : thread.Follows generator entry env memory) :
    thread.Follows generator entry env memory' := by
  obtain ⟨phase, items, events⟩ := thread
  obtain ⟨steps, sameItems, here⟩ := follows
  refine ⟨steps, sameItems, ?_⟩
  cases phase with
  | resting status => exact here
  | running job =>
      have unseen := Job.Confined.alone_congr confined same
      dsimp only at here ⊢
      rw [unseen]
      exact here
  | waiting query next =>
      have unseen : (fun answer => (next answer).alone memory') =
          fun answer => (next answer).alone memory :=
        funext fun answer => Job.Confined.alone_congr (confined answer) same
      dsimp only at here ⊢
      rw [unseen]
      exact here

end Thread

/-! ### Every schedule -/

variable {system : System I K O Q A N E} {owns : K → Option I} {initial : Memory O}
  {programs : (consumer : I) →
    Generator Q A N E (system.State consumer) (system.Item consumer)}

/-- The jobs keep to the cells of their consumers and, over the shared cells as they
were at first, do what the programs do. -/
structure System.Isolated [DecidableEq K] (system : System I K O Q A N E) (owns : K → Option I)
    (initial : Memory O)
    (programs : (consumer : I) →
      Generator Q A N E (system.State consumer) (system.Item consumer)) : Prop where
  confined : ∀ consumer state, (system.jobs consumer state).Confined owns consumer
  implements : ∀ consumer state (memory : Memory O),
    (∀ cell, owns cell = none → memory cell = initial cell) →
      ∀ env past, ((system.jobs consumer state).alone memory).run env past =
        (programs consumer state).run env past

/-- The shared cells are untouched and each consumer follows its own walk. -/
structure Config.Apart [DecidableEq K] (owns : K → Option I) (initial : Memory O)
    (programs : (consumer : I) →
      Generator Q A N E (system.State consumer) (system.Item consumer))
    (config : Config system) : Prop where
  shared : ∀ cell, owns cell = none → config.memory cell = initial cell
  confined : ∀ consumer, (config.thread consumer).Confined owns consumer
  follows : ∀ consumer env, Agrees env (config.thread consumer).events →
    (config.thread consumer).Follows (programs consumer) (system.entry consumer) env config.memory

namespace Config

variable [DecidableEq K]

theorem start_apart : (start initial : Config system).Apart owns initial programs where
  shared _ _ := rfl
  confined _ := trivial
  follows _ _ _ := ⟨0, rfl, rfl, rfl⟩

variable [DecidableEq I]

theorem move_thread_self (config : Config system) (consumer : I) (action : Action A) :
    (config.move (consumer, action)).thread consumer =
      ((config.thread consumer).act (system.jobs consumer) config.memory action).2 :=
  Function.update_self _ _ _

theorem move_thread_of_ne (config : Config system) {any consumer : I} (other : any ≠ consumer)
    (action : Action A) : (config.move (consumer, action)).thread any = config.thread any :=
  Function.update_of_ne other _ _

/-- One action of one consumer keeps all of them apart. -/
theorem move_apart (isolated : system.Isolated owns initial programs) {config : Config system}
    (apart : config.Apart owns initial programs) (turn : I × Action A) :
    (config.move turn).Apart owns initial programs := by
  obtain ⟨consumer, action⟩ := turn
  have acting := apart.confined consumer
  have implemented := fun state past env => isolated.implements consumer state config.memory
    apart.shared env past
  refine ⟨?_, ?_, ?_⟩
  · intro cell free
    have other : owns cell ≠ some consumer := by
      rw [free]
      intro impossible
      cases impossible
    exact (Thread.act_frame acting action other).trans (apart.shared cell free)
  · intro any
    by_cases same : any = consumer
    · subst same
      rw [move_thread_self]
      exact Thread.act_confined (isolated.confined any) acting action
    · rw [move_thread_of_ne config same]
      exact apart.confined any
  · intro any env agrees
    by_cases same : any = consumer
    · subst same
      rw [move_thread_self] at agrees ⊢
      obtain ⟨more, grown⟩ : ∃ more,
          ((config.thread any).act (system.jobs any) config.memory action).2.events =
            (config.thread any).events ++ more := Thread.act_events action
      have before := Agrees.of_append (grown ▸ agrees)
      exact Thread.act_follows (fun state past => implemented state past env)
        (apart.follows any env before) action agrees
    · rw [move_thread_of_ne config same] at agrees ⊢
      apply Thread.follows_congr (apart.confined any) _ (apart.follows any env agrees)
      intro cell visible
      apply Thread.act_frame acting action
      intro own
      rcases visible with free | mine
      · rw [free] at own
        cases own
      · rw [mine] at own
        exact same (Option.some.inj own)

theorem after_apart (isolated : system.Isolated owns initial programs)
    (schedule : List (I × Action A)) :
    ((start initial : Config system).after schedule).Apart owns initial programs := by
  suffices general : ∀ config : Config system, config.Apart owns initial programs →
      (config.after schedule).Apart owns initial programs from general _ start_apart
  induction schedule with
  | nil => exact fun config apart => apart
  | cons turn rest ih => exact fun config apart => ih _ (move_apart isolated apart turn)

/-! ### Nobody is held up -/

variable {consumer : I} {env : Environment Q A N}
  {generator : Generator Q A N E (system.State consumer) (system.Item consumer)}

theorem after_append (config : Config system) (first second : List (I × Action A)) :
    config.after (first ++ second) = (config.after first).after second :=
  List.foldl_append

/-- Actions of one consumer. -/
abbrev only (consumer : I) (actions : List (Action A)) : List (I × Action A) :=
  actions.map (Prod.mk consumer)

theorem thread_step {config : Config system}
    {thread : Thread K O Q A N E (system.State consumer) (system.Item consumer)}
    (here : config.thread consumer = thread) (action : Action A) :
    (config.move (consumer, action)).thread consumer =
      (thread.act (system.jobs consumer) config.memory action).2 := by
  rw [move_thread_self, here]

theorem memory_step {config : Config system}
    {thread : Thread K O Q A N E (system.State consumer) (system.Item consumer)}
    (here : config.thread consumer = thread) (action : Action A) :
    (config.move (consumer, action)).memory =
      (thread.act (system.jobs consumer) config.memory action).1 := by
  unfold move
  rw [← here]

/-- Left to itself, a consumer takes the step of its walk that it is in. -/
theorem running_settles {walk : Walk Q A N E (system.State consumer) (system.Item consumer)}
    {job : Job K O Q A N E (Signal (system.State consumer) (system.Item consumer))}
    {config : Config system} {events : List (Event Q A N)}
    (here : config.thread consumer = ⟨.running job, walk.items, events⟩)
    (midway : Midway generator env walk events (job.alone config.memory)) :
    ∃ actions, (config.after (only consumer actions)).thread consumer =
      .atRest (Walk.advance generator env walk) := by
  induction job generalizing config events with
  | done signal =>
      obtain ⟨before, rfl, advanced⟩ := midway.ended rfl
      refine ⟨[.step], (thread_step here .step).trans ?_⟩
      rw [advanced]
      cases signal <;> rfl
  | fail error =>
      obtain ⟨before, rfl, advanced⟩ := midway.ended rfl
      refine ⟨[.step], (thread_step here .step).trans ?_⟩
      rw [advanced]
      rfl
  | load cell next ih =>
      obtain ⟨actions, settled⟩ := ih _ (thread_step here .step) (by
        rw [memory_step here]
        exact midway)
      exact ⟨.step :: actions, settled⟩
  | store cell object next ih =>
      obtain ⟨actions, settled⟩ := ih (thread_step here .step) (by
        rw [memory_step here]
        exact midway)
      exact ⟨.step :: actions, settled⟩
  | note message next ih =>
      obtain ⟨actions, settled⟩ := ih (thread_step here .step) (by
        rw [memory_step here]
        exact midway.noted)
      exact ⟨.step :: actions, settled⟩
  | ask query next ih =>
      have asked := thread_step here .step
      obtain ⟨actions, settled⟩ := ih (env events query)
        (thread_step asked (.deliver (env events query))) (by
          rw [memory_step asked, memory_step here]
          exact midway.answered rfl)
      exact ⟨.step :: .deliver (env events query) :: actions, settled⟩

theorem follower_settles {config : Config system} {entry : system.State consumer}
    (follows : (config.thread consumer).Follows generator entry env config.memory) :
    ∃ actions reached, (config.after (only consumer actions)).thread consumer =
      .atRest (Walk.after generator env reached (Walk.start entry)) := by
  obtain ⟨thread, here⟩ : ∃ thread, config.thread consumer = thread := ⟨_, rfl⟩
  rw [here] at follows
  obtain ⟨phase, items, events⟩ := thread
  obtain ⟨steps, sameItems, inside⟩ := follows
  dsimp only at sameItems
  subst sameItems
  cases phase with
  | resting status =>
      obtain ⟨rfl, rfl⟩ := inside
      exact ⟨[], steps, here⟩
  | running job =>
      obtain ⟨actions, settled⟩ := running_settles here inside
      refine ⟨actions, steps + 1, ?_⟩
      rw [Walk.after_succ]
      exact settled
  | waiting query next =>
      obtain ⟨actions, settled⟩ := running_settles
        (thread_step here (.deliver (env events query))) (by
          rw [memory_step here]
          exact inside.answered rfl)
      refine ⟨.deliver (env events query) :: actions, steps + 1, ?_⟩
      rw [Walk.after_succ]
      exact settled

theorem rested_advances (isolated : system.Isolated owns initial programs) {config : Config system}
    (apart : config.Apart owns initial programs)
    {walk : Walk Q A N E (system.State consumer) (system.Item consumer)}
    (here : config.thread consumer = .atRest walk) :
    ∃ actions, (config.after (only consumer actions)).thread consumer =
      .atRest (Walk.advance (programs consumer) env walk) := by
  obtain ⟨status, items, events⟩ := walk
  cases status with
  | returned => exact ⟨[], here⟩
  | raised error => exact ⟨[], here⟩
  | suspended state =>
      have begun : Midway (programs consumer) env ⟨.suspended state, items, events⟩ events
          ((system.jobs consumer state).alone (config.move (consumer, .step)).memory) := by
        rw [memory_step here]
        exact Midway.begun rfl (isolated.implements consumer state config.memory apart.shared env _)
      obtain ⟨actions, settled⟩ := running_settles (thread_step here .step) begun
      exact ⟨.step :: actions, settled⟩

/-- Whatever has happened so far, each consumer can go on to any step of its walk
by its own actions alone. -/
theorem reaches (isolated : system.Isolated owns initial programs)
    (schedule : List (I × Action A))
    (agrees : Agrees env (((start initial : Config system).after schedule).thread consumer).events)
    (steps : Nat) :
    ∃ actions reached, steps ≤ reached ∧
      ((start initial : Config system).after (schedule ++ only consumer actions)).thread consumer =
        .atRest (Walk.after (programs consumer) env reached
          (Walk.start (system.entry consumer))) := by
  induction steps with
  | zero =>
      obtain ⟨actions, reached, settled⟩ :=
        follower_settles ((after_apart isolated schedule).follows consumer env agrees)
      refine ⟨actions, reached, Nat.zero_le reached, ?_⟩
      rw [after_append]
      exact settled
  | succ steps ih =>
      obtain ⟨actions, reached, enough, rested⟩ := ih
      obtain ⟨more, advanced⟩ : ∃ more, (Config.after _ (only consumer more)).thread consumer =
          .atRest (Walk.advance (programs consumer) env _) :=
        rested_advances isolated (after_apart isolated _) rested
      refine ⟨actions ++ more, reached + 1, Nat.succ_le_succ enough, ?_⟩
      rw [Walk.after_succ, only, List.map_append, ← List.append_assoc, after_append]
      exact advanced

end Config

end Effect
