import Mathlib.Data.List.Basic

/-
Programs that talk to an environment.

A program asks queries, leaves notes, may suspend, and ends in a value or an
error.  It is run against an environment that sees everything that happened
before and answers as it likes, so a statement about every environment is a
statement about every adversary and about every script of answers.
-/

namespace Effect

variable {Q A N E α β : Type}

inductive Program (Q A N E α : Type) where
  | done (value : α)
  | fail (error : E)
  | note (message : N) (next : Program Q A N E α)
  | ask (query : Q) (next : A → Program Q A N E α)
  | suspend (next : Program Q A N E α)

/-- What an observer of a run sees, in order. -/
inductive Event (Q A N : Type) where
  | noted (message : N)
  | exchanged (query : Q) (answer : A)

/-- Answers a query, knowing the whole past of the run. -/
abbrev Environment (Q A N : Type) := List (Event Q A N) → Q → A

structure Run (Q A N E α : Type) where
  events : List (Event Q A N)
  result : Except E α

def Event.query? : Event Q A N → Option Q
  | .noted _ => none
  | .exchanged query _ => some query

def Event.answer? : Event Q A N → Option A
  | .noted _ => none
  | .exchanged _ answer => some answer

def Event.note? : Event Q A N → Option N
  | .noted message => some message
  | .exchanged _ _ => none

def Event.exchange? : Event Q A N → Option (Q × A)
  | .noted _ => none
  | .exchanged query answer => some (query, answer)

def queries (events : List (Event Q A N)) : List Q := events.filterMap Event.query?

def answers (events : List (Event Q A N)) : List A := events.filterMap Event.answer?

def notes (events : List (Event Q A N)) : List N := events.filterMap Event.note?

def exchanges (events : List (Event Q A N)) : List (Q × A) := events.filterMap Event.exchange?

@[simp] theorem queries_append (first second : List (Event Q A N)) :
    queries (first ++ second) = queries first ++ queries second :=
  List.filterMap_append

@[simp] theorem answers_append (first second : List (Event Q A N)) :
    answers (first ++ second) = answers first ++ answers second :=
  List.filterMap_append

@[simp] theorem notes_append (first second : List (Event Q A N)) :
    notes (first ++ second) = notes first ++ notes second :=
  List.filterMap_append

@[simp] theorem exchanges_append (first second : List (Event Q A N)) :
    exchanges (first ++ second) = exchanges first ++ exchanges second :=
  List.filterMap_append

/-- The queries are those of the exchanges. -/
theorem queries_eq_exchanges (events : List (Event Q A N)) :
    queries events = (exchanges events).map Prod.fst := by
  unfold queries exchanges
  rw [List.map_filterMap]
  apply List.filterMap_congr
  intro event _
  cases event <;> rfl

namespace Program

def bind (program : Program Q A N E α) (next : α → Program Q A N E β) : Program Q A N E β :=
  match program with
  | .done value => next value
  | .fail error => .fail error
  | .note message rest => .note message (rest.bind next)
  | .ask query rest => .ask query (fun answer => (rest answer).bind next)
  | .suspend rest => .suspend (rest.bind next)

instance : Monad (Program Q A N E) where
  pure := .done
  bind := bind

@[simp] theorem pure_eq (value : α) : (pure value : Program Q A N E α) = .done value := rfl

@[simp] theorem bind_eq (program : Program Q A N E α) (next : α → Program Q A N E β) :
    program >>= next = program.bind next := rfl

theorem bind_assoc {γ : Type} (program : Program Q A N E α) (next : α → Program Q A N E β)
    (last : β → Program Q A N E γ) :
    (program.bind next).bind last = program.bind (fun value => (next value).bind last) := by
  induction program with
  | done value => rfl
  | fail error => rfl
  | note message rest ih => exact congrArg (note message) ih
  | ask query rest ih => exact congrArg (ask query) (funext ih)
  | suspend rest ih => exact congrArg suspend ih

/-- A computation that needs no environment. -/
def ofExcept : Except E α → Program Q A N E α
  | .ok value => .done value
  | .error error => .fail error

theorem ofExcept_ok_bind (value : α) (next : α → Program Q A N E β) :
    (ofExcept (.ok value)).bind next = next value := rfl

/-! ### Runs -/

def run (env : Environment Q A N) (past : List (Event Q A N)) :
    Program Q A N E α → Run Q A N E α
  | .done value => ⟨[], .ok value⟩
  | .fail error => ⟨[], .error error⟩
  | .note message next =>
      let rest := run env (past ++ [.noted message]) next
      ⟨.noted message :: rest.events, rest.result⟩
  | .ask query next =>
      let answer := env past query
      let rest := run env (past ++ [.exchanged query answer]) (next answer)
      ⟨.exchanged query answer :: rest.events, rest.result⟩
  | .suspend next => run env past next

@[simp] theorem run_done (env : Environment Q A N) (past : List (Event Q A N)) (value : α) :
    run env past (.done value : Program Q A N E α) = ⟨[], .ok value⟩ := rfl

@[simp] theorem run_note (env : Environment Q A N) (past : List (Event Q A N)) (message : N)
    (next : Program Q A N E α) :
    run env past (.note message next) =
      ⟨.noted message :: (run env (past ++ [.noted message]) next).events,
        (run env (past ++ [.noted message]) next).result⟩ := rfl

@[simp] theorem run_ask (env : Environment Q A N) (past : List (Event Q A N)) (query : Q)
    (next : A → Program Q A N E α) :
    run env past (.ask query next) =
      ⟨.exchanged query (env past query) ::
          (run env (past ++ [.exchanged query (env past query)]) (next (env past query))).events,
        (run env (past ++ [.exchanged query (env past query)])
          (next (env past query))).result⟩ := rfl

/-- Running a sequence: the second program starts where the first one stopped,
and not at all if the first one failed. -/
theorem run_bind (env : Environment Q A N) (past : List (Event Q A N))
    (program : Program Q A N E α) (next : α → Program Q A N E β) :
    run env past (program.bind next) =
      match (run env past program).result with
      | .error error => ⟨(run env past program).events, .error error⟩
      | .ok value =>
          ⟨(run env past program).events ++
              (run env (past ++ (run env past program).events) (next value)).events,
            (run env (past ++ (run env past program).events) (next value)).result⟩ := by
  induction program generalizing past with
  | done value => simp only [bind, run_done, List.append_nil, List.nil_append]
  | fail error => rfl
  | note message rest ih =>
      simp only [bind, run_note, ih]
      cases (run env (past ++ [.noted message]) rest).result <;>
        simp only [List.cons_append, List.append_assoc, List.nil_append]
  | ask query rest ih =>
      simp only [bind, run_ask, ih]
      cases (run env (past ++ [.exchanged query (env past query)])
          (rest (env past query))).result <;>
        simp only [List.cons_append, List.append_assoc, List.nil_append]
  | suspend rest ih => exact ih past

theorem run_bind_done (env : Environment Q A N) (past : List (Event Q A N))
    (program : Program Q A N E α) (f : α → β) :
    run env past (program.bind (fun value => .done (f value))) =
      ⟨(run env past program).events, (run env past program).result.map f⟩ := by
  rw [run_bind]
  cases (run env past program).result with
  | error error => rfl
  | ok value => simp only [run_done, List.append_nil, Except.map]

/-! ### What a program may ask -/

/-- Every query of the program satisfies `allowed`, whatever the answers are. -/
def Asks (allowed : Q → Prop) : Program Q A N E α → Prop
  | .done _ => True
  | .fail _ => True
  | .note _ next => next.Asks allowed
  | .ask query next => allowed query ∧ ∀ answer, (next answer).Asks allowed
  | .suspend next => next.Asks allowed

theorem Asks.bind {allowed : Q → Prop} {program : Program Q A N E α}
    {next : α → Program Q A N E β} (first : program.Asks allowed)
    (rest : ∀ value, (next value).Asks allowed) : (program.bind next).Asks allowed := by
  induction program with
  | done value => exact rest value
  | fail error => trivial
  | note message tail ih => exact ih first
  | ask query tail ih => exact ⟨first.1, fun answer => ih answer (first.2 answer)⟩
  | suspend tail ih => exact ih first

theorem Asks.ofExcept (allowed : Q → Prop) (result : Except E α) :
    (Program.ofExcept result : Program Q A N E α).Asks allowed := by
  cases result <;> trivial

/-- The rule is sound: in any run only allowed queries are asked. -/
theorem Asks.run {allowed : Q → Prop} {program : Program Q A N E α}
    (asks : program.Asks allowed) (env : Environment Q A N) (past : List (Event Q A N)) :
    ∀ query ∈ queries (program.run env past).events, allowed query := by
  induction program generalizing past with
  | done value =>
      intro query member
      cases member
  | fail error =>
      intro query member
      cases member
  | note message next ih => exact ih asks _
  | ask query next ih =>
      intro other member
      rcases List.mem_cons.mp member with rfl | later
      · exact asks.1
      · exact ih (env past query) (asks.2 _) _ other later
  | suspend next ih => exact ih asks past

/-! ### Suspension points -/

/-- The same program without its suspension points. -/
def erase : Program Q A N E α → Program Q A N E α
  | .done value => .done value
  | .fail error => .fail error
  | .note message next => .note message next.erase
  | .ask query next => .ask query (fun answer => (next answer).erase)
  | .suspend next => next.erase

theorem erase_bind (program : Program Q A N E α) (next : α → Program Q A N E β) :
    (program.bind next).erase = program.erase.bind (fun value => (next value).erase) := by
  induction program with
  | done value => rfl
  | fail error => rfl
  | note message rest ih => simp only [bind, erase, ih]
  | ask query rest ih => simp only [bind, erase, ih]
  | suspend rest ih => exact ih

/-- Suspending changes nothing an observer of one run can see. -/
theorem run_erase (env : Environment Q A N) (past : List (Event Q A N))
    (program : Program Q A N E α) : run env past program.erase = run env past program := by
  induction program generalizing past with
  | done value => rfl
  | fail error => rfl
  | note message next ih => simp only [erase, run_note, ih]
  | ask query next ih => simp only [erase, run_ask, ih]
  | suspend next ih => exact ih past

end Program

end Effect
