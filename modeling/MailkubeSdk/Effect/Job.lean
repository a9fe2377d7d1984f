import Mathlib.Logic.Function.Basic
import MailkubeSdk.Effect.Program

/-
Jobs: programs over a memory that others may use as well.

Every load and every store is a step of its own, so that anything may happen
between two of them.  Alone, over a memory of its own, a job is a program.  A
job is confined when it loads only cells that nobody owns or that are its own,
and stores only into its own.
-/

namespace Effect

variable {I K : Type} {O : K → Type} {Q A N E α β : Type}

abbrev Memory {K : Type} (O : K → Type) := (cell : K) → O cell

inductive Job (K : Type) (O : K → Type) (Q A N E α : Type) where
  | done (value : α)
  | fail (error : E)
  | load (cell : K) (next : O cell → Job K O Q A N E α)
  | store (cell : K) (object : O cell) (next : Job K O Q A N E α)
  | note (message : N) (next : Job K O Q A N E α)
  | ask (query : Q) (next : A → Job K O Q A N E α)

namespace Job

def bind (job : Job K O Q A N E α) (next : α → Job K O Q A N E β) : Job K O Q A N E β :=
  match job with
  | .done value => next value
  | .fail error => .fail error
  | .load cell rest => .load cell (fun object => (rest object).bind next)
  | .store cell object rest => .store cell object (rest.bind next)
  | .note message rest => .note message (rest.bind next)
  | .ask query rest => .ask query (fun answer => (rest answer).bind next)

theorem bind_assoc {γ : Type} (job : Job K O Q A N E α) (next : α → Job K O Q A N E β)
    (last : β → Job K O Q A N E γ) :
    (job.bind next).bind last = job.bind (fun value => (next value).bind last) := by
  induction job with
  | done value => rfl
  | fail error => rfl
  | load cell rest ih => exact congrArg (load cell) (funext ih)
  | store cell object rest ih => exact congrArg (store cell object) ih
  | note message rest ih => exact congrArg (note message) ih
  | ask query rest ih => exact congrArg (ask query) (funext ih)

def ofExcept : Except E α → Job K O Q A N E α
  | .ok value => .done value
  | .error error => .fail error

/-! ### Alone -/

section Alone

variable [DecidableEq K]

/-- The job over a memory that nobody else touches. -/
def alone (memory : Memory O) : Job K O Q A N E α → Program Q A N E α
  | .done value => .done value
  | .fail error => .fail error
  | .load cell next => (next (memory cell)).alone memory
  | .store cell object next => next.alone (Function.update memory cell object)
  | .note message next => .note message (next.alone memory)
  | .ask query next => .ask query (fun answer => (next answer).alone memory)

theorem alone_load_bind (memory : Memory O) (cell : K) (rest : O cell → Job K O Q A N E α)
    (next : α → Job K O Q A N E β) :
    ((load cell rest).bind next).alone memory = ((rest (memory cell)).bind next).alone memory :=
  rfl

theorem alone_store_bind (memory : Memory O) (cell : K) (object : O cell)
    (rest : Job K O Q A N E α) (next : α → Job K O Q A N E β) :
    ((store cell object rest).bind next).alone memory =
      (rest.bind next).alone (Function.update memory cell object) := rfl

theorem alone_ofExcept_bind (memory : Memory O) (result : Except E α)
    (next : α → Job K O Q A N E β) :
    ((ofExcept result).bind next).alone memory =
      (Program.ofExcept result).bind (fun value => (next value).alone memory) := by
  cases result <;> rfl

end Alone

/-! ### Confined to its own cells -/

/-- Whatever it is answered and finds, the job keeps to the cells of `owner`. -/
def Confined (owns : K → Option I) (owner : I) : Job K O Q A N E α → Prop
  | .done _ => True
  | .fail _ => True
  | .load cell next =>
      (owns cell = none ∨ owns cell = some owner) ∧ ∀ object, (next object).Confined owns owner
  | .store cell _ next => owns cell = some owner ∧ next.Confined owns owner
  | .note _ next => next.Confined owns owner
  | .ask _ next => ∀ answer, (next answer).Confined owns owner

variable {owns : K → Option I} {owner : I}

theorem Confined.bind {job : Job K O Q A N E α} {next : α → Job K O Q A N E β}
    (first : job.Confined owns owner) (rest : ∀ value, (next value).Confined owns owner) :
    (job.bind next).Confined owns owner := by
  induction job with
  | done value => exact rest value
  | fail error => trivial
  | load cell tail ih => exact ⟨first.1, fun object => ih object (first.2 object)⟩
  | store cell object tail ih => exact ⟨first.1, ih first.2⟩
  | note message tail ih => exact ih first
  | ask query tail ih => exact fun answer => ih answer (first answer)

theorem Confined.ofExcept (result : Except E α) :
    (Job.ofExcept result : Job K O Q A N E α).Confined owns owner := by
  cases result <;> trivial

/-- A confined job does not see the cells of others. -/
theorem Confined.alone_congr [DecidableEq K] {job : Job K O Q A N E α}
    (confined : job.Confined owns owner) {memory memory' : Memory O}
    (same : ∀ cell, owns cell = none ∨ owns cell = some owner → memory' cell = memory cell) :
    job.alone memory' = job.alone memory := by
  induction job generalizing memory memory' with
  | done value => rfl
  | fail error => rfl
  | load cell next ih =>
      rw [alone, alone, same cell confined.1]
      exact ih _ (confined.2 _) same
  | store cell object next ih =>
      rw [alone, alone]
      apply ih confined.2
      intro other visible
      by_cases here : other = cell
      · subst here
        rw [Function.update_self, Function.update_self]
      · rw [Function.update_of_ne here, Function.update_of_ne here]
        exact same other visible
  | note message next ih => exact congrArg (Program.note message) (ih confined same)
  | ask query next ih =>
      exact congrArg (Program.ask query) (funext fun answer => ih answer (confined answer) same)

end Job

end Effect
