import Mathlib.Logic.Function.Iterate
import MailkubeSdk.Effect.Program

/-
Generators: programs that hand out items one at a time.

A generator is a state and, for each state, a program that runs to the next
suspension: it hands out an item, goes on silently, or is finished.  A walk is
what a consumer holds: the suspended generator, the items handed out so far and
everything that happened.  Nothing runs unless the consumer asks, so a consumer
that has taken `k` items is at the first walk that has `k` of them.
-/

namespace Effect

variable {Q A N E σ ι : Type}

inductive Signal (σ ι : Type) where
  | silent (next : σ)
  | item (value : ι) (next : σ)
  | finished

abbrev Generator (Q A N E σ ι : Type) := σ → Program Q A N E (Signal σ ι)

inductive Status (σ E : Type) where
  | suspended (state : σ)
  | returned
  | raised (error : E)

structure Walk (Q A N E σ ι : Type) where
  status : Status σ E
  items : List ι
  events : List (Event Q A N)

namespace Walk

def start (state : σ) : Walk Q A N E σ ι := ⟨.suspended state, [], []⟩

/-- The walk after the program of one state has run. -/
def resume (walk : Walk Q A N E σ ι) (outcome : Run Q A N E (Signal σ ι)) :
    Walk Q A N E σ ι :=
  match outcome.result with
  | .ok (.silent next) => ⟨.suspended next, walk.items, walk.events ++ outcome.events⟩
  | .ok (.item value next) =>
      ⟨.suspended next, walk.items ++ [value], walk.events ++ outcome.events⟩
  | .ok .finished => ⟨.returned, walk.items, walk.events ++ outcome.events⟩
  | .error error => ⟨.raised error, walk.items, walk.events ++ outcome.events⟩

def advance (generator : Generator Q A N E σ ι) (env : Environment Q A N)
    (walk : Walk Q A N E σ ι) : Walk Q A N E σ ι :=
  match walk.status with
  | .suspended state => walk.resume ((generator state).run env walk.events)
  | _ => walk

def after (generator : Generator Q A N E σ ι) (env : Environment Q A N) (steps : Nat)
    (walk : Walk Q A N E σ ι) : Walk Q A N E σ ι :=
  (advance generator env)^[steps] walk

variable {generator : Generator Q A N E σ ι} {env : Environment Q A N}

theorem after_succ (steps : Nat) (walk : Walk Q A N E σ ι) :
    after generator env (steps + 1) walk =
      advance generator env (after generator env steps walk) :=
  Function.iterate_succ_apply' _ _ _

theorem after_advance (steps : Nat) (walk : Walk Q A N E σ ι) :
    after generator env (steps + 1) walk =
      after generator env steps (advance generator env walk) :=
  Function.iterate_succ_apply _ _ _

theorem after_add (first second : Nat) (walk : Walk Q A N E σ ι) :
    after generator env (first + second) walk =
      after generator env second (after generator env first walk) := by
  unfold after
  rw [Nat.add_comm, Function.iterate_add_apply]

theorem advance_suspended {walk : Walk Q A N E σ ι} {state : σ}
    (suspended : walk.status = .suspended state) :
    advance generator env walk = walk.resume ((generator state).run env walk.events) := by
  unfold advance
  rw [suspended]

theorem resume_events (walk : Walk Q A N E σ ι) (outcome : Run Q A N E (Signal σ ι)) :
    (walk.resume outcome).events = walk.events ++ outcome.events := by
  unfold resume
  split <;> rfl

theorem advance_events (walk : Walk Q A N E σ ι) :
    ∃ more, (advance generator env walk).events = walk.events ++ more := by
  unfold advance
  split
  · exact ⟨_, resume_events walk _⟩
  · exact ⟨[], (List.append_nil _).symm⟩

/-- What holds at the start and is kept by one step holds throughout. -/
theorem after_invariant {holds : Walk Q A N E σ ι → Prop} {initial : Walk Q A N E σ ι}
    (init : holds initial) (step : ∀ walk, holds walk → holds (advance generator env walk))
    (steps : Nat) : holds (after generator env steps initial) := by
  induction steps with
  | zero => exact init
  | succ steps ih =>
      rw [after_succ]
      exact step _ ih

/-- Only allowed queries have been asked so far. -/
def AskedOnly (allowed : Q → Prop) (walk : Walk Q A N E σ ι) : Prop :=
  ∀ query ∈ queries walk.events, allowed query

theorem advance_asks {allowed : Q → Prop} (asks : ∀ state, (generator state).Asks allowed)
    {walk : Walk Q A N E σ ι} (before : walk.AskedOnly allowed) :
    (advance generator env walk).AskedOnly allowed := by
  unfold advance
  split
  · rename_i current _
    have fresh := (asks current).run env walk.events
    have both : ∀ query ∈ queries (walk.events ++ ((generator current).run env walk.events).events),
        allowed query := by
      intro query member
      rw [queries_append] at member
      exact (List.mem_append.mp member).elim (before query) (fresh query)
    unfold resume
    split <;> exact both
  · exact before

theorem after_asks {allowed : Q → Prop} (asks : ∀ state, (generator state).Asks allowed)
    (state : σ) (steps : Nat) :
    (after generator env steps (start state)).AskedOnly allowed := by
  have none : (start state : Walk Q A N E σ ι).AskedOnly allowed := by
    intro query member
    cases member
  exact after_invariant none (fun _ => advance_asks asks) steps

theorem after_congr {other : Generator Q A N E σ ι}
    (same : ∀ state past, (generator state).run env past = (other state).run env past)
    (steps : Nat) (walk : Walk Q A N E σ ι) :
    after generator env steps walk = after other env steps walk := by
  have stepEq : advance generator env = advance other env := by
    funext current
    unfold advance
    split
    · rw [same]
    · rfl
  unfold after
  rw [stepEq]

/-! ### The end of a walk -/

/-- There is nothing left to run. -/
def Ended (walk : Walk Q A N E σ ι) : Prop := ∀ state, walk.status ≠ .suspended state

theorem ended_or_suspended (walk : Walk Q A N E σ ι) :
    walk.Ended ∨ ∃ state, walk.status = .suspended state := by
  cases status : walk.status with
  | suspended state => exact .inr ⟨state, rfl⟩
  | returned =>
      apply Or.inl
      intro state impossible
      rw [status] at impossible
      cases impossible
  | raised error =>
      apply Or.inl
      intro state impossible
      rw [status] at impossible
      cases impossible

theorem advance_ended {walk : Walk Q A N E σ ι} (ended : walk.Ended) :
    advance generator env walk = walk := by
  unfold advance
  split
  · rename_i state suspended
    exact absurd suspended (ended state)
  · rfl

/-- Every step asks something or uses up some of the supply of the state. -/
def Spends (generator : Generator Q A N E σ ι) (env : Environment Q A N) (supply : σ → Nat)
    (initial : Walk Q A N E σ ι) : Prop :=
  ∀ steps state next, (after generator env steps initial).status = .suspended state →
    (after generator env (steps + 1) initial).status = .suspended next →
      (queries (after generator env steps initial).events).length <
          (queries (after generator env (steps + 1) initial).events).length ∨
        (queries (after generator env (steps + 1) initial).events).length =
            (queries (after generator env steps initial).events).length ∧
          supply next < supply state

variable {supply : σ → Nat} {initial : Walk Q A N E σ ι}

/-- The steps that ask nothing come to an end: the walk ends, or asks once more. -/
theorem Spends.ends_or_asks (spends : Spends generator env supply initial) (left : Nat)
    {steps : Nat} {state : σ} (suspended : (after generator env steps initial).status =
      .suspended state) (enough : supply state ≤ left) :
    (∃ later, (after generator env later initial).Ended) ∨
      ∃ later, (queries (after generator env steps initial).events).length <
        (queries (after generator env later initial).events).length := by
  induction left generalizing steps state with
  | zero =>
      rcases ended_or_suspended (after generator env (steps + 1) initial) with ended | ⟨next, goes⟩
      · exact .inl ⟨steps + 1, ended⟩
      · rcases spends steps state next suspended goes with asked | ⟨_, spent⟩
        · exact .inr ⟨steps + 1, asked⟩
        · omega
  | succ left ih =>
      rcases ended_or_suspended (after generator env (steps + 1) initial) with ended | ⟨next, goes⟩
      · exact .inl ⟨steps + 1, ended⟩
      · rcases spends steps state next suspended goes with asked | ⟨quiet, spent⟩
        · exact .inr ⟨steps + 1, asked⟩
        · rcases ih goes (by omega) with ended | ⟨later, asked⟩
          · exact .inl ended
          · rw [quiet] at asked
            exact .inr ⟨later, asked⟩

theorem Spends.ends (spends : Spends generator env supply initial) {bound : Nat}
    (bounded : ∀ steps, (queries (after generator env steps initial).events).length ≤ bound) :
    ∃ steps, (after generator env steps initial).Ended := by
  have asksMore : ∀ count, (∃ steps, (after generator env steps initial).Ended) ∨
      ∃ steps, count ≤ (queries (after generator env steps initial).events).length := by
    intro count
    induction count with
    | zero => exact .inr ⟨0, Nat.zero_le _⟩
    | succ count ih =>
        rcases ih with ended | ⟨steps, asked⟩
        · exact .inl ended
        · rcases ended_or_suspended (after generator env steps initial) with ended | ⟨state, goes⟩
          · exact .inl ⟨steps, ended⟩
          · rcases spends.ends_or_asks (supply state) goes (Nat.le_refl _)
              with ended | ⟨later, more⟩
            · exact .inl ended
            · exact .inr ⟨later, by omega⟩
  rcases asksMore (bound + 1) with ended | ⟨steps, asked⟩
  · exact ended
  · exact absurd (bounded steps) (by omega)

end Walk

/-! ### One program as a generator -/

/-- The program as a generator: its value is the only item. -/
def once (program : Program Q A N E ι) : Generator Q A N E Bool ι
  | false => program.bind fun value => .done (.item value true)
  | true => .done .finished

/-- The program has run, and the walk shows what became of it. -/
structure Walk.Ran (walk : Walk Q A N E Bool ι) (outcome : Run Q A N E ι) : Prop where
  events : walk.events = outcome.events
  begun : walk.status ≠ .suspended false
  value : ∀ value, outcome.result = .ok value →
    walk.items = [value] ∧ ∀ error, walk.status ≠ .raised error
  error : ∀ error, outcome.result = .error error → walk.items = [] ∧ walk.status = .raised error

namespace Walk.Ran

theorem first (program : Program Q A N E ι) (env : Environment Q A N) :
    (Walk.advance (once program) env (Walk.start false)).Ran (program.run env []) := by
  rw [Walk.advance_suspended rfl]
  have ran := Program.run_bind_done env [] program (fun value => Signal.item value true)
  change ((Walk.start false).resume ((program.bind fun value =>
    .done (.item value true)).run env [])).Ran _
  rw [ran]
  cases ended : (program.run env []).result with
  | ok value =>
      constructor
      · rfl
      · intro impossible
        cases impossible
      · intro other same
        rw [ended] at same
        cases same
        constructor
        · rfl
        · intro error impossible
          cases impossible
      · intro error impossible
        rw [ended] at impossible
        cases impossible
  | error error =>
      constructor
      · rfl
      · intro impossible
        cases impossible
      · intro value impossible
        rw [ended] at impossible
        cases impossible
      · intro other same
        rw [ended] at same
        cases same
        exact ⟨rfl, rfl⟩

/-- Once it has run, nothing more happens. -/
theorem advance {program : Program Q A N E ι} {env : Environment Q A N}
    {walk : Walk Q A N E Bool ι} {outcome : Run Q A N E ι} (ran : walk.Ran outcome) :
    (Walk.advance (once program) env walk).Ran outcome := by
  obtain ⟨status, items, events⟩ := walk
  cases status with
  | returned => exact ran
  | raised error => exact ran
  | suspended begun =>
      cases begun with
      | false => exact absurd rfl ran.begun
      | true =>
          constructor
          · exact (List.append_nil events).trans ran.events
          · intro impossible
            cases impossible
          · intro value ended
            constructor
            · exact (ran.value value ended).1
            · intro error impossible
              cases impossible
          · intro error ended
            cases (ran.error error ended).2

end Walk.Ran

/-- Such a walk has not begun, or the program has run. -/
theorem once_after (program : Program Q A N E ι) (env : Environment Q A N) (steps : Nat) :
    Walk.after (once program) env steps (Walk.start false) = Walk.start false ∨
      (Walk.after (once program) env steps (Walk.start false)).Ran (program.run env []) := by
  cases steps with
  | zero => exact .inl rfl
  | succ steps =>
      apply Or.inr
      induction steps with
      | zero => exact Walk.Ran.first program env
      | succ steps ih =>
          rw [Walk.after_succ]
          exact ih.advance

end Effect
