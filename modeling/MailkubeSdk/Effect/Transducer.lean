import Mathlib.Data.List.Basic

/-
Machines with outputs, and simulation between them.

Two machines that move together, and put out the same at every move, put out
the same over every run.
-/

namespace Effect

/-- A machine that takes an input, moves and puts something out. -/
structure Transducer (I O : Type) where
  State : Type
  step : State → I → State × O

namespace Transducer

variable {I O : Type}

def final (machine : Transducer I O) (state : machine.State) (inputs : List I) : machine.State :=
  inputs.foldl (fun state input => (machine.step state input).1) state

def outputs (machine : Transducer I O) : machine.State → List I → List O
  | _, [] => []
  | state, input :: rest =>
      (machine.step state input).2 :: machine.outputs (machine.step state input).1 rest

/-- On the inputs of a kind, related states move to related states with the same output. -/
def Simulates (concrete abstract : Transducer I O) (kind : I → Prop)
    (related : concrete.State → abstract.State → Prop) : Prop :=
  ∀ state state' input, kind input → related state state' →
    related (concrete.step state input).1 (abstract.step state' input).1 ∧
      (concrete.step state input).2 = (abstract.step state' input).2

variable {concrete abstract : Transducer I O} {kind : I → Prop}
  {related : concrete.State → abstract.State → Prop}

/-- Related states put out the same over every run, and stay related. -/
theorem Simulates.run (simulates : Simulates concrete abstract kind related) {inputs : List I}
    (each : ∀ input ∈ inputs, kind input) {state : concrete.State} {state' : abstract.State}
    (start : related state state') :
    related (concrete.final state inputs) (abstract.final state' inputs) ∧
      concrete.outputs state inputs = abstract.outputs state' inputs := by
  induction inputs generalizing state state' with
  | nil => exact ⟨start, rfl⟩
  | cons input rest ih =>
      obtain ⟨next, same⟩ := simulates state state' input (each input List.mem_cons_self) start
      obtain ⟨last, later⟩ := ih (fun input member => each input (List.mem_cons_of_mem _ member))
        next
      exact ⟨last, congrArg₂ List.cons same later⟩

end Transducer

end Effect
