import MailkubeSdk.Python.Text

/-
Quotes, backslashes and points of a JSON text.

Strings are opened and closed by quotes, a backslash stands in a string only,
and outside strings a point is followed by a digit.  This much of the grammar
tells that a JSON text cut after a point does not go on with a JSON object.
-/

namespace Python.Json

/-- Where a reader stands: outside strings, after a point there, in a string, or after
a backslash in one. -/
inductive Lexing where
  | outside
  | point
  | inside
  | escape
deriving DecidableEq

namespace Lexing

def isDigitOctet (b : Byte) : Bool := 48 ≤ b.val && b.val ≤ 57

/-- The reader takes an octet; `none` refuses it. -/
def step : Lexing → Byte → Option Lexing
  | outside, b =>
      if b = 34 then some inside
      else if b = 92 then none
      else if b = 46 then some point
      else some outside
  | point, b => if isDigitOctet b then some outside else none
  | inside, b => if b = 34 then some outside else if b = 92 then some escape else some inside
  | escape, _ => some inside

def run : Lexing → Bytes → Option Lexing
  | state, [] => some state
  | state, b :: rest => (state.step b).bind fun next => next.run rest

theorem run_append (state : Lexing) (front back : Bytes) :
    state.run (front ++ back) = (state.run front).bind fun next => next.run back := by
  induction front generalizing state with
  | nil => rfl
  | cons b rest ih =>
      rw [List.cons_append, run, run]
      cases state.step b with
      | none => rfl
      | some next => exact ih next

/-- Two readers of one text, one in a string and the other outside. -/
def Opposed : Lexing → Lexing → Prop
  | inside, outside => True
  | inside, point => True
  | outside, inside => True
  | point, inside => True
  | _, _ => False

theorem isDigitOctet_apart {b : Byte} (digit : isDigitOctet b = true) : b ≠ 34 ∧ b ≠ 92 := by
  constructor
  · rintro rfl
    exact absurd digit (by decide)
  · rintro rfl
    exact absurd digit (by decide)

/-- A reader in a string stays opposed to one outside. -/
theorem opposed_step {out next other : Lexing} {b : Byte}
    (away : out = outside ∨ out = point) (first : out.step b = some next)
    (second : inside.step b = some other) : Opposed next other := by
  rcases away with rfl | rfl
  · unfold step at first second
    dsimp only at first second
    by_cases quote : b = 34
    · rw [if_pos quote] at first second
      cases first
      cases second
      trivial
    · rw [if_neg quote] at first second
      by_cases backslash : b = 92
      · rw [if_pos backslash] at first
        cases first
      · rw [if_neg backslash] at first second
        cases second
        split at first
        · cases first
          trivial
        · cases first
          trivial
  · unfold step at first second
    dsimp only at first second
    split at first
    · rename_i digit
      have apart := isDigitOctet_apart digit
      rw [if_neg apart.1, if_neg apart.2] at second
      cases first
      cases second
      trivial
    · cases first

theorem Opposed.symm {left right : Lexing} (opposed : Opposed left right) :
    Opposed right left := by
  cases left <;> cases right <;> exact opposed

theorem Opposed.step {left right next other : Lexing} {b : Byte} (opposed : Opposed left right)
    (first : left.step b = some next) (second : right.step b = some other) :
    Opposed next other := by
  cases left with
  | outside =>
      cases right with
      | inside => exact opposed_step (.inl rfl) first second
      | _ => cases opposed
  | point =>
      cases right with
      | inside => exact opposed_step (.inr rfl) first second
      | _ => cases opposed
  | inside =>
      cases right with
      | outside => exact (opposed_step (.inl rfl) second first).symm
      | point => exact (opposed_step (.inr rfl) second first).symm
      | _ => cases opposed
  | escape => cases opposed

theorem Opposed.run {left right next other : Lexing} {text : Bytes}
    (opposed : Opposed left right) (first : left.run text = some next)
    (second : right.run text = some other) : Opposed next other := by
  induction text generalizing left right with
  | nil =>
      cases first
      cases second
      exact opposed
  | cons b rest ih =>
      obtain ⟨middle, taken, onwards⟩ := Option.bind_eq_some_iff.mp first
      obtain ⟨centre, passed, onward⟩ := Option.bind_eq_some_iff.mp second
      exact ih (opposed.step taken passed) onwards onward

end Lexing

/-- A text whose strings are closed, with its backslashes in strings and its points
before digits. -/
def lexes (text : Bytes) : Bool := Lexing.outside.run text == some .outside

/-- A text that lexes, cut after a point, goes on with a digit or does not lex. -/
theorem lexes_cut {front back : Bytes} (whole : lexes (front ++ 46 :: back) = true)
    (part : lexes back = true) : ∃ b rest, back = b :: rest ∧ Lexing.isDigitOctet b = true := by
  have lexed := eq_of_beq whole
  have alone := eq_of_beq part
  rw [Lexing.run_append] at lexed
  obtain ⟨state, _, onwards⟩ := Option.bind_eq_some_iff.mp lexed
  obtain ⟨next, taken, later⟩ := Option.bind_eq_some_iff.mp onwards
  have inString : next ≠ .inside := by
    rintro rfl
    -- the two readers of the rest would both end outside
    have opposed : Lexing.Opposed .inside .outside := trivial
    exact opposed.run later alone
  cases state with
  | outside =>
      cases taken
      cases back with
      | nil => cases later
      | cons b rest =>
          obtain ⟨after, digit, _⟩ := Option.bind_eq_some_iff.mp later
          refine ⟨b, rest, rfl, ?_⟩
          unfold Lexing.step at digit
          dsimp only at digit
          split at digit
          · assumption
          · cases digit
  | point => cases taken
  | inside =>
      cases taken
      exact absurd rfl inString
  | escape =>
      cases taken
      exact absurd rfl inString

end Python.Json
