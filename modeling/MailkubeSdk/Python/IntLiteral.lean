import Mathlib.Data.Nat.Digits.Defs
import MailkubeSdk.Python.Value

/-
The texts `int` accepts.

An integer literal is a sign, if any, and decimal digits of any script, with
single underscores between them; white space around it is skipped, and more
than 4300 digits are refused.
-/

namespace Python

/-- Decimal digits with single underscores between them, and their values. -/
inductive DigitRun (runtime : Runtime) : Str → List Nat → Prop where
  | last {c : CodePoint} {value : Nat} (digit : runtime.digitValue c = some value) :
      DigitRun runtime [c] [value]
  | next {c : CodePoint} {value : Nat} {rest : Str} {values : List Nat}
      (digit : runtime.digitValue c = some value) (run : DigitRun runtime rest values) :
      DigitRun runtime (c :: rest) (value :: values)
  | skip {c : CodePoint} {value : Nat} {rest : Str} {values : List Nat}
      (digit : runtime.digitValue c = some value) (run : DigitRun runtime rest values) :
      DigitRun runtime (c :: cp '_' :: rest) (value :: values)

/-- A sign, if any, and the unit it stands for. -/
inductive Sign : Str → Int → Prop where
  | none : Sign [] 1
  | plus : Sign [cp '+'] 1
  | minus : Sign [cp '-'] (-1)

/-- A text that is an integer literal, white space around it aside. -/
def IntLiteral (runtime : Runtime) (text : Str) (unit : Int) (values : List Nat) : Prop :=
  ∃ sign body, trim isIntSpace text = sign ++ body ∧ Sign sign unit ∧
    DigitRun runtime body values ∧ values.length ≤ maxStrDigits

/-- The number whose decimal digits have the given values, the first one leading. -/
def decimalNumber (values : List Nat) : Nat := Nat.ofDigits 10 values.reverse

variable {runtime : Runtime}

theorem digitValue_ascii {c : CodePoint} (ascii : isAscii c = true) :
    runtime.digitValue c = if isDigit c then some (c.val - 48) else none := by
  unfold Runtime.digitValue
  rw [if_pos ascii]

theorem DigitRun.head {c : CodePoint} {rest : Str} {values : List Nat}
    (run : DigitRun runtime (c :: rest) values) : ∃ value, runtime.digitValue c = some value := by
  cases run with
  | last digit => exact ⟨_, digit⟩
  | next digit run => exact ⟨_, digit⟩
  | skip digit run => exact ⟨_, digit⟩

theorem digitRun_of_digits {text : Str} {values : List Nat}
    (read : runtime.digits text = some values) : DigitRun runtime text values := by
  fun_induction Runtime.digits runtime text generalizing values with
  | case1 => cases read
  | case2 c =>
      obtain ⟨value, digit, rfl⟩ := Option.map_eq_some_iff.mp read
      exact .last digit
  | case3 c rest ih =>
      obtain ⟨value, digit, more⟩ := Option.bind_eq_some_iff.mp read
      obtain ⟨values, back, same⟩ := Option.bind_eq_some_iff.mp more
      cases same
      exact .skip digit (ih back)
  | case4 c next rest other ih =>
      obtain ⟨value, digit, more⟩ := Option.bind_eq_some_iff.mp read
      obtain ⟨values, back, same⟩ := Option.bind_eq_some_iff.mp more
      cases same
      exact .next digit (ih back)

theorem digits_of_digitRun {text : Str} {values : List Nat}
    (run : DigitRun runtime text values) : runtime.digits text = some values := by
  induction run with
  | last digit =>
      rw [Runtime.digits, digit]
      rfl
  | @next c value rest values digit run ih =>
      cases rest with
      | nil => cases run
      | cons next rest =>
          have notUnder : next ≠ cp '_' := by
            rintro rfl
            obtain ⟨value, under⟩ := run.head
            cases under
          rw [Runtime.digits, if_neg notUnder, digit, ih]
          rfl
  | @skip c value rest values digit run ih =>
      rw [Runtime.digits, if_pos rfl, digit, ih]
      rfl

/-- What `int` makes of the digits after the sign. -/
private def ofBody (runtime : Runtime) (negative : Bool) (body : Str) : Option Int := do
  let read ← runtime.digits body
  if maxStrDigits < read.length then none
  else
    let magnitude : Nat := read.foldl (fun acc digit => 10 * acc + digit) 0
    some (if negative then -magnitude else magnitude)

private theorem int_eq_ofBody (runtime : Runtime) (text : Str) :
    runtime.int text =
      match trim isIntSpace text with
      | [] => none
      | c :: rest =>
          if c = cp '-' then ofBody runtime true rest
          else if c = cp '+' then ofBody runtime false rest
          else ofBody runtime false (c :: rest) := by
  unfold Runtime.int
  cases trim isIntSpace text with
  | nil => rfl
  | cons c rest =>
      dsimp only
      split
      · rfl
      · split <;> rfl

private theorem foldl_eq_decimalNumber (values : List Nat) :
    values.foldl (fun acc digit => 10 * acc + digit) 0 = decimalNumber values := by
  unfold decimalNumber
  rw [Nat.ofDigits_eq_foldr, List.foldr_reverse]
  simp only [Nat.cast_id, Nat.add_comm]

private theorem ofBody_eq_some_iff {negative : Bool} {body : Str} {n : Int} :
    ofBody runtime negative body = some n ↔
      ∃ values, DigitRun runtime body values ∧ values.length ≤ maxStrDigits ∧
        n = (if negative then -1 else 1) * decimalNumber values := by
  have signed : ∀ magnitude : Nat, (if negative then -(magnitude : Int) else magnitude) =
      (if negative then -1 else 1) * magnitude := by
    intro magnitude
    cases negative with
    | true => exact (Int.neg_one_mul _).symm
    | false => exact (Int.one_mul _).symm
  unfold ofBody
  cases read : runtime.digits body with
  | none =>
      apply iff_of_false
      · intro impossible
        cases impossible
      · rintro ⟨values, run, _⟩
        rw [digits_of_digitRun run] at read
        cases read
  | some values =>
      have run := digitRun_of_digits read
      simp only [Option.bind_eq_bind, Option.bind_some, foldl_eq_decimalNumber, signed]
      by_cases long : maxStrDigits < values.length
      · rw [if_pos long]
        apply iff_of_false
        · intro impossible
          cases impossible
        · rintro ⟨others, run', short, _⟩
          rw [digits_of_digitRun run'] at read
          cases read
          exact Nat.not_lt.mpr short long
      · rw [if_neg long]
        constructor
        · intro same
          cases same
          exact ⟨values, run, Nat.not_lt.mp long, rfl⟩
        · rintro ⟨others, run', _, same⟩
          rw [digits_of_digitRun run'] at read
          cases read
          rw [same]

/-- `int` reads exactly the integer literals. -/
theorem int_eq_some_iff {text : Str} {n : Int} :
    runtime.int text = some n ↔
      ∃ unit values, IntLiteral runtime text unit values ∧ n = unit * decimalNumber values := by
  rw [int_eq_ofBody]
  constructor
  · intro read
    cases trimmed : trim isIntSpace text with
    | nil =>
        rw [trimmed] at read
        cases read
    | cons c rest =>
        rw [trimmed] at read
        dsimp only at read
        split at read
        · rename_i minus
          obtain ⟨values, run, short, same⟩ := ofBody_eq_some_iff.mp read
          exact ⟨_, values, ⟨[cp '-'], rest, by rw [trimmed, minus]; rfl, .minus, run, short⟩, same⟩
        · split at read
          · rename_i plus
            obtain ⟨values, run, short, same⟩ := ofBody_eq_some_iff.mp read
            exact ⟨_, values, ⟨[cp '+'], rest, by rw [trimmed, plus]; rfl, .plus, run, short⟩, same⟩
          · obtain ⟨values, run, short, same⟩ := ofBody_eq_some_iff.mp read
            exact ⟨_, values, ⟨[], c :: rest, trimmed, .none, run, short⟩, same⟩
  · rintro ⟨unit, values, ⟨sign, body, trimmed, signed, run, short⟩, rfl⟩
    rw [trimmed]
    cases signed with
    | plus => exact ofBody_eq_some_iff.mpr ⟨values, run, short, rfl⟩
    | minus => exact ofBody_eq_some_iff.mpr ⟨values, run, short, rfl⟩
    | none =>
        cases body with
        | nil => cases run
        | cons c rest =>
            obtain ⟨value, digit⟩ := run.head
            have unsigned : c ≠ cp '-' ∧ c ≠ cp '+' := by
              constructor
              · rintro rfl
                cases digit
              · rintro rfl
                cases digit
            dsimp only [List.nil_append]
            rw [if_neg unsigned.1, if_neg unsigned.2]
            exact ofBody_eq_some_iff.mpr ⟨values, run, short, rfl⟩

/-! ### Plain decimal text -/

/-- A space or a horizontal tab. -/
def isBlank (c : CodePoint) : Bool := c == cp ' ' || c == cp '\t'

/-- A text that, trimmed of surrounding spaces and tabs, is between 1 and 4300 ASCII
digits, and its decimal value. -/
def PlainDecimal (text : Str) (n : Nat) : Prop :=
  trim isBlank text ≠ [] ∧ (trim isBlank text).length ≤ maxStrDigits ∧
    (∀ c ∈ trim isBlank text, isDigit c = true) ∧
      n = decimalNumber ((trim isBlank text).map fun c => c.val - 48)

/-- A text with nothing in it that a plain decimal text may not have. -/
def PlainCharacters (text : Str) : Prop := ∀ c ∈ text, isBlank c = true ∨ isDigit c = true

theorem PlainDecimal.characters {text : Str} {n : Nat} (plain : PlainDecimal text n) :
    PlainCharacters text :=
  fun c member => (blank_or_mem_trim member).imp_right (plain.2.2.1 c)

private theorem isIntSpace_of_blank {c : CodePoint} (blank : isBlank c = true) :
    isIntSpace c = true := by
  rcases Bool.or_eq_true_iff.mp blank with same | same
  · rw [beq_iff_eq.mp same]
    decide
  · rw [beq_iff_eq.mp same]
    decide

private theorem not_isIntSpace_of_digit {c : CodePoint} (digit : isDigit c = true) :
    isIntSpace c = false := by
  simp only [isDigit, Bool.and_eq_true, decide_eq_true_eq] at digit
  cases space : isIntSpace c with
  | false => rfl
  | true =>
      simp only [isIntSpace, isSpace, Bool.and_eq_true, Bool.or_eq_true, decide_eq_true_eq,
        beq_iff_eq] at space
      omega

private theorem digitValue_of_digit {c : CodePoint} (digit : isDigit c = true) :
    runtime.digitValue c = some (c.val - 48) := by
  have ascii : isAscii c = true := by
    simp only [isDigit, Bool.and_eq_true, decide_eq_true_eq] at digit
    exact decide_eq_true (by omega)
  rw [digitValue_ascii ascii, if_pos digit]

private theorem digitValue_of_blank {c : CodePoint} (blank : isBlank c = true) :
    runtime.digitValue c = none := by
  rcases Bool.or_eq_true_iff.mp blank with same | same
  · rw [beq_iff_eq.mp same]
    rfl
  · rw [beq_iff_eq.mp same]
    rfl

theorem PlainCharacters.trim_eq {text : Str} (plain : PlainCharacters text) :
    trim isIntSpace text = trim isBlank text := by
  apply trim_congr
  intro c member
  cases blank : isBlank c with
  | true => exact isIntSpace_of_blank blank
  | false =>
      rcases plain c member with impossible | digit
      · rw [blank] at impossible
        cases impossible
      · exact not_isIntSpace_of_digit digit

private theorem digitRun_of_digits_only {text : Str} (nonempty : text ≠ [])
    (digits : ∀ c ∈ text, isDigit c = true) :
    DigitRun runtime text (text.map fun c => c.val - 48) := by
  induction text with
  | nil => exact absurd rfl nonempty
  | cons c rest ih =>
      have head : runtime.digitValue c = some (c.val - 48) :=
        digitValue_of_digit (digits c List.mem_cons_self)
      cases rest with
      | nil => exact .last head
      | cons d more =>
          exact .next head
            (ih (List.cons_ne_nil d more)
              (fun e member => digits e (List.mem_cons_of_mem c member)))

/-- In plain text a run of digits has neither blanks nor underscores. -/
private theorem DigitRun.plain {body : Str} {values : List Nat}
    (run : DigitRun runtime body values) (plain : PlainCharacters body) :
    body ≠ [] ∧ (∀ c ∈ body, isDigit c = true) ∧ values = body.map fun c => c.val - 48 := by
  have digit_of_value : ∀ {c : CodePoint} {value : Nat}, c ∈ body →
      runtime.digitValue c = some value → isDigit c = true ∧ value = c.val - 48 := by
    intro c value member read
    rcases plain c member with blank | digit
    · rw [digitValue_of_blank blank] at read
      cases read
    · rw [digitValue_of_digit digit] at read
      cases read
      exact ⟨digit, rfl⟩
  refine ⟨?_, ?_⟩
  · rintro rfl
    cases run
  · induction run with
    | @last c value digit =>
        obtain ⟨isDigit, rfl⟩ := digit_of_value List.mem_cons_self digit
        exact ⟨fun d member => List.mem_singleton.mp member ▸ isDigit, rfl⟩
    | @next c value rest values digit run ih =>
        obtain ⟨isDigit, rfl⟩ := digit_of_value List.mem_cons_self digit
        obtain ⟨others, rfl⟩ := ih (fun d member => plain d (List.mem_cons_of_mem c member))
          (fun member => digit_of_value (List.mem_cons_of_mem c member))
        exact ⟨List.forall_mem_cons.mpr ⟨isDigit, others⟩, rfl⟩
    | @skip c value rest values digit run ih =>
        exact absurd (plain (cp '_') (List.mem_cons_of_mem c List.mem_cons_self)) (by decide)

theorem PlainDecimal.int_eq {text : Str} {n : Nat} (plain : PlainDecimal text n) :
    runtime.int text = some (n : Int) := by
  have trimmed := plain.characters.trim_eq
  obtain ⟨nonempty, short, digits, rfl⟩ := plain
  apply int_eq_some_iff.mpr
  refine ⟨1, _, ⟨[], _, trimmed, .none, digitRun_of_digits_only nonempty digits, ?_⟩,
    (Int.one_mul _).symm⟩
  rw [List.length_map]
  exact short

/-- A plain text that is read at all is a plain decimal one. -/
theorem PlainCharacters.decimal {text : Str} (plain : PlainCharacters text) {unit : Int}
    {values : List Nat} (literal : IntLiteral runtime text unit values) :
    ∃ n, PlainDecimal text n := by
  obtain ⟨sign, body, trimmed, signed, run, short⟩ := literal
  rw [plain.trim_eq] at trimmed
  have kept : PlainCharacters (sign ++ body) := by
    intro c member
    rw [← trimmed] at member
    exact plain c (mem_of_mem_trim member)
  cases signed with
  | plus => exact absurd (kept _ List.mem_cons_self) (by decide)
  | minus => exact absurd (kept _ List.mem_cons_self) (by decide)
  | none =>
      obtain ⟨nonempty, digits, rfl⟩ := run.plain kept
      rw [List.nil_append] at trimmed
      rw [List.length_map] at short
      rw [← trimmed] at nonempty digits short
      exact ⟨_, nonempty, short, digits, rfl⟩

/-! ### Reading what `str` wrote -/

theorem decimalNumber_append (values : List Nat) (last : Nat) :
    decimalNumber (values ++ [last]) = 10 * decimalNumber values + last := by
  unfold decimalNumber
  rw [List.reverse_append, List.reverse_singleton, List.singleton_append, Nat.ofDigits_cons]
  exact Nat.add_comm _ _

private theorem digitChar_facts : ∀ digit : Fin 10,
    isDigit (cp (Nat.digitChar digit.val)) = true ∧
      (cp (Nat.digitChar digit.val)).val - 48 = digit.val := by
  decide

/-- The decimal text of a number: its digits. -/
theorem natText_digits (n : Nat) :
    natText n ≠ [] ∧ (∀ c ∈ natText n, isDigit c = true) ∧
      decimalNumber ((natText n).map fun c => c.val - 48) = n := by
  unfold natText
  induction n using Nat.strongRecOn with
  | ind n ih =>
      rw [Nat.toDigits_eq_if (by decide)]
      by_cases single : n < 10
      · have fact := digitChar_facts ⟨n, single⟩
        rw [if_pos single]
        refine ⟨List.cons_ne_nil _ _, fun c member => ?_, ?_⟩
        · rw [List.mem_singleton.mp member]
          exact fact.1
        · rw [List.map_singleton, List.map_singleton, fact.2]
          exact Nat.ofDigits_singleton
      · obtain ⟨nonempty, digits, value⟩ := ih (n / 10) (by omega)
        have fact := digitChar_facts ⟨n % 10, Nat.mod_lt n (by decide)⟩
        rw [if_neg single, List.map_append, List.map_singleton]
        refine ⟨fun empty => nonempty (List.append_eq_nil_iff.mp empty).1, fun c member => ?_, ?_⟩
        · rcases List.mem_append.mp member with front | last
          · exact digits c front
          · rw [List.mem_singleton.mp last]
            exact fact.1
        · rw [List.map_append, List.map_singleton, decimalNumber_append, value, fact.2]
          exact Nat.div_add_mod n 10

/-- `int` inverts `str` on integers that have a text. -/
theorem int_intText {n : Int} {text : Str} (written : intText n = .ok text) :
    runtime.int text = some n := by
  unfold intText at written
  split at written
  · cases written
  · rename_i short
    obtain ⟨nonempty, digits, value⟩ := natText_digits n.natAbs
    have run : DigitRun runtime (natText n.natAbs) ((natText n.natAbs).map fun c => c.val - 48) :=
      digitRun_of_digits_only nonempty digits
    have length : ((natText n.natAbs).map fun c => c.val - 48).length ≤ maxStrDigits := by
      rw [List.length_map]
      exact Nat.not_lt.mp short
    have solid : ∀ c ∈ natText n.natAbs, isIntSpace c = false :=
      fun c member => not_isIntSpace_of_digit (digits c member)
    apply int_eq_some_iff.mpr
    rw [← Except.ok.inj written]
    by_cases negative : n < 0
    · rw [if_pos negative]
      refine ⟨-1, _, ⟨[cp '-'], _, trim_solid ?_, .minus, run, length⟩, ?_⟩
      · intro c member
        rcases List.mem_cons.mp member with rfl | later
        · decide
        · exact solid c later
      · rw [value]
        omega
    · rw [if_neg negative]
      refine ⟨1, _, ⟨[], _, trim_solid solid, .none, run, length⟩, ?_⟩
      rw [value]
      omega

end Python
