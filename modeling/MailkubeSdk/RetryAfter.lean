import MailkubeSdk.ErrorEnvelope
import MailkubeSdk.Python.IntLiteral

/-
The retry delay of an API error.

The header's own grammar is decimal digits, while `int` reads every integer
literal of the interpreter: a sign, single underscores, the digits of any script
and any white space around them.  The delay is what the header says exactly where
a text that is such a literal has no other character than the header may have.
-/

namespace MailkubeSdk

open Python

/-- The text of a header under any spelling of its name, the first where there are several. -/
inductive HeaderText (runtime : Runtime) (name : Str) : Items Str Str → Option Str → Prop where
  | absent {headers : Items Str Str} (unnamed : ∀ item ∈ headers, runtime.lower item.1 ≠ name) :
      HeaderText runtime name headers none
  | first {front back : Items Str Str} {key text : Str}
      (unnamed : ∀ item ∈ front, runtime.lower item.1 ≠ name)
      (spelt : runtime.lower key = name) :
      HeaderText runtime name (front ++ (key, text) :: back) (some text)

/-- A delay that is the number a plain decimal header gives, and is missing with any
other header and without one. -/
structure DelayOf (given : Option Str) (delay : Option Int) : Prop where
  decimal : ∀ text n, given = some text → PlainDecimal text n → delay = some (n : Int)
  missing : (∀ text n, given = some text → ¬PlainDecimal text n) → delay = none
  nonneg : ∀ seconds, delay = some seconds → 0 ≤ seconds

/-! ### The header -/

theorem HeaderText.header_eq {runtime : Runtime} {name : Str} {headers : Items Str Str}
    {given : Option Str} (found : HeaderText runtime (runtime.lower name) headers given) :
    header runtime headers name = given := by
  have passed : ∀ {items : Items Str Str},
      (∀ item ∈ items, runtime.lower item.1 ≠ runtime.lower name) →
        items.find? (fun item => runtime.lower item.1 == runtime.lower name) = none := by
    intro items unnamed
    apply List.find?_eq_none.mpr
    intro item member same
    exact unnamed item member (eq_of_beq same)
  unfold header
  cases found with
  | absent unnamed =>
      rw [passed unnamed]
      rfl
  | first unnamed spelt =>
      rw [List.find?_append, passed unnamed, Option.none_or, List.find?_cons_of_pos]
      · rfl
      · exact beq_iff_eq.mpr spelt

/-! ### The number -/

theorem DelayOf.of_decimal {text : Str} {n : Nat} (decimal : PlainDecimal text n) :
    DelayOf (some text) (some (n : Int)) := by
  refine ⟨?_, ?_, ?_⟩
  · intro text' m given other
    cases given
    have same : n = m := decimal.2.2.2.trans other.2.2.2.symm
    rw [same]
  · intro missing
    exact absurd decimal (missing text n rfl)
  · intro seconds given
    cases given
    exact Int.natCast_nonneg n

theorem DelayOf.of_missing {given : Option Str}
    (missing : ∀ text n, given = some text → ¬PlainDecimal text n) : DelayOf given none := by
  refine ⟨?_, fun _ => rfl, nofun⟩
  intro text n same decimal
  exact absurd decimal (missing text n same)

/-- The delay read with `int` is the header's exactly where a text that is an integer
literal is plain. -/
theorem delayOf_int_iff (runtime : Runtime) (given : Option Str) :
    DelayOf given (parseRetryAfter runtime given) ↔
      ∀ text unit values, given = some text → IntLiteral runtime text unit values →
        PlainCharacters text := by
  cases given with
  | none => exact iff_of_true (.of_missing nofun) nofun
  | some text =>
      change DelayOf (some text) (runtime.int text) ↔ _
      constructor
      · intro delay text' unit values same literal
        cases same
        by_contra unplain
        have absent : runtime.int text = none := by
          apply delay.missing
          intro text' n same decimal
          cases same
          exact unplain decimal.characters
        have read := int_eq_some_iff.mpr ⟨unit, values, literal, rfl⟩
        rw [absent] at read
        cases read
      · intro plain
        cases read : runtime.int text with
        | none =>
            apply DelayOf.of_missing
            intro text' n same decimal
            cases same
            rw [decimal.int_eq] at read
            cases read
        | some number =>
            obtain ⟨unit, values, literal, _⟩ := int_eq_some_iff.mp read
            obtain ⟨n, decimal⟩ := (plain text unit values rfl literal).decimal literal
            rw [← read, decimal.int_eq]
            exact .of_decimal decimal

/-! ### The exception -/

theorem retryAfter_of_raised {runtime : Runtime} {status : Nat} {body : Value}
    {retryAfter : Option Int} {requestId : Option Str} {error : APIError}
    (raised : raiseForResponse runtime status body retryAfter requestId = .apiError error) :
    error.retryAfter = retryAfter := by
  unfold raiseForResponse at raised
  dsimp only at raised
  split at raised
  · cases raised
  · cases raised
    rfl

/-- A failed response ends in an API error exactly when its body is readable, and
the delay of the error is then the parsed header. -/
theorem parse_failed_iff (platform : Platform) (verb : Verb) {response : Response}
    (failed : isOkStatus response.statusCode = false) (delayed : Option Int → Prop) :
    (∃ error, verb.parse platform response = .error (.apiError error) ∧
        delayed error.retryAfter) ↔
      Readable platform.runtime response.content ∧
        delayed (parseRetryAfter platform.runtime
          (header platform.runtime response.headers (str "retry-after"))) := by
  rcases decodeJson_cases platform.runtime response.content with
    ⟨body, decoded, readable⟩ | ⟨exception, decoded, unreadable⟩
  · rw [parse_raises platform verb failed decoded, raisedFor, readable]
    rcases raiseForResponse_cases platform.runtime response.statusCode body
        (parseRetryAfter platform.runtime
          (header platform.runtime response.headers (str "retry-after")))
        (header platform.runtime response.headers (str "x-request-id")) with
      ⟨reads, error, raised, _⟩ | ⟨unread, exception, raised⟩
    · rw [raised, ← retryAfter_of_raised raised]
      constructor
      · rintro ⟨other, same, delays⟩
        cases same
        exact ⟨reads, delays⟩
      · rintro ⟨_, delays⟩
        exact ⟨error, rfl, delays⟩
    · rw [raised]
      apply iff_of_false
      · rintro ⟨error, same, _⟩
        cases same
      · rintro ⟨reads, _⟩
        exact unread reads
  · have escaped : okBody platform response = .error (.builtin exception) := by
      unfold okBody
      rw [decoded]
      rfl
    rw [parse_of_okBody platform verb escaped]
    apply iff_of_false
    · rintro ⟨error, same, _⟩
      cases same
    · rintro ⟨readable, _⟩
      exact unreadable readable

/-- The error of a failed response carries the delay its header gives exactly when
the body is readable and the header, where it is an integer literal, holds only
ASCII digits, spaces and tabs. -/
theorem retry_after_iff (platform : Platform) (verb : Verb) {response : Response}
    {given : Option Str} (failed : isOkStatus response.statusCode = false)
    (found : HeaderText platform.runtime (str "retry-after") response.headers given) :
    (∃ error, verb.parse platform response = .error (.apiError error) ∧
        DelayOf given error.retryAfter) ↔
      Readable platform.runtime response.content ∧
        ∀ text unit values, given = some text →
          IntLiteral platform.runtime text unit values → PlainCharacters text := by
  have name : platform.runtime.lower (str "retry-after") = str "retry-after" :=
    platform.runtime.lower_str "retry-after" rfl
  rw [← name] at found
  rw [parse_failed_iff platform verb failed, found.header_eq]
  exact and_congr_right (fun _ => delayOf_int_iff platform.runtime given)

/-! ### A negative delay -/

def negativeDelay : Response := ⟨429, [], [(str "Retry-After", str "-5")]⟩

private theorem negativeDelay_header :
    HeaderText Platform.plain.runtime (str "retry-after") negativeDelay.headers
      (some (str "-5")) :=
  @HeaderText.first Platform.plain.runtime (str "retry-after") [] [] (str "Retry-After")
    (str "-5") (List.forall_mem_nil _) (by decide)

theorem retry_after_iff_sample :
    (∃ error, Verb.credentialInfo.parse Platform.plain negativeDelay =
        .error (.apiError error) ∧ DelayOf (some (str "-5")) error.retryAfter) ↔
      Readable Platform.plain.runtime negativeDelay.content ∧
        ∀ text unit values, some (str "-5") = some text →
          IntLiteral Platform.plain.runtime text unit values → PlainCharacters text :=
  retry_after_iff Platform.plain .credentialInfo rfl negativeDelay_header

/-- A header of `-5` makes the error ask for a wait of minus five seconds. -/
theorem negative_delay_raised :
    HeaderText Platform.plain.runtime (str "retry-after") negativeDelay.headers
        (some (str "-5")) ∧
      ∃ error, Verb.credentialInfo.parse Platform.plain negativeDelay =
          .error (.apiError error) ∧
        error.retryAfter = some (-5) ∧ ¬DelayOf (some (str "-5")) error.retryAfter := by
  refine ⟨negativeDelay_header, ?_⟩
  have decoded : decodeJson Platform.plain.runtime negativeDelay.content = .ok .none := rfl
  have read : parseRetryAfter Platform.plain.runtime
      (header Platform.plain.runtime negativeDelay.headers (str "retry-after")) = some (-5) := by
    decide +kernel
  rw [parse_raises Platform.plain .credentialInfo rfl decoded, raisedFor, read]
  refine ⟨_, rfl, rfl, ?_⟩
  intro delay
  exact absurd (delay.nonneg (-5) rfl) (by decide)

end MailkubeSdk
