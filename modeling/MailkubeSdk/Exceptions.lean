import MailkubeSdk.Python.Value

/-
The exception hierarchy and the response-to-exception mapping.

An exception is one of the package's own classes or one that comes from below
it: a built-in of the interpreter or pydantic's `ValidationError`.  An API error
carries its class and its fields.
-/

namespace MailkubeSdk

open Python

inductive APIErrorClass where
  | apiError
  | badRequestError
  | authenticationError
  | notFoundError
  | conflictError
  | invalidRequestError
  | rateLimitError
  | serverError
deriving DecidableEq

structure APIError where
  cls : APIErrorClass
  errorName : Str
  message : Str
  statusCode : Nat
  body : Value
  retryAfter : Option Int
  requestId : Option Str

inductive Exn where
  | mailkubeError (message : Str)
  | mailkubeConnectionError (message : Str)
  | signatureVerificationError (message : Str)
  | apiError (error : APIError)
  | validationError
  | builtin (exception : Builtin)

theorem bind_eq_ok_iff {ε α β : Type} {first : Except ε α} {next : α → Except ε β} {result : β} :
    (first >>= next) = .ok result ↔ ∃ value, first = .ok value ∧ next value = .ok result := by
  cases first with
  | ok value => simp only [bind, Except.bind, Except.ok.injEq, exists_eq_left']
  | error exception => simp only [bind, Except.bind, reduceCtorEq, false_and, exists_false]

theorem bind_eq_error_iff {ε α β : Type} {first : Except ε α} {next : α → Except ε β} {error : ε} :
    (first >>= next) = .error error ↔
      first = .error error ∨ ∃ value, first = .ok value ∧ next value = .error error := by
  cases first with
  | ok value => simp only [bind, Except.bind, Except.ok.injEq, reduceCtorEq, false_or,
      exists_eq_left']
  | error exception => simp only [bind, Except.bind, Except.error.injEq, reduceCtorEq, false_and,
      exists_false, or_false]

theorem mapM_built_iff {ε α β : Type} {f : α → Except ε β} {list : List α} :
    (∃ mapped, list.mapM f = .ok mapped) ↔ ∀ a ∈ list, ∃ b, f a = .ok b := by
  induction list with
  | nil => exact iff_of_true ⟨[], rfl⟩ (List.forall_mem_nil _)
  | cons a rest ih =>
      rw [List.forall_mem_cons, ← ih, List.mapM_cons]
      constructor
      · rintro ⟨mapped, done⟩
        obtain ⟨b, head, more⟩ := bind_eq_ok_iff.mp done
        obtain ⟨tail, others, _⟩ := bind_eq_ok_iff.mp more
        exact ⟨⟨b, head⟩, tail, others⟩
      · rintro ⟨⟨b, head⟩, tail, others⟩
        rw [head, others]
        exact ⟨b :: tail, rfl⟩

/-- A map that fails does so as one of its elements. -/
theorem exists_of_mapM_error {ε α β : Type} {f : α → Except ε β} {list : List α} {error : ε}
    (failed : list.mapM f = .error error) : ∃ a ∈ list, f a = .error error := by
  induction list with
  | nil => cases failed
  | cons a rest ih =>
      rw [List.mapM_cons] at failed
      rcases bind_eq_error_iff.mp failed with head | ⟨b, _, more⟩
      · exact ⟨a, List.mem_cons_self, head⟩
      · rcases bind_eq_error_iff.mp more with tail | ⟨mapped, _, impossible⟩
        · obtain ⟨later, member, same⟩ := ih tail
          exact ⟨later, List.mem_cons_of_mem _ member, same⟩
        · cases impossible

theorem eq_ok_of_toOption {ε α : Type} {result : Except ε α} {value : α}
    (found : result.toOption = some value) : result = .ok value := by
  cases result with
  | error error => cases found
  | ok other => rw [Option.some.inj found]

/-- A built-in exception, as the package lets it through. -/
def liftBuiltin {α : Type} (result : Except Builtin α) : Except Exn α := result.mapError .builtin

@[simp] theorem liftBuiltin_ok {α : Type} (value : α) :
    liftBuiltin (.ok value : Except Builtin α) = .ok value := rfl

theorem liftBuiltin_eq_ok_iff {α : Type} {result : Except Builtin α} {value : α} :
    liftBuiltin result = .ok value ↔ result = .ok value := by
  cases result with
  | ok given => simp only [liftBuiltin_ok, Except.ok.injEq]
  | error exception =>
      constructor
      · intro lifted
        cases lifted
      · intro same
        cases same

theorem exists_builtin_of_liftBuiltin {α : Type} {result : Except Builtin α} {exn : Exn}
    (raised : liftBuiltin result = .error exn) : ∃ exception, exn = .builtin exception := by
  cases result with
  | ok value => cases raised
  | error exception =>
      cases raised
      exact ⟨exception, rfl⟩

/-- The subclasses of `MailkubeError`. -/
def Exn.isMailkubeError : Exn → Bool
  | .mailkubeError _ => true
  | .mailkubeConnectionError _ => true
  | .signatureVerificationError _ => true
  | .apiError _ => true
  | .validationError => false
  | .builtin _ => false

/-- The text the base `Exception` is built with: the first that is not empty. -/
def APIError.text (error : APIError) : Str :=
  if error.message ≠ [] then error.message
  else if error.errorName ≠ [] then error.errorName
  else str "HTTP " ++ natText error.statusCode

/-- `_STATUS_EXCEPTIONS`. -/
def statusExceptions : Items Nat APIErrorClass :=
  [(400, .badRequestError), (403, .authenticationError), (404, .notFoundError),
    (409, .conflictError), (422, .invalidRequestError), (429, .rateLimitError)]

/-- `_SERVER_ERRORS`. -/
def isServerError (status : Nat) : Bool := 500 ≤ status && status < 600

/-- The class a status selects: an exact match, then any other 5xx, then the base class. -/
def exceptionClass (status : Nat) : APIErrorClass :=
  (statusExceptions.get status).getD (if isServerError status then .serverError else .apiError)

/-- `str(body.get(key, ""))`, and the empty text when the body is not an object. -/
def envelopeText (runtime : Runtime) (body : Value) (key : String) : Except Builtin Str :=
  match body with
  | .dict items => runtime.str ((Items.get items (str key)).getD (.str []))
  | _ => .ok []

/-- `raise_for_response`: the exception it raises. -/
def raiseForResponse (runtime : Runtime) (status : Nat) (body : Value) (retryAfter : Option Int)
    (requestId : Option Str) : Exn :=
  let envelope := do
    let errorName ← envelopeText runtime body "name"
    let message ← envelopeText runtime body "message"
    .ok (errorName, message)
  match envelope with
  | .error exception => .builtin exception
  | .ok (errorName, message) =>
      .apiError
        { cls := exceptionClass status, errorName, message, statusCode := status, body
          retryAfter, requestId }

end MailkubeSdk
