import MailkubeSdk.Python.Datetime
import MailkubeSdk.Python.Dict
import MailkubeSdk.Python.Url

/-
The values that pass between a caller, a JSON text and the interpreter, and
their text.

A float is kept as the literal it was read from.  `str` can raise: an integer of
more than 4300 digits has no decimal text, and the `repr` of a container can run
out of stack.
-/

namespace Python

inductive Value where
  | none
  | bool (value : Bool)
  | int (value : Int)
  | float (literal : Str)
  | str (text : Str)
  | bytes (octets : Bytes)
  | datetime (value : Datetime)
  | list (elements : List Value)
  | dict (items : List (Str × Value))

/-! ### Equality -/

mutual

/-- Whether two values are the same, their members in the same order. -/
def Value.same : Value → Value → Bool
  | .none, .none => true
  | .bool left, .bool right => left == right
  | .int left, .int right => left == right
  | .float left, .float right => left == right
  | .str left, .str right => left == right
  | .bytes left, .bytes right => left == right
  | .datetime left, .datetime right => decide (left = right)
  | .list left, .list right => sameElements left right
  | .dict left, .dict right => sameItems left right
  | _, _ => false

def Value.sameElements : List Value → List Value → Bool
  | [], [] => true
  | left :: rest, right :: more => left.same right && sameElements rest more
  | _, _ => false

def Value.sameItems : List (Str × Value) → List (Str × Value) → Bool
  | [], [] => true
  | (key, left) :: rest, (other, right) :: more =>
      key == other && left.same right && sameItems rest more
  | _, _ => false

end

mutual

theorem Value.same_iff : ∀ left right : Value, left.same right = true ↔ left = right
  | .none, right => by cases right <;> simp [Value.same]
  | .bool value, right => by cases right <;> simp [Value.same]
  | .int value, right => by cases right <;> simp [Value.same]
  | .float value, right => by cases right <;> simp [Value.same]
  | .str value, right => by cases right <;> simp [Value.same]
  | .bytes value, right => by cases right <;> simp [Value.same]
  | .datetime value, right => by cases right <;> simp [Value.same]
  | .list elements, right => by cases right <;> simp [Value.same, sameElements_iff elements]
  | .dict items, right => by cases right <;> simp [Value.same, sameItems_iff items]

theorem Value.sameElements_iff :
    ∀ left right : List Value, Value.sameElements left right = true ↔ left = right
  | [], right => by cases right <;> simp [Value.sameElements]
  | value :: rest, right => by
      cases right <;> simp [Value.sameElements, same_iff value, sameElements_iff rest]

theorem Value.sameItems_iff :
    ∀ left right : List (Str × Value), Value.sameItems left right = true ↔ left = right
  | [], right => by cases right <;> simp [Value.sameItems]
  | (key, value) :: rest, right => by
      cases right <;> simp [Value.sameItems, same_iff value, sameItems_iff rest, Prod.ext_iff]

end

instance decidableEqValue : DecidableEq Value := fun left right =>
  decidable_of_iff (left.same right = true) (Value.same_iff left right)
/-! ### The interpreter -/

/-- What a program takes from the interpreter's build: the Unicode database, how
the remaining scalars print, the host checks of `urllib.parse`, and how deep the
JSON scanner and `repr` may recurse. -/
structure Runtime where
  lower : Str → Str
  lower_ascii : ∀ text, isAsciiText text = true → lower text = lowerAscii text
  printable : CodePoint → Bool
  decimal : CodePoint → Option Nat
  floatRepr : Str → Str
  bytesRepr : Bytes → Str
  datetimeRepr : Datetime → Str
  hosts : Url.HostRules
  scanDepth : Nat
  reprDepth : Nat

/-- The exceptions of the interpreter itself. -/
inductive Builtin where
  | valueError
  | typeError
  | keyError
  | runtimeError
  | recursionError
  | unicodeEncodeError
deriving DecidableEq

/-- `sys.int_info.default_max_str_digits`. -/
def maxStrDigits : Nat := 4300

def natText (n : Nat) : Str := (Nat.toDigits 10 n).map cp

/-- `str` of an integer. -/
def intText (n : Int) : Except Builtin Str :=
  if maxStrDigits < (natText n.natAbs).length then .error .valueError
  else .ok (if n < 0 then cp '-' :: natText n.natAbs else natText n.natAbs)

namespace Runtime

variable (runtime : Runtime)

def hexText (width n : Nat) : Str :=
  (List.range width).reverse.map (fun place =>
    let digit := n / 16 ^ place % 16
    Utf8.codePoint (if digit < 10 then 48 + digit else 87 + digit))

def isPrintable (c : CodePoint) : Bool :=
  if isAscii c then 32 ≤ c.val && c.val ≤ 126 else runtime.printable c

def reprChar (quote c : CodePoint) : Str :=
  if c = quote ∨ c = cp '\\' then [cp '\\', c]
  else if c = cp '\t' then Python.str "\\t"
  else if c = cp '\n' then Python.str "\\n"
  else if c = cp '\r' then Python.str "\\r"
  else if runtime.isPrintable c then [c]
  else if c.val < 0x100 then Python.str "\\x" ++ hexText 2 c.val
  else if c.val < 0x10000 then Python.str "\\u" ++ hexText 4 c.val
  else Python.str "\\U" ++ hexText 8 c.val

/-- `repr` of text: in double quotes only if that saves escaping. -/
def reprStr (text : Str) : Str :=
  let quote := if cp '\'' ∈ text ∧ cp '"' ∉ text then cp '"' else cp '\''
  quote :: text.flatMap (runtime.reprChar quote) ++ [quote]

mutual

/-- `repr`, with `depth` nested calls left. -/
def repr (depth : Nat) : Value → Except Builtin Str
  | .none => .ok (Python.str "None")
  | .bool value => .ok (Python.str (if value then "True" else "False"))
  | .int value => intText value
  | .float literal => .ok (runtime.floatRepr literal)
  | .str text => .ok (runtime.reprStr text)
  | .bytes octets => .ok (runtime.bytesRepr octets)
  | .datetime value => .ok (runtime.datetimeRepr value)
  | .list elements =>
      match depth with
      | 0 => .error .recursionError
      | depth + 1 => do
          let parts ← reprElements depth elements
          .ok (Python.str "[" ++ (Python.str ", ").intercalate parts ++ Python.str "]")
  | .dict items =>
      match depth with
      | 0 => .error .recursionError
      | depth + 1 => do
          let parts ← reprItems depth items
          .ok (Python.str "\x7b" ++ (Python.str ", ").intercalate parts ++ Python.str "\x7d")

def reprElements (depth : Nat) : List Value → Except Builtin (List Str)
  | [] => .ok []
  | element :: rest => do
      let head ← repr depth element
      let tail ← reprElements depth rest
      .ok (head :: tail)

def reprItems (depth : Nat) : List (Str × Value) → Except Builtin (List Str)
  | [] => .ok []
  | (key, value) :: rest => do
      let head ← repr depth value
      let tail ← reprItems depth rest
      .ok ((runtime.reprStr key ++ Python.str ": " ++ head) :: tail)

end

/-- `str(value)`. -/
def str (value : Value) : Except Builtin Str :=
  match value with
  | .str text => .ok text
  | .datetime value => .ok (value.isoformatWith (cp ' '))
  | value => runtime.repr runtime.reprDepth value

@[simp] theorem lower_str (text : String) (ascii : isAsciiText (Python.str text) = true) :
    runtime.lower (Python.str text) = lowerAscii (Python.str text) :=
  runtime.lower_ascii _ ascii

/-! ### `int` -/

/-- The value of a code point as a decimal digit. -/
def digitValue (c : CodePoint) : Option Nat :=
  if isAscii c then (if isDigit c then some (c.val - 48) else none) else runtime.decimal c

/-- The digits of an integer literal, single underscores between them skipped. -/
def digits : Str → Option (List Nat)
  | [] => none
  | [c] => (runtime.digitValue c).map ([·])
  | c :: next :: rest =>
      if next = cp '_' then do
        let front ← runtime.digitValue c
        let back ← digits rest
        some (front :: back)
      else do
        let front ← runtime.digitValue c
        let back ← digits (next :: rest)
        some (front :: back)

/-- `int(text)`; `none` is its `ValueError`. -/
def int (text : Str) : Option Int := do
  let body := trim isIntSpace text
  let (negative, body) := match body with
    | c :: rest =>
        if c = cp '-' then (true, rest)
        else if c = cp '+' then (false, rest)
        else (false, body)
    | [] => (false, body)
  let read ← runtime.digits body
  if maxStrDigits < read.length then none
  else
    let magnitude : Nat := read.foldl (fun acc digit => 10 * acc + digit) 0
    some (if negative then -magnitude else magnitude)

end Runtime

end Python
