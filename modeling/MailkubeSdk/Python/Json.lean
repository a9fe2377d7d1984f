import Mathlib.Data.List.TakeWhile
import MailkubeSdk.Python.Value

/-
`json.loads` on a `bytes` body.

The octets are decoded by the encoding their first four suggest, lone surrogates
let through, and the text is scanned for one value.  The scanner calls itself
once for every nested array or object; `depth` counts the calls it has left, and
`digits` is how many an integer literal may have.
-/

namespace Python.Json

open Utf8

/-- What `json.loads` raises. -/
inductive LoadsError where
  | jsonDecodeError
  | unicodeDecodeError
  | valueError
  | recursionError
deriving DecidableEq

/-! ### Decoding -/

inductive Encoding where
  | utf8
  | utf8Sig
  | utf16 (big : Bool)
  | utf32 (big : Bool)
deriving DecidableEq

/-- `detect_encoding`, and how many octets the byte order mark takes. -/
def detectEncoding (body : Bytes) : Encoding × Nat :=
  if body.take 4 = [0x00, 0x00, 0xFE, 0xFF] then (.utf32 true, 4)
  else if body.take 4 = [0xFF, 0xFE, 0x00, 0x00] then (.utf32 false, 4)
  else if body.take 2 = [0xFE, 0xFF] then (.utf16 true, 2)
  else if body.take 2 = [0xFF, 0xFE] then (.utf16 false, 2)
  else if body.take 3 = [0xEF, 0xBB, 0xBF] then (.utf8Sig, 3)
  else
    match body with
    | [a, b] =>
        if a = 0 then (.utf16 true, 0) else if b = 0 then (.utf16 false, 0) else (.utf8, 0)
    | a :: b :: c :: d :: _ =>
        if a = 0 then (if b ≠ 0 then .utf16 true else .utf32 true, 0)
        else if b = 0 then (if c ≠ 0 ∨ d ≠ 0 then .utf16 false else .utf32 false, 0)
        else (.utf8, 0)
    | _ => (.utf8, 0)

/-- UTF-16 units, `none` when an octet is left over. -/
def units16 (big : Bool) : Bytes → Option (List Nat)
  | [] => some []
  | [_] => none
  | a :: b :: rest =>
      (units16 big rest).map ((if big then a.val * 256 + b.val else b.val * 256 + a.val) :: ·)

/-- Surrogate pairs are joined, a lone surrogate stays. -/
def joinPairs : List Nat → Str
  | high :: low :: rest =>
      if 0xD800 ≤ high ∧ high ≤ 0xDBFF ∧ 0xDC00 ≤ low ∧ low ≤ 0xDFFF then
        codePoint (0x10000 + (high - 0xD800) * 1024 + (low - 0xDC00)) :: joinPairs rest
      else codePoint high :: joinPairs (low :: rest)
  | [unit] => [codePoint unit]
  | [] => []

def units32 (big : Bool) : Bytes → Option Str
  | [] => some []
  | a :: b :: c :: d :: rest =>
      let unit := if big then ((a.val * 256 + b.val) * 256 + c.val) * 256 + d.val
        else ((d.val * 256 + c.val) * 256 + b.val) * 256 + a.val
      if unit < 0x110000 then (units32 big rest).map (codePoint unit :: ·) else none
  | _ => none

/-- `body.decode(detect_encoding(body), "surrogatepass")`. -/
def decodeBody (body : Bytes) : Option Str :=
  match detectEncoding body with
  | (.utf8, mark) => decodeWith true (body.drop mark)
  | (.utf8Sig, mark) => decodeWith true (body.drop mark)
  | (.utf16 big, mark) => (units16 big (body.drop mark)).map joinPairs
  | (.utf32 big, mark) => units32 big (body.drop mark)

/-! ### Scanning -/

def isBlank (c : CodePoint) : Bool :=
  c == cp ' ' || c == cp '\t' || c == cp '\n' || c == cp '\r'

def skipBlanks (text : Str) : Str := text.dropWhile isBlank

def hexDigit (c : CodePoint) : Option Nat :=
  if isDigit c then some (c.val - 48)
  else if 65 ≤ c.val ∧ c.val ≤ 70 then some (c.val - 55)
  else if 97 ≤ c.val ∧ c.val ≤ 102 then some (c.val - 87)
  else none

/-- Four hexadecimal digits. -/
def scanHex : Str → Option (Nat × Str)
  | a :: b :: c :: d :: rest => do
      let a ← hexDigit a
      let b ← hexDigit b
      let c ← hexDigit c
      let d ← hexDigit d
      some (((a * 16 + b) * 16 + c) * 16 + d, rest)
  | _ => none

def escapeChar (c : CodePoint) : Option CodePoint :=
  if c = cp '"' ∨ c = cp '\\' ∨ c = cp '/' then some c
  else if c = cp 'b' then some (codePoint 8)
  else if c = cp 'f' then some (codePoint 12)
  else if c = cp 'n' then some (cp '\n')
  else if c = cp 'r' then some (cp '\r')
  else if c = cp 't' then some (cp '\t')
  else none

/-- A `\uXXXX` escape after its `u`; two that form a surrogate pair are one character. -/
def scanUnicode (text : Str) : Option (CodePoint × Str) := do
  let (unit, rest) ← scanHex text
  if 0xD800 ≤ unit ∧ unit ≤ 0xDBFF ∧ rest.take 2 = str "\\u" then do
    let (low, after) ← scanHex (rest.drop 2)
    if 0xDC00 ≤ low ∧ low ≤ 0xDFFF
      then some (codePoint (0x10000 + (unit - 0xD800) * 1024 + (low - 0xDC00)), after)
      else some (codePoint unit, rest)
  else some (codePoint unit, rest)

/-- `scanstring` after the opening quote.  Every round takes a character, so the
length of the text is fuel enough. -/
def scanString : Nat → Str → Except LoadsError (Str × Str)
  | 0, _ => .error .jsonDecodeError
  | _, [] => .error .jsonDecodeError
  | fuel + 1, c :: rest =>
      if c = cp '"' then .ok ([], rest)
      else if c.val < 0x20 then .error .jsonDecodeError
      else if c = cp '\\' then
        match rest with
        | [] => .error .jsonDecodeError
        | e :: after =>
            let escaped := if e = cp 'u' then scanUnicode after
              else (escapeChar e).map (fun value => (value, after))
            match escaped with
            | none => .error .jsonDecodeError
            | some (value, after) =>
                (scanString fuel after).map (fun (tail, end_) => (value :: tail, end_))
      else (scanString fuel rest).map (fun (tail, end_) => (c :: tail, end_))

/-- The minus sign a number may start with. -/
def matchSign (text : Str) : Str × Str :=
  if text.take 1 = str "-" then (str "-", text.drop 1) else ([], text)

/-- The integer part: a lone zero, or digits. -/
def matchWhole : Str → Option (Str × Str)
  | c :: after =>
      if c = cp '0' then some ([c], after)
      else if isDigit c then
        some ((c :: after).takeWhile isDigit, (c :: after).dropWhile isDigit)
      else none
  | [] => none

/-- The fraction, empty when a point has no digit after it. -/
def matchFraction : Str → Str × Str
  | dot :: d :: after =>
      if dot = cp '.' ∧ isDigit d then
        (dot :: (d :: after).takeWhile isDigit, (d :: after).dropWhile isDigit)
      else ([], dot :: d :: after)
  | text => ([], text)

/-- The exponent, empty when it has no digits. -/
def matchExponent : Str → Str × Str
  | e :: after =>
      let (mark, power) := match after with
        | s :: tail => if s = cp '+' ∨ s = cp '-' then ([s], tail) else ([], after)
        | [] => ([], after)
      if (e = cp 'e' ∨ e = cp 'E') ∧ power.takeWhile isDigit ≠ [] then
        (e :: mark ++ power.takeWhile isDigit, power.dropWhile isDigit)
      else ([], e :: after)
  | [] => ([], [])

/-- The literal of a number and whether it is a float. -/
def matchNumber (text : Str) : Option (Str × Bool × Str) :=
  let (sign, rest) := matchSign text
  (matchWhole rest).map fun (digits, rest) =>
    let (fraction, rest) := matchFraction rest
    let (exponent, rest) := matchExponent rest
    (sign ++ digits ++ fraction ++ exponent, !(fraction ++ exponent).isEmpty, rest)

/-- An integer literal as `int` reads it. -/
def parseInt (digits : Nat) (literal : Str) : Except LoadsError Value :=
  let (sign, whole) := matchSign literal
  if digits < whole.length then .error .valueError
  else
    let magnitude : Nat := whole.foldl (fun acc c => 10 * acc + (c.val - 48)) 0
    .ok (.int (if sign = [] then magnitude else -magnitude))

/-- A value that is neither an array nor an object. -/
def scanScalar (digits : Nat) (text : Str) : Except LoadsError (Value × Str) :=
  if text.take 4 = str "null" then .ok (.none, text.drop 4)
  else if text.take 4 = str "true" then .ok (.bool true, text.drop 4)
  else if text.take 5 = str "false" then .ok (.bool false, text.drop 5)
  else
    match matchNumber text with
    | some (literal, false, rest) => (parseInt digits literal).map (fun value => (value, rest))
    | some (literal, true, rest) => .ok (.float literal, rest)
    | none =>
        if text.take 3 = str "NaN" then .ok (.float (str "NaN"), text.drop 3)
        else if text.take 8 = str "Infinity" then .ok (.float (str "Infinity"), text.drop 8)
        else if text.take 9 = str "-Infinity" then .ok (.float (str "-Infinity"), text.drop 9)
        else .error .jsonDecodeError

/-- The elements of an array from the next value on; a round takes a character. -/
def scanElements (scan : Str → Except LoadsError (Value × Str)) :
    Nat → List Value → Str → Except LoadsError (Value × Str)
  | 0, _, _ => .error .jsonDecodeError
  | fuel + 1, done, text => do
      let (value, rest) ← scan text
      match skipBlanks rest with
      | c :: after =>
          if c = cp ']' then .ok (.list (done ++ [value]), after)
          else if c = cp ',' then scanElements scan fuel (done ++ [value]) (skipBlanks after)
          else .error .jsonDecodeError
      | [] => .error .jsonDecodeError

/-- The members of an object from the next key on.  A key that comes again
replaces the value in place. -/
def scanMembers (scan : Str → Except LoadsError (Value × Str)) :
    Nat → Items Str Value → Str → Except LoadsError (Value × Str)
  | 0, _, _ => .error .jsonDecodeError
  | fuel + 1, done, text =>
      match text with
      | quote :: text =>
          if quote = cp '"' then do
            let (key, rest) ← scanString (text.length + 1) text
            match skipBlanks rest with
            | colon :: after =>
                if colon = cp ':' then do
                  let (value, rest) ← scan (skipBlanks after)
                  match skipBlanks rest with
                  | c :: after =>
                      if c = cp '}' then .ok (.dict (done.set key value), after)
                      else if c = cp ',' then
                        scanMembers scan fuel (done.set key value) (skipBlanks after)
                      else .error .jsonDecodeError
                  | [] => .error .jsonDecodeError
                else .error .jsonDecodeError
            | [] => .error .jsonDecodeError
          else .error .jsonDecodeError
      | [] => .error .jsonDecodeError

def scanOnce (digits : Nat) : Nat → Str → Except LoadsError (Value × Str)
  | depth, text =>
      match text with
      | [] => .error .jsonDecodeError
      | c :: rest =>
          if c = cp '"' then
            (scanString (rest.length + 1) rest).map (fun (value, end_) => (.str value, end_))
          else if c = cp '[' then
            match depth with
            | 0 => .error .recursionError
            | depth + 1 =>
                match skipBlanks rest with
                | [] => .error .jsonDecodeError
                | first :: after =>
                    if first = cp ']' then .ok (.list [], after)
                    else scanElements (scanOnce digits depth) (rest.length + 1) [] (first :: after)
          else if c = cp '{' then
            match depth with
            | 0 => .error .recursionError
            | depth + 1 =>
                match skipBlanks rest with
                | [] => .error .jsonDecodeError
                | first :: after =>
                    if first = cp '}' then .ok (.dict [], after)
                    else scanMembers (scanOnce digits depth) (rest.length + 1) [] (first :: after)
          else scanScalar digits text

/-- What a reader of JSON gives up on: nesting, and the digits of an integer. -/
structure Limits where
  depth : Nat
  digits : Nat

def loadsWithin (limits : Limits) (body : Bytes) : Except LoadsError Value :=
  match decodeBody body with
  | none => .error .unicodeDecodeError
  | some text => do
      let (value, rest) ← scanOnce limits.digits limits.depth (skipBlanks text)
      if skipBlanks rest = [] then .ok value else .error .jsonDecodeError

/-- `json.loads(body)` with the scanner allowed `depth` nested calls. -/
def loads (depth : Nat) (body : Bytes) : Except LoadsError Value :=
  loadsWithin ⟨depth, maxStrDigits⟩ body

/-! ### Two bodies that are not malformed -/

private theorem decodeBody_ascii {text : Str} {octets : Bytes} {a b c d : Byte} {rest : Bytes}
    (encoded : encode text = some octets) (shape : octets = a :: b :: c :: d :: rest)
    (plain : detectEncoding (a :: b :: c :: d :: rest) = (.utf8, 0)) :
    decodeBody octets = some text := by
  unfold decodeBody
  rw [shape, plain]
  simp only [List.drop_zero]
  rw [← shape]
  exact decodeWith_encode true encoded

private theorem encode_replicate (c : CodePoint) (ascii : isAscii c = true) (n : Nat) :
    encode (List.replicate n c) = some (List.replicate n (octet c.val)) := by
  rw [encode_ascii (fun d member => by rw [List.eq_of_mem_replicate member]; exact ascii),
    List.map_replicate]

private theorem skipBlanks_cons {c : CodePoint} (rest : Str) (printed : isBlank c = false) :
    skipBlanks (c :: rest) = c :: rest := by
  unfold skipBlanks
  rw [List.dropWhile_cons, printed, if_neg Bool.false_ne_true]

private theorem scanOnce_scalar (digits depth : Nat) {c : CodePoint} (rest : Str)
    (plain : c ≠ cp '"' ∧ c ≠ cp '[' ∧ c ≠ cp '{') :
    scanOnce digits depth (c :: rest) = scanScalar digits (c :: rest) := by
  unfold scanOnce
  simp only [if_neg plain.1, if_neg plain.2.1, if_neg plain.2.2]

private theorem scanScalar_digits {digits : Str} (digit : ∀ c ∈ digits, isDigit c = true)
    (starts : digits.take 1 = str "7") (long : maxStrDigits < digits.length) :
    scanScalar maxStrDigits digits = .error .valueError := by
  obtain ⟨rest, rfl⟩ : ∃ rest, digits = cp '7' :: rest := by
    cases digits with
    | nil => exact absurd starts (by decide)
    | cons c rest => exact ⟨rest, by rw [(List.cons.inj starts).1]; rfl⟩
  have whole : matchWhole (cp '7' :: rest) = some (cp '7' :: rest, []) := by
    rw [matchWhole, if_neg (by decide), if_pos (by decide),
      List.takeWhile_eq_self_iff.mpr digit, List.dropWhile_eq_nil_iff.mpr digit]
  have unsigned : matchSign (cp '7' :: rest) = ([], cp '7' :: rest) :=
    if_neg (fun signed => absurd (List.cons.inj signed).1 (by decide))
  have number : matchNumber (cp '7' :: rest) = some (cp '7' :: rest, false, []) := by
    unfold matchNumber
    simp only [unsigned, whole, Option.map_some, matchFraction, matchExponent, List.nil_append,
      List.append_nil, List.isEmpty_nil, Bool.not_true]
  have unparsable : parseInt maxStrDigits (cp '7' :: rest) = .error .valueError := by
    unfold parseInt
    simp only [unsigned, if_pos long]
  unfold scanScalar
  rw [number, if_neg, if_neg, if_neg]
  · simp only [unparsable]
    rfl
  all_goals
    intro named
    exact absurd (List.cons.inj named).1 (by decide)

/-- An integer literal of more than 4300 digits raises a plain `ValueError`. -/
theorem loads_long_integer (depth : Nat) {n : Nat} (long : maxStrDigits < n) :
    loads depth (List.replicate n (octet 55)) = .error .valueError := by
  obtain ⟨m, rfl⟩ : ∃ m, n = m + 4 := ⟨n - 4, by unfold maxStrDigits at long; omega⟩
  have decoded : decodeBody (List.replicate (m + 4) (octet 55)) =
      some (List.replicate (m + 4) (cp '7')) :=
    decodeBody_ascii (encode_replicate (cp '7') (by decide) (m + 4)) rfl rfl
  have scalar : scanScalar maxStrDigits (List.replicate (m + 4) (cp '7')) =
      .error .valueError :=
    scanScalar_digits (fun c member => by rw [List.eq_of_mem_replicate member]; decide) rfl
      (by rw [List.length_replicate]; exact long)
  unfold loads loadsWithin
  rw [decoded]
  rw [List.replicate_succ] at scalar ⊢
  simp only [skipBlanks_cons _ (show isBlank (cp '7') = false by decide),
    scanOnce_scalar _ depth _ (show cp '7' ≠ cp '"' ∧ cp '7' ≠ cp '[' ∧ cp '7' ≠ cp '{' by decide),
    scalar]
  rfl

/-- Nesting beyond what the scanner may recurse raises `RecursionError`. -/
theorem loads_deep {depth n : Nat} (deep : depth < n) :
    loads depth (List.replicate (n + 3) (octet 91)) = .error .recursionError := by
  have decoded : decodeBody (List.replicate (n + 3) (octet 91)) =
      some (List.replicate (n + 3) (cp '[')) := by
    obtain ⟨m, rfl⟩ : ∃ m, n = m + 1 := ⟨n - 1, by omega⟩
    exact decodeBody_ascii (encode_replicate (cp '[') (by decide) (m + 4)) rfl rfl
  have opening : isBlank (cp '[') = false := by decide
  have scanned : ∀ depth count, depth < count →
      scanOnce maxStrDigits depth (List.replicate count (cp '[')) = .error .recursionError := by
    intro depth
    induction depth with
    | zero =>
        intro count positive
        obtain ⟨rest, rfl⟩ : ∃ rest, count = rest + 1 := ⟨count - 1, by omega⟩
        rw [List.replicate_succ, scanOnce]
        rfl
    | succ depth ih =>
        intro count larger
        obtain ⟨rest, rfl⟩ : ∃ rest, count = rest + 1 + 1 := ⟨count - 2, by omega⟩
        have inner := ih (rest + 1) (by omega)
        rw [List.replicate_succ] at inner
        rw [List.replicate_succ, List.replicate_succ, scanOnce]
        simp only [if_neg (show ¬cp '[' = cp '"' by decide), if_true,
          skipBlanks_cons _ opening, if_neg (show ¬cp '[' = cp ']' by decide)]
        rw [scanElements, inner]
        rfl
  unfold loads loadsWithin
  rw [decoded]
  have deepest := scanned depth (n + 3) (by omega)
  rw [List.replicate_succ] at deepest ⊢
  simp only [skipBlanks_cons _ opening, deepest]
  rfl

end Python.Json
