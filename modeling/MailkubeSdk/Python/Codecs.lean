import MailkubeSdk.Python.Utf8

/-
Octets as text: percent-encoding, base64 and hexadecimal.

`quote` is `urllib.parse.quote(text, safe="")`, `b64encode` is
`base64.b64encode(..).decode("ascii")` and `hexdigest` is the rendering of a
digest.  The decoders are the strict ones of the three formats; each encoding
is inverted by its decoder and is therefore injective.
-/

namespace Python.Codecs

open Utf8

/-! ### Percent-encoding -/

def ofByte (b : Byte) : CodePoint := codePoint b.val

/-- `_ALWAYS_SAFE`: letters, digits and `_.-~`. -/
def isAlwaysSafe (c : CodePoint) : Bool :=
  isAlpha c || isDigit c || c == cp '_' || c == cp '.' || c == cp '-' || c == cp '~'

def upperHex (n : Nat) : CodePoint := codePoint (if n < 10 then 48 + n else 55 + n)

def quoteByte (b : Byte) : Str :=
  if isAlwaysSafe (ofByte b) then [ofByte b]
  else [cp '%', upperHex (b.val / 16), upperHex (b.val % 16)]

/-- `none` is the `UnicodeEncodeError` on a lone surrogate. -/
def quote (text : Str) : Option Str := (encode text).map (fun bytes => bytes.flatMap quoteByte)

def hexValue (c : CodePoint) : Option Nat :=
  if isDigit c then some (c.val - 48)
  else if 65 ≤ c.val ∧ c.val ≤ 70 then some (c.val - 55)
  else if 97 ≤ c.val ∧ c.val ≤ 102 then some (c.val - 87)
  else none

/-- The octets a percent-encoded text stands for. -/
def unquoteToBytes : Str → Option Bytes
  | [] => some []
  | c :: rest =>
      if c = cp '%' then
        match rest with
        | high :: low :: rest =>
            match hexValue high, hexValue low with
            | some h, some l => (unquoteToBytes rest).map (octet (16 * h + l) :: ·)
            | _, _ => none
        | _ => none
      else do
        let front ← encodeChar c
        let back ← unquoteToBytes rest
        some (front ++ back)

def unquote (text : Str) : Option Str := (unquoteToBytes text).bind decode

/-- The alphabet of quoted text. -/
def isQuotedChar (c : CodePoint) : Bool := isAlwaysSafe c || c == cp '%'

theorem ofByte_val (b : Byte) : (ofByte b).val = b.val := by
  have bound := b.isLt
  simp only [ofByte, codePoint, Fin.ofNat]
  omega

theorem octet_ofByte (b : Byte) : octet (ofByte b).val = b := by
  rw [ofByte_val]
  simp only [octet, Fin.ofNat, Nat.mod_eq_of_lt b.isLt, Fin.eta]

theorem ascii_of_alwaysSafe {c : CodePoint} (safe : isAlwaysSafe c = true) :
    isAscii c = true := by
  simp only [isAlwaysSafe, isAlpha, isUpper, isLower, isDigit, Bool.or_eq_true, Bool.and_eq_true,
    decide_eq_true_eq, beq_iff_eq] at safe
  rcases safe with ((((safe | safe) | rfl) | rfl) | rfl) | rfl
  · exact decide_eq_true (by omega)
  · exact decide_eq_true (by omega)
  all_goals decide

private theorem upperHex_facts : ∀ n : Fin 16,
    hexValue (upperHex n.val) = some n.val ∧ isAlwaysSafe (upperHex n.val) = true := by
  decide

theorem hexValue_upperHex {n : Nat} (small : n < 16) : hexValue (upperHex n) = some n :=
  (upperHex_facts ⟨n, small⟩).1

theorem unquoteToBytes_quoteByte (b : Byte) (rest : Str) :
    unquoteToBytes (quoteByte b ++ rest) = (unquoteToBytes rest).map (b :: ·) := by
  have bound := b.isLt
  by_cases safe : isAlwaysSafe (ofByte b) = true
  · have notPercent : ofByte b ≠ cp '%' := by
      intro same
      rw [same] at safe
      exact absurd safe (by decide)
    rw [quoteByte, if_pos safe, List.singleton_append, unquoteToBytes.eq_def]
    simp only [notPercent, if_false, encodeChar_ascii (ascii_of_alwaysSafe safe), octet_ofByte]
    cases unquoteToBytes rest <;> rfl
  · have high : hexValue (upperHex (b.val / 16)) = some (b.val / 16) :=
      hexValue_upperHex (by omega)
    have low : hexValue (upperHex (b.val % 16)) = some (b.val % 16) :=
      hexValue_upperHex (by omega)
    have value : octet (16 * (b.val / 16) + b.val % 16) = b := by
      rw [Nat.div_add_mod]
      simp only [octet, Fin.ofNat, Nat.mod_eq_of_lt bound, Fin.eta]
    rw [quoteByte, if_neg safe]
    simp only [List.cons_append, List.nil_append]
    rw [unquoteToBytes.eq_def]
    simp only [if_true, high, low, value]

theorem unquoteToBytes_quoteBytes (bytes : Bytes) :
    unquoteToBytes (bytes.flatMap quoteByte) = some bytes := by
  induction bytes with
  | nil => rfl
  | cons b rest ih =>
      rw [List.flatMap_cons, unquoteToBytes_quoteByte, ih]
      rfl

theorem unquote_quote {text quoted : Str} (h : quote text = some quoted) :
    unquote quoted = some text := by
  obtain ⟨bytes, encoded, rfl⟩ := Option.map_eq_some_iff.mp h
  unfold unquote
  rw [unquoteToBytes_quoteBytes]
  exact decode_encode encoded

theorem quote_injective {left right quoted : Str} (hLeft : quote left = some quoted)
    (hRight : quote right = some quoted) : left = right :=
  Option.some.inj ((unquote_quote hLeft).symm.trans (unquote_quote hRight))

theorem quoted_chars {text quoted : Str} (h : quote text = some quoted) :
    ∀ c ∈ quoted, isQuotedChar c = true := by
  obtain ⟨bytes, -, rfl⟩ := Option.map_eq_some_iff.mp h
  intro c member
  obtain ⟨b, -, inside⟩ := List.mem_flatMap.mp member
  have bound := b.isLt
  unfold quoteByte at inside
  split at inside
  · rename_i safe
    rw [List.mem_singleton.mp inside]
    simp only [isQuotedChar, safe, Bool.true_or]
  · simp only [List.mem_cons, List.not_mem_nil, or_false] at inside
    rcases inside with rfl | rfl | rfl
    · decide
    · simp only [isQuotedChar, (upperHex_facts ⟨b.val / 16, by omega⟩).2, Bool.true_or]
    · simp only [isQuotedChar, (upperHex_facts ⟨b.val % 16, by omega⟩).2, Bool.true_or]

theorem quote_ne_nil {text quoted : Str} (h : quote text = some quoted) (nonempty : text ≠ []) :
    quoted ≠ [] := by
  rintro rfl
  exact nonempty (Option.some.inj ((unquote_quote h).symm.trans rfl))

/-- Text without a character to escape is its own escape. -/
theorem quote_safe {text : Str} (safe : ∀ c ∈ text, isAlwaysSafe c = true) :
    quote text = some text := by
  unfold quote
  rw [encode_ascii fun c member => ascii_of_alwaysSafe (safe c member), Option.map_some]
  congr 1
  induction text with
  | nil => rfl
  | cons c rest ih =>
      have here := safe c List.mem_cons_self
      have small : c.val < 128 := of_decide_eq_true (ascii_of_alwaysSafe here)
      have value : ofByte (octet c.val) = c := by
        unfold ofByte
        rw [octet_val (by omega), codePoint_val]
      rw [List.map_cons, List.flatMap_cons,
        ih fun d member => safe d (List.mem_cons_of_mem c member)]
      unfold quoteByte
      rw [value, if_pos here, List.singleton_append]

theorem unquote_safe {text : Str} (safe : ∀ c ∈ text, isAlwaysSafe c = true) :
    unquote text = some text := unquote_quote (quote_safe safe)

/-! ### Base64 -/

def symbol (n : Nat) : CodePoint :=
  codePoint (if n < 26 then 65 + n else if n < 52 then 71 + n else if n < 62 then n - 4
    else if n = 62 then 43 else 47)

def symbolValue (c : CodePoint) : Option Nat :=
  if isUpper c then some (c.val - 65)
  else if isLower c then some (c.val - 71)
  else if isDigit c then some (c.val + 4)
  else if c = cp '+' then some 62
  else if c = cp '/' then some 63
  else none

def b64encode : Bytes → Str
  | [] => []
  | [a] => [symbol (a.val / 4), symbol (a.val % 4 * 16), cp '=', cp '=']
  | [a, b] =>
      [symbol (a.val / 4), symbol (a.val % 4 * 16 + b.val / 16), symbol (b.val % 16 * 4), cp '=']
  | a :: b :: c :: rest =>
      symbol (a.val / 4) :: symbol (a.val % 4 * 16 + b.val / 16) ::
        symbol (b.val % 16 * 4 + c.val / 64) :: symbol (c.val % 64) :: b64encode rest

/-- One group of four characters: up to three octets. -/
def decodeGroup (w x y z : CodePoint) : Option Bytes :=
  match symbolValue w, symbolValue x, symbolValue y, symbolValue z with
  | some p, some q, some r, some s =>
      some [octet (p * 4 + q / 16), octet (q % 16 * 16 + r / 4), octet (r % 4 * 64 + s)]
  | some p, some q, some r, none =>
      if z = cp '=' then some [octet (p * 4 + q / 16), octet (q % 16 * 16 + r / 4)] else none
  | some p, some q, none, none =>
      if y = cp '=' ∧ z = cp '=' then some [octet (p * 4 + q / 16)] else none
  | _, _, _, _ => none

def b64decode : Str → Option Bytes
  | [] => some []
  | w :: x :: y :: z :: rest => do
      let front ← decodeGroup w x y z
      let back ← b64decode rest
      some (front ++ back)
  | _ => none

private theorem symbolValue_symbol_fin : ∀ n : Fin 64, symbolValue (symbol n.val) = some n.val := by
  decide

theorem symbolValue_symbol {n : Nat} (small : n < 64) : symbolValue (symbol n) = some n :=
  symbolValue_symbol_fin ⟨n, small⟩

private theorem symbolValue_pad : symbolValue (cp '=') = none := by decide

private theorem octet_eq {n : Nat} (b : Byte) (same : n = b.val) : octet n = b := by
  subst n
  simp only [octet, Fin.ofNat, Nat.mod_eq_of_lt b.isLt, Fin.eta]

theorem b64decode_b64encode (bytes : Bytes) : b64decode (b64encode bytes) = some bytes := by
  induction bytes using b64encode.induct with
  | case1 => rfl
  | case2 a =>
      have aBound := a.isLt
      have first := symbolValue_symbol (show a.val / 4 < 64 by omega)
      have second := symbolValue_symbol (show a.val % 4 * 16 < 64 by omega)
      have value : octet (a.val / 4 * 4 + a.val % 4 * 16 / 16) = a := octet_eq a (by omega)
      simp only [b64encode, b64decode, decodeGroup, first, second, symbolValue_pad, and_self,
        if_true, value]
      rfl
  | case3 a b =>
      have aBound := a.isLt
      have bBound := b.isLt
      have first := symbolValue_symbol (show a.val / 4 < 64 by omega)
      have second := symbolValue_symbol (show a.val % 4 * 16 + b.val / 16 < 64 by omega)
      have third := symbolValue_symbol (show b.val % 16 * 4 < 64 by omega)
      have valueA : octet (a.val / 4 * 4 + (a.val % 4 * 16 + b.val / 16) / 16) = a :=
        octet_eq a (by omega)
      have valueB : octet ((a.val % 4 * 16 + b.val / 16) % 16 * 16 + b.val % 16 * 4 / 4) = b :=
        octet_eq b (by omega)
      simp only [b64encode, b64decode, decodeGroup, first, second, third, symbolValue_pad,
        if_true, valueA, valueB]
      rfl
  | case4 a b c rest ih =>
      have aBound := a.isLt
      have bBound := b.isLt
      have cBound := c.isLt
      have first := symbolValue_symbol (show a.val / 4 < 64 by omega)
      have second := symbolValue_symbol (show a.val % 4 * 16 + b.val / 16 < 64 by omega)
      have third := symbolValue_symbol (show b.val % 16 * 4 + c.val / 64 < 64 by omega)
      have fourth := symbolValue_symbol (show c.val % 64 < 64 by omega)
      have valueA : octet (a.val / 4 * 4 + (a.val % 4 * 16 + b.val / 16) / 16) = a :=
        octet_eq a (by omega)
      have valueB : octet ((a.val % 4 * 16 + b.val / 16) % 16 * 16 +
          (b.val % 16 * 4 + c.val / 64) / 4) = b := octet_eq b (by omega)
      have valueC : octet ((b.val % 16 * 4 + c.val / 64) % 4 * 64 + c.val % 64) = c :=
        octet_eq c (by omega)
      simp only [b64encode, b64decode, decodeGroup, first, second, third, fourth, valueA, valueB,
        valueC, ih]
      rfl

/-! ### Hexadecimal digests -/

def lowerHex (n : Nat) : CodePoint := codePoint (if n < 10 then 48 + n else 87 + n)

def hexdigest (digest : Bytes) : Str :=
  digest.flatMap (fun b => [lowerHex (b.val / 16), lowerHex (b.val % 16)])

/-- The alphabet of a rendered digest. -/
def isHexChar (c : CodePoint) : Bool := isDigit c || (97 ≤ c.val && c.val ≤ 102)

private theorem lowerHex_facts : ∀ n : Fin 16,
    hexValue (lowerHex n.val) = some n.val ∧ isHexChar (lowerHex n.val) = true := by
  decide

private theorem lowerHex_injective {m n : Nat} (hm : m < 16) (hn : n < 16)
    (same : lowerHex m = lowerHex n) : m = n := by
  have left := (lowerHex_facts ⟨m, hm⟩).1
  have right := (lowerHex_facts ⟨n, hn⟩).1
  simp only at left right
  rw [same, right] at left
  exact (Option.some.inj left).symm

theorem hexdigest_injective {left right : Bytes} (same : hexdigest left = hexdigest right) :
    left = right := by
  induction left generalizing right with
  | nil =>
      cases right with
      | nil => rfl
      | cons b rest => cases same
  | cons a rest ih =>
      cases right with
      | nil => cases same
      | cons b others =>
          have aBound := a.isLt
          have bBound := b.isLt
          simp only [hexdigest, List.flatMap_cons, List.cons_append, List.nil_append,
            List.cons.injEq] at same
          have high := lowerHex_injective (by omega) (by omega) same.1
          have low := lowerHex_injective (by omega) (by omega) same.2.1
          have heads : a = b := Fin.ext (by omega)
          rw [heads, ih same.2.2]

theorem hexdigest_chars (digest : Bytes) : ∀ c ∈ hexdigest digest, isHexChar c = true := by
  intro c member
  obtain ⟨b, -, inside⟩ := List.mem_flatMap.mp member
  have bound := b.isLt
  simp only [List.mem_cons, List.not_mem_nil, or_false] at inside
  rcases inside with rfl | rfl
  · exact (lowerHex_facts ⟨b.val / 16, by omega⟩).2
  · exact (lowerHex_facts ⟨b.val % 16, by omega⟩).2

theorem ascii_of_hexChar {c : CodePoint} (hex : isHexChar c = true) : isAscii c = true := by
  simp only [isHexChar, isDigit, Bool.or_eq_true, Bool.and_eq_true, decide_eq_true_eq] at hex
  exact decide_eq_true (by omega)

theorem hexdigest_ne_nil {digest : Bytes} (nonempty : digest ≠ []) : hexdigest digest ≠ [] := by
  cases digest with
  | nil => exact absurd rfl nonempty
  | cons b rest => simp only [hexdigest, List.flatMap_cons, List.cons_append, ne_eq,
      reduceCtorEq, not_false_eq_true]

end Python.Codecs
