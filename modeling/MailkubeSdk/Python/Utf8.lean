import MailkubeSdk.Python.Text

/-
The strict UTF-8 codec: `str.encode("utf-8")` and `bytes.decode("utf-8")`.

`none` on the encoding side is the `UnicodeEncodeError` on a lone surrogate.
The decoder is the strict one, so decoding inverts encoding and encoding is
injective.
-/

namespace Python.Utf8

def octet (n : Nat) : Byte := Fin.ofNat 256 n

def codePoint (n : Nat) : CodePoint := Fin.ofNat 0x110000 n

def encodeChar (c : CodePoint) : Option Bytes :=
  if c.val < 0x80 then some [octet c.val]
  else if c.val < 0x800 then some [octet (0xC0 + c.val / 64), octet (0x80 + c.val % 64)]
  else if 0xD800 ≤ c.val ∧ c.val ≤ 0xDFFF then none
  else if c.val < 0x10000 then
    some [octet (0xE0 + c.val / 4096), octet (0x80 + c.val / 64 % 64), octet (0x80 + c.val % 64)]
  else
    some [octet (0xF0 + c.val / 262144), octet (0x80 + c.val / 4096 % 64),
      octet (0x80 + c.val / 64 % 64), octet (0x80 + c.val % 64)]

def encode : Str → Option Bytes
  | [] => some []
  | c :: rest => do
      let front ← encodeChar c
      let back ← encode rest
      some (front ++ back)

/-- Half of a UTF-16 pair, which no text of scalar values holds. -/
def isSurrogate (c : CodePoint) : Bool := 0xD800 ≤ c.val && c.val ≤ 0xDFFF

def isTail (b : Byte) : Bool := 0x80 ≤ b.val && b.val < 0xC0

def pair (a b : Byte) : Nat := (a.val - 0xC0) * 64 + (b.val - 0x80)

def triple (a b c : Byte) : Nat :=
  (a.val - 0xE0) * 4096 + (b.val - 0x80) * 64 + (c.val - 0x80)

def quadruple (a b c d : Byte) : Nat :=
  (a.val - 0xF0) * 262144 + (b.val - 0x80) * 4096 + (c.val - 0x80) * 64 + (d.val - 0x80)

/-- The decoder; with `lone` it is the one under the `surrogatepass` error handler. -/
def decodeWith (lone : Bool) : Bytes → Option Str
  | [] => some []
  | a :: rest =>
      if a.val < 0x80 then (decodeWith lone rest).map (codePoint a.val :: ·)
      else
        match rest with
        | [] => none
        | b :: rest =>
            if 0xC2 ≤ a.val ∧ a.val < 0xE0 ∧ isTail b then
              (decodeWith lone rest).map (codePoint (pair a b) :: ·)
            else
              match rest with
              | [] => none
              | c :: rest =>
                  if 0xE0 ≤ a.val ∧ a.val < 0xF0 ∧ isTail b ∧ isTail c ∧ 0x800 ≤ triple a b c ∧
                      (lone ∨ ¬(0xD800 ≤ triple a b c ∧ triple a b c ≤ 0xDFFF)) then
                    (decodeWith lone rest).map (codePoint (triple a b c) :: ·)
                  else
                    match rest with
                    | [] => none
                    | d :: rest =>
                        if 0xF0 ≤ a.val ∧ a.val < 0xF5 ∧ isTail b ∧ isTail c ∧ isTail d ∧
                            0x10000 ≤ quadruple a b c d ∧ quadruple a b c d < 0x110000 then
                          (decodeWith lone rest).map (codePoint (quadruple a b c d) :: ·)
                        else none

/-- `bytes.decode("utf-8")`. -/
abbrev decode (bytes : Bytes) : Option Str := decodeWith false bytes

/-! ### Decoding inverts encoding -/

@[simp] theorem octet_val {n : Nat} (small : n < 256) : (octet n).val = n := by
  simp only [octet, Fin.ofNat, Nat.mod_eq_of_lt small]

theorem codePoint_val (c : CodePoint) : codePoint c.val = c := by
  simp only [codePoint, Fin.ofNat, Nat.mod_eq_of_lt c.isLt, Fin.eta]

theorem isTail_octet {n : Nat} (low : 0x80 ≤ n) (high : n < 0xC0) : isTail (octet n) = true := by
  simp only [isTail, octet_val (show n < 256 by omega), Bool.and_eq_true, decide_eq_true_eq]
  exact ⟨low, high⟩

theorem decodeWith_encodeChar (lone : Bool) (c : CodePoint) (front rest : Bytes)
    (encoded : encodeChar c = some front) :
    decodeWith lone (front ++ rest) = (decodeWith lone rest).map (c :: ·) := by
  have bound := c.isLt
  unfold encodeChar at encoded
  split at encoded
  · -- one octet
    rename_i one
    rw [← Option.some.inj encoded]
    have value : (octet c.val).val = c.val := octet_val (by omega)
    simp only [List.singleton_append]
    rw [decodeWith.eq_def]
    simp only [value, one, if_true, codePoint_val]
  split at encoded
  · -- two octets
    rename_i one two
    rw [← Option.some.inj encoded]
    have lead : (octet (0xC0 + c.val / 64)).val = 0xC0 + c.val / 64 := octet_val (by omega)
    have last : (octet (0x80 + c.val % 64)).val = 0x80 + c.val % 64 := octet_val (by omega)
    have value : pair (octet (0xC0 + c.val / 64)) (octet (0x80 + c.val % 64)) = c.val := by
      unfold pair
      omega
    have tails : isTail (octet (0x80 + c.val % 64)) = true :=
      isTail_octet (by omega) (by omega)
    simp only [List.cons_append, List.nil_append]
    rw [decodeWith.eq_def]
    simp only
    rw [if_neg (by omega), if_pos ⟨by omega, by omega, tails⟩, value, codePoint_val]
  split at encoded
  · cases encoded
  split at encoded
  · -- three octets
    rename_i one two surrogate three
    rw [← Option.some.inj encoded]
    have lead : (octet (0xE0 + c.val / 4096)).val = 0xE0 + c.val / 4096 := octet_val (by omega)
    have middle : (octet (0x80 + c.val / 64 % 64)).val = 0x80 + c.val / 64 % 64 :=
      octet_val (by omega)
    have last : (octet (0x80 + c.val % 64)).val = 0x80 + c.val % 64 := octet_val (by omega)
    have value : triple (octet (0xE0 + c.val / 4096)) (octet (0x80 + c.val / 64 % 64))
        (octet (0x80 + c.val % 64)) = c.val := by
      unfold triple
      omega
    have tailMiddle : isTail (octet (0x80 + c.val / 64 % 64)) = true :=
      isTail_octet (by omega) (by omega)
    have tailLast : isTail (octet (0x80 + c.val % 64)) = true :=
      isTail_octet (by omega) (by omega)
    simp only [List.cons_append, List.nil_append]
    rw [decodeWith.eq_def]
    simp only
    rw [if_neg (by omega), if_neg (by omega), value,
      if_pos ⟨by omega, by omega, tailMiddle, tailLast, by omega, Or.inr surrogate⟩, codePoint_val]
  · -- four octets
    rename_i one two surrogate three
    rw [← Option.some.inj encoded]
    have lead : (octet (0xF0 + c.val / 262144)).val = 0xF0 + c.val / 262144 :=
      octet_val (by omega)
    have second : (octet (0x80 + c.val / 4096 % 64)).val = 0x80 + c.val / 4096 % 64 :=
      octet_val (by omega)
    have third : (octet (0x80 + c.val / 64 % 64)).val = 0x80 + c.val / 64 % 64 :=
      octet_val (by omega)
    have last : (octet (0x80 + c.val % 64)).val = 0x80 + c.val % 64 := octet_val (by omega)
    have value : quadruple (octet (0xF0 + c.val / 262144)) (octet (0x80 + c.val / 4096 % 64))
        (octet (0x80 + c.val / 64 % 64)) (octet (0x80 + c.val % 64)) = c.val := by
      unfold quadruple
      omega
    have tailSecond : isTail (octet (0x80 + c.val / 4096 % 64)) = true :=
      isTail_octet (by omega) (by omega)
    have tailThird : isTail (octet (0x80 + c.val / 64 % 64)) = true :=
      isTail_octet (by omega) (by omega)
    have tailLast : isTail (octet (0x80 + c.val % 64)) = true :=
      isTail_octet (by omega) (by omega)
    simp only [List.cons_append, List.nil_append]
    rw [decodeWith.eq_def]
    simp only
    rw [if_neg (by omega), if_neg (by omega), if_neg (by omega), value,
      if_pos ⟨by omega, by omega, tailSecond, tailThird, tailLast, by omega, bound⟩,
      codePoint_val]

theorem encode_cons_eq_some {c : CodePoint} {rest : Str} {bytes : Bytes}
    (encoded : encode (c :: rest) = some bytes) :
    ∃ front back, encodeChar c = some front ∧ encode rest = some back ∧ bytes = front ++ back := by
  simp only [encode, Option.bind_eq_bind, Option.bind_eq_some_iff, Option.some.injEq] at encoded
  obtain ⟨front, hFront, back, hBack, rfl⟩ := encoded
  exact ⟨front, back, hFront, hBack, rfl⟩

theorem decodeWith_encode (lone : Bool) {text : Str} {bytes : Bytes}
    (encoded : encode text = some bytes) : decodeWith lone bytes = some text := by
  induction text generalizing bytes with
  | nil =>
      rw [← Option.some.inj encoded]
      rfl
  | cons c rest ih =>
      obtain ⟨front, back, hFront, hBack, rfl⟩ := encode_cons_eq_some encoded
      rw [decodeWith_encodeChar lone c front back hFront, ih hBack]
      rfl

theorem decode_encode {text : Str} {bytes : Bytes} (encoded : encode text = some bytes) :
    decode bytes = some text :=
  decodeWith_encode false encoded

theorem encode_injective {left right : Str} {bytes : Bytes}
    (encodedLeft : encode left = some bytes) (encodedRight : encode right = some bytes) :
    left = right :=
  Option.some.inj ((decode_encode encodedLeft).symm.trans (decode_encode encodedRight))

theorem encode_of_no_surrogate {text : Str} (scalar : ∀ c ∈ text, isSurrogate c = false) :
    ∃ bytes, encode text = some bytes := by
  induction text with
  | nil => exact ⟨[], rfl⟩
  | cons c rest ih =>
      obtain ⟨back, encoded⟩ := ih (fun d member => scalar d (List.mem_cons_of_mem _ member))
      have first := scalar c List.mem_cons_self
      simp only [isSurrogate, Bool.and_eq_false_iff, decide_eq_false_iff_not] at first
      obtain ⟨front, head⟩ : ∃ front, encodeChar c = some front := by
        unfold encodeChar
        split
        · exact ⟨_, rfl⟩
        split
        · exact ⟨_, rfl⟩
        split
        · omega
        split
        · exact ⟨_, rfl⟩
        · exact ⟨_, rfl⟩
      exact ⟨front ++ back, by rw [encode, head, encoded]; rfl⟩

theorem no_surrogate_of_encode {text : Str} {bytes : Bytes} (encoded : encode text = some bytes) :
    ∀ c ∈ text, isSurrogate c = false := by
  induction text generalizing bytes with
  | nil =>
      intro c member
      cases member
  | cons c rest ih =>
      obtain ⟨front, back, first, later, -⟩ := encode_cons_eq_some encoded
      intro d member
      rcases List.mem_cons.mp member with rfl | inRest
      · unfold encodeChar at first
        unfold isSurrogate
        simp only [Bool.and_eq_false_iff, decide_eq_false_iff_not]
        split at first
        · omega
        · split at first
          · omega
          · split at first
            · cases first
            · omega
      · exact ih later d inRest

theorem encode_append (left right : Str) :
    encode (left ++ right) = (do
      let front ← encode left
      let back ← encode right
      some (front ++ back)) := by
  induction left with
  | nil => simp [encode]
  | cons c rest ih =>
      simp only [List.cons_append, encode, ih]
      cases encodeChar c <;> cases encode rest <;> cases encode right <;>
        simp [List.append_assoc]

/-! ### ASCII inside UTF-8 -/

theorem encodeChar_ascii {c : CodePoint} (ascii : isAscii c = true) :
    encodeChar c = some [octet c.val] :=
  if_pos (of_decide_eq_true ascii)

theorem encode_ascii {text : Str} (ascii : ∀ c ∈ text, isAscii c = true) :
    encode text = some (text.map (fun c => octet c.val)) := by
  induction text with
  | nil => rfl
  | cons c rest ih =>
      have tail := ih (fun d member => ascii d (List.mem_cons_of_mem c member))
      simp only [encode, encodeChar_ascii (ascii c List.mem_cons_self), tail]
      rfl

theorem encodeChar_high {c : CodePoint} {front : Bytes} (encoded : encodeChar c = some front)
    (high : isAscii c = false) : ∀ b ∈ front, 0x80 ≤ b.val := by
  have bound := c.isLt
  have notAscii : ¬c.val < 0x80 := of_decide_eq_false high
  have twice : ∀ n, 0x80 ≤ n → n < 256 → 0x80 ≤ (octet n).val := by
    intro n low small
    rw [octet_val small]
    exact low
  unfold encodeChar at encoded
  rw [if_neg notAscii] at encoded
  split at encoded
  · rw [← Option.some.inj encoded]
    intro b member
    simp only [List.mem_cons, List.not_mem_nil, or_false] at member
    rcases member with rfl | rfl <;> exact twice _ (by omega) (by omega)
  split at encoded
  · cases encoded
  split at encoded
  · rw [← Option.some.inj encoded]
    intro b member
    simp only [List.mem_cons, List.not_mem_nil, or_false] at member
    rcases member with rfl | rfl | rfl <;> exact twice _ (by omega) (by omega)
  · rw [← Option.some.inj encoded]
    intro b member
    simp only [List.mem_cons, List.not_mem_nil, or_false] at member
    rcases member with rfl | rfl | rfl | rfl <;> exact twice _ (by omega) (by omega)

private theorem count_encodeChar {c d : CodePoint} {front : Bytes}
    (encoded : encodeChar c = some front) (ascii : isAscii d = true) :
    front.count (octet d.val) = [c].count d := by
  have dSmall : d.val < 0x80 := of_decide_eq_true ascii
  have dVal : (octet d.val).val = d.val := octet_val (by omega)
  by_cases low : isAscii c = true
  · rw [encodeChar_ascii low] at encoded
    have cSmall : c.val < 0x80 := of_decide_eq_true low
    have cVal : (octet c.val).val = c.val := octet_val (by omega)
    rw [← Option.some.inj encoded]
    by_cases same : c = d
    · rw [same]
      simp only [List.count_singleton_self]
    · have different : octet c.val ≠ octet d.val := by
        intro equal
        have values := congrArg Fin.val equal
        rw [cVal, dVal] at values
        exact same (Fin.ext values)
      rw [List.count_eq_zero_of_not_mem (by simpa only [List.mem_singleton] using different.symm),
        List.count_eq_zero_of_not_mem (by simpa only [List.mem_singleton] using Ne.symm same)]
  · have high := encodeChar_high encoded (Bool.eq_false_iff.mpr low)
    have different : c ≠ d := fun same => low (by rw [same]; exact ascii)
    have absent : octet d.val ∉ front := by
      intro member
      have bound := high _ member
      rw [dVal] at bound
      omega
    rw [List.count_eq_zero_of_not_mem absent,
      List.count_eq_zero_of_not_mem (by simpa only [List.mem_singleton] using different.symm)]

theorem count_encode {text : Str} {bytes : Bytes} {d : CodePoint}
    (encoded : encode text = some bytes) (ascii : isAscii d = true) :
    bytes.count (octet d.val) = text.count d := by
  induction text generalizing bytes with
  | nil =>
      rw [← Option.some.inj encoded]
      rfl
  | cons c rest ih =>
      obtain ⟨front, back, hFront, hBack, rfl⟩ := encode_cons_eq_some encoded
      rw [List.count_append, count_encodeChar hFront ascii, ih hBack, ← List.count_append]
      rfl

end Python.Utf8
