import Mathlib.Algebra.Order.Ring.Int
import Mathlib.Data.List.Basic

/-
Python text as the interpreter counts it.

A `str` is a sequence of code points, and a lone surrogate is one of them, so
the alphabet is the whole range below 0x110000 and not the Unicode scalar
values.  A `bytes` object is a sequence of octets.  The functions below are the
ASCII part of the `str` methods; the parts that consult the Unicode database
are left to the caller.
-/

namespace Python

abbrev CodePoint := Fin 0x110000

abbrev Str := List CodePoint

abbrev Byte := Fin 256

abbrev Bytes := List Byte

-- The interpreter's alphabets are inhabited and their equality is decided: named
-- once, so that every definition below refers to the same instances.
instance neZero_codePoints : NeZero 0x110000 := ⟨by decide⟩

instance neZero_octets : NeZero 256 := ⟨by decide⟩

instance lawfulBEq_codePoint : LawfulBEq CodePoint := instLawfulBEq

instance lawfulBEq_str : LawfulBEq Str := List.instLawfulBEq

/-- The code point of a Unicode scalar value. -/
def cp (c : Char) : CodePoint :=
  ⟨c.toNat, by
    have valid := c.valid
    unfold UInt32.isValidChar Nat.isValidChar at valid
    unfold Char.toNat
    omega⟩

/-- A string literal of the source. -/
def str (text : String) : Str := text.toList.map cp

/-- A `bytes` literal that holds only ASCII. -/
def asciiBytes (text : String) : Bytes :=
  text.toList.map (fun c => Fin.ofNat 256 c.toNat)

/-! ### ASCII classes -/

def isAscii (c : CodePoint) : Bool := c.val < 128

def isAsciiText (text : Str) : Bool := text.all isAscii

def isUpper (c : CodePoint) : Bool := 65 ≤ c.val && c.val ≤ 90

def isLower (c : CodePoint) : Bool := 97 ≤ c.val && c.val ≤ 122

def isAlpha (c : CodePoint) : Bool := isUpper c || isLower c

def isDigit (c : CodePoint) : Bool := 48 ≤ c.val && c.val ≤ 57

/-- Visible ASCII: neither a control character nor a space. -/
def isPrintable (c : CodePoint) : Bool := 33 ≤ c.val && c.val ≤ 126

/-- `str.isspace` on one code point, the set `str.strip()` trims. -/
def isSpace (c : CodePoint) : Bool :=
  (9 ≤ c.val && c.val ≤ 13) || (28 ≤ c.val && c.val ≤ 32) || c.val == 0x85 ||
    c.val == 0xA0 || c.val == 0x1680 || (0x2000 ≤ c.val && c.val ≤ 0x200A) ||
    c.val == 0x2028 || c.val == 0x2029 || c.val == 0x202F || c.val == 0x205F ||
    c.val == 0x3000

/-- What `int` skips around a literal: white space, but for the separators of ASCII. -/
def isIntSpace (c : CodePoint) : Bool := isSpace c && !(28 ≤ c.val && c.val ≤ 31)

def lowerChar (c : CodePoint) : CodePoint :=
  if isUpper c then Fin.ofNat _ (c.val + 32) else c

/-- `str.lower` on ASCII text. -/
def lowerAscii (text : Str) : Str := text.map lowerChar

theorem lowerChar_of_not_upper {c : CodePoint} (h : isUpper c = false) : lowerChar c = c := by
  simp only [lowerChar, h, Bool.false_eq_true, if_false]

theorem lowerChar_idem (c : CodePoint) : lowerChar (lowerChar c) = lowerChar c := by
  by_cases upper : isUpper c = true
  · have small : c.val + 32 < 0x110000 := by
      simp only [isUpper, Bool.and_eq_true, decide_eq_true_eq] at upper
      omega
    have notUpper : isUpper (Fin.ofNat 0x110000 (c.val + 32)) = false := by
      simp only [isUpper, Bool.and_eq_true, decide_eq_true_eq] at upper
      simp only [isUpper, Fin.ofNat, Nat.mod_eq_of_lt small, Bool.and_eq_false_iff,
        decide_eq_false_iff_not]
      omega
    simp only [lowerChar, upper, if_true, notUpper, Bool.false_eq_true, if_false]
  · simp only [lowerChar, upper, Bool.false_eq_true, if_false]

theorem lowerAscii_idem (text : Str) : lowerAscii (lowerAscii text) = lowerAscii text := by
  simp only [lowerAscii, List.map_map]
  exact List.map_congr_left (fun c _ => lowerChar_idem c)

/-! ### Cutting text at a separator -/

/-- `str.partition`: the text before and after the first `sep`, if there is one. -/
def splitFirst (sep : CodePoint) : Str → Option (Str × Str)
  | [] => none
  | c :: rest =>
      if c = sep then some ([], rest)
      else (splitFirst sep rest).map (fun parts => (c :: parts.1, parts.2))

theorem splitFirst_eq_none_iff (sep : CodePoint) (text : Str) :
    splitFirst sep text = none ↔ sep ∉ text := by
  induction text with
  | nil => simp only [splitFirst, List.not_mem_nil, not_false_eq_true]
  | cons c rest ih =>
      by_cases same : c = sep
      · simp only [splitFirst, same, if_true, reduceCtorEq, List.mem_cons, true_or,
          not_true_eq_false]
      · simp only [splitFirst, same, if_false, Option.map_eq_none_iff, ih, List.mem_cons,
          Ne.symm same, false_or]

theorem splitFirst_append (sep : CodePoint) (before after : Str) (fresh : sep ∉ before) :
    splitFirst sep (before ++ sep :: after) = some (before, after) := by
  induction before with
  | nil => simp only [List.nil_append, splitFirst, if_true]
  | cons c rest ih =>
      have different : c ≠ sep := fun same => fresh (by rw [same]; exact List.mem_cons_self)
      have tail := ih (fun member => fresh (List.mem_cons_of_mem c member))
      simp only [List.cons_append, splitFirst, different, if_false, tail, Option.map_some]

/-- A cut is exact: the pieces give the text back and the first one is separator-free. -/
theorem splitFirst_sound (sep : CodePoint) (text before after : Str)
    (cut : splitFirst sep text = some (before, after)) :
    text = before ++ sep :: after ∧ sep ∉ before := by
  induction text generalizing before with
  | nil => cases cut
  | cons c rest ih =>
      by_cases same : c = sep
      · simp only [splitFirst, same, if_true, Option.some.injEq, Prod.mk.injEq] at cut
        obtain ⟨rfl, rfl⟩ := cut
        exact ⟨by rw [same]; rfl, List.not_mem_nil⟩
      · simp only [splitFirst, same, if_false, Option.map_eq_some_iff, Prod.mk.injEq] at cut
        obtain ⟨⟨front, back⟩, tail, rfl, rfl⟩ := cut
        obtain ⟨restEq, fresh⟩ := ih front tail
        refine ⟨by rw [restEq]; rfl, ?_⟩
        intro member
        rcases List.mem_cons.mp member with rfl | later
        · exact same rfl
        · exact fresh later

/-- `str.rpartition` keeping the separator on the left: what ends with the last
`sep`, and what follows it. -/
def splitAfterLast (sep : CodePoint) (text : Str) : Str × Str :=
  ((text.reverse.dropWhile (· ≠ sep)).reverse, (text.reverse.takeWhile (· ≠ sep)).reverse)

theorem splitAfterLast_append (sep : CodePoint) (before after : Str) (fresh : sep ∉ after) :
    splitAfterLast sep (before ++ sep :: after) = (before ++ [sep], after) := by
  have frontFresh : ∀ c ∈ after.reverse, decide (c ≠ sep) = true := by
    intro c member
    exact decide_eq_true (fun same => fresh (by rw [← same]; exact List.mem_reverse.mp member))
  have rev : (before ++ sep :: after).reverse = after.reverse ++ sep :: before.reverse := by
    simp only [List.reverse_append, List.reverse_cons, List.append_assoc, List.singleton_append]
  unfold splitAfterLast
  rw [rev, List.dropWhile_append_of_pos frontFresh, List.takeWhile_append_of_pos frontFresh]
  simp only [ne_eq, decide_not, List.dropWhile_cons, List.takeWhile_cons, decide_true,
    Bool.not_true, Bool.false_eq_true, if_false, List.reverse_cons, List.reverse_reverse,
    List.append_nil]

/-- Two texts that go on after a separator are cut at the same place when the
pieces before it hold the separator equally often. -/
theorem append_cons_inj_of_count {α : Type} [DecidableEq α] {sep : α}
    {left right more others : List α}
    (same : left ++ sep :: more = right ++ sep :: others)
    (counts : left.count sep = right.count sep) : left = right ∧ more = others := by
  rcases List.append_eq_append_iff.mp same with ⟨gap, rfl, moreEq⟩ | ⟨gap, rfl, othersEq⟩
  · cases gap with
    | nil =>
        rw [List.append_nil]
        exact ⟨rfl, (List.cons.inj moreEq).2⟩
    | cons c rest =>
        rw [← (List.cons.inj moreEq).1, List.count_append, List.count_cons_self] at counts
        omega
  · cases gap with
    | nil =>
        rw [List.append_nil]
        exact ⟨rfl, (List.cons.inj othersEq).2.symm⟩
    | cons c rest =>
        rw [← (List.cons.inj othersEq).1, List.count_append, List.count_cons_self] at counts
        omega

/-- `str.join` over a separator of one code point. -/
def join (sep : CodePoint) (parts : List Str) : Str := [sep].intercalate parts

/-! ### Trimming -/

/-- A text without the characters of a class at its two ends. -/
def trim (blank : CodePoint → Bool) (text : Str) : Str :=
  ((text.dropWhile blank).reverse.dropWhile blank).reverse

/-- `str.strip()`. -/
def strip (text : Str) : Str := trim isSpace text

theorem mem_of_mem_trim {blank : CodePoint → Bool} {c : CodePoint} {text : Str}
    (member : c ∈ trim blank text) : c ∈ text := by
  unfold trim at member
  rw [List.mem_reverse] at member
  have trimmed := (List.dropWhile_suffix _).subset member
  rw [List.mem_reverse] at trimmed
  exact (List.dropWhile_suffix _).subset trimmed

private theorem blank_or_mem_dropWhile {blank : CodePoint → Bool} {c : CodePoint} {text : Str}
    (member : c ∈ text) : blank c = true ∨ c ∈ text.dropWhile blank := by
  rw [← List.takeWhile_append_dropWhile (p := blank) (l := text), List.mem_append] at member
  exact member.imp_left (fun front => List.all_eq_true.mp List.all_takeWhile c front)

/-- What trimming takes away is blank. -/
theorem blank_or_mem_trim {blank : CodePoint → Bool} {c : CodePoint} {text : Str}
    (member : c ∈ text) : blank c = true ∨ c ∈ trim blank text := by
  unfold trim
  rw [List.mem_reverse]
  rcases blank_or_mem_dropWhile member with front | kept
  · exact .inl front
  · exact blank_or_mem_dropWhile (List.mem_reverse.mpr kept)

private theorem dropWhile_congr {blank other : CodePoint → Bool} {text : Str}
    (same : ∀ c ∈ text, blank c = other c) : text.dropWhile blank = text.dropWhile other := by
  induction text with
  | nil => rfl
  | cons c rest ih =>
      have tail := ih (fun d member => same d (List.mem_cons_of_mem c member))
      rw [List.dropWhile_cons, List.dropWhile_cons, same c List.mem_cons_self, tail]

theorem trim_solid {blank : CodePoint → Bool} {text : Str}
    (solid : ∀ c ∈ text, blank c = false) : trim blank text = text := by
  have kept : ∀ {part : Str}, (∀ c ∈ part, blank c = false) → part.dropWhile blank = part := by
    intro part plain
    cases part with
    | nil => rfl
    | cons c rest =>
        rw [List.dropWhile_cons_of_neg]
        rw [plain c List.mem_cons_self]
        exact Bool.false_ne_true
  unfold trim
  rw [kept solid, kept (fun c member => solid c (List.mem_reverse.mp member)),
    List.reverse_reverse]

/-- Two classes that agree on a text trim it alike. -/
theorem trim_congr {blank other : CodePoint → Bool} {text : Str}
    (same : ∀ c ∈ text, blank c = other c) : trim blank text = trim other text := by
  unfold trim
  rw [dropWhile_congr same]
  apply congrArg
  apply dropWhile_congr
  intro c member
  exact same c ((List.dropWhile_suffix _).subset (List.mem_reverse.mp member))

end Python
