import Mathlib.Algebra.Order.Ring.Int
import Mathlib.Data.List.GetD
import MailkubeSdk.Python.Datetime

/-
The parts of a printed `datetime`, and what the parser reads of each.

The text of a `datetime` is laid out at fixed positions.  A part stands at a
position of a text; what the parser reads there depends on that part alone, so
each stage of the parser has one lemma on the parts it meets.
-/

namespace Python.Datetime

open Utf8

/-! ### Parts of a text -/

/-- The part stands in the text at the position. -/
def Stands (text : Bytes) (pos : Nat) (part : Bytes) : Prop :=
  ∃ front back, front.length = pos ∧ text = front ++ (part ++ back)

section Stands

variable {text part other : Bytes} {pos : Nat}

theorem stands_start (part back : Bytes) : Stands (part ++ back) 0 part := ⟨[], back, rfl, rfl⟩

theorem Stands.left (stands : Stands text pos (part ++ other)) : Stands text pos part := by
  obtain ⟨front, back, length, rfl⟩ := stands
  exact ⟨front, other ++ back, length, by rw [List.append_assoc]⟩

theorem Stands.right (stands : Stands text pos (part ++ other)) :
    Stands text (pos + part.length) other := by
  obtain ⟨front, back, rfl, rfl⟩ := stands
  exact ⟨front ++ part, back, List.length_append, by simp only [List.append_assoc]⟩

theorem Stands.left_two {more : Bytes} (stands : Stands text pos (part ++ (other ++ more))) :
    Stands text pos (part ++ other) := by
  rw [← List.append_assoc] at stands
  exact stands.left

/-- The right part, at a given position. -/
theorem Stands.right_at (stands : Stands text pos (part ++ other)) (later : Nat)
    (same : pos + part.length = later) : Stands text later other := same ▸ stands.right

theorem Stands.octet {b : Byte} {rest : Bytes} (stands : Stands text pos (b :: rest)) :
    octetAt text pos = b.val := by
  obtain ⟨front, back, rfl, rfl⟩ := stands
  unfold octetAt
  rw [List.getD_append_right _ _ _ _ (Nat.le_refl _), Nat.sub_self]
  rfl

theorem octetAt_middle {front : Bytes} (length : front.length = pos) (b : Byte) (back : Bytes) :
    octetAt (front ++ b :: back) pos = b.val := by
  have stands : Stands (front ++ b :: back) pos [b] := ⟨front, back, length, rfl⟩
  exact stands.octet

theorem octetAt_length (text : Bytes) : octetAt text text.length = 0 := by
  unfold octetAt
  rw [List.getD_eq_default _ _ (Nat.le_refl _)]
  rfl

end Stands

/-! ### Digits -/

/-- The octets of ASCII text. -/
def octets (text : Str) : Bytes := text.map fun c => octet c.val

theorem octets_append (left right : Str) : octets (left ++ right) = octets left ++ octets right :=
  List.map_append

theorem decimalDigit_val (n : Nat) : (decimalDigit n).val = 48 + n % 10 := by
  unfold decimalDigit codePoint Fin.ofNat
  exact Nat.mod_eq_of_lt (by omega)

theorem octet_decimalDigit (n : Nat) : (octet (decimalDigit n).val).val = 48 + n % 10 := by
  rw [decimalDigit_val, octet_val (by omega)]

theorem length_padded (width n : Nat) : (padded width n).length = width := by
  induction width generalizing n with
  | zero => rfl
  | succ width ih => rw [padded, List.length_append, ih, List.length_singleton]

theorem length_octets_padded (width n : Nat) : (octets (padded width n)).length = width :=
  List.length_map _ |>.trans (length_padded width n)

/-- Every character of a padded number is a digit. -/
theorem mem_padded {width n : Nat} {c : CodePoint} (member : c ∈ padded width n) :
    48 ≤ c.val ∧ c.val ≤ 57 := by
  induction width generalizing n with
  | zero => cases member
  | succ width ih =>
      rw [padded, List.mem_append, List.mem_singleton] at member
      rcases member with front | rfl
      · exact ih front
      · rw [decimalDigit_val]
        omega

theorem parseDigits_padded {text : Bytes} {pos width n : Nat}
    (stands : Stands text pos (octets (padded width n))) :
    parseDigits text pos width = some (n % 10 ^ width) := by
  induction width generalizing n with
  | zero => rw [Nat.pow_zero, Nat.mod_one, parseDigits]
  | succ width ih =>
      rw [padded, octets_append] at stands
      have last := (stands.right_at (pos + width) (by rw [length_octets_padded])).octet
      rw [octet_decimalDigit] at last
      have digit : digitOctet (48 + n % 10) = true := by
        simp only [digitOctet, Bool.and_eq_true, decide_eq_true_eq]
        omega
      have value : 10 * (n / 10 % 10 ^ width) + (48 + n % 10 - 48) = n % 10 ^ (width + 1) := by
        rw [Nat.pow_succ, Nat.mul_comm (10 ^ width) 10, Nat.mod_mul]
        omega
      rw [parseDigits, ih stands.left]
      simp only [Option.bind_eq_bind, Option.bind_some, last, digit, if_true, value]

theorem parseDigits_exact {text : Bytes} {pos width n : Nat} (small : n < 10 ^ width)
    (stands : Stands text pos (octets (padded width n))) :
    parseDigits text pos width = some n := by
  rw [parseDigits_padded stands, Nat.mod_eq_of_lt small]

theorem parseDigits_none {text : Bytes} {pos : Nat}
    (other : digitOctet (octetAt text pos) = false) (count : Nat) :
    parseDigits text pos (count + 1) = none := by
  induction count with
  | zero =>
      rw [parseDigits, parseDigits]
      simp only [Option.bind_eq_bind, Option.bind_some, Nat.add_zero, other, Bool.false_eq_true,
        if_false]
  | succ count ih =>
      rw [parseDigits, ih]
      rfl

theorem Stands.digit {text : Bytes} {pos width n : Nat}
    (stands : Stands text pos (octets (padded (width + 1) n))) :
    48 ≤ octetAt text pos ∧ octetAt text pos ≤ 57 := by
  cases shape : padded (width + 1) n with
  | nil =>
      have length := length_padded (width + 1) n
      rw [shape] at length
      cases length
  | cons c rest =>
      rw [shape] at stands
      have named : c ∈ padded (width + 1) n := by
        rw [shape]
        exact List.mem_cons_self
      have digit := mem_padded named
      have here := stands.octet
      rw [octet_val (by omega)] at here
      rw [here]
      exact digit

theorem octets_marks : octets (str "-") = [45] ∧ octets (str ":") = [58] ∧
    octets (str ".") = [46] ∧ octets (str "+") = [43] := by decide

/-! ### The date -/

def dateText (year month day : Nat) : Str :=
  padded 4 year ++ (str "-" ++ (padded 2 month ++ (str "-" ++ padded 2 day)))

theorem parseDate_dateText {text : Bytes} {year month day : Nat} (yearSmall : year < 10000)
    (monthSmall : month < 100) (daySmall : day < 100)
    (stands : Stands text 0 (octets (dateText year month day))) (len : Nat) :
    octetAt text 4 = 45 ∧ octetAt text 5 ≠ 87 ∧
      parseDate text len = some (year, month, day) := by
  unfold dateText at stands
  simp only [octets_append, octets_marks.1] at stands
  have fromDash := stands.right_at 4 (by rw [length_octets_padded])
  have fromMonth := fromDash.right_at 5 rfl
  have fromSecond := fromMonth.right_at 7 (by rw [length_octets_padded])
  have fromDay := fromSecond.right_at 8 rfl
  have firstDash : octetAt text 4 = 45 := fromDash.left.octet
  have secondDash : octetAt text 7 = 45 := fromSecond.left.octet
  have monthDigit := fromMonth.left.digit
  have notWeek : octetAt text 5 ≠ 87 := by omega
  refine ⟨firstDash, notWeek, ?_⟩
  unfold parseDate
  rw [parseDigits_exact yearSmall stands.left]
  simp only [Option.bind_eq_bind, Option.bind_some, firstDash, if_true, if_neg notWeek,
    parseDigits_exact monthSmall fromMonth.left, secondDash, ne_eq, not_true_eq_false, and_false,
    if_false, parseDigits_exact daySmall fromDay]

/-! ### The clock -/

/-- The fraction of a second, printed when there is one. -/
def fractionText (micros : Nat) : Str := if micros ≠ 0 then str "." ++ padded 6 micros else []

/-- `HH:MM`. -/
def minuteText (hour minute : Nat) : Str := padded 2 hour ++ (str ":" ++ padded 2 minute)

/-- `:SS`, with its fraction. -/
def secondText (second micros : Nat) : Str :=
  str ":" ++ (padded 2 second ++ fractionText micros)

section Clock

variable {text : Bytes} {pos stop n : Nat} {separated : Bool} {read : List Nat} {components : Nat}

theorem parseClock_colon (small : n < 100) (stands : Stands text pos (octets (padded 2 n) ++ [58]))
    (more : pos + 3 < stop) (flag : read ≠ [] → separated = true) :
    parseClock text pos stop separated read (components + 1) =
      parseClock text (pos + 3) stop true (read ++ [n]) components := by
  have colon : octetAt text (pos + 2) = 58 :=
    (stands.right_at (pos + 2) (by rw [length_octets_padded])).octet
  have kept : (if (read ++ [n]).length = 1 then true else separated) = true := by
    split
    · rfl
    · rename_i several
      refine flag fun empty => several ?_
      rw [empty]
      rfl
  rw [parseClock, parseDigits_exact small stands.left]
  simp only [Option.bind_eq_bind, Option.bind_some, if_neg (Nat.not_le.mpr more), colon,
    beq_self_eq_true, kept, Bool.and_self, if_true]

theorem parseClock_last (small : n < 100) (stands : Stands text pos (octets (padded 2 n)))
    (ends : stop = pos + 2) :
    parseClock text pos stop separated read (components + 1) =
      some (read ++ [n], 0, octetAt text stop != 0) := by
  have near : pos + 2 ≤ pos + 3 := by omega
  rw [parseClock, parseDigits_exact small stands, ends]
  simp only [Option.bind_eq_bind, Option.bind_some, if_pos near]

theorem parseClock_point (small : n < 100) (stands : Stands text pos (octets (padded 2 n) ++ [46]))
    (more : pos + 3 < stop) (later : read ≠ []) :
    parseClock text pos stop true read (components + 1) =
      (parseFraction text (pos + 3) stop).map fun fraction =>
        (read ++ [n], fraction.1, fraction.2) := by
  have point : octetAt text (pos + 2) = 46 :=
    (stands.right_at (pos + 2) (by rw [length_octets_padded])).octet
  have several : (read ++ [n]).length ≠ 1 := by
    rw [List.length_append, List.length_singleton]
    have := List.length_pos_iff.mpr later
    omega
  rw [parseClock, parseDigits_exact small stands.left]
  simp only [Option.bind_eq_bind, Option.bind_some, if_neg several,
    if_neg (Nat.not_le.mpr more), point, Bool.true_and, show ((46 : Nat) == 58) = false from rfl,
    Bool.false_eq_true, if_false, true_or, if_true]
  cases parseFraction text (pos + 3) stop with
  | none => rfl
  | some fraction => rfl

/-- Six digits are read whole; what follows them is not. -/
theorem parseFraction_six (small : n < 1000000) (stands : Stands text pos (octets (padded 6 n)))
    (ends : pos + 6 ≤ stop) (other : digitOctet (octetAt text (pos + 6)) = false) :
    parseFraction text pos stop = some (n, octetAt text (pos + 6) != 0) := by
  have count : min (stop - pos) 6 = 6 := by omega
  have skipped : ((text.drop (pos + 6)).takeWhile fun b => digitOctet b.val) = [] := by
    cases shape : text.drop (pos + 6) with
    | nil => rfl
    | cons b rest =>
        have here : octetAt text (pos + 6) = b.val := by
          unfold octetAt
          rw [List.getD_eq_getElem?_getD, ← Nat.add_zero (pos + 6), ← List.getElem?_drop, shape]
          rfl
        rw [here] at other
        exact List.takeWhile_cons_of_neg
          (by simp only [other, Bool.false_eq_true, not_false_eq_true])
  unfold parseFraction
  simp only [count, parseDigits_exact small stands, Option.bind_eq_bind, Option.bind_some,
    skipped, List.length_nil, Nat.add_zero, Nat.sub_self, Nat.pow_zero, Nat.mul_one]

theorem parseFraction_none (more : pos < stop) (other : digitOctet (octetAt text pos) = false) :
    parseFraction text pos stop = none := by
  have count : ∃ before, min (stop - pos) 6 = before + 1 := ⟨min (stop - pos) 6 - 1, by omega⟩
  obtain ⟨before, count⟩ := count
  unfold parseFraction
  simp only [count, parseDigits_none other, Option.bind_eq_bind, Option.bind_none]

end Clock

section Fields

variable {text : Bytes} {pos stop hour minute second micros : Nat}

theorem octets_minuteText (hour minute : Nat) :
    octets (minuteText hour minute) =
      octets (padded 2 hour) ++ ([58] ++ octets (padded 2 minute)) := by
  unfold minuteText
  rw [octets_append, octets_append, octets_marks.2.1]

theorem length_octets_minuteText (hour minute : Nat) :
    (octets (minuteText hour minute)).length = 5 := by
  rw [octets_minuteText, List.length_append, List.length_append, length_octets_padded,
    length_octets_padded, List.length_singleton]

theorem octets_secondText (second micros : Nat) :
    octets (secondText second micros) =
      [58] ++ (octets (padded 2 second) ++ octets (fractionText micros)) := by
  unfold secondText
  rw [octets_append, octets_append, octets_marks.2.1]

theorem octets_fractionText (micros : Nat) :
    octets (fractionText micros) =
      if micros ≠ 0 then [46] ++ octets (padded 6 micros) else [] := by
  unfold fractionText
  split
  · rw [octets_append, octets_marks.2.2.1]
  · rfl

theorem parseTimeFields_minute (hourSmall : hour < 100) (minuteSmall : minute < 100)
    (stands : Stands text pos (octets (minuteText hour minute))) (ends : stop = pos + 5) :
    parseTimeFields text pos stop = some ((hour, minute, 0, 0), octetAt text stop != 0) := by
  rw [octets_minuteText, ← List.append_assoc] at stands
  have fromMinute := stands.right_at (pos + 3) (by
    rw [List.length_append, length_octets_padded, List.length_singleton])
  unfold parseTimeFields
  rw [parseClock_colon hourSmall stands.left (by omega) (fun absurdity => absurd rfl absurdity),
    parseClock_last minuteSmall fromMinute (by omega)]
  rfl

/-- Up to the seconds, and what is read from there on. -/
theorem parseTimeFields_upto (hourSmall : hour < 100) (minuteSmall : minute < 100)
    (stands : Stands text pos (octets (minuteText hour minute) ++ [58])) (more : pos + 6 < stop) :
    parseTimeFields text pos stop =
      (parseClock text (pos + 6) stop true [hour, minute] 1).map fun found =>
        ((found.1.getD 0 0, found.1.getD 1 0, found.1.getD 2 0, found.2.1), found.2.2) := by
  rw [octets_minuteText, ← List.append_assoc, List.append_assoc] at stands
  have fromMinute := stands.right_at (pos + 3) (by
    rw [List.length_append, length_octets_padded, List.length_singleton])
  unfold parseTimeFields
  rw [parseClock_colon hourSmall stands.left (by omega) (fun absurdity => absurd rfl absurdity),
    parseClock_colon minuteSmall fromMinute (by omega) (fun _ => rfl)]
  have rest : parseClock text (pos + 3 + 3) stop true ([] ++ [hour] ++ [minute]) 1 =
      parseClock text (pos + 6) stop true [hour, minute] 1 := rfl
  rw [rest]
  cases parseClock text (pos + 6) stop true [hour, minute] 1 with
  | none => rfl
  | some found => rfl

theorem parseTimeFields_second (hourSmall : hour < 100) (minuteSmall : minute < 100)
    (secondSmall : second < 100) (microsSmall : micros < 1000000)
    (stands : Stands text pos (octets (minuteText hour minute ++ secondText second micros)))
    (ends : stop = pos + (octets (minuteText hour minute ++ secondText second micros)).length)
    (other : digitOctet (octetAt text stop) = false) :
    parseTimeFields text pos stop =
      some ((hour, minute, second, micros), octetAt text stop != 0) := by
  rw [octets_append, octets_secondText] at stands
  rw [octets_append, octets_secondText, List.length_append, List.length_append,
    List.length_append, length_octets_minuteText, length_octets_padded, List.length_singleton,
    octets_fractionText] at ends
  have fromColon := stands.right_at (pos + 5) (by rw [length_octets_minuteText])
  have fromSecond := fromColon.right_at (pos + 6) rfl
  rw [parseTimeFields_upto hourSmall minuteSmall stands.left_two (by omega)]
  by_cases whole : micros = 0
  · subst whole
    rw [parseClock_last secondSmall fromSecond.left (by simpa using ends)]
    rfl
  · rw [if_pos whole, List.length_append, length_octets_padded, List.length_singleton] at ends
    rw [octets_fractionText, if_pos whole, ← List.append_assoc] at fromSecond
    have fromFraction := fromSecond.right_at (pos + 9) (by
      rw [List.length_append, length_octets_padded, List.length_singleton])
    have stopped : stop = pos + 6 + 3 + 6 := by omega
    rw [stopped] at other ⊢
    rw [parseClock_point secondSmall fromSecond.left (by omega) (List.cons_ne_nil _ _),
      parseFraction_six microsSmall fromFraction (Nat.le_refl _) other]
    rfl

end Fields

/-! ### The offset -/

/-- `HH:MM` of an offset, and its seconds where it has some. -/
def offsetClock (seconds micros : Nat) : Str :=
  minuteText (seconds / 3600) (seconds / 60 % 60) ++
    (if seconds % 60 ≠ 0 ∨ micros ≠ 0 then secondText (seconds % 60) micros else [])

theorem isoOffset_eq (micros : Int) :
    isoOffset micros = str (if micros < 0 then "-" else "+") ++
      offsetClock (micros.natAbs / 1000000) (micros.natAbs % 1000000) := by
  unfold isoOffset offsetClock minuteText secondText fractionText
  by_cases fraction : micros.natAbs % 1000000 = 0
  · by_cases whole : micros.natAbs / 1000000 % 60 = 0
    · simp only [fraction, whole, ne_eq, not_true_eq_false, or_self, if_false, List.append_nil,
        List.append_assoc]
    · simp only [fraction, whole, ne_eq, not_true_eq_false, not_false_eq_true, or_false, if_true,
        if_false, List.append_nil, List.append_assoc]
  · simp only [fraction, ne_eq, not_false_eq_true, or_true, if_true, List.append_assoc]

section Offset

variable {text : Bytes} {pos stop seconds micros : Nat}

theorem parseTimeFields_offset (secondsSmall : seconds < 86400) (microsSmall : micros < 1000000)
    (stands : Stands text pos (octets (offsetClock seconds micros)))
    (ends : stop = pos + (octets (offsetClock seconds micros)).length)
    (other : digitOctet (octetAt text stop) = false) :
    parseTimeFields text pos stop =
      some ((seconds / 3600, seconds / 60 % 60, seconds % 60, micros),
        octetAt text stop != 0) := by
  unfold offsetClock at stands ends
  by_cases bare : seconds % 60 ≠ 0 ∨ micros ≠ 0
  · rw [if_pos bare] at stands ends
    exact parseTimeFields_second (by omega) (by omega) (by omega) microsSmall stands ends other
  · rw [if_neg bare, List.append_nil] at stands ends
    rw [length_octets_minuteText] at ends
    have none : seconds % 60 = 0 ∧ micros = 0 := by omega
    rw [none.1, none.2]
    exact parseTimeFields_minute (by omega) (by omega) stands ends

/-- A point after the minutes or the seconds starts a fraction, or is left over. -/
theorem parseClock_point_left {read : List Nat} {components n : Nat} (small : n < 100)
    (stands : Stands text pos (octets (padded 2 n) ++ [46])) (later : read ≠ [])
    (other : digitOctet (octetAt text (pos + 3)) = false) {found : List Nat × Nat × Bool}
    (read_eq : parseClock text pos stop true read (components + 1) = some found) :
    found.2.2 = true := by
  by_cases more : pos + 3 < stop
  · rw [parseClock_point small stands more later, parseFraction_none more other] at read_eq
    cases read_eq
  · have point : octetAt text (pos + 2) = 46 :=
      (stands.right_at (pos + 2) (by rw [length_octets_padded])).octet
    rw [parseClock, parseDigits_exact small stands.left] at read_eq
    simp only [Option.bind_eq_bind, Option.bind_some, if_pos (Nat.not_lt.mp more), point]
      at read_eq
    rw [← Option.some.inj read_eq]
    rfl

/-- An offset with a point after it is never read whole. -/
theorem parseTimeFields_offset_point (secondsSmall : seconds < 86400)
    (microsSmall : micros < 1000000)
    (stands : Stands text pos (octets (offsetClock seconds micros) ++ [46]))
    (inside : pos + (octets (offsetClock seconds micros)).length + 1 ≤ stop)
    (other : digitOctet (octetAt text
      (pos + (octets (offsetClock seconds micros)).length + 1)) = false)
    {found : (Nat × Nat × Nat × Nat) × Bool}
    (read_eq : parseTimeFields text pos stop = some found) : found.2 = true := by
  unfold offsetClock at stands inside other
  by_cases bare : seconds % 60 ≠ 0 ∨ micros ≠ 0
  · rw [if_pos bare, octets_append, List.append_assoc, octets_secondText, List.append_assoc]
      at stands
    rw [if_pos bare, octets_append, List.length_append, length_octets_minuteText,
      octets_secondText, List.length_append, List.length_append, length_octets_padded,
      List.length_singleton] at inside other
    have fromColon := stands.right_at (pos + 5) (by rw [length_octets_minuteText])
    have fromSecond := fromColon.right_at (pos + 6) rfl
    rw [parseTimeFields_upto (by omega) (by omega) stands.left_two (by omega)] at read_eq
    obtain ⟨clock, clocked, rfl⟩ := Option.map_eq_some_iff.mp read_eq
    rw [octets_fractionText] at fromSecond inside other
    by_cases whole : micros = 0
    · rw [if_neg (not_not.mpr whole), List.append_nil] at fromSecond
      rw [if_neg (not_not.mpr whole)] at inside other
      exact parseClock_point_left (by omega) fromSecond (List.cons_ne_nil _ _)
        (by simpa using other) clocked
    · rw [if_pos whole] at fromSecond inside other
      rw [List.length_append, length_octets_padded, List.length_singleton] at inside other
      rw [← List.append_assoc, List.append_assoc] at fromSecond
      have fromFraction := fromSecond.right_at (pos + 9) (by
        rw [List.length_append, length_octets_padded, List.length_singleton])
      have point : octetAt text (pos + 6 + 3 + 6) = 46 :=
        (fromFraction.right_at (pos + 6 + 3 + 6) (by rw [length_octets_padded])).octet
      rw [parseClock_point (by omega) fromSecond.left (by omega) (List.cons_ne_nil _ _),
        parseFraction_six microsSmall fromFraction.left (by omega) (by rw [point]; rfl),
        point] at clocked
      rw [← Option.some.inj clocked]
      rfl
  · rw [if_neg bare, List.append_nil, octets_minuteText, ← List.append_assoc, List.append_assoc]
      at stands
    rw [if_neg bare, List.append_nil, length_octets_minuteText] at inside other
    have fromMinute := stands.right_at (pos + 3) (by
      rw [List.length_append, length_octets_padded, List.length_singleton])
    unfold parseTimeFields at read_eq
    rw [parseClock_colon (by omega) stands.left (by omega)
      (fun absurdity => absurd rfl absurdity)] at read_eq
    cases clocked : parseClock text (pos + 3) stop true ([] ++ [seconds / 3600]) 2 with
    | none =>
        rw [clocked] at read_eq
        cases read_eq
    | some clock =>
        rw [clocked] at read_eq
        rw [← Option.some.inj read_eq]
        exact parseClock_point_left (by omega) fromMinute (List.cons_ne_nil _ _) other clocked

end Offset

end Python.Datetime
