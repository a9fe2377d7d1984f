import MailkubeSdk.Python.ClockText

/-
`fromisoformat` reads what `isoformat` wrote.

Reading inverts printing but for an offset of less than a second, which becomes
UTC.  Of the texts that share their characters with a printed `datetime`, those
cut off at its front or run on past its end are refused.
-/

namespace Python.Datetime

open Utf8

/-! ### The whole text -/

theorem encode_eq_octets {text : Str} (ascii : ∀ c ∈ text, isAscii c = true) :
    encode text = some (octets text) := encode_ascii ascii

/-- A text that encodes has no lone surrogate to stand for its separator. -/
theorem sanitizeSeparator_of_encode {text : Str} {bytes : Bytes}
    (encoded : encode text = some bytes) : sanitizeSeparator text = text := by
  have scalar : ∀ c ∈ text, isSurrogate c = false := no_surrogate_of_encode encoded
  have nowhere : [7, 8, 10].find? (fun pos => (text[pos]?).any isSurrogate) = none := by
    refine List.find?_eq_none.mpr fun pos _ => ?_
    cases held : text[pos]? with
    | none => exact Bool.false_ne_true
    | some c =>
        rw [Option.any_some, scalar c (List.mem_of_getElem? held)]
        exact Bool.false_ne_true
  unfold sanitizeSeparator
  rw [nowhere]

/-- What the parser does with the octets of the text. -/
def fromOctets (bytes : Bytes) : Option Datetime :=
  if bytes.length < 7 then none
  else do
    let separator ← findSeparator bytes
    let date ← parseDate bytes separator
    if bytes.length ≤ separator then build date (0, 0, 0, 0) none
    else do
      let (time, zone) ← parseTime bytes (separator + separatorWidth (octetAt bytes separator))
      build date time (zoneOffset zone)

theorem fromisoformat_eq {text : Str} {bytes : Bytes} (encoded : encode text = some bytes) :
    fromisoformat text = fromOctets bytes := by
  unfold fromisoformat
  rw [sanitizeSeparator_of_encode encoded, encoded]
  rfl

section Whole

variable {year month day : Nat} {tail : Bytes}

theorem length_octets_dateText (year month day : Nat) :
    (octets (dateText year month day)).length = 10 := by
  unfold dateText
  simp only [octets_append, octets_marks.1, List.length_append, length_octets_padded,
    List.length_singleton]

/-- The octets of a date and a `T`. -/
def dateFront (year month day : Nat) : Bytes := octets (dateText year month day) ++ [84]

theorem length_dateFront (year month day : Nat) : (dateFront year month day).length = 11 := by
  unfold dateFront
  rw [List.length_append, length_octets_dateText, List.length_singleton]

/-- A date, a `T` and a time. -/
theorem fromOctets_dateFront (yearSmall : year < 10000) (monthSmall : month < 100)
    (daySmall : day < 100) :
    fromOctets (dateFront year month day ++ tail) =
      (parseTime (dateFront year month day ++ tail) (dateFront year month day).length).bind
        fun found => build (year, month, day) found.1 (zoneOffset found.2) := by
  have length : (dateFront year month day ++ tail).length = 11 + tail.length := by
    rw [List.length_append, length_dateFront]
  have shape : dateFront year month day ++ tail =
      octets (dateText year month day) ++ 84 :: tail := by
    unfold dateFront
    rw [List.append_assoc, List.singleton_append]
  have stands := stands_start (octets (dateText year month day)) (84 :: tail)
  rw [← shape] at stands
  have letter : octetAt (dateFront year month day ++ tail) 10 = 84 := by
    rw [shape]
    exact octetAt_middle (length_octets_dateText year month day) 84 tail
  obtain ⟨dash, notWeek, dated⟩ := parseDate_dateText yearSmall monthSmall daySmall stands 10
  have separator : findSeparator (dateFront year month day ++ tail) = some 10 := by
    unfold findSeparator
    rw [if_neg (by omega), if_pos dash, if_neg notWeek]
  unfold fromOctets
  rw [if_neg (by omega), separator]
  simp only [Option.bind_eq_bind, Option.bind_some, dated, letter, length_dateFront]
  rw [if_neg (by omega)]
  rfl

/-- An octet that starts an offset. -/
def isZone (b : Byte) : Bool := b.val == 43 || b.val == 45 || b.val == 90

/-- The clock ends where the offset starts. -/
theorem takeWhile_clock {clock rest : Bytes} (plain : ∀ b ∈ clock, isZone b = false)
    (starts : ∀ b ∈ rest.head?, isZone b = true) :
    ((clock ++ rest).takeWhile fun b => !(b.val == 43 || b.val == 45 || b.val == 90)) = clock := by
  have passes : ∀ b ∈ clock, (!(b.val == 43 || b.val == 45 || b.val == 90)) = true := by
    intro b member
    rw [Bool.not_eq_true']
    exact plain b member
  rw [List.takeWhile_append_of_pos passes]
  cases rest with
  | nil => exact List.append_nil clock
  | cons b rest =>
      have zone : (b.val == 43 || b.val == 45 || b.val == 90) = true := starts b rfl
      simp only [List.takeWhile_cons, zone, Bool.not_true, Bool.false_eq_true, if_false,
        List.append_nil]

theorem parseTime_naive {front clock : Bytes} {time : Nat × Nat × Nat × Nat}
    (plain : ∀ b ∈ clock, isZone b = false)
    (read : parseTimeFields (front ++ clock) front.length (front.length + clock.length) =
      some (time, false)) :
    parseTime (front ++ clock) front.length = some (time, none) := by
  have zone : (((front ++ clock).drop front.length).takeWhile fun b =>
      !(b.val == 43 || b.val == 45 || b.val == 90)) = clock := by
    have spanned := @takeWhile_clock clock [] plain (fun _ none => nomatch none)
    rw [List.append_nil] at spanned
    rw [List.drop_left, spanned]
  unfold parseTime
  simp only [zone, read, Option.bind_eq_bind, Option.bind_some, List.length_append, if_true,
    Bool.false_eq_true, if_false]

theorem parseTime_aware {front clock zoned : Bytes} {time : Nat × Nat × Nat × Nat} {left : Bool}
    {sign : Byte} (plain : ∀ b ∈ clock, isZone b = false) (signs : sign.val = 43 ∨ sign.val = 45)
    (read : parseTimeFields (front ++ (clock ++ sign :: zoned)) front.length
      (front.length + clock.length) = some (time, left)) :
    parseTime (front ++ (clock ++ sign :: zoned)) front.length =
      (parseTimeFields (front ++ (clock ++ sign :: zoned)) (front.length + clock.length + 1)
        (front ++ (clock ++ sign :: zoned)).length).bind fun offset =>
          if offset.2 then none
          else some (time, some
            ((if sign.val = 45 then -1 else 1) *
              ((offset.1.1 * 3600 + offset.1.2.1 * 60 + offset.1.2.2.1 : Nat) : Int),
              (if sign.val = 45 then -1 else 1) * (offset.1.2.2.2 : Int))) := by
  have zone : (((front ++ (clock ++ sign :: zoned)).drop front.length).takeWhile fun b =>
      !(b.val == 43 || b.val == 45 || b.val == 90)) = clock := by
    rw [List.drop_left]
    refine takeWhile_clock plain fun b first => ?_
    rw [← Option.some.inj first]
    unfold isZone
    rcases signs with plus | minus
    · rw [plus]
      rfl
    · rw [minus]
      rfl
  have here : octetAt (front ++ (clock ++ sign :: zoned)) (front.length + clock.length) =
      sign.val := by
    rw [← List.append_assoc]
    exact octetAt_middle List.length_append sign zoned
  have inside : front.length + clock.length ≠ (front ++ (clock ++ sign :: zoned)).length := by
    simp only [List.length_append, List.length_cons]
    omega
  have notZ : sign.val ≠ 90 := by omega
  unfold parseTime
  simp only [zone, read, Option.bind_eq_bind, Option.bind_some, if_neg inside, here, if_neg notZ]

end Whole

/-! ### Reading a printed `datetime` -/

/-- What the parser makes of it: an offset of less than a second becomes UTC. -/
def asRead (d : Datetime) : Datetime :=
  { d with
    offset := d.offset.map fun micros => if micros.natAbs < 1000000 then 0 else micros
    offsetRange := by
      intro micros held
      obtain ⟨given, present, rfl⟩ := Option.map_eq_some_iff.mp held
      have range := d.offsetRange given present
      split <;> omega }

@[simp] theorem asRead_offset (d : Datetime) : d.asRead.offset =
    d.offset.map fun micros => if micros.natAbs < 1000000 then 0 else micros := rfl

theorem build_asRead (d : Datetime) :
    build (d.year, d.month, d.day) (d.hour, d.minute, d.second, d.microsecond) d.asRead.offset =
      some d.asRead := by
  unfold build
  exact dif_pos ⟨d.yearRange, d.monthRange, d.dayRange, d.timeRange, d.asRead.offsetRange⟩

/-- The clock fields. -/
def clockText (d : Datetime) : Str :=
  minuteText d.hour d.minute ++ secondText d.second d.microsecond

theorem isoformat_eq (d : Datetime) :
    d.isoformat = dateText d.year d.month d.day ++ cp 'T' :: (d.clockText ++
      d.offset.elim [] isoOffset) := by
  unfold isoformat isoformatWith dateText clockText minuteText secondText fractionText
  simp only [List.append_assoc, List.cons_append, List.nil_append]

theorem plain_octets {text : Str}
    (plain : ∀ c ∈ text, c.val < 128 ∧ c.val ≠ 43 ∧ c.val ≠ 45 ∧ c.val ≠ 90) :
    ∀ b ∈ octets text, isZone b = false := by
  intro b member
  obtain ⟨c, named, rfl⟩ := List.mem_map.mp member
  obtain ⟨small, notPlus, notMinus, notZ⟩ := plain c named
  unfold isZone
  simp only [octet_val (show c.val < 256 by omega), Bool.or_eq_false_iff, beq_eq_false_iff_ne]
  exact ⟨⟨notPlus, notMinus⟩, notZ⟩

theorem mem_minuteText {hour minute : Nat} {c : CodePoint} (member : c ∈ minuteText hour minute) :
    48 ≤ c.val ∧ c.val ≤ 58 := by
  unfold minuteText at member
  rw [List.mem_append, List.mem_append] at member
  rcases member with digit | colon | digit
  · have range := mem_padded digit
    omega
  · rw [show str ":" = [cp ':'] from rfl, List.mem_singleton] at colon
    rw [colon]
    decide
  · have range := mem_padded digit
    omega

theorem mem_secondText {second micros : Nat} {c : CodePoint}
    (member : c ∈ secondText second micros) : c.val = 46 ∨ 48 ≤ c.val ∧ c.val ≤ 58 := by
  unfold secondText at member
  rw [List.mem_append, List.mem_append] at member
  rcases member with colon | digit | fraction
  · rw [show str ":" = [cp ':'] from rfl, List.mem_singleton] at colon
    rw [colon]
    decide
  · have range := mem_padded digit
    omega
  · unfold fractionText at fraction
    split at fraction
    · rcases List.mem_append.mp fraction with point | digit
      · rw [show str "." = [cp '.'] from rfl, List.mem_singleton] at point
        rw [point]
        decide
      · have range := mem_padded digit
        omega
    · cases fraction

theorem clockText_plain (d : Datetime) : ∀ b ∈ octets d.clockText, isZone b = false := by
  refine plain_octets fun c member => ?_
  rcases List.mem_append.mp member with minute | second
  · have range := mem_minuteText minute
    omega
  · have range := mem_secondText second
    omega

theorem ascii_isoformat (d : Datetime) : ∀ c ∈ d.isoformat, isAscii c = true := by
  have small : ∀ c ∈ d.isoformat, c.val < 128 := by
    intro c member
    rw [isoformat_eq] at member
    unfold dateText clockText at member
    simp only [List.mem_append, List.mem_cons] at member
    rcases member with (digit | dash | digit | dash | digit) | rfl | (minute | second) | zone
    · have range := mem_padded digit
      omega
    · rw [List.mem_singleton.mp dash]
      decide
    · have range := mem_padded digit
      omega
    · rw [List.mem_singleton.mp dash]
      decide
    · have range := mem_padded digit
      omega
    · decide
    · have range := mem_minuteText minute
      omega
    · have range := mem_secondText second
      omega
    · cases given : d.offset with
      | none =>
          rw [given] at zone
          cases zone
      | some micros =>
          rw [given, Option.elim_some, isoOffset_eq] at zone
          unfold offsetClock at zone
          simp only [List.mem_append] at zone
          rcases zone with sign | minute | second
          · split at sign
            · rw [List.mem_singleton.mp sign]
              decide
            · rw [List.mem_singleton.mp sign]
              decide
          · have range := mem_minuteText minute
            omega
          · split at second
            · have range := mem_secondText second
              omega
            · cases second
  intro c member
  exact decide_eq_true (small c member)

/-- The octets before the clock of a `datetime`. -/
def front (d : Datetime) : Bytes := dateFront d.year d.month d.day

/-- The octets of a printed `datetime`. -/
theorem octets_isoformat (d : Datetime) :
    octets d.isoformat = d.front ++ (octets d.clockText ++
      d.offset.elim [] fun micros => octets (isoOffset micros)) := by
  have letter : octets (cp 'T' :: (d.clockText ++ d.offset.elim [] isoOffset)) =
      [84] ++ octets (d.clockText ++ d.offset.elim [] isoOffset) := rfl
  unfold front dateFront
  rw [isoformat_eq, octets_append, letter, octets_append, List.append_assoc]
  cases d.offset with
  | none => rfl
  | some micros => rfl

theorem octets_isoOffset (micros : Int) :
    ∃ sign : Byte, sign.val = (if micros < 0 then 45 else 43) ∧ octets (isoOffset micros) =
      sign :: octets (offsetClock (micros.natAbs / 1000000) (micros.natAbs % 1000000)) := by
  rw [isoOffset_eq]
  by_cases negative : micros < 0
  · rw [if_pos negative, if_pos negative]
    exact ⟨45, rfl, rfl⟩
  · rw [if_neg negative, if_neg negative]
    exact ⟨43, rfl, rfl⟩

theorem sign_of_offset {micros : Int} {sign : Byte}
    (signs : sign.val = if micros < 0 then 45 else 43) : sign.val = 43 ∨ sign.val = 45 := by
  rw [signs]
  split
  · exact Or.inr rfl
  · exact Or.inl rfl

/-- The clock is read, whatever comes after it that is no digit. -/
theorem parseTimeFields_clockText (d : Datetime) {front rest : Bytes}
    (other : digitOctet (octetAt (front ++ (octets d.clockText ++ rest))
      (front.length + (octets d.clockText).length)) = false) :
    parseTimeFields (front ++ (octets d.clockText ++ rest)) front.length
        (front.length + (octets d.clockText).length) =
      some ((d.hour, d.minute, d.second, d.microsecond),
        octetAt (front ++ (octets d.clockText ++ rest))
          (front.length + (octets d.clockText).length) != 0) := by
  obtain ⟨hour, minute, second, micros⟩ := d.timeRange
  exact parseTimeFields_second (by omega) (by omega) (by omega) micros
    ⟨front, rest, rfl, rfl⟩ rfl other

theorem fromOctets_front (d : Datetime) (tail : Bytes) :
    fromOctets (d.front ++ tail) = (parseTime (d.front ++ tail) d.front.length).bind fun found =>
      build (d.year, d.month, d.day) found.1 (zoneOffset found.2) := by
  have year := d.yearRange
  have month := d.monthRange
  have day := d.dayRange
  have days := daysInMonth_le d.year d.month
  exact fromOctets_dateFront (by omega) (by omega) (by omega)

/-- After the clock and a sign, the rest is the offset. -/
theorem parseTime_signed (d : Datetime) {sign : Byte} (signs : sign.val = 43 ∨ sign.val = 45)
    (zoned : Bytes) :
    parseTime (d.front ++ (octets d.clockText ++ sign :: zoned)) d.front.length =
      (parseTimeFields (d.front ++ (octets d.clockText ++ sign :: zoned))
        (d.front.length + (octets d.clockText).length + 1)
        (d.front ++ (octets d.clockText ++ sign :: zoned)).length).bind fun offset =>
          if offset.2 then none
          else some ((d.hour, d.minute, d.second, d.microsecond), some
            ((if sign.val = 45 then -1 else 1) *
              ((offset.1.1 * 3600 + offset.1.2.1 * 60 + offset.1.2.2.1 : Nat) : Int),
              (if sign.val = 45 then -1 else 1) * (offset.1.2.2.2 : Int))) := by
  have here : octetAt (d.front ++ (octets d.clockText ++ sign :: zoned))
      (d.front.length + (octets d.clockText).length) = sign.val := by
    rw [← List.append_assoc]
    exact octetAt_middle List.length_append sign zoned
  refine parseTime_aware d.clockText_plain signs (d.parseTimeFields_clockText ?_)
  rw [here]
  unfold digitOctet
  rcases signs with plus | minus
  · rw [plus]
    rfl
  · rw [minus]
    rfl

/-- The offset stands after the sign, and what follows it after that. -/
theorem stands_zoned (d : Datetime) (sign : Byte) (zoned : Bytes) :
    Stands (d.front ++ (octets d.clockText ++ sign :: zoned))
        (d.front.length + (octets d.clockText).length + 1) zoned ∧
      (d.front ++ (octets d.clockText ++ sign :: zoned)).length =
        d.front.length + (octets d.clockText).length + 1 + zoned.length := by
  refine ⟨⟨d.front ++ octets d.clockText ++ [sign], [], ?_, ?_⟩, ?_⟩
  · simp only [List.length_append, List.length_singleton]
  · simp only [List.append_assoc, List.singleton_append, List.append_nil]
  · simp only [List.length_append, List.length_cons]
    omega

theorem zoneOffset_printed {micros : Int} {sign : Byte}
    (signs : sign.val = if micros < 0 then 45 else 43) :
    zoneOffset (some
      ((if sign.val = 45 then -1 else 1) * ((micros.natAbs / 1000000 / 3600 * 3600 +
          micros.natAbs / 1000000 / 60 % 60 * 60 + micros.natAbs / 1000000 % 60 : Nat) : Int),
        (if sign.val = 45 then -1 else 1) * ((micros.natAbs % 1000000 : Nat) : Int))) =
      some (if micros.natAbs < 1000000 then 0 else micros) := by
  have clock : micros.natAbs / 1000000 / 3600 * 3600 + micros.natAbs / 1000000 / 60 % 60 * 60 +
      micros.natAbs / 1000000 % 60 = micros.natAbs / 1000000 := by omega
  rw [clock]
  simp only [zoneOffset, Option.some.injEq]
  by_cases negative : micros < 0
  · rw [if_pos negative] at signs
    rw [if_pos signs]
    by_cases short : micros.natAbs < 1000000
    · rw [if_pos short, if_pos (by omega)]
    · rw [if_neg short, if_neg (by omega)]
      omega
  · rw [if_neg negative] at signs
    have plus : ¬sign.val = 45 := by omega
    rw [if_neg plus]
    by_cases short : micros.natAbs < 1000000
    · rw [if_pos short, if_pos (by omega)]
    · rw [if_neg short, if_neg (by omega)]
      omega

/-- `fromisoformat` inverts `isoformat`, but for offsets of less than a second. -/
theorem fromisoformat_isoformat (d : Datetime) : fromisoformat d.isoformat = some d.asRead := by
  rw [fromisoformat_eq (encode_eq_octets d.ascii_isoformat), octets_isoformat]
  rw [← d.build_asRead]
  cases given : d.offset with
  | none =>
      have ends : octetAt (d.front ++ octets d.clockText)
          (d.front.length + (octets d.clockText).length) = 0 := by
        rw [← List.length_append]
        exact octetAt_length _
      have clock := @parseTimeFields_clockText d d.front []
      rw [List.append_nil, ends] at clock
      have offset : d.asRead.offset = none := by rw [asRead_offset, given, Option.map_none]
      rw [Option.elim_none, List.append_nil, fromOctets_front,
        parseTime_naive d.clockText_plain (clock rfl), offset]
      rfl
  | some micros =>
      obtain ⟨sign, signs, shape⟩ := octets_isoOffset micros
      have range := d.offsetRange micros given
      obtain ⟨stands, stop⟩ := d.stands_zoned sign
        (octets (offsetClock (micros.natAbs / 1000000) (micros.natAbs % 1000000)))
      have ends := octetAt_length (d.front ++ (octets d.clockText ++
        sign :: octets (offsetClock (micros.natAbs / 1000000) (micros.natAbs % 1000000))))
      rw [Option.elim_some, shape, fromOctets_front, parseTime_signed d (sign_of_offset signs),
        parseTimeFields_offset (by omega) (Nat.mod_lt _ (by decide)) stands stop
          (by rw [ends]; rfl), ends, asRead_offset, given, Option.map_some,
        ← zoneOffset_printed signs]
      rfl

/-! ### Texts that are no `datetime` -/

theorem fromOctets_undated {bytes : Bytes} (undated : ∀ len, parseDate bytes len = none) :
    fromOctets bytes = none := by
  unfold fromOctets
  split
  · rfl
  · cases findSeparator bytes with
    | none => rfl
    | some separator =>
        simp only [Option.bind_eq_bind, Option.bind_some, undated, Option.bind_none]

theorem fromOctets_no_digit {bytes : Bytes} (other : digitOctet (octetAt bytes 0) = false) :
    fromOctets bytes = none := by
  refine fromOctets_undated fun len => ?_
  unfold parseDate
  rw [parseDigits_none other]
  rfl

theorem fromOctets_fraction {micros : Nat} {rest : Bytes}
    (other : digitOctet (octetAt (octets (padded 6 micros) ++ rest) 6) = false) :
    fromOctets (octets (padded 6 micros) ++ rest) = none := by
  have stands := stands_start (octets (padded 6 micros)) rest
  generalize octets (padded 6 micros) ++ rest = bytes at stands other
  have split : padded 6 micros =
      padded 4 (micros / 10 / 10) ++ ([decimalDigit (micros / 10)] ++ [decimalDigit micros]) := by
    rw [padded, padded, List.append_assoc]
  rw [split, octets_append] at stands
  have fifth := (stands.right_at 4 (by rw [length_octets_padded])).octet
  rw [octet_decimalDigit] at fifth
  refine fromOctets_undated fun len => ?_
  unfold parseDate
  rw [parseDigits_padded stands.left]
  have plain : ¬octetAt bytes 4 = 45 := by omega
  have notWeek : ¬octetAt bytes 4 = 87 := by omega
  simp only [Option.bind_eq_bind, Option.bind_some, plain, if_false, notWeek, false_and]
  cases parseDigits bytes 4 2 with
  | none => rfl
  | some month =>
      rw [Option.bind_some, parseDigits_none other]
      rfl

theorem parseTime_point (d : Datetime) {sign : Byte} {zone tail : Bytes} {seconds micros : Nat}
    (signs : sign.val = 43 ∨ sign.val = 45) (zoned : zone = octets (offsetClock seconds micros))
    (secondsSmall : seconds < 86400) (microsSmall : micros < 1000000)
    (other : ∀ b ∈ tail.head?, digitOctet b.val = false) :
    parseTime (d.front ++ (octets d.clockText ++ sign :: (zone ++ 46 :: tail))) d.front.length =
      none := by
  obtain ⟨stands, stop⟩ := d.stands_zoned sign (zone ++ 46 :: tail)
  rw [parseTime_signed d signs]
  generalize d.front ++ (octets d.clockText ++ sign :: (zone ++ 46 :: tail)) = bytes
    at stands stop
  generalize d.front.length + (octets d.clockText).length + 1 = pos at stands stop
  rw [List.length_append, List.length_cons] at stop
  have next : digitOctet (octetAt bytes (pos + zone.length + 1)) = false := by
    have point : Stands bytes (pos + zone.length) ([46] ++ tail) := stands.right
    have after : Stands bytes (pos + zone.length + 1) tail := point.right_at _ rfl
    cases tail with
    | nil =>
        rw [List.length_nil, Nat.zero_add, ← Nat.add_assoc] at stop
        rw [← stop, octetAt_length]
        rfl
    | cons b rest =>
        rw [after.octet]
        exact other b rfl
  have point : Stands bytes pos (zone ++ [46]) := Stands.left_two stands
  have inside : pos + zone.length + 1 ≤ bytes.length := by omega
  rw [zoned] at point inside next
  cases read : parseTimeFields bytes pos bytes.length with
  | none => rfl
  | some found =>
      have left := parseTimeFields_offset_point secondsSmall microsSmall point inside next read
      rw [Option.bind_some, if_pos left]

/-- Nothing may follow the offset, not even a point. -/
theorem fromOctets_point {d : Datetime} {micros : Int} (given : d.offset = some micros)
    {tail : Bytes} (other : ∀ b ∈ tail.head?, digitOctet b.val = false) :
    fromOctets (octets d.isoformat ++ 46 :: tail) = none := by
  obtain ⟨sign, signs, shape⟩ := octets_isoOffset micros
  have range := d.offsetRange micros given
  rw [octets_isoformat, given, Option.elim_some, shape, List.append_assoc, List.append_assoc,
    List.cons_append, fromOctets_front, parseTime_point d (sign_of_offset signs) rfl (by omega)
      (Nat.mod_lt _ (by decide)) other]
  rfl

/-! ### The points of a printed `datetime` -/

/-- Every point is followed by a fraction of six digits, and that by no digit. -/
def PointsAtFractions (bytes : Bytes) : Prop :=
  ∀ before after, bytes = before ++ 46 :: after → ∃ micros rest,
    after = octets (padded 6 micros) ++ rest ∧ ∀ b ∈ rest.head?, digitOctet b.val = false

/-- Where the text is cut at a point, a front without points is not cut. -/
theorem cut_after_plain {front back before after : Bytes} (plain : (46 : Byte) ∉ front)
    (same : front ++ back = before ++ 46 :: after) :
    ∃ more, before = front ++ more ∧ back = more ++ 46 :: after := by
  rcases List.append_eq_append_iff.mp same with ⟨more, longer, rest⟩ | ⟨more, shorter, rest⟩
  · exact ⟨more, longer, rest⟩
  · cases more with
    | nil =>
        rw [List.append_nil] at shorter
        exact ⟨[], by rw [List.append_nil, shorter], rest.symm⟩
    | cons b more =>
        rw [← (List.cons.inj rest).1] at shorter
        refine absurd ?_ plain
        rw [shorter]
        exact List.mem_append_right _ List.mem_cons_self

theorem PointsAtFractions.after_plain {front back : Bytes} (plain : (46 : Byte) ∉ front)
    (points : PointsAtFractions back) : PointsAtFractions (front ++ back) := by
  intro before after same
  obtain ⟨more, _, rest⟩ := cut_after_plain plain same
  exact points more after rest

theorem pointsAtFractions_nil : PointsAtFractions [] := by
  intro before after same
  exact absurd (congrArg List.length same) (by simp)

theorem padded_pointless (width n : Nat) : (46 : Byte) ∉ octets (padded width n) := by
  intro point
  obtain ⟨c, member, same⟩ := List.mem_map.mp point
  have digit := mem_padded member
  have value : (octet c.val).val = 46 := by
    rw [same]
    rfl
  rw [octet_val (by omega)] at value
  omega

theorem PointsAtFractions.fraction {back : Bytes} (micros : Nat)
    (points : PointsAtFractions back) (other : ∀ b ∈ back.head?, digitOctet b.val = false) :
    PointsAtFractions (octets (fractionText micros) ++ back) := by
  rw [octets_fractionText]
  split
  · intro before after same
    rw [List.append_assoc, List.singleton_append] at same
    cases before with
    | nil => exact ⟨micros, back, (List.cons.inj same).2.symm, other⟩
    | cons b before =>
        exact points.after_plain (padded_pointless 6 micros) before after (List.cons.inj same).2
  · exact points

theorem minuteText_pointless (hour minute : Nat) :
    (46 : Byte) ∉ octets (minuteText hour minute) := by
  rw [octets_minuteText]
  simp only [List.mem_append, not_or]
  exact ⟨padded_pointless 2 hour, by decide, padded_pointless 2 minute⟩

theorem dateFront_pointless (year month day : Nat) : (46 : Byte) ∉ dateFront year month day := by
  unfold dateFront dateText
  simp only [octets_append, octets_marks.1, List.mem_append, not_or]
  exact ⟨⟨padded_pointless 4 year, by decide, padded_pointless 2 month, by decide,
    padded_pointless 2 day⟩, by decide⟩

theorem secondText_points {back : Bytes} (second micros : Nat) (points : PointsAtFractions back)
    (other : ∀ b ∈ back.head?, digitOctet b.val = false) :
    PointsAtFractions (octets (secondText second micros) ++ back) := by
  have colon : (46 : Byte) ∉ ([58] : Bytes) := by decide
  rw [octets_secondText, List.append_assoc, List.append_assoc]
  exact (PointsAtFractions.fraction micros points other).after_plain
    (padded_pointless 2 second) |>.after_plain colon

theorem offsetClock_points (seconds micros : Nat) :
    PointsAtFractions (octets (offsetClock seconds micros)) := by
  have nothing : ∀ b ∈ ([] : Bytes).head?, digitOctet b.val = false := fun _ none => nomatch none
  unfold offsetClock
  rw [octets_append]
  refine PointsAtFractions.after_plain (minuteText_pointless _ _) ?_
  split
  · have points := secondText_points (seconds % 60) micros pointsAtFractions_nil nothing
    rwa [List.append_nil] at points
  · exact pointsAtFractions_nil

theorem isoformat_points (d : Datetime) : PointsAtFractions (octets d.isoformat) := by
  have zone : PointsAtFractions (d.offset.elim [] fun micros => octets (isoOffset micros)) ∧
      ∀ b ∈ (d.offset.elim [] fun micros => octets (isoOffset micros)).head?,
        digitOctet b.val = false := by
    cases d.offset with
    | none => exact ⟨pointsAtFractions_nil, fun _ none => nomatch none⟩
    | some micros =>
        obtain ⟨sign, signs, shape⟩ := octets_isoOffset micros
        rw [Option.elim_some, shape]
        have known := sign_of_offset signs
        have plain : (46 : Byte) ∉ [sign] := by
          intro member
          rw [← List.mem_singleton.mp member] at known
          rcases known with plus | minus
          · exact absurd plus (by decide)
          · exact absurd minus (by decide)
        refine ⟨(offsetClock_points _ _).after_plain plain, fun b first => ?_⟩
        rw [← Option.some.inj first]
        unfold digitOctet
        rcases known with plus | minus
        · rw [plus]
          rfl
        · rw [minus]
          rfl
  rw [octets_isoformat]
  unfold clockText
  rw [octets_append, List.append_assoc]
  exact ((secondText_points _ _ zone.1 zone.2).after_plain (minuteText_pointless _ _)).after_plain
    (dateFront_pointless _ _ _)

end Python.Datetime
