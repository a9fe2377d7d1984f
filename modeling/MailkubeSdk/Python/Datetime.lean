import MailkubeSdk.Python.Utf8

/-
`datetime` as the interpreter builds, prints and reads it.

A `datetime` carries its fields with the proof that they are in range, and
perhaps a UTC offset in microseconds.  `fromisoformat` follows the C
implementation, which reads the UTF-8 octets of the text and takes the octet
after the last one to be zero.
-/

namespace Python

open Utf8

/-! ### The calendar -/

def isLeap (year : Nat) : Bool := year % 4 == 0 && (year % 100 != 0 || year % 400 == 0)

def daysInMonth (year : Nat) : Nat → Nat
  | 2 => if isLeap year then 29 else 28
  | 4 | 6 | 9 | 11 => 30
  | _ => 31

/-- `_days_before_year`: the days before January 1st of the year. -/
def daysBeforeYear (year : Nat) : Nat :=
  let y := year - 1
  y * 365 + y / 4 - y / 100 + y / 400

/-- `_days_before_month`: the days of the year before the first of the month. -/
def daysBeforeMonth (year month : Nat) : Nat :=
  ((List.range (month - 1)).map (fun before => daysInMonth year (before + 1))).sum

/-- `_ymd2ord`: the proleptic Gregorian ordinal, January 1st of year 1 being day 1. -/
def ymdToOrdinal (year month day : Nat) : Nat :=
  daysBeforeYear year + daysBeforeMonth year month + day

/-- The month and day of a day of the year, counted from zero. -/
def monthDay (year : Nat) (dayOfYear : Nat) : Nat × Nat :=
  ((List.range 11).map (· + 1)).foldl
    (fun (month, rest) candidate =>
      if month = candidate ∧ daysInMonth year candidate ≤ rest
        then (candidate + 1, rest - daysInMonth year candidate) else (month, rest))
    (1, dayOfYear)

/-- `_ord2ymd`. -/
def ordinalToYmd (ordinal : Nat) : Nat × Nat × Nat :=
  let n := ordinal - 1
  let (n400, n) := (n / 146097, n % 146097)
  let (n100, n) := (n / 36524, n % 36524)
  let (n4, n) := (n / 1461, n % 1461)
  let (n1, n) := (n / 365, n % 365)
  let year := n400 * 400 + n100 * 100 + n4 * 4 + n1 + 1
  if n1 = 4 ∨ n100 = 4 then (year - 1, 12, 31)
  else
    let (month, day) := monthDay year n
    (year, month, day + 1)

structure Datetime where
  year : Nat
  month : Nat
  day : Nat
  hour : Nat
  minute : Nat
  second : Nat
  microsecond : Nat
  offset : Option Int
  yearRange : 1 ≤ year ∧ year ≤ 9999
  monthRange : 1 ≤ month ∧ month ≤ 12
  dayRange : 1 ≤ day ∧ day ≤ daysInMonth year month
  timeRange : hour < 24 ∧ minute < 60 ∧ second < 60 ∧ microsecond < 1000000
  offsetRange : ∀ micros, offset = some micros → -86400000000 < micros ∧ micros < 86400000000
deriving DecidableEq

namespace Datetime

/-- The constructor, with its range checks; `none` is its `ValueError`. -/
def build (date : Nat × Nat × Nat) (time : Nat × Nat × Nat × Nat) (offset : Option Int) :
    Option Datetime :=
  if ranges : (1 ≤ date.1 ∧ date.1 ≤ 9999) ∧ (1 ≤ date.2.1 ∧ date.2.1 ≤ 12) ∧
      (1 ≤ date.2.2 ∧ date.2.2 ≤ daysInMonth date.1 date.2.1) ∧
      (time.1 < 24 ∧ time.2.1 < 60 ∧ time.2.2.1 < 60 ∧ time.2.2.2 < 1000000) ∧
      (∀ micros ∈ offset, -86400000000 < micros ∧ micros < 86400000000) then
    some
      { year := date.1, month := date.2.1, day := date.2.2, hour := time.1, minute := time.2.1
        second := time.2.2.1, microsecond := time.2.2.2, offset
        yearRange := ranges.1, monthRange := ranges.2.1, dayRange := ranges.2.2.1
        timeRange := ranges.2.2.2.1, offsetRange := ranges.2.2.2.2 }
  else none

/-- The microseconds of the clock fields since the start of year 1, offset not applied. -/
def naiveMicros (d : Datetime) : Nat :=
  (((ymdToOrdinal d.year d.month d.day * 24 + d.hour) * 60 + d.minute) * 60 + d.second) * 1000000 +
    d.microsecond

/-- The UTC instant in microseconds; a naive `datetime` is read as UTC. -/
def instant (d : Datetime) : Int := d.naiveMicros - d.offset.getD 0

theorem daysInMonth_le (year month : Nat) : daysInMonth year month ≤ 31 := by
  unfold daysInMonth
  split
  · split <;> omega
  all_goals omega

theorem daysBeforeMonth_le (year month : Nat) : daysBeforeMonth year month ≤ (month - 1) * 31 := by
  unfold daysBeforeMonth
  generalize month - 1 = count
  induction count with
  | zero => exact Nat.le_refl 0
  | succ count ih =>
      rw [List.range_succ, List.map_append, List.sum_append]
      have last := daysInMonth_le year (count + 1)
      simp only [List.map_cons, List.map_nil, List.sum_cons, List.sum_nil, Nat.add_zero]
      omega

theorem naiveMicros_lt (d : Datetime) : d.naiveMicros < 400000000000000000 := by
  have months := daysBeforeMonth_le d.year d.month
  have days := daysInMonth_le d.year d.month
  obtain ⟨yearLow, yearHigh⟩ := d.yearRange
  obtain ⟨monthLow, monthHigh⟩ := d.monthRange
  obtain ⟨dayLow, dayHigh⟩ := d.dayRange
  obtain ⟨hour, minute, second, micros⟩ := d.timeRange
  have ordinal : ymdToOrdinal d.year d.month d.day ≤ 4000000 := by
    simp only [ymdToOrdinal, daysBeforeYear]
    omega
  unfold naiveMicros
  omega

theorem instant_distance_le (left right : Datetime) :
    (left.instant - right.instant).natAbs ≤ 2 ^ 39 * 1000000 := by
  have offsetBound : ∀ d : Datetime, -86400000000 < d.offset.getD 0 ∧
      d.offset.getD 0 < 86400000000 := by
    intro d
    cases given : d.offset with
    | none => exact ⟨by decide, by decide⟩
    | some micros => exact d.offsetRange micros given
  have leftMicros := left.naiveMicros_lt
  have rightMicros := right.naiveMicros_lt
  have leftOffset := offsetBound left
  have rightOffset := offsetBound right
  unfold instant
  omega

/-! ### `isoformat` -/

def decimalDigit (n : Nat) : CodePoint := codePoint (48 + n % 10)

/-- `%0*d`: the last `width` decimal digits. -/
def padded : Nat → Nat → Str
  | 0, _ => []
  | width + 1, n => padded width (n / 10) ++ [decimalDigit n]

def isoOffset (micros : Int) : Str :=
  let total := micros.natAbs
  let (seconds, fraction) := (total / 1000000, total % 1000000)
  str (if micros < 0 then "-" else "+") ++ padded 2 (seconds / 3600) ++ str ":" ++
    padded 2 (seconds / 60 % 60) ++
    (if seconds % 60 ≠ 0 ∨ fraction ≠ 0 then str ":" ++ padded 2 (seconds % 60) else []) ++
    (if fraction ≠ 0 then str "." ++ padded 6 fraction else [])

/-- `isoformat(sep=…)`. -/
def isoformatWith (separator : CodePoint) (d : Datetime) : Str :=
  padded 4 d.year ++ str "-" ++ padded 2 d.month ++ str "-" ++ padded 2 d.day ++ [separator] ++
    padded 2 d.hour ++ str ":" ++ padded 2 d.minute ++ str ":" ++ padded 2 d.second ++
    (if d.microsecond ≠ 0 then str "." ++ padded 6 d.microsecond else []) ++
    (d.offset.elim [] isoOffset)

def isoformat (d : Datetime) : Str := d.isoformatWith (cp 'T')

/-! ### `fromisoformat` -/

/-- The octet at a position, zero past the end. -/
def octetAt (text : Bytes) (pos : Nat) : Nat := (text.getD pos 0).val

def digitOctet (b : Nat) : Bool := 48 ≤ b && b ≤ 57

def parseDigits (text : Bytes) (pos : Nat) : Nat → Option Nat
  | 0 => some 0
  | count + 1 => do
      let front ← parseDigits text pos count
      let last := octetAt text (pos + count)
      if digitOctet last then some (10 * front + (last - 48)) else none

def isSurrogate (c : CodePoint) : Bool := 0xD800 ≤ c.val && c.val ≤ 0xDFFF

/-- `_sanitize_isoformat_str`: a lone surrogate may stand as the separator. -/
def sanitizeSeparator (text : Str) : Str :=
  match [7, 8, 10].find? (fun pos => (text[pos]?).any isSurrogate) with
  | some pos => text.set pos (cp 'T')
  | none => text

/-- `_find_isoformat_datetime_separator`. -/
def findSeparator (text : Bytes) : Option Nat :=
  if text.length = 7 then some 7
  else if octetAt text 4 = 45 then
    if octetAt text 5 = 87 then
      if text.length > 8 ∧ octetAt text 8 = 45 then
        if text.length = 9 then none
        else if text.length > 10 ∧ digitOctet (octetAt text 10) then some 8 else some 10
      else some 8
    else some 10
  else if octetAt text 4 = 87 then
    let pos := 7 + ((text.drop 7).takeWhile (fun b => digitOctet b.val)).length
    if pos < 9 then some pos else if pos % 2 = 0 then some 7 else some 8
  else some 8

/-- `iso_week1_monday`: the ordinal of the Monday that starts the ISO year. -/
def week1Monday (year : Nat) : Nat :=
  let first := ymdToOrdinal year 1 1
  let weekday := (first + 6) % 7
  let monday := first - weekday
  if weekday > 3 then first + 7 - weekday else monday

def isoToYmd (year week day : Nat) : Option (Nat × Nat × Nat) :=
  let firstWeekday := (ymdToOrdinal year 1 1 + 6) % 7
  let longYear := firstWeekday = 3 ∨ (firstWeekday = 2 ∧ isLeap year)
  if 1 ≤ year ∧ year ≤ 9999 ∧ 1 ≤ week ∧ (week < 53 ∨ (week = 53 ∧ longYear)) ∧ 1 ≤ day ∧ day ≤ 7
    then some (ordinalToYmd (week1Monday year + (week - 1) * 7 + (day - 1)))
    else none

/-- `parse_isoformat_date`, on the octets before `len`. -/
def parseDate (text : Bytes) (len : Nat) : Option (Nat × Nat × Nat) := do
  let year ← parseDigits text 0 4
  let separated := octetAt text 4 = 45
  let pos := if separated then 5 else 4
  if octetAt text pos = 87 then do
    let week ← parseDigits text (pos + 1) 2
    if pos + 3 < len then
      if separated ∧ octetAt text (pos + 3) ≠ 45 then none
      else do
        let day ← parseDigits text (if separated then pos + 4 else pos + 3) 1
        isoToYmd year week day
    else isoToYmd year week 1
  else do
    let month ← parseDigits text pos 2
    if separated ∧ octetAt text (pos + 2) ≠ 45 then none
    else do
      let day ← parseDigits text (if separated then pos + 3 else pos + 2) 2
      some (year, month, day)

/-- The fraction after the seconds: the microseconds, and whether text is left over. -/
def parseFraction (text : Bytes) (pos stop : Nat) : Option (Nat × Bool) := do
  let count := min (stop - pos) 6
  let value ← parseDigits text pos count
  let skipped := ((text.drop (pos + count)).takeWhile (fun b => digitOctet b.val)).length
  some (value * 10 ^ (6 - count), octetAt text (pos + count + skipped) != 0)

/-- `parse_hh_mm_ss_ff` on the octets from `pos` up to `stop`; the flag tells
whether text is left over.  `part` counts the components read so far. -/
def parseClock (text : Bytes) (pos stop : Nat) (separated : Bool) (read : List Nat) :
    Nat → Option (List Nat × Nat × Bool)
  | 0 => do
      let (fraction, left) ← parseFraction text pos stop
      some (read, fraction, left)
  | components + 1 => do
      let value ← parseDigits text pos 2
      let read := read ++ [value]
      let c := octetAt text (pos + 2)
      let separated := if read.length = 1 then c == 58 else separated
      if stop ≤ pos + 3 then some (read, 0, c != 0)
      else if separated && c == 58 then parseClock text (pos + 3) stop separated read components
      else if c = 46 ∨ c = 44 then do
        let (fraction, left) ← parseFraction text (pos + 3) stop
        some (read, fraction, left)
      else if !separated then parseClock text (pos + 2) stop separated read components
      else none

def parseTimeFields (text : Bytes) (pos stop : Nat) : Option ((Nat × Nat × Nat × Nat) × Bool) := do
  let (read, fraction, left) ← parseClock text pos stop true [] 3
  some ((read.getD 0 0, read.getD 1 0, read.getD 2 0, fraction), left)

/-- `parse_isoformat_time` on the octets from `start` on. -/
def parseTime (text : Bytes) (start : Nat) :
    Option ((Nat × Nat × Nat × Nat) × Option (Int × Int)) := do
  let isZone := fun (b : Byte) => b.val == 43 || b.val == 45 || b.val == 90
  let zone := start + ((text.drop start).takeWhile (fun b => !isZone b)).length
  let (time, left) ← parseTimeFields text start zone
  if zone = text.length then if left then none else some (time, none)
  else if octetAt text zone = 90 then
    if octetAt text (zone + 1) ≠ 0 then none else some (time, some (0, 0))
  else do
    let sign : Int := if octetAt text zone = 45 then -1 else 1
    let ((hour, minute, second, micros), left) ← parseTimeFields text (zone + 1) text.length
    if left then none
    else some (time, some (sign * (hour * 3600 + minute * 60 + second : Nat), sign * micros))

/-- `tzinfo_from_isoformat_results`: zero seconds is UTC, whatever the fraction. -/
def zoneOffset : Option (Int × Int) → Option Int
  | none => none
  | some (seconds, micros) => some (if seconds = 0 then 0 else seconds * 1000000 + micros)

/-- The octets a separator takes. -/
def separatorWidth (lead : Nat) : Nat :=
  if lead < 0x80 then 1 else if lead / 16 = 0xE then 3 else if lead / 16 = 0xF then 4 else 2

/-- `datetime.fromisoformat`; `none` is its `ValueError`. -/
def fromisoformat (text : Str) : Option Datetime := do
  let octets ← encode (sanitizeSeparator text)
  if octets.length < 7 then none
  else do
    let separator ← findSeparator octets
    let date ← parseDate octets separator
    if octets.length ≤ separator then build date (0, 0, 0, 0) none
    else do
      let (time, zone) ← parseTime octets (separator + separatorWidth (octetAt octets separator))
      build date time (zoneOffset zone)

end Datetime

end Python
