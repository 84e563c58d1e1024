/-
  Points in time as texts of RFC 3339.

  A timestamp is a day of the Gregorian calendar, in any year, with a time of day in
  universal time. It prints with the offset `+00:00` and with no more digits behind the
  second than it needs; a year that has no four digits gets a sign. Reading takes years
  of four digits only, any offset, a blank or a small letter between date and time,
  fractions of a second of any length and a leap second; it tells a text that is too
  short from one with wrong characters, fields out of range and something left over.
-/
import Autopilot.Fault

namespace Autopilot

/-! ## The calendar -/

/-- Whether a year of the Gregorian calendar has a leap day. -/
def isLeapYear (year : Int) : Bool :=
  year % 4 == 0 && (year % 100 != 0 || year % 400 == 0)

/-- The number of days of a month, months counted from one. -/
def daysInMonth (year : Int) (month : Nat) : Nat :=
  if month = 2 then if isLeapYear year then 29 else 28
  else if month = 4 ∨ month = 6 ∨ month = 9 ∨ month = 11 then 30
  else 31

/-- Whether a date exists in the calendar. -/
def isDate (year : Int) (month day : Nat) : Bool :=
  1 ≤ month && month ≤ 12 && 1 ≤ day && day ≤ daysInMonth year month

/-- A day of the calendar. -/
structure Date where
  year : Int
  month : Nat
  day : Nat
  exists_ : isDate year month day = true
  deriving DecidableEq

theorem isDate_iff {year : Int} {month day : Nat} : isDate year month day = true ↔
    1 ≤ month ∧ month ≤ 12 ∧ 1 ≤ day ∧ day ≤ daysInMonth year month := by
  simp only [isDate, Bool.and_eq_true, decide_eq_true_eq, and_assoc]

theorem daysInMonth_bounds (year : Int) (month : Nat) :
    1 ≤ daysInMonth year month ∧ daysInMonth year month ≤ 31 := by
  unfold daysInMonth
  split
  · split <;> omega
  · split <;> omega

/-- The day behind a day. -/
def Date.next (d : Date) : Date :=
  have h := isDate_iff.mp d.exists_
  if hday : d.day < daysInMonth d.year d.month then
    ⟨d.year, d.month, d.day + 1, isDate_iff.mpr (by omega)⟩
  else if hmonth : d.month < 12 then
    have hdays := daysInMonth_bounds d.year (d.month + 1)
    ⟨d.year, d.month + 1, 1, isDate_iff.mpr (by omega)⟩
  else
    have hdays := daysInMonth_bounds (d.year + 1) 1
    ⟨d.year + 1, 1, 1, isDate_iff.mpr (by omega)⟩

/-- The day in front of a day. -/
def Date.previous (d : Date) : Date :=
  have h := isDate_iff.mp d.exists_
  if hday : 1 < d.day then
    ⟨d.year, d.month, d.day - 1, isDate_iff.mpr (by omega)⟩
  else if hmonth : 1 < d.month then
    have hdays := daysInMonth_bounds d.year (d.month - 1)
    ⟨d.year, d.month - 1, daysInMonth d.year (d.month - 1), isDate_iff.mpr (by omega)⟩
  else
    have hdays := daysInMonth_bounds (d.year - 1) 12
    ⟨d.year - 1, 12, daysInMonth (d.year - 1) 12, isDate_iff.mpr (by omega)⟩

/-! ## Times of day -/

/-- A second in nanoseconds. -/
def nanosecondsPerSecond : Nat := 1000000000

/-- Whether a time of day exists. Its last field may hold another second on top. -/
def isTime (hour minute second nanosecond : Nat) : Bool :=
  hour < 24 && minute < 60 && second < 60 && nanosecond < 2 * nanosecondsPerSecond

/-- A time of day, to the nanosecond. A leap second is counted on the second before it. -/
structure TimeOfDay where
  hour : Nat
  minute : Nat
  second : Nat
  nanosecond : Nat
  exists_ : isTime hour minute second nanosecond = true
  deriving DecidableEq

theorem isTime_iff {hour minute second nanosecond : Nat} :
    isTime hour minute second nanosecond = true ↔
      hour < 24 ∧ minute < 60 ∧ second < 60 ∧ nanosecond < 2 * nanosecondsPerSecond := by
  simp only [isTime, Bool.and_eq_true, decide_eq_true_eq, and_assoc]

namespace TimeOfDay

/-- The second as it is shown: a leap second is the one behind the second it is counted on. -/
def shownSecond (t : TimeOfDay) : Nat :=
  t.second + t.nanosecond / nanosecondsPerSecond

/-- The fraction of the second that is shown. -/
def shownNanosecond (t : TimeOfDay) : Nat :=
  t.nanosecond % nanosecondsPerSecond

/-- The time of day that is shown by these fields; the second after the last one is a leap
    second. -/
def ofShown? (hour minute second nanosecond : Nat) : Option TimeOfDay :=
  if second = 60 then
    if h : isTime hour minute 59 (nanosecond + nanosecondsPerSecond) = true then
      some ⟨hour, minute, 59, nanosecond + nanosecondsPerSecond, h⟩
    else none
  else if h : isTime hour minute second nanosecond = true then
    some ⟨hour, minute, second, nanosecond, h⟩
  else none

/-- The time of day with the hour and minute of a minute of the day. -/
def atMinute (t : TimeOfDay) (minute : Nat) : TimeOfDay :=
  have h := isTime_iff.mp t.exists_
  ⟨minute / 60 % 24, minute % 60, t.second, t.nanosecond, isTime_iff.mpr (by omega)⟩

end TimeOfDay

/-- A point in time. -/
structure Timestamp where
  date : Date
  time : TimeOfDay
  deriving DecidableEq

namespace Timestamp

/-- The start of the year 1970. -/
def epoch : Timestamp :=
  ⟨⟨1970, 1, 1, by decide⟩, ⟨0, 0, 0, 0, by decide⟩⟩

instance : Inhabited Timestamp := ⟨epoch⟩

/-- The year, month and day that lie a number of days behind the first of January 1970. Years are
    counted from March here, so that a leap day is the last day of its year. -/
def dateAfter (days : Nat) : Nat × Nat × Nat :=
  let shifted := days + 719468
  let dayOfEra := shifted % 146097
  let yearOfEra := (dayOfEra - dayOfEra / 1460 + dayOfEra / 36524 - dayOfEra / 146096) / 365
  let dayOfYear := dayOfEra - (365 * yearOfEra + yearOfEra / 4 - yearOfEra / 100)
  let monthFromMarch := (5 * dayOfYear + 2) / 153
  let day := dayOfYear - (153 * monthFromMarch + 2) / 5 + 1
  let month := if monthFromMarch < 10 then monthFromMarch + 3 else monthFromMarch - 9
  let year := yearOfEra + 400 * (shifted / 146097) + (if month ≤ 2 then 1 else 0)
  (year, month, day)

/-- The point in time that lies a number of seconds and nanoseconds behind the epoch. -/
def ofSeconds? (seconds nanosecond : Nat) : Option Timestamp :=
  let (year, month, day) := dateAfter (seconds / 86400)
  let hour := seconds / 3600 % 24
  let minute := seconds / 60 % 60
  let second := seconds % 60
  if h : isDate year month day = true ∧ isTime hour minute second nanosecond = true then
    some ⟨⟨year, month, day, h.1⟩, ⟨hour, minute, second, nanosecond, h.2⟩⟩
  else none

/-- The point in time at which clocks that are some minutes ahead of universal time, less than a
    day, show the given one. -/
def ofShown (shown : Timestamp) (ahead : Int) : Timestamp :=
  let minute : Int := 60 * shown.time.hour + shown.time.minute - ahead
  let date := if minute < 0 then shown.date.previous
    else if minute < 1440 then shown.date
    else shown.date.next
  ⟨date, shown.time.atMinute (minute % 1440).toNat⟩

/-! ## Printing -/

/-- A number in exactly `n` decimal digits, its low ones if it has more. -/
def paddedDigits : (n : Nat) → Nat → List Char
  | 0, _ => []
  | n + 1, v => Nat.digitChar (v / 10 ^ n % 10) :: paddedDigits n v

/-- A number in exactly `n` decimal digits. -/
def padded (n v : Nat) : String :=
  String.ofList (paddedDigits n v)

/-- A year in four digits, or in four or more behind its sign if it is none of those. -/
def yearText (year : Int) : String :=
  if 0 ≤ year ∧ year < 10000 then padded 4 year.toNat
  else
    (if year < 0 then "-" else "+") ++
      String.ofList ((Nat.toDigits 10 year.natAbs).leftpad 4 '0')

/-- The fraction of a second in three, six or nine digits behind a point, or nothing for none. -/
def fractionText (nanosecond : Nat) : String :=
  if nanosecond = 0 then ""
  else if nanosecond % 1000000 = 0 then "." ++ padded 3 (nanosecond / 1000000)
  else if nanosecond % 1000 = 0 then "." ++ padded 6 (nanosecond / 1000)
  else "." ++ padded 9 nanosecond

/-- The timestamp as text. -/
def text (t : Timestamp) : String :=
  yearText t.date.year ++ "-" ++ padded 2 t.date.month ++ "-" ++ padded 2 t.date.day ++ "T" ++
    padded 2 t.time.hour ++ ":" ++ padded 2 t.time.minute ++ ":" ++ padded 2 t.time.shownSecond ++
    fractionText t.time.shownNanosecond ++ "+00:00"

/-! ## Reading -/

/-- A step of reading from the front of a text. -/
abbrev Reader (α : Type) := StateT (List Char) (Except TimeDefect) α

/-- Takes one character. -/
def take : Reader Char := fun
  | c :: rest => .ok (c, rest)
  | [] => .error .tooShort

/-- Takes one of the given characters. -/
def takeOne (allowed : List Char) : Reader Unit := do
  let c ← take
  if c ∈ allowed then pure () else throw .invalid

/-- Takes a number of exactly `n` decimal digits behind those that make up `front`. -/
def takeNumber (front : Nat) : (n : Nat) → Reader Nat
  | 0 => pure front
  | n + 1 => do
    let c ← take
    if c.isDigit then takeNumber (10 * front + (c.toNat - 48)) n else throw .invalid

/-- The condition must hold of the fields read so far. -/
def inRange (condition : Bool) : Reader Unit :=
  if condition then pure () else throw .outOfRange

/-- Takes a date. -/
def takeDate : Reader Date := do
  let year ← takeNumber 0 4
  takeOne ['-']
  let month ← takeNumber 0 2
  takeOne ['-']
  let day ← takeNumber 0 2
  if h : isDate year month day = true then pure ⟨year, month, day, h⟩ else throw .outOfRange

/-- The nanoseconds that the digits behind a point stand for. Nine of them count, and those that
    are not there are zero. -/
def nanoseconds (digits : List Char) : Nat :=
  ((digits ++ List.replicate 9 '0').take 9).foldl (fun n c => 10 * n + (c.toNat - 48)) 0

/-- Takes the digits behind a point, of which there must be one, if a point stands next. -/
def takeFraction : Reader Nat := do
  match ← get with
  | '.' :: rest =>
    set rest
    let _ ← takeNumber 0 1
    modify (·.dropWhile Char.isDigit)
    pure (nanoseconds (rest.takeWhile Char.isDigit))
  | _ => pure 0

/-- Takes a time of day with its fraction. -/
def takeTime : Reader TimeOfDay := do
  let hour ← takeNumber 0 2
  takeOne [':']
  let minute ← takeNumber 0 2
  takeOne [':']
  let second ← takeNumber 0 2
  let nanosecond ← takeFraction
  match TimeOfDay.ofShown? hour minute second nanosecond with
  | some time => pure time
  | none => throw .outOfRange

/-- Takes a number of two digits; less than two bytes are too short for one, whatever they hold. -/
def takePair : Reader Nat := do
  let rest ← get
  if (String.ofList (rest.take 2)).utf8ByteSize < 2 then throw .tooShort
  takeNumber 0 2

/-- Takes an offset from universal time and returns how many minutes it is ahead. -/
def takeOffset : Reader Int := do
  let sign ← take
  if sign = 'Z' ∨ sign = 'z' then pure 0
  else if sign = '+' ∨ sign = '-' ∨ sign = '−' then
    let hours ← takePair
    takeOne [':']
    let minutes ← takePair
    inRange (minutes < 60)
    let ahead : Int := 60 * hours + minutes
    pure (if sign = '+' then ahead else -ahead)
  else throw .invalid

/-- Takes a whole timestamp. -/
def takeAll : Reader Timestamp := do
  let date ← takeDate
  takeOne ['T', 't', ' ']
  let time ← takeTime
  let ahead ← takeOffset
  let rest ← get
  if !rest.isEmpty then throw .tooLong
  inRange (ahead.natAbs < 1440)
  pure (ofShown ⟨date, time⟩ ahead)

/-- Reads a point in time. The first nineteen bytes hold the date and the time to the second, so a
    shorter text is refused at once. -/
def read (s : String) : Except TimeDefect Timestamp :=
  if s.utf8ByteSize < 19 then .error .tooShort
  else (takeAll.run s.toList).map (·.1)

end Timestamp

end Autopilot
