import TraceFold.Text.Blank
import TraceFold.Text.Digits

/-!
# Instants

The moment of a transaction, in universal time, as a calendar date and a time of day.  A second
may be numbered 60, so leap seconds survive; fractions of a second are kept to the nanosecond.

The written form is `2024-01-02T03:04:05.500Z`, with no fraction or one of 3, 6 or 9 digits,
whichever is the shortest exact one.  Years outside 0 to 9999 carry a sign.  Reading is more
liberal: the separator of date and time may be `T`, `t` or a space, blanks may surround every
part, a part may have fewer digits than usual, and the offset may be `Z`, `UTC` or hours and
minutes, which are then subtracted.
-/

namespace TraceFold

/-! ## Calendar dates -/

/-- A leap year of the Gregorian calendar, carried on before its introduction. -/
def isLeapYear (year : Int) : Bool :=
  year % 4 == 0 && (year % 100 != 0 || year % 400 == 0)

/-- The number of days of a month; months are numbered from 1. -/
def daysInMonth (year : Int) : Nat → Nat
  | 2 => if isLeapYear year then 29 else 28
  | 4 | 6 | 9 | 11 => 30
  | _ => 31

/-- A date of the calendar, in the span of years that instants cover. -/
structure Date where
  year : Int
  month : Nat
  day : Nat
  year_range : -262143 ≤ year ∧ year ≤ 262142
  month_range : 1 ≤ month ∧ month ≤ 12
  day_range : 1 ≤ day ∧ day ≤ daysInMonth year month
deriving DecidableEq

namespace Date

/-- The date with these numbers, if there is one. -/
def of? (year : Int) (month day : Nat) : Option Date :=
  if h : (-262143 ≤ year ∧ year ≤ 262142) ∧ (1 ≤ month ∧ month ≤ 12)
      ∧ (1 ≤ day ∧ day ≤ daysInMonth year month) then
    some ⟨year, month, day, h.1, h.2.1, h.2.2⟩
  else none

/-- The day after, unless it is past the last year. -/
def next? (d : Date) : Option Date :=
  if d.day < daysInMonth d.year d.month then of? d.year d.month (d.day + 1)
  else if d.month < 12 then of? d.year (d.month + 1) 1
  else of? (d.year + 1) 1 1

/-- The day before, unless it is before the first year. -/
def previous? (d : Date) : Option Date :=
  if 1 < d.day then of? d.year d.month (d.day - 1)
  else if 1 < d.month then of? d.year (d.month - 1) (daysInMonth d.year (d.month - 1))
  else of? (d.year - 1) 12 31

end Date

/-! ## Times of day -/

/-- A time of day; second 60 is a leap second and may occur in any minute. -/
structure TimeOfDay where
  hour : Nat
  minute : Nat
  second : Nat
  nano : Nat
  hour_lt : hour < 24
  minute_lt : minute < 60
  second_le : second ≤ 60
  nano_lt : nano < 1000000000
deriving DecidableEq

namespace TimeOfDay

/-- The time with these numbers, if there is one. -/
def of? (hour minute second nano : Nat) : Option TimeOfDay :=
  if h : hour < 24 ∧ minute < 60 ∧ second ≤ 60 ∧ nano < 1000000000 then
    some ⟨hour, minute, second, nano, h.1, h.2.1, h.2.2.1, h.2.2.2⟩
  else none

end TimeOfDay

/-- An instant in universal time. -/
structure Timestamp where
  date : Date
  time : TimeOfDay
deriving DecidableEq

namespace Timestamp

/-- Midnight of the first of January 1970. -/
def epoch : Timestamp where
  date := ⟨1970, 1, 1, by decide, by decide, by decide⟩
  time := ⟨0, 0, 0, 0, by decide, by decide, by decide, by decide⟩

instance : Inhabited Timestamp := ⟨epoch⟩

/-- The instant at which clocks `offset` minutes ahead of universal time show this date and time.
Offsets are less than a day, so the date moves by at most one day; seconds do not move. -/
def ofLocal? (date : Date) (time : TimeOfDay) (offset : Int) : Option Timestamp :=
  let minutes := 60 * (time.hour : Int) + time.minute - offset
  let clock (d : Date) (m : Int) : Option Timestamp :=
    (TimeOfDay.of? (m.toNat / 60) (m.toNat % 60) time.second time.nano).map (⟨d, ·⟩)
  if minutes < 0 then date.previous?.bind (clock · (minutes + 1440))
  else if minutes < 1440 then clock date minutes
  else date.next?.bind (clock · (minutes - 1440))

/-! ## Written form -/

/-- A year in four digits, with a sign if four digits cannot hold it. -/
def yearText (year : Int) : List Char :=
  if 0 ≤ year ∧ year ≤ 9999 then Text.ofNatPadded 4 year.toNat
  else (if year < 0 then '-' else '+') :: Text.ofNatPadded 4 year.natAbs

/-- Date and time down to the second, without a zone. -/
def secondsText (t : Timestamp) : List Char :=
  yearText t.date.year ++ '-' :: Text.ofNatPadded 2 t.date.month
    ++ '-' :: Text.ofNatPadded 2 t.date.day
    ++ 'T' :: Text.ofNatPadded 2 t.time.hour ++ ':' :: Text.ofNatPadded 2 t.time.minute
    ++ ':' :: Text.ofNatPadded 2 t.time.second

/-- The fraction of a second in the fewest groups of three digits that lose nothing. -/
def fractionText (nano : Nat) : List Char :=
  if nano = 0 then []
  else if nano % 1000000 = 0 then '.' :: Text.ofNatPadded 3 (nano / 1000000)
  else if nano % 1000 = 0 then '.' :: Text.ofNatPadded 6 (nano / 1000)
  else '.' :: Text.ofNatPadded 9 nano

def toChars (t : Timestamp) : List Char :=
  t.secondsText ++ fractionText t.time.nano ++ ['Z']

/-- The exact form, as it is stored. -/
def toText (t : Timestamp) : String :=
  String.ofList t.toChars

/-- The form for people: fractions of a second are cut off. -/
def toShortText (t : Timestamp) : String :=
  String.ofList (t.secondsText ++ ['Z'])

/-! ## Reading

Every reader takes the text that is left and gives a value with the text left after it. -/

/-- A number of at least one and at most `width` digits, after any blanks. -/
def number? (width : Nat) (cs : List Char) : Option (Nat × List Char) :=
  let cs := Text.trimStart cs
  let digits := (cs.take width).takeWhile Char.isDigit
  if digits = [] then none else some (Text.decimalValue digits, cs.drop digits.length)

/-- A run of digits of any length, at least one. -/
def longNumber? (cs : List Char) : Option (Nat × List Char) :=
  let digits := cs.takeWhile Char.isDigit
  if digits = [] then none else some (Text.decimalValue digits, cs.dropWhile Char.isDigit)

/-- A year: up to four digits, or a sign and any number of digits. -/
def year? (cs : List Char) : Option (Int × List Char) :=
  match Text.trimStart cs with
  | '-' :: r => (longNumber? r).map fun (n, rest) => (-(n : Int), rest)
  | '+' :: r => (longNumber? r).map fun (n, rest) => ((n : Int), rest)
  | r => (number? 4 r).map fun (n, rest) => ((n : Int), rest)

/-- The rest after one given character, which blanks may precede. -/
def after? (c : Char) (cs : List Char) : Option (List Char) :=
  match Text.trimStart cs with
  | c' :: r => if c' = c then some r else none
  | [] => none

/-- An optional fraction, in nanoseconds: digits past the ninth are dropped. -/
def fraction? (cs : List Char) : Option (Nat × List Char) :=
  match cs with
  | '.' :: r =>
    let digits := r.takeWhile Char.isDigit
    let kept := digits.take 9
    if digits = [] then none
    else some (Text.decimalValue kept * Nat.pow 10 (9 - kept.length), r.dropWhile Char.isDigit)
  | _ => some (0, cs)

/-- Two digits at the very front. -/
def twoDigits? : List Char → Option (Nat × List Char)
  | a :: b :: r => if a.isDigit && b.isDigit then some (Text.decimalValue [a, b], r) else none
  | _ => none

/-- The size of a numeric offset in minutes: two digits of hours, then any colons and blanks, then
two digits of minutes.  It is less than a day. -/
def offsetSize? (cs : List Char) : Option (Nat × List Char) := do
  let (hours, r) ← twoDigits? cs
  let (minutes, r) ← twoDigits? (r.dropWhile fun c => c == ':' || Text.isBlank c)
  if minutes < 60 ∧ hours < 24 then some (60 * hours + minutes, r) else none

/-- An offset from universal time in minutes; the minus sign may be the typographic one. -/
def offset? (cs : List Char) : Option (Int × List Char) :=
  match cs with
  | 'Z' :: r | 'z' :: r => some (0, r)
  | '+' :: r => (offsetSize? r).map fun (n, rest) => ((n : Int), rest)
  | '-' :: r | '\u2212' :: r => (offsetSize? r).map fun (n, rest) => (-(n : Int), rest)
  | u :: t :: c :: r =>
    if u.toLower = 'u' ∧ t.toLower = 't' ∧ c.toLower = 'c' then some (0, r) else none
  | _ => none

/-- An instant in any accepted spelling. -/
def ofChars? (cs : List Char) : Option Timestamp := do
  let (year, r) ← year? cs
  let r ← after? '-' r
  let (month, r) ← number? 2 r
  let r ← after? '-' r
  let (day, r) ← number? 2 r
  let r ← match r with
    | 'T' :: r | 't' :: r | ' ' :: r => some r
    | _ => none
  let (hour, r) ← number? 2 r
  let r ← after? ':' r
  let (minute, r) ← number? 2 r
  let r ← after? ':' r
  let (second, r) ← number? 2 r
  let (nano, r) ← fraction? r
  let (offset, r) ← offset? (Text.trimStart r)
  if Text.trimStart r = [] then
    ofLocal? (← Date.of? year month day) (← TimeOfDay.of? hour minute second nano) offset
  else none

def ofText? (text : String) : Option Timestamp :=
  ofChars? text.toList

end Timestamp
end TraceFold
