/-
This file holds days of the calendar and moments of a day, as documents write them. The calendar of
today counts for all years from 1 to 9999.
-/

namespace ChipEight

/-- A day of the calendar. -/
structure Date where
  year : Nat
  month : Nat
  day : Nat
  deriving DecidableEq, Repr

/-- A moment of a day, to the millionth of a second. `ahead` is the count of minutes that its clock is
ahead of world time, where that is known. -/
structure Moment where
  date : Date
  hour : Nat
  minute : Nat
  second : Nat
  millionths : Nat
  ahead : Option Int
  deriving DecidableEq, Repr

namespace Calendar

/-- Why numbers are no day or no moment. -/
inductive Problem where
  | year (number : Nat)
  | month
  | day
  | hour
  | minute
  | second
  | ahead (minutes : Int)
  deriving DecidableEq, Repr

/-- A length of time as whole days and the seconds that are left over, which are not negative. -/
def lengthText (minutes : Int) : String :=
  let days := minutes / 1440
  let seconds := minutes % 1440 * 60
  let parts := (if days == 0 then [] else ["days=" ++ toString days]) ++
    (if seconds == 0 then [] else ["seconds=" ++ toString seconds])
  "datetime.timedelta(" ++ (if parts.isEmpty then "0" else ", ".intercalate parts) ++ ")"

def Problem.text : Problem → String
  | year number => "year " ++ toString number ++ " is out of range"
  | month => "month must be in 1..12"
  | day => "day is out of range for month"
  | hour => "hour must be in 0..23"
  | minute => "minute must be in 0..59"
  | second => "second must be in 0..59"
  | ahead minutes =>
      "offset must be a timedelta strictly between -timedelta(hours=24) and timedelta(hours=24), not " ++
        lengthText minutes ++ "."

/-- Every fourth year has a day more, except for three of four full centuries. -/
def isLeap (year : Nat) : Bool :=
  year % 4 == 0 && (year % 100 != 0 || year % 400 == 0)

/-- The count of the days of a month. -/
def monthLength (year month : Nat) : Nat :=
  if month == 2 then (if isLeap year then 29 else 28)
  else if month ∈ [4, 6, 9, 11] then 30
  else 31

/-- The decimal digits of a number, with zeros before them up to `width`. -/
def digits (width number : Nat) : String :=
  let text := toString number
  String.ofList (List.replicate (width - text.length) '0') ++ text

end Calendar

namespace Date

open Calendar

/-- The day of three numbers, if they name one. -/
def make (year month day : Nat) : Except Problem Date :=
  if year < 1 || 9999 < year then .error (.year year)
  else if month < 1 || 12 < month then .error .month
  else if day < 1 || monthLength year month < day then .error .day
  else .ok ⟨year, month, day⟩

/-- The count of the days before the first of a year, from the year 1 on. -/
def daysBeforeYear (year : Nat) : Nat :=
  let past := year - 1
  365 * past + past / 4 - past / 100 + past / 400

/-- The number of a day, which counts the first day of the year 1 as one. -/
def number (date : Date) : Nat :=
  let months := (List.range (date.month - 1)).map fun index => monthLength date.year (index + 1)
  daysBeforeYear date.year + months.foldl (· + ·) 0 + date.day

/-- The plain text of a day. -/
def text (date : Date) : String :=
  digits 4 date.year ++ "-" ++ digits 2 date.month ++ "-" ++ digits 2 date.day

/-- The numbers of a day. -/
def fields (date : Date) : List Nat := [date.year, date.month, date.day]

/-- The text of a day that shows its kind. -/
def quoted (date : Date) : String :=
  "datetime.date(" ++ ", ".intercalate (date.fields.map toString) ++ ")"

end Date

namespace Moment

open Calendar

/-- The moment of a day, if the numbers of its clock name one. -/
def make (date : Date) (hour minute second millionths : Nat) (ahead : Option Int) :
    Except Problem Moment :=
  if 23 < hour then .error .hour
  else if 59 < minute then .error .minute
  else if 59 < second then .error .second
  else .ok ⟨date, hour, minute, second, millionths, ahead⟩

/-- A clock is less than a day ahead of world time or behind it. -/
def checkAhead (minutes : Int) : Except Problem Int :=
  if minutes.natAbs < 1440 then .ok minutes else .error (.ahead minutes)

/-- The place of a moment on its own clock, in millionths of a second. -/
def ticks (moment : Moment) : Int :=
  (((moment.date.number * 24 + moment.hour) * 60 + moment.minute) * 60 + moment.second) * 1000000 +
    moment.millionths

/-- The place of a moment in world time, if that is known. -/
def worldTicks? (moment : Moment) : Option Int :=
  moment.ahead.map fun minutes => moment.ticks - minutes * 60000000

/-- How far a clock is ahead, in hours and minutes after a sign. -/
def aheadText (minutes : Int) : String :=
  (if minutes < 0 then "-" else "+") ++ digits 2 (minutes.natAbs / 60) ++ ":" ++
    digits 2 (minutes.natAbs % 60)

/-- The plain text of a moment. -/
def text (moment : Moment) : String :=
  moment.date.text ++ " " ++ digits 2 moment.hour ++ ":" ++ digits 2 moment.minute ++ ":" ++
    digits 2 moment.second ++
    (if moment.millionths == 0 then "" else "." ++ digits 6 moment.millionths) ++
    ((moment.ahead.map aheadText).getD "")

/-- The text of a clock that shows its kind. -/
def aheadQuoted (minutes : Int) : String :=
  "tzinfo=datetime.timezone" ++
    (if minutes == 0 then ".utc" else "(" ++ lengthText minutes ++ ")")

/-- The text of a moment that shows its kind. Seconds and smaller parts are left out if they are
zero. -/
def quoted (moment : Moment) : String :=
  let clock := [moment.hour, moment.minute] ++
    (if moment.millionths != 0 then [moment.second, moment.millionths]
      else if moment.second != 0 then [moment.second]
      else [])
  "datetime.datetime(" ++
    ", ".intercalate ((moment.date.fields ++ clock).map toString ++
      (moment.ahead.map aheadQuoted).toList) ++ ")"

end Moment

end ChipEight
