/-!
# Dates and times of day

A date has a year from 1 to 9999 and a day that its month has. A moment adds the time of day to the
microsecond and, where it is known, the offset from universal time.
-/

namespace HomeProvision.Data

/-- Why numbers are no date, time or offset. -/
inductive CalendarError where
  | year (year : Nat)
  | month
  | day
  | hour
  | minute
  | second
  | offset (seconds : Int)
  deriving Repr, DecidableEq

/-- A day of the calendar. -/
structure Date where
  year : Nat
  month : Nat
  day : Nat
  deriving Repr, DecidableEq

/-- A day and the time of that day, with the offset from universal time in seconds. -/
structure Moment where
  date : Date
  hour : Nat
  minute : Nat
  second : Nat
  micro : Nat
  offset : Option Int
  deriving Repr, DecidableEq

/-- Whether February has 29 days. -/
def isLeapYear (year : Nat) : Bool :=
  year % 4 = 0 && (year % 100 ≠ 0 || year % 400 = 0)

/-- The number of days of a month. -/
def daysInMonth (year month : Nat) : Nat :=
  match month with
  | 2 => if isLeapYear year then 29 else 28
  | 4 | 6 | 9 | 11 => 30
  | _ => 31

/-- A date of the calendar, or the first of year, month and day that is out of range. -/
def Date.make (year month day : Nat) : Except CalendarError Date :=
  if year < 1 || 9999 < year then .error (.year year)
  else if month < 1 || 12 < month then .error .month
  else if day < 1 || daysInMonth year month < day then .error .day
  else .ok ⟨year, month, day⟩

/-- An offset from universal time, which must be less than a day. -/
def checkOffset (seconds : Int) : Except CalendarError Int :=
  if seconds.natAbs < 86400 then .ok seconds else .error (.offset seconds)

/-- A moment, or the first of its parts that is out of range. -/
def Moment.make (year month day hour minute second micro : Nat) (offset : Option Int) :
    Except CalendarError Moment := do
  let offset ← offset.mapM checkOffset
  let date ← Date.make year month day
  if 23 < hour then .error .hour
  else if 59 < minute then .error .minute
  else if 59 < second then .error .second
  else .ok ⟨date, hour, minute, second, micro, offset⟩

/-- A number filled up with zeros to a width. -/
def padNat (width n : Nat) : String :=
  let ds := (toString n).toList
  String.ofList (List.replicate (width - ds.length) '0' ++ ds)

/-- A span of seconds as whole days and the seconds of a day left over. -/
def durationText (seconds : Int) : String :=
  let days := seconds / 86400
  let rest := seconds % 86400
  let parts :=
    (if days = 0 then [] else ["days=" ++ toString days]) ++
      (if rest = 0 then [] else ["seconds=" ++ toString rest])
  "datetime.timedelta(" ++ (if parts.isEmpty then "0" else ", ".intercalate parts) ++ ")"

/-- The wording of an error. -/
def CalendarError.message : CalendarError → String
  | .year n => "year " ++ toString n ++ " is out of range"
  | .month => "month must be in 1..12"
  | .day => "day is out of range for month"
  | .hour => "hour must be in 0..23"
  | .minute => "minute must be in 0..59"
  | .second => "second must be in 0..59"
  | .offset span =>
      "offset must be a timedelta strictly between -timedelta(hours=24) and " ++
        "timedelta(hours=24), not " ++ durationText span ++ "."

/-- A date in the international form. -/
def Date.text (d : Date) : String :=
  padNat 4 d.year ++ "-" ++ padNat 2 d.month ++ "-" ++ padNat 2 d.day

/-- A date as it appears inside a shown value. -/
def Date.shown (d : Date) : String :=
  "datetime.date(" ++ ", ".intercalate [toString d.year, toString d.month, toString d.day] ++ ")"

/-- An offset as hours and minutes, and seconds where there are any. -/
def offsetText (seconds : Int) : String :=
  let n := seconds.natAbs
  (if seconds < 0 then "-" else "+") ++ padNat 2 (n / 3600) ++ ":" ++ padNat 2 (n / 60 % 60) ++
    (if n % 60 = 0 then "" else ":" ++ padNat 2 (n % 60))

/-- A moment in the international form, with a space before the time. -/
def Moment.text (m : Moment) : String :=
  m.date.text ++ " " ++ padNat 2 m.hour ++ ":" ++ padNat 2 m.minute ++ ":" ++ padNat 2 m.second ++
    (if m.micro = 0 then "" else "." ++ padNat 6 m.micro) ++
    (match m.offset with
    | none => ""
    | some seconds => offsetText seconds)

/-- A moment as it appears inside a shown value: seconds and microseconds only as far as needed. -/
def Moment.shown (m : Moment) : String :=
  let fine :=
    if m.micro ≠ 0 then [m.second, m.micro] else if m.second ≠ 0 then [m.second] else []
  let parts := ([m.date.year, m.date.month, m.date.day, m.hour, m.minute] ++ fine).map toString
  let zone :=
    match m.offset with
    | none => []
    | some 0 => ["tzinfo=datetime.timezone.utc"]
    | some seconds => ["tzinfo=datetime.timezone(" ++ durationText seconds ++ ")"]
  "datetime.datetime(" ++ ", ".intercalate (parts ++ zone) ++ ")"

/-- The days before a year in the calendar extended backwards. -/
def daysBeforeYear (year : Nat) : Nat :=
  let y := year - 1
  y * 365 + y / 4 - y / 100 + y / 400

/-- The number of a day, counted from the first day of the year 1. -/
def Date.ordinal (d : Date) : Nat :=
  daysBeforeYear d.year
    + (List.range (d.month - 1)).foldl (fun days m => days + daysInMonth d.year (m + 1)) 0
    + d.day

/-- The microseconds of a moment on the time line, at its offset or at none. -/
def Moment.instant (m : Moment) : Int :=
  ((((m.date.ordinal * 24 + m.hour : Nat) * 60 + m.minute : Nat) * 60 + m.second : Nat) -
    m.offset.getD 0) * 1000000 + m.micro

end HomeProvision.Data
