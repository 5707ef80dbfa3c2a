/-!
# Dates and times in a configuration document

A date and time is written `YYYY-MM-DD`, `HH:MM[:SS[.fraction]]`, or a date and a time joined by `T`, `t` or a space,
the latter optionally followed by `Z`, `z` or an offset `+HH:MM` / `-HH:MM`. A text that the bare-value rules send here
is checked piece by piece, and the first piece out of place names what was expected there:

* first the shape (digits where digits belong, the separators between them),
* then the widths (four digits of year, two of everything else),
* then the ranges: months 01 to 12, days up to the length of the month (February has 29 days in a leap year), hours 00
  to 23, minutes 00 to 59, seconds 00 to 60, offset hours 00 to 23 and offset minutes 00 to 59.

The text of a problem is `invalid <part>, expected <what>`.
-/

namespace CommandEngine.Toml

/-- A piece of a date and time: a run of digits, or one mark. -/
inductive TimePiece where
  | digits (ds : List Char)
  | dash
  | colon
  | dot
  | delimiter
  | space
  | zulu
  | plus
  | other
  deriving DecidableEq, Repr, Inhabited

namespace TimePiece

/-- The pieces of a text. -/
def split : List Char → List TimePiece
  | [] => []
  | c :: rest =>
    if c.isDigit then
      let more := rest.takeWhile Char.isDigit
      .digits (c :: more) :: split (rest.drop more.length)
    else
      let piece : TimePiece :=
        match c with
        | '-' => .dash
        | ':' => .colon
        | '.' => .dot
        | 'T' | 't' => .delimiter
        | ' ' => .space
        | 'Z' | 'z' => .zulu
        | '+' => .plus
        | _ => .other
      piece :: split rest
termination_by cs => cs.length
decreasing_by all_goals simp only [List.length_drop, List.length_cons]; omega

end TimePiece

/-- The text of a problem with the part `what` of a date and time. -/
def timeProblem (what expected : String) : String :=
  "invalid " ++ what ++ ", expected " ++ expected

/-- The number written by decimal digits. -/
def digitsValue (ds : List Char) : Nat :=
  ds.foldl (fun n d => 10 * n + (d.toNat - '0'.toNat)) 0

/-- Whether a year is a leap year of the Gregorian calendar. -/
def isLeapYear (y : Nat) : Bool :=
  y % 4 = 0 ∧ (y % 100 ≠ 0 ∨ y % 400 = 0)

/-- The last day of a month, and how a problem names the days allowed. -/
def monthDays (year month : Nat) : Nat × String :=
  if month = 2 then (if isLeapYear year then (29, "day between 01 and 29") else (28, "day between 01 and 28"))
  else if month = 4 ∨ month = 6 ∨ month = 9 ∨ month = 11 then (30, "day between 01 and 30")
  else (31, "day between 01 and 31")

/-- Checks the digits of a date, given as year, month and day. -/
def checkDate (year month day : List Char) : Except String Unit := do
  if year.length ≠ 4 then throw (timeProblem "date" "a four-digit year (YYYY)")
  if month.length ≠ 2 then throw (timeProblem "date" "a two-digit month (MM)")
  if day.length ≠ 2 then throw (timeProblem "date" "a two-digit day (DD)")
  let m := digitsValue month
  if m < 1 ∨ m > 12 then throw (timeProblem "date" "month between 01 and 12")
  let (last, days) := monthDays (digitsValue year) m
  let d := digitsValue day
  if d < 1 ∨ d > last then throw (timeProblem "date" days)

/-- Reads a date after its year and dash; gives the pieces after it. -/
def readDate (year : List Char) : List TimePiece → Except String (List TimePiece)
  | .digits month :: rest =>
    match rest with
    | .dash :: rest =>
      match rest with
      | .digits day :: rest => do checkDate year month day; pure rest
      | _ => throw (timeProblem "date" "day")
    | _ => throw (timeProblem "date" "`-` (MM-DD)")
  | _ => throw (timeProblem "date" "month")

/-- Reads a time: hour, minute, and an optional second with an optional fraction; gives the pieces after it. -/
def readTime : List TimePiece → Except String (List TimePiece)
  | .digits hour :: rest =>
    match rest with
    | .colon :: rest =>
      match rest with
      | .digits minute :: rest => do
        let (second, rest) ← match rest with
          | .colon :: .digits second :: rest => pure (some second, rest)
          | .colon :: _ => throw (timeProblem "time" "second")
          | _ => pure (none, rest)
        let rest ← match second, rest with
          | some _, .dot :: .digits _ :: rest => pure rest
          | some _, .dot :: _ => throw (timeProblem "time" "nanosecond")
          | _, _ => pure rest
        if hour.length ≠ 2 then throw (timeProblem "time" "a two-digit hour (HH)")
        if minute.length ≠ 2 then throw (timeProblem "time" "a two-digit minute (MM)")
        if (second.map List.length).getD 2 ≠ 2 then throw (timeProblem "time" "a two-digit second (SS)")
        if digitsValue hour > 23 then throw (timeProblem "time" "hour between 00 and 23")
        if digitsValue minute > 59 then throw (timeProblem "time" "minute between 00 and 59")
        if (second.map digitsValue).getD 0 > 60 then throw (timeProblem "time" "second between 00 and 60")
        pure rest
      | _ => throw (timeProblem "time" "minute")
    | _ => throw (timeProblem "time" "`:` (HH:MM)")
  | _ => throw (timeProblem "time" "hour")

/-- Reads an optional offset after a date and time; gives the pieces after it. -/
def readOffset : List TimePiece → Except String (List TimePiece)
  | [] => pure []
  | .zulu :: rest => pure rest
  | sign :: rest =>
    if sign = .plus ∨ sign = .dash then
      match rest with
      | .digits hours :: rest =>
        match rest with
        | .colon :: rest =>
          match rest with
          | .digits minutes :: rest => do
            if hours.length ≠ 2 then throw (timeProblem "offset" "a two-digit hour (HH)")
            if minutes.length ≠ 2 then throw (timeProblem "offset" "a two-digit minute (MM)")
            if digitsValue hours > 23 then throw (timeProblem "offset" "hours between 00 and 23")
            if digitsValue minutes > 59 then throw (timeProblem "offset" "minutes between 00 and 59")
            pure rest
          | _ => throw (timeProblem "offset" "minute")
        | _ => throw (timeProblem "offset" "`:` (HH:MM)")
      | _ => throw (timeProblem "offset" "hour")
    else throw (timeProblem "offset" "`Z`, +OFFSET, -OFFSET")

/-- Checks a date and time written as `text`; the problem's text if it is not one. -/
def checkDatetime (text : List Char) : Except String Unit := do
  let pieces := TimePiece.split text
  let rest ← match pieces with
    | .digits year :: .dash :: rest => do
      let rest ← readDate year rest
      match rest with
      | [] => pure []
      | p :: more =>
        if p = .delimiter ∨ p = .space then do readOffset (← readTime more)
        else throw (timeProblem "date-time" "`T` between date and time")
    | .digits _ :: .colon :: _ => readTime pieces
    | _ => throw "invalid datetime, expected year or hour"
  if !rest.isEmpty then throw "invalid datetime"

end CommandEngine.Toml
