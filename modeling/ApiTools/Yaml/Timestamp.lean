import ApiTools.Text.Basic

/-!
# Dates and times

A day of the calendar, perhaps with a time of day down to millionths of a second and perhaps with
a distance from universal time of less than a day.
-/

namespace ApiTools

namespace Yaml

/-- A time of day. -/
structure TimeOfDay where
  hour : Nat
  minute : Nat
  second : Nat
  micros : Nat
  /-- The distance from universal time in minutes, if it is known. -/
  offset : Option Int
deriving DecidableEq

/-- A day, and perhaps a time of day. -/
structure Timestamp where
  year : Nat
  month : Nat
  day : Nat
  time : Option TimeOfDay
deriving DecidableEq

namespace Timestamp

/-- A number of at least `least` and at most `most` digits, and what follows it. -/
def number? (least most : Nat) (t : Text) : Option (Nat × Text) :=
  let digits := (t.take most).takeWhile CodePoint.isAsciiDigit
  if least ≤ digits.length then some (Text.digitsValue digits, t.drop digits.length) else none

/-- What follows a given character. -/
def behind? (c : Char) : Text → Option Text
  | [] => none
  | d :: rest => if d = c then some rest else none

/-- Spaces and tabs. -/
def isSpaceOrTab (c : CodePoint) : Bool := c == ' ' || c == '\t'

/-- The end of a text, or a line break before it. -/
def isEnd (t : Text) : Bool := t == [] || t == ("\n" : Text)

/-- A number of millionths from the digits behind the point. -/
def micros (digits : Text) : Nat :=
  let kept := digits.take 6
  Text.digitsValue kept * Nat.pow 10 (6 - kept.length)

/-- A distance from universal time, in minutes. -/
def offset? (t : Text) : Option (Option Int × Text) :=
  match t with
  | [] => none
  | c :: rest =>
    if c = 'Z' then some (some 0, rest)
    else if c = '-' ∨ c = '+' then do
      let (hours, rest) ← number? 1 2 rest
      let (minutes, rest) :=
        match behind? ':' rest with
        | some rest' => (number? 2 2 rest').getD (0, rest)
        | none => (0, rest)
      let total : Int := 60 * hours + minutes
      return (some (if c = '-' then -total else total), rest)
    else none

/-- A time of day at the end of a text. -/
def time? (t : Text) : Option TimeOfDay := do
  let t ←
    match t with
    | c :: rest =>
      if c = 'T' ∨ c = 't' then some rest
      else if isSpaceOrTab c then some (rest.dropWhile isSpaceOrTab)
      else none
    | [] => none
  let (hour, t) ← number? 1 2 t
  let (minute, t) ← number? 2 2 (← behind? ':' t)
  let (second, t) ← number? 2 2 (← behind? ':' t)
  let (digits, t) :=
    match behind? '.' t with
    | some rest => rest.span CodePoint.isAsciiDigit
    | none => ([], t)
  let (offset, t) := (offset? (t.dropWhile isSpaceOrTab)).getD (none, t)
  if isEnd t then some ⟨hour, minute, second, micros digits, offset⟩ else none

/-- The date that a text is in the form of, whether or not the calendar has it. -/
def ofText? (t : Text) : Option Timestamp := do
  let (year, t) ← number? 4 4 t
  let (month, t) ← number? 1 2 (← behind? '-' t)
  let (day, t) ← number? 1 2 (← behind? '-' t)
  if isEnd t then return ⟨year, month, day, none⟩
  else return ⟨year, month, day, some (← time? t)⟩

/-- Does a year have a day more? -/
def isLeapYear (year : Nat) : Bool := year % 4 == 0 && (year % 100 != 0 || year % 400 == 0)

/-- The number of days of a month. -/
def daysInMonth (year month : Nat) : Nat :=
  if month = 2 then (if isLeapYear year then 29 else 28)
  else if month ∈ [4, 6, 9, 11] then 30
  else 31

/-- A span of minutes as a literal, in days and the seconds that remain. -/
def spanText (minutes : Int) : Text :=
  let days := minutes / (24 * 60)
  let seconds := minutes % (24 * 60) * 60
  let shown := [(Text.ofString "days=", days), ("seconds=", seconds)].filter (·.2 ≠ 0)
  "datetime.timedelta("
    ++ Text.join ", " (shown.map fun (name, n) ↦ name ++ Text.ofInt n) ++ ")"

/-- What is wrong with a distance from universal time. -/
def offsetFlaw? (minutes : Int) : Option Text :=
  if minutes.natAbs < 24 * 60 then none
  else some ("offset must be a timedelta strictly between -timedelta(hours=24) and "
    ++ "timedelta(hours=24), not " ++ spanText minutes ++ ".")

/-- What is wrong with a time that the clock does not have. -/
def timeFlaw? (t : TimeOfDay) : Option Text :=
  if 24 ≤ t.hour then some "hour must be in 0..23"
  else if 60 ≤ t.minute then some "minute must be in 0..59"
  else if 60 ≤ t.second then some "second must be in 0..59"
  else none

/-- What is wrong with a day that the calendar does not have. -/
def dayFlaw? (t : Timestamp) : Option Text :=
  if t.year = 0 then some "year 0 is out of range"
  else if t.month = 0 ∨ 12 < t.month then some "month must be in 1..12"
  else if t.day = 0 ∨ daysInMonth t.year t.month < t.day then
    some "day is out of range for month"
  else none

/-- What is wrong with a date, if something is. -/
def flaw? (t : Timestamp) : Option Text :=
  ((t.time.bind (·.offset)).bind offsetFlaw?).or (t.dayFlaw?.or (t.time.bind timeFlaw?))

/-- A number with zeros before it. -/
def padded (width n : Nat) : Text :=
  let digits := Text.ofNat n
  List.replicate (width - digits.length) (CodePoint.ofChar '0') ++ digits

/-- A distance from universal time as it is shown. -/
def offsetText (minutes : Int) : Text :=
  let n := minutes.natAbs
  (if minutes < 0 then ("-" : Text) else "+") ++ padded 2 (n / 60) ++ ":" ++ padded 2 (n % 60)

/-- A time of day as it is shown. Millionths are left out when there are none. -/
def timeText (t : TimeOfDay) : Text :=
  padded 2 t.hour ++ ":" ++ padded 2 t.minute ++ ":" ++ padded 2 t.second
    ++ (if t.micros = 0 then ([] : Text) else "." ++ padded 6 t.micros)
    ++ ((t.offset.map offsetText).getD [])

/-- A date as it is shown. -/
def text (t : Timestamp) : Text :=
  padded 4 t.year ++ "-" ++ padded 2 t.month ++ "-" ++ padded 2 t.day
    ++ (match t.time with
      | some time => (" " : Text) ++ timeText time
      | none => ([] : Text))

/-- The numbers of a time of day in a literal. Zeros at the end of the seconds and of the millionths
are left out. -/
def timeNumbers (t : TimeOfDay) : List Nat :=
  let behind := if t.micros ≠ 0 then [t.second, t.micros]
    else if t.second ≠ 0 then [t.second] else []
  t.hour :: t.minute :: behind

/-- A distance from universal time as a literal. -/
def offsetLiteral (minutes : Int) : Text :=
  if minutes = 0 then ", tzinfo=datetime.timezone.utc"
  else ", tzinfo=datetime.timezone(" ++ spanText minutes ++ ")"

/-- A date as a literal. -/
def literal (t : Timestamp) : Text :=
  let day := [t.year, t.month, t.day]
  let listed (numbers : List Nat) : Text := Text.join ", " (numbers.map Text.ofNat)
  match t.time with
  | none => "datetime.date(" ++ listed day ++ ")"
  | some time =>
    "datetime.datetime(" ++ listed (day ++ timeNumbers time)
      ++ ((time.offset.map offsetLiteral).getD []) ++ ")"

end Timestamp

end Yaml

end ApiTools
