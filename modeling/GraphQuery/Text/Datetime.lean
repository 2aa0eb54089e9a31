/-!
# RFC 3339 datetimes

`isDatetime` holds of a full date, a separator, a time with an optional fraction of a second, and an
offset. The day exists in the calendar; a leap second is accepted at any time.
-/

namespace GraphQuery.Text

/-- A number of exactly `count` digits at the head of a text. -/
def digits? (count : Nat) (cs : List Char) : Option (Nat × List Char) :=
  let ds := cs.take count
  if ds.length = count ∧ ds.all Char.isDigit then
    some (ds.foldl (fun n c => 10 * n + (c.toNat - '0'.toNat)) 0, cs.drop count)
  else none

/-- One of the given characters at the head of a text. -/
def oneOf? (choices : List Char) : List Char → Option (List Char)
  | c :: rest => if choices.contains c then some rest else none
  | [] => none

def isLeapYear (year : Nat) : Bool := year % 4 == 0 && (year % 100 != 0 || year % 400 == 0)

/-- The number of days of a month, 0 for a number that is no month. -/
def daysInMonth (year month : Nat) : Nat :=
  if month = 2 then (if isLeapYear year then 29 else 28)
  else if [4, 6, 9, 11].contains month then 30
  else if 1 ≤ month ∧ month ≤ 12 then 31
  else 0

/-- A calendar date at the head of a text. -/
def date? (cs : List Char) : Option (List Char) := do
  let (year, cs) ← digits? 4 cs
  let cs ← oneOf? ['-'] cs
  let (month, cs) ← digits? 2 cs
  let cs ← oneOf? ['-'] cs
  let (day, cs) ← digits? 2 cs
  if 1 ≤ day ∧ day ≤ daysInMonth year month then some cs else none

/-- The fraction of a second, at least one digit behind a point. -/
def fraction? (cs : List Char) : Option (List Char) :=
  match cs with
  | '.' :: c :: rest => if c.isDigit then some (rest.dropWhile Char.isDigit) else none
  | ['.'] => none
  | _ => some cs

/-- A time of day at the head of a text. -/
def time? (cs : List Char) : Option (List Char) := do
  let (hour, cs) ← digits? 2 cs
  let cs ← oneOf? [':'] cs
  let (minute, cs) ← digits? 2 cs
  let cs ← oneOf? [':'] cs
  let (second, cs) ← digits? 2 cs
  if hour ≤ 23 ∧ minute ≤ 59 ∧ second ≤ 60 then fraction? cs else none

/-- `Z`, or hours and minutes behind a sign; U+2212 is a minus too. -/
def offset? (cs : List Char) : Option (List Char) :=
  (oneOf? ['Z', 'z'] cs) <|> do
    let cs ← oneOf? ['+', '-', '\u2212'] cs
    let (hour, cs) ← digits? 2 cs
    let cs ← oneOf? [':'] cs
    let (minute, cs) ← digits? 2 cs
    if hour ≤ 23 ∧ minute ≤ 59 then some cs else none

/-- A datetime in the form of RFC 3339, with nothing before or behind it. -/
def isDatetime (s : String) : Bool :=
  (do
    let cs ← date? s.toList
    let cs ← oneOf? ['T', 't', ' '] cs
    let cs ← time? cs
    offset? cs) == some []

end GraphQuery.Text
