import PlaylistRules.Calendar.Instant
import PlaylistRules.Text.Blank

/-!
# Reading instants

A reference time is given as a date or as a date and a time. Three patterns are tried in turn:
with a `T` between date and time, with blanks between them, and the date alone, which stands for
its first instant.

## Main definitions

* `Calendar.Part` : the parts of a pattern.
* `Calendar.Fields` : the numbers read so far.
* `Calendar.readParts?` : the reading of a text by a pattern.
* `Calendar.Instant.read?` : the reading of a reference time.
-/

namespace PlaylistRules.Calendar

/-- The parts of a pattern: a number, a character, or any run of blanks. -/
inductive Part where
  | year
  | month
  | day
  | hour
  | minute
  | second
  | mark (c : Char)
  | blanks
deriving DecidableEq, Repr

/-- The numbers of a date and a time of day as they are read. -/
structure Fields where
  year : Int := 0
  month : Nat := 0
  day : Nat := 0
  hour : Nat := 0
  minute : Nat := 0
  second : Nat := 0
deriving DecidableEq, Repr

/-- A number from the front of a text: its digits up to a given count, at least one. -/
def readNumber? (limit : Nat) (cs : List Char) : Option (Nat × List Char) :=
  let digits := (cs.take limit).takeWhile Char.isDigit
  if digits.isEmpty then none
  else some (Number.digitsFrom 0 digits, cs.drop digits.length)

/-- A year: any number of digits after a sign, or one to four digits without one. -/
def readYear? : List Char → Option (Int × List Char)
  | '-' :: cs => (readNumber? cs.length cs).map fun (n, rest) => (-(n : Int), rest)
  | '+' :: cs => (readNumber? cs.length cs).map fun (n, rest) => ((n : Int), rest)
  | cs => (readNumber? 4 cs).map fun (n, rest) => ((n : Int), rest)

/-- A number of one or two digits. -/
def readPair? (cs : List Char) : Option (Nat × List Char) :=
  readNumber? 2 cs

/-- One part of a pattern from the front of a text. Blanks may precede a number. -/
def readPart? (fields : Fields) (cs : List Char) : Part → Option (Fields × List Char)
  | .year => (readYear? (Text.dropBlanks cs)).map fun (y, rest) => ({ fields with year := y }, rest)
  | .month =>
    (readPair? (Text.dropBlanks cs)).map fun (n, rest) => ({ fields with month := n }, rest)
  | .day => (readPair? (Text.dropBlanks cs)).map fun (n, rest) => ({ fields with day := n }, rest)
  | .hour => (readPair? (Text.dropBlanks cs)).map fun (n, rest) => ({ fields with hour := n }, rest)
  | .minute =>
    (readPair? (Text.dropBlanks cs)).map fun (n, rest) => ({ fields with minute := n }, rest)
  | .second =>
    (readPair? (Text.dropBlanks cs)).map fun (n, rest) => ({ fields with second := n }, rest)
  | .mark c => match cs with
    | d :: rest => if d = c then some (fields, rest) else none
    | [] => none
  | .blanks => some (fields, Text.dropBlanks cs)

/-- The parts of a pattern in order, with nothing after the last one. -/
def readParts? (fields : Fields) : List Part → List Char → Option Fields
  | [], [] => some fields
  | [], _ :: _ => none
  | part :: parts, cs =>
    (readPart? fields cs part).bind fun (fields, rest) => readParts? fields parts rest

/-- Year, month and day with hyphens. -/
def datePattern : List Part :=
  [.year, .mark '-', .month, .mark '-', .day]

/-- Hour, minute and second with colons. -/
def timePattern : List Part :=
  [.hour, .mark ':', .minute, .mark ':', .second]

/-- The date of the numbers that were read. -/
def Fields.date? (fields : Fields) : Option Date :=
  Date.of? fields.year fields.month fields.day

/-- The instant of the numbers that were read. Second `60` is the leap second after `59`. -/
def Fields.instant? (fields : Fields) : Option Instant :=
  fields.date?.bind fun date =>
    if fields.second = 60 then Instant.of? date fields.hour fields.minute 59 1000000000
    else Instant.of? date fields.hour fields.minute fields.second 0

/-- A reference time from a text without blanks at its ends. -/
def readTrimmed? (cs : List Char) : Option Instant :=
  ((readParts? {} (datePattern ++ .mark 'T' :: timePattern) cs).bind Fields.instant?).or
    (((readParts? {} (datePattern ++ .blanks :: timePattern) cs).bind Fields.instant?).or
      (((readParts? {} datePattern cs).bind Fields.date?).map Instant.midnight))

/-- A reference time from a text. -/
def Instant.read? (text : String) : Option Instant :=
  readTrimmed? (Text.trim text.toList)

end PlaylistRules.Calendar
