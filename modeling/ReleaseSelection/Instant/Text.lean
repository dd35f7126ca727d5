import ReleaseSelection.Instant
import ReleaseSelection.Text

/-!
# Dates as text

Instants are written in UTC after RFC 3339 with the fewest of 0, 3, 6 or 9 digits of a second's
fraction that lose nothing. Reading takes any offset and is lenient about blanks and about the
number of digits.
-/

namespace ReleaseSelection.Instant

open Text

def yearText (year : Int) : List Char :=
  if 0 ≤ year ∧ year ≤ 9999 then decimalPadded 4 year.toNat
  else (if year < 0 then '-' else '+') :: decimalPadded 4 year.natAbs

def fractionText (nano : Nat) : List Char :=
  if nano = 0 then []
  else if nano % 1000000 = 0 then '.' :: decimalPadded 3 (nano / 1000000)
  else if nano % 1000 = 0 then '.' :: decimalPadded 6 (nano / 1000)
  else '.' :: decimalPadded 9 nano

/-- A leap second is written as the second after its `second` in the same minute. -/
def text (t : Instant) : String :=
  let date := Calendar.Date.ofDay (t.second / secondsPerDay + 719162)
  let clock := t.secondOfDay.toNat
  let second := clock % 60 + t.nano / nanosPerSecond
  String.ofList
    (yearText date.year ++ '-' :: decimalPadded 2 date.month ++ '-' ::
      decimalPadded 2 date.day.toNat ++ 'T' :: decimalPadded 2 (clock / 3600) ++ ':' ::
      decimalPadded 2 (clock / 60 % 60) ++ ':' :: decimalPadded 2 second ++
      fractionText (t.nano % nanosPerSecond) ++ ['Z'])

/-- Reads at least one and at most `limit` digits. -/
def readNumber (limit : Nat) (cs : List Char) : Option (Nat × List Char) :=
  let ds := (cs.take limit).takeWhile isDigit
  (readDecimal? ds).map (·, cs.drop ds.length)

def readMark (mark : Char) : List Char → Option (List Char)
  | [] => none
  | c :: cs => if c = mark then some cs else none

/-- Four digits at most, or any number of them after a sign. -/
def readYear (cs : List Char) : Option (Int × List Char) :=
  match cs with
  | '-' :: cs => (readNumber cs.length cs).map fun p => (-p.1, p.2)
  | '+' :: cs => (readNumber cs.length cs).map fun p => (p.1, p.2)
  | cs => (readNumber 4 cs).map fun p => (p.1, p.2)

def readDate (cs : List Char) : Option (Calendar.Date × List Char) := do
  let (year, cs) ← readYear (trimStart cs)
  let cs ← readMark '-' (trimStart cs)
  let (month, cs) ← readNumber 2 (trimStart cs)
  let cs ← readMark '-' (trimStart cs)
  let (day, cs) ← readNumber 2 (trimStart cs)
  let date : Calendar.Date := ⟨year, month, day⟩
  if date.isValid && -262143 ≤ year && year ≤ 262142 then some (date, cs) else none

/-- Nine digits of the fraction count, further ones are dropped. -/
def readFraction (cs : List Char) : Option (Nat × List Char) :=
  match cs with
  | '.' :: cs => do
    let (n, rest) ← readNumber 9 cs
    some (n * Nat.pow 10 (9 - (cs.length - rest.length)), rest.dropWhile isDigit)
  | cs => some (0, cs)

/-- The second of the day and the nanoseconds; a sixtieth second is a leap second. -/
def readClock (cs : List Char) : Option (Int × Nat × List Char) := do
  let (hour, cs) ← readNumber 2 (trimStart cs)
  let cs ← readMark ':' (trimStart cs)
  let (minute, cs) ← readNumber 2 (trimStart cs)
  let cs ← readMark ':' (trimStart cs)
  let (second, cs) ← readNumber 2 (trimStart cs)
  let (nano, cs) ← readFraction cs
  if 23 < hour ∨ 59 < minute ∨ 60 < second then none
  else if second = 60 then
    some (hour * 3600 + minute * 60 + 59, nanosPerSecond + nano, cs)
  else some (hour * 3600 + minute * 60 + second, nano, cs)

/-- Exactly two digits. -/
def readPair : List Char → Option (Nat × List Char)
  | c :: d :: cs => do some (10 * (← digit? c) + (← digit? d), cs)
  | _ => none

def readShift (cs : List Char) : Option (Int × List Char) := do
  let (hour, cs) ← readPair cs
  let (minute, cs) ← readPair (cs.dropWhile fun c => c == ':' || isBlank c)
  if 59 < minute ∨ 23 < hour then none else some (hour * 3600 + minute * 60, cs)

/-- The seconds by which a local clock is ahead of UTC. -/
def readOffset (cs : List Char) : Option (Int × List Char) :=
  match cs with
  | 'Z' :: cs | 'z' :: cs => some (0, cs)
  | '+' :: cs => readShift cs
  | '-' :: cs | '−' :: cs => (readShift cs).map fun p => (-p.1, p.2)
  | cs => if (cs.take 3).map Char.toLower = ['u', 't', 'c'] then some (0, cs.drop 3) else none

def readSeparator : List Char → Option (List Char)
  | c :: cs => if c = 'T' ∨ c = 't' ∨ c = ' ' then some cs else none
  | [] => none

def ofText? (s : String) : Option Instant := do
  let (date, cs) ← readDate s.toList
  let cs ← readSeparator cs
  let (clock, nano, cs) ← readClock cs
  let (offset, cs) ← readOffset (trimStart cs)
  let second := (date.toDay - 719162) * secondsPerDay + clock - offset
  if (trimStart cs).isEmpty && isRepresentable second then some ⟨second, nano⟩ else none

end ReleaseSelection.Instant
