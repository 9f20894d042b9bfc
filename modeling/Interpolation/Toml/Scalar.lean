/-
  Numbers, truth values, dates and times of TOML. Of a date or a time the spelling is kept, with
  a capital `T` before the time, no more than nine places of a second and no zeros at their end.
-/
import Interpolation.Calendar.Date
import Interpolation.Binary64
import Interpolation.Text.Hexadecimal
import Interpolation.Toml.Basic

namespace Interpolation.Toml

open Text

/-- Digits, at least one, with single underscores between them, which are left out. -/
def digitRun (isDigit : Char → Bool) : List Char → Option (List Char × List Char)
  | [] => none
  | c :: cs => if isDigit c then some (more cs |>.map (c :: ·) id) else none
where
  /-- what may follow a digit -/
  more : List Char → List Char × List Char
    | '_' :: c :: cs =>
      if isDigit c then (more cs).map (c :: ·) id else ([], '_' :: c :: cs)
    | c :: cs => if isDigit c then (more cs).map (c :: ·) id else ([], c :: cs)
    | [] => ([], [])

/-- The number that digits of a base spell. -/
def natural (base : Nat) (ds : List Char) : Nat :=
  ds.foldl (fun n c => base * n + (hexValue? c).getD 0) 0

/-- An optional sign: whether it is a minus, and what follows it. -/
def sign : List Char → Bool × List Char
  | '-' :: cs => (true, cs)
  | '+' :: cs => (false, cs)
  | cs => (false, cs)

/-- A decimal integer without a sign. Only a lone zero begins with a zero. -/
def wholeDigits : List Char → Option (List Char × List Char)
  | '0' :: cs => some (['0'], cs)
  | cs => digitRun isAsciiDigit cs

/-- An integer with the mark of its base, up to a maximum. -/
def basedInteger (base : Nat) (isDigit : Char → Bool) (cs : List Char) :
    Option (Toml × List Char) := do
  let (ds, rest) ← digitRun isDigit cs
  if natural base ds ≤ maxSigned then some (.plain, rest) else none

/-- An integer that fits a signed word. -/
def integer? : List Char → Option (Toml × List Char)
  | '0' :: 'x' :: cs => basedInteger 16 (fun c => (hexValue? c).isSome) cs
  | '0' :: 'o' :: cs => basedInteger 8 (fun c => '0' ≤ c && c ≤ '7') cs
  | '0' :: 'b' :: cs => basedInteger 2 (fun c => c == '0' || c == '1') cs
  | cs => do
    let (negative, cs) := sign cs
    let (ds, rest) ← wholeDigits cs
    if natural 10 ds ≤ maxSigned + (if negative then 1 else 0) then some (.plain, rest) else none

/-- The exponent of a float, if there is one. -/
def exponent : List Char → Option (Int × List Char)
  | 'e' :: cs | 'E' :: cs => do
    let (negative, cs) := sign cs
    let (ds, rest) ← digitRun isAsciiDigit cs
    some (if negative then -natural 10 ds else natural 10 ds, rest)
  | cs => some (0, cs)

/-- The places of a float behind its point, if there is one. -/
def places : List Char → Option (List Char × List Char)
  | '.' :: cs => digitRun isAsciiDigit cs
  | cs => some ([], cs)

/-- The digits times a power of ten are beyond the largest binary64 number. -/
def isTooLarge (ds : List Char) (e : Int) : Bool :=
  let ds := ds.dropWhile (· == '0')
  let place := ds.length + e
  if ds.isEmpty || place < 309 then false
  else if 310 < place then true
  else
    Binary64.ofFraction false (natural 10 ds * Nat.pow 10 e.toNat) (Nat.pow 10 (-e).toNat) ==
      .infinity false

/-- A float in digits. One that is too large is refused if it is positive. -/
def digitFloat? (cs : List Char) : Option (Toml × List Char) := do
  let (negative, cs) := sign cs
  let (whole, afterWhole) ← wholeDigits cs
  let (fraction, afterPlaces) ← places afterWhole
  let (e, rest) ← exponent afterPlaces
  if rest.length = afterWhole.length then none
  else if !negative && isTooLarge (whole ++ fraction) (e - fraction.length) then none
  else some (.plain, rest)

/-- What follows the given word. -/
def word? (w : String) (cs : List Char) : Option (List Char) :=
  if w.toList.isPrefixOf cs then some (cs.drop w.toList.length) else none

/-- An infinity or a NaN. -/
def namedFloat? (cs : List Char) : Option (Toml × List Char) :=
  let cs := (sign cs).2
  ((word? "inf" cs).or (word? "nan" cs)).map (.plain, ·)

/-- A number of a fixed count of digits between two limits: its digits and what follows. -/
def fieldDigits (count low high : Nat) (cs : List Char) : Option (List Char × List Char) :=
  let ds := cs.take count
  if ds.length = count ∧ ds.all isAsciiDigit ∧ low ≤ natural 10 ds ∧ natural 10 ds ≤ high then
    some (ds, cs.drop count)
  else none

/-- What follows a character. -/
def mark? (c : Char) : List Char → Option (List Char)
  | x :: cs => if x = c then some cs else none
  | [] => none

/-- A date that the calendar has. -/
def date? (cs : List Char) : Option (List Char × List Char) := do
  let (year, cs) ← fieldDigits 4 0 9999 cs
  let (month, cs) ← fieldDigits 2 1 12 (← mark? '-' cs)
  let (day, cs) ← fieldDigits 2 1 31 (← mark? '-' cs)
  let leap := Calendar.isLeap (natural 10 year)
  let length ← (Calendar.monthLengths leap)[natural 10 month - 1]?
  if natural 10 day ≤ length then some (year ++ '-' :: month ++ '-' :: day, cs) else none

/-- The places of a second, behind a point. -/
def secondPlaces : List Char → List Char × List Char
  | '.' :: cs =>
    match digitsOnly cs with
    | [] => ([], '.' :: cs)
    | ds =>
      let kept := ((ds.take 9).reverse.dropWhile (· == '0')).reverse
      (if kept.isEmpty then [] else '.' :: kept, cs.drop ds.length)
  | cs => ([], cs)
where
  /-- the digits at the beginning -/
  digitsOnly (cs : List Char) : List Char := cs.takeWhile isAsciiDigit

def time? (cs : List Char) : Option (List Char × List Char) := do
  let (hour, cs) ← fieldDigits 2 0 23 cs
  let (minute, cs) ← fieldDigits 2 0 59 (← mark? ':' cs)
  let (second, cs) ← fieldDigits 2 0 60 (← mark? ':' cs)
  let (places, cs) := secondPlaces cs
  some (hour ++ ':' :: minute ++ ':' :: second ++ places, cs)

/-- The distance of a zone from the universal time. -/
def zone? : List Char → Option (List Char × List Char)
  | 'Z' :: cs | 'z' :: cs => some (['Z'], cs)
  | '+' :: cs => distance '+' cs
  | '-' :: cs => distance '-' cs
  | _ => none
where
  /-- hours and minutes; none at all counts as ahead -/
  distance (direction : Char) (cs : List Char) : Option (List Char × List Char) := do
    let (hours, cs) ← fieldDigits 2 0 23 cs
    let (minutes, cs) ← fieldDigits 2 0 59 (← mark? ':' cs)
    let direction := if natural 10 hours + natural 10 minutes = 0 then '+' else direction
    some (direction :: hours ++ ':' :: minutes, cs)

/-- A time of day behind a date, with its zone if there is one. -/
def timeBehindDate? : List Char → Option (List Char × List Char)
  | c :: cs => do
    if !(c == 'T' || c == 't' || c == ' ') then none
    let (time, cs) ← time? cs
    let (zone, cs) := (zone? cs).getD ([], cs)
    some ('T' :: time ++ zone, cs)
  | [] => none

/-- A date with or without a time, or a time alone. -/
def moment? (cs : List Char) : Option (Toml × List Char) :=
  let read :=
    match date? cs with
    | some (date, cs) =>
      let (time, cs) := (timeBehindDate? cs).getD ([], cs)
      some (date ++ time, cs)
    | none => time? cs
  read.map fun (spelling, cs) => (.moment (String.ofList spelling), cs)

/-- A value without quotes or brackets. -/
def scalar? (cs : List Char) : Option (Toml × List Char) :=
  ((word? "true" cs).or (word? "false" cs)).map (.plain, ·)
    |>.or (moment? cs) |>.or (digitFloat? cs) |>.or (namedFloat? cs) |>.or (integer? cs)

end Interpolation.Toml
