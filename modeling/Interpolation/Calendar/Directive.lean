/-
  Directives: text that lays out a moment, in which a percent sign and a letter stand for a field
  and two percent signs for one. A percent sign before anything else is refused.
-/
import Interpolation.Calendar.Moment
import Interpolation.Text.Numeral

namespace Interpolation.Calendar

open Text

inductive Field where
  | year
  | month
  | day
  | hour
  | minute
  | second
deriving DecidableEq, Repr

/-- A field of a moment, or a character that stands for itself. -/
inductive Item where
  | field (f : Field)
  | char (c : Char)
deriving DecidableEq, Repr

namespace Field

/-- The field that a letter after a percent sign stands for. -/
def ofDirective? : Char → Option Field
  | 'Y' => some year
  | 'm' => some month
  | 'd' => some day
  | 'H' => some hour
  | 'M' => some minute
  | 'S' => some second
  | _ => none

end Field

/-- A year in four digits, with a sign if it is negative or takes more. -/
def yearText (year : Int) : List Char :=
  let digits := zeroFill 4 (Nat.toDigits 10 year.natAbs)
  if year < 0 then '-' :: digits else if 9999 < year then '+' :: digits else digits

def twoDigits (n : Nat) : List Char := zeroFill 2 (Nat.toDigits 10 n)

/-- A field of a moment as text. -/
def Field.text (m : Moment) : Field → List Char
  | year => yearText m.date.year
  | month => twoDigits m.date.month
  | day => twoDigits m.date.day
  | hour => twoDigits m.hour
  | minute => twoDigits m.minute
  | second => twoDigits m.shownSecond

def Item.text (m : Moment) : Item → List Char
  | field f => f.text m
  | char c => [c]

/-- The items of a directive text; none if it has a percent sign that starts no directive. -/
def items? : List Char → Option (List Item)
  | [] => some []
  | '%' :: '%' :: cs => (.char '%' :: ·) <$> items? cs
  | '%' :: c :: cs => do return .field (← Field.ofDirective? c) :: (← items? cs)
  | ['%'] => none
  | c :: cs => (.char c :: ·) <$> items? cs

/-- A moment laid out by a directive text. -/
def Moment.layOut? (m : Moment) (layout : List Char) : Option (List Char) :=
  (items? layout).map (·.flatMap (Item.text m))

/-- The layout of a moment that none was asked for: date and time of day. -/
def defaultLayout : String := "%Y-%m-%d %H:%M:%S"

/-- A moment laid out by a directive text; nothing if the text is refused. -/
def Moment.layOut (m : Moment) (layout : String) : String :=
  String.ofList ((m.layOut? layout.toList).getD [])

end Interpolation.Calendar
