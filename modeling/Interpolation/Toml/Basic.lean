/-
  TOML documents as trees of tables. A table remembers how it came about, since that decides what
  may still be added to it: a table with a header of its own takes no second one and no dotted
  keys from outside, one that a longer header implied may still get its header, and one in braces
  is closed. Changes fail without a reason.
-/
namespace Interpolation

/-- How a table came about. -/
inductive Origin where
  /-- by a header of its own; so counts the table of the whole document -/
  | header
  /-- by a header that goes on behind its key -/
  | implied
  /-- by a dotted key -/
  | dotted
  /-- in braces -/
  | inline
deriving DecidableEq, Repr

inductive Toml where
  | str (s : String)
  /-- a date, a time or both, in one spelling for all that are equal -/
  | moment (s : String)
  /-- a number or a truth value -/
  | plain
  | array (items : List Toml)
  | table (origin : Origin) (entries : List (String × Toml))
  /-- the tables with one repeated header, the last one first -/
  | tables (elements : List (List (String × Toml)))

namespace Toml

/-- The keys of a table with their values, in order. -/
abbrev Entries := List (String × Toml)

/-- Changes the value of a key, or adds one at the end. -/
def alter (key : String) (change : Option Toml → Option Toml) : Entries → Option Entries
  | [] => (change none).map fun v => [(key, v)]
  | (k, v) :: rest =>
    if k = key then (change (some v)).map fun v => (k, v) :: rest
    else (alter key change rest).map ((k, v) :: ·)

/-- Changes the table that a path of keys leads to, and makes those that are missing on the way.
A dotted path passes only through tables without a header. -/
def within (dotted : Bool) (change : Origin → Entries → Option Entries) :
    List String → Origin → Entries → Option Entries
  | [], origin, entries => change origin entries
  | key :: path, _, entries =>
    alter key (fun
      | none =>
        let origin := if dotted then .dotted else .implied
        (within dotted change path origin []).map (.table origin)
      | some (.table .inline _) => none
      | some (.table origin entries) =>
        if dotted && origin == .header then none
        else (within dotted change path origin entries).map (.table origin)
      | some (.tables (last :: earlier)) =>
        (within dotted change path .header last).map fun last => .tables (last :: earlier)
      | some _ => none) entries

/-- Adds a value under a key that is reached by a dotted path. The table there has to be made by
dotted keys, unless the path is empty. -/
def addDotted (path : List String) (key : String) (v : Toml) (entries : Entries) :
    Option Entries :=
  within true (fun origin entries =>
    if (origin == .dotted) == path.isEmpty then none
    else alter key (fun | none => some v | some _ => none) entries) path .header entries

/-- Adds a value to the table that the last header named. -/
def add (header path : List String) (key : String) (v : Toml) (entries : Entries) :
    Option Entries :=
  within false (fun _ => addDotted path key v) header .header entries

/-- Makes the table that a header names. -/
def openTable (path : List String) (key : String) (entries : Entries) : Option Entries :=
  within false (fun _ => alter key (fun
    | none => some (.table .header [])
    | some (.table .implied entries) => some (.table .header entries)
    | some _ => none)) path .header entries

/-- Makes one more of the tables that a repeated header names. -/
def openElement (path : List String) (key : String) (entries : Entries) : Option Entries :=
  within false (fun _ => alter key (fun
    | none => some (.tables [[]])
    | some (.tables elements) => some (.tables ([] :: elements))
    | some _ => none)) path .header entries

end Toml

end Interpolation
