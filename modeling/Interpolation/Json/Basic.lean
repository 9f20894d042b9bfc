/-
  JSON values. An integer is kept exactly if it fits a word of 64 bits, signed or unsigned; any
  other number is a binary64 number. The members of an object have distinct names.
-/
import Interpolation.Binary64

namespace Interpolation

inductive Json where
  | null
  | bool (b : Bool)
  | integer (n : Int)
  | float (x : Binary64)
  | str (s : String)
  | array (items : List Json)
  | object (members : List (String × Json))

namespace Json

/-- A member put into its place among members with ascending names; it replaces an equal name. -/
def putMember (name : String) (v : Json) : List (String × Json) → List (String × Json)
  | [] => [(name, v)]
  | (name', v') :: rest =>
    if name < name' then (name, v) :: (name', v') :: rest
    else if name = name' then (name, v) :: rest
    else (name', v') :: putMember name v rest

/-- The object of some members, by ascending name. Of two with one name the later counts. -/
def ofMembers (members : List (String × Json)) : Json :=
  .object (members.foldl (fun ms m => putMember m.1 m.2 ms) [])

end Json

end Interpolation
