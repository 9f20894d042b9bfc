/-
  Reading JSON text. Arrays and objects may be nested 127 deep; blanks are the four of JSON. Of
  members with one name the last counts. A text is refused without a reason.
-/
import Interpolation.Json.Number
import Interpolation.Text.Hexadecimal

namespace Interpolation.Json

open Text

def isSpace (c : Char) : Bool := c == ' ' || c == '\n' || c == '\t' || c == '\r'

def skipSpaces (cs : List Char) : List Char := cs.dropWhile isSpace

/-- Four hexadecimal digits. -/
def hexWord? (cs : List Char) : Option (Nat × List Char) := hexNumber? 4 0 cs

/-- The character that two words of a surrogate pair stand for. -/
def surrogatePair? (high low : Nat) : Option Char :=
  if 0xD800 ≤ high ∧ high < 0xDC00 ∧ 0xDC00 ≤ low ∧ low < 0xE000 then
    some (Char.ofNat (0x10000 + (high - 0xD800) * 0x400 + (low - 0xDC00)))
  else none

/-- The character after a backslash and `u`: one word, or two that make up a surrogate pair. -/
def unicodeEscape (cs : List Char) : Option (Char × List Char) := do
  let (high, rest) ← hexWord? cs
  if high.isValidChar then some (Char.ofNat high, rest)
  else
    match rest with
    | '\\' :: 'u' :: rest =>
      let (low, rest) ← hexWord? rest
      (surrogatePair? high low).map (·, rest)
    | _ => none

/-- The character that a letter after a backslash stands for. -/
def letterEscape? : Char → Option Char
  | '"' => some '"'
  | '\\' => some '\\'
  | '/' => some '/'
  | 'b' => some '\x08'
  | 'f' => some '\x0c'
  | 'n' => some '\n'
  | 'r' => some '\r'
  | 't' => some '\t'
  | _ => none

/-- One character of a text between quotes, which does not end there. -/
def character : List Char → Option (Char × List Char)
  | '\\' :: 'u' :: cs => unicodeEscape cs
  | '\\' :: c :: cs => (letterEscape? c).map (·, cs)
  | c :: cs => if c < ' ' ∨ c = '\\' then none else some (c, cs)
  | [] => none

theorem length_hexWord? {cs rest : List Char} {n : Nat} (h : hexWord? cs = some (n, rest)) :
    rest.length < cs.length := by
  have := length_hexNumber? h
  omega

theorem length_unicodeEscape {cs rest : List Char} {c : Char}
    (h : unicodeEscape cs = some (c, rest)) : rest.length < cs.length := by
  obtain ⟨⟨high, rest₁⟩, h₁, h⟩ := Option.bind_eq_some_iff.1 h
  have hlt := length_hexWord? h₁
  dsimp only at h
  split at h
  · cases h
    exact hlt
  · split at h
    · obtain ⟨⟨low, rest₂⟩, h₂, h⟩ := Option.bind_eq_some_iff.1 h
      have hlt₂ := length_hexWord? h₂
      obtain ⟨_, _, h⟩ := Option.map_eq_some_iff.1 h
      cases h
      simp only [List.length_cons] at hlt ⊢
      omega
    · cases h

theorem length_character {cs rest : List Char} {c : Char} (h : character cs = some (c, rest)) :
    rest.length < cs.length := by
  unfold character at h
  split at h
  · have := length_unicodeEscape h
    simp only [List.length_cons]
    omega
  · obtain ⟨_, _, h⟩ := Option.map_eq_some_iff.1 h
    cases h
    simp only [List.length_cons]
    omega
  · split at h
    · cases h
    · cases h
      simp
  · cases h

/-- The characters up to the closing quote. -/
def characters (cs : List Char) : Option (List Char × List Char) :=
  match cs with
  | '"' :: rest => some ([], rest)
  | cs =>
    match _h : character cs with
    | none => none
    | some (c, rest) => (characters rest).map fun (text, rest) => (c :: text, rest)
termination_by cs.length
decreasing_by exact length_character _h

/-- A text after its opening quote. -/
def text (cs : List Char) : Option (String × List Char) :=
  (characters cs).map fun (text, rest) => (String.ofList text, rest)

/-- The given word at the beginning of a text. -/
def word (w : String) (v : Json) (cs : List Char) : Option (Json × List Char) :=
  if w.toList.isPrefixOf cs then some (v, cs.drop w.toList.length) else none

/-- A value that holds no others. -/
def scalar (cs : List Char) : Option (Json × List Char) :=
  match cs with
  | '"' :: rest => (text rest).map fun (s, rest) => (.str s, rest)
  | 'n' :: _ => word "null" .null cs
  | 't' :: _ => word "true" (.bool true) cs
  | 'f' :: _ => word "false" (.bool false) cs
  | cs => do
    let (n, rest) ← NumberText.read? cs
    some (← n.value?, rest)

/-- A member of an object. -/
def member (value : List Char → Option (Json × List Char)) (cs : List Char) :
    Option ((String × Json) × List Char) :=
  match skipSpaces cs with
  | '"' :: rest => do
    let (name, rest) ← text rest
    match skipSpaces rest with
    | ':' :: rest =>
      let (v, rest) ← value rest
      some ((name, v), rest)
    | _ => none
  | _ => none

/-- Items with commas between them, at least one, up to the closing character. -/
def items {α : Type} (item : List Char → Option (α × List Char)) (close : Char)
    (cs : List Char) : Option (List α × List Char) :=
  match item cs with
  | none => none
  | some (v, rest) =>
    match skipSpaces rest with
    | [] => none
    | c :: rest =>
      if c = close then some ([v], rest)
      else if _h : c = ',' ∧ rest.length < cs.length then
        (items item close rest).map fun (vs, rest) => (v :: vs, rest)
      else none
termination_by cs.length
decreasing_by exact _h.2

/-- Items between an opening character and the closing one, or none. -/
def sequence {α : Type} (item : List Char → Option (α × List Char)) (close : Char)
    (cs : List Char) : Option (List α × List Char) :=
  match skipSpaces cs with
  | c :: rest => if c = close then some ([], rest) else items item close cs
  | [] => none

/-- A value in which others are nested at most `depth` deep. -/
def value : Nat → List Char → Option (Json × List Char)
  | 0, cs => scalar (skipSpaces cs)
  | depth + 1, cs =>
    match skipSpaces cs with
    | '[' :: rest => (sequence (value depth) ']' rest).map fun (vs, rest) => (.array vs, rest)
    | '{' :: rest =>
      (sequence (member (value depth)) '}' rest).map fun (ms, rest) => (ofMembers ms, rest)
    | cs => scalar cs

/-- How deep arrays and objects may be nested. -/
def maxDepth : Nat := 127

/-- The value that a whole text spells. -/
def parse? (s : String) : Option Json := do
  let (v, rest) ← value maxDepth s.toList
  if (skipSpaces rest).isEmpty then some v else none

end Interpolation.Json
