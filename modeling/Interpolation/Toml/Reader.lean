/-
  Reading TOML text line by line. A line is empty, opens a table by its header, or gives a key a
  value; a comment may end it. Values in brackets and braces may be nested 79 deep, and a key may
  have as many parts. A text is refused without a reason.
-/
import Interpolation.Toml.Scalar
import Interpolation.Toml.Text

namespace Interpolation.Toml

open Text

/-- How deep values may be nested, and how many parts a key may have. -/
def maxDepth : Nat := 79

/-- A comment behind its mark, up to the end of the line. -/
def skipComment (cs : List Char) : List Char := cs.dropWhile isPlain

/-- What follows the end of a line, before which only blanks and a comment may stand. -/
def lineEnd? (cs : List Char) : Option (List Char) :=
  let cs := match skipGaps cs with
    | '#' :: cs => skipComment cs
    | cs => cs
  match cs with
  | [] => some []
  | cs => lineBreak? cs

/-- What follows blanks, line breaks and comments. A comment that no line break ends stays. -/
def skipLines (cs : List Char) : List Char :=
  match skipBreaks cs with
  | '#' :: rest =>
    match lineBreak? (skipComment rest) with
    | some rest => if _h : rest.length < cs.length then skipLines rest else rest
    | none => '#' :: rest
  | rest => rest
termination_by cs.length

/-- A key within its limit of parts. -/
def limitedKey? (cs : List Char) : Option ((List String × String) × List Char) := do
  let ((path, key), rest) ← key? cs
  if path.length < maxDepth then some ((path, key), rest) else none

/-- The items of an array and its closing bracket. A comma may follow the last item. -/
def arrayItems (value : List Char → Option (Toml × List Char)) (cs : List Char) :
    Option (List Toml × List Char) :=
  match skipLines cs with
  | ']' :: rest => some ([], rest)
  | start =>
    match value start with
    | none => none
    | some (v, rest) =>
      match skipLines rest with
      | ']' :: rest => some ([v], rest)
      | ',' :: rest =>
        if _h : rest.length < cs.length then
          (arrayItems value rest).map fun (vs, rest) => (v :: vs, rest)
        else none
      | _ => none
termination_by cs.length

/-- A key with its value. -/
def pair? (value : List Char → Option (Toml × List Char)) (cs : List Char) :
    Option ((List String × String × Toml) × List Char) := do
  let ((path, key), rest) ← limitedKey? cs
  let rest ← mark? '=' rest
  let (v, rest) ← value (skipGaps rest)
  some ((path, key, v), rest)

/-- The pairs of a table in braces, at least one, and the closing brace. -/
def inlinePairs (value : List Char → Option (Toml × List Char)) (cs : List Char) :
    Option (List (List String × String × Toml) × List Char) :=
  match pair? value cs with
  | none => none
  | some (p, rest) =>
    match skipGaps rest with
    | '}' :: rest => some ([p], rest)
    | ',' :: rest =>
      if _h : rest.length < cs.length then
        (inlinePairs value rest).map fun (ps, rest) => (p :: ps, rest)
      else none
    | _ => none
termination_by cs.length

/-- A table in braces, behind the opening one. -/
def inlineTable? (value : List Char → Option (Toml × List Char)) (cs : List Char) :
    Option (Toml × List Char) := do
  let (pairs, rest) ← match skipGaps cs with
    | '}' :: rest => some ([], rest)
    | cs => inlinePairs value cs
  let entries ← pairs.foldlM (fun entries (path, key, v) => addDotted path key v entries) []
  some (.table .inline entries, rest)

/-- A value in which others are nested at most `depth` deep. -/
def value : Nat → List Char → Option (Toml × List Char)
  | depth, cs =>
    match depth, cs with
    | depth + 1, '[' :: cs => (arrayItems (value depth) cs).map fun (vs, cs) => (.array vs, cs)
    | depth + 1, '{' :: cs => inlineTable? (value depth) cs
    | _, '"' :: _ | _, '\'' :: _ =>
      (text? cs).map fun (content, cs) => (.str (String.ofList content), cs)
    | _, cs => scalar? cs

/-- A document up to some line: its entries, and the keys of the last header. -/
structure Draft where
  entries : Entries := []
  header : List String := []

namespace Draft

/-- A header behind its opening brackets, with the brackets that close it. -/
def header? (draft : Draft) (close : List Char)
    (make : List String → String → Entries → Option Entries) (cs : List Char) :
    Option (Draft × List Char) := do
  let ((path, key), rest) ← limitedKey? cs
  if close.isPrefixOf rest then
    let entries ← make path key draft.entries
    some ({ entries, header := path ++ [key] }, rest.drop close.length)
  else none

/-- What a line says, up to its end. -/
def statement? (draft : Draft) (cs : List Char) : Option (Draft × List Char) :=
  match cs with
  | [] | '#' :: _ | '\n' :: _ | '\r' :: _ => some (draft, cs)
  | '[' :: '[' :: cs => draft.header? [']', ']'] openElement cs
  | '[' :: cs => draft.header? [']'] openTable cs
  | cs => do
    let ((path, key, v), rest) ← pair? (value maxDepth) cs
    let entries ← add draft.header path key v draft.entries
    some ({ draft with entries }, rest)

/-- The entries of a document with some more lines. -/
def lines (draft : Draft) (cs : List Char) : Option Entries :=
  match cs with
  | [] => some draft.entries
  | cs =>
    match draft.statement? (skipGaps cs) with
    | none => none
    | some (draft, rest) =>
      match lineEnd? rest with
      | none => none
      | some rest => if _h : rest.length < cs.length then draft.lines rest else none
termination_by cs.length

end Draft

/-- The entries of the document that a text spells. A byte order mark before it is no part. -/
def parse? (s : String) : Option Entries :=
  match s.toList with
  | '\ufeff' :: cs => ({} : Draft).lines cs
  | cs => ({} : Draft).lines cs

end Interpolation.Toml
