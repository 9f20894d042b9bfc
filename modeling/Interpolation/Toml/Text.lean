/-
  Text and keys of TOML: quoted with escapes or as it stands, on one line or on several. A text on
  several lines has three marks on either side; a line break right behind the first ones is no
  part of it, and every line break in it counts as a newline.
-/
import Interpolation.Text.Hexadecimal
import Interpolation.Text.Blank

namespace Interpolation.Toml

open Text

/-- A blank within a line. -/
def isGap (c : Char) : Bool := c == ' ' || c == '\t'

def skipGaps (cs : List Char) : List Char := cs.dropWhile isGap

/-- A character that may stand in a comment or a text: no control character but the tab. -/
def isPlain (c : Char) : Bool := c == '\t' || (' ' ≤ c && c != '\x7f')

/-- What follows a line break. -/
def lineBreak? : List Char → Option (List Char)
  | '\n' :: cs => some cs
  | '\r' :: '\n' :: cs => some cs
  | _ => none

/-- Blanks and line breaks. -/
def skipBreaks : List Char → List Char
  | '\n' :: cs => skipBreaks cs
  | '\r' :: '\n' :: cs => skipBreaks cs
  | ' ' :: cs => skipBreaks cs
  | '\t' :: cs => skipBreaks cs
  | cs => cs

/-- A code point of a fixed count of hexadecimal digits. -/
def codePoint? (count : Nat) (cs : List Char) : Option (Char × List Char) :=
  (hexNumber? count 0 cs).bind fun (n, rest) =>
    if n.isValidChar then some (Char.ofNat n, rest) else none

/-- The character that a letter behind a backslash stands for. -/
def letterEscape? : Char → Option Char
  | 'b' => some '\x08'
  | 'f' => some '\x0c'
  | 'n' => some '\n'
  | 'r' => some '\r'
  | 't' => some '\t'
  | '"' => some '"'
  | '\\' => some '\\'
  | _ => none

/-- The character that an escape stands for, behind its backslash. -/
def escaped : List Char → Option (Char × List Char)
  | 'u' :: cs => codePoint? 4 cs
  | 'U' :: cs => codePoint? 8 cs
  | c :: cs => (letterEscape? c).map (·, cs)
  | [] => none

theorem length_codePoint? {count : Nat} {cs rest : List Char} {c : Char}
    (h : codePoint? count cs = some (c, rest)) : rest.length ≤ cs.length := by
  obtain ⟨⟨n, rest'⟩, hn, h⟩ := Option.bind_eq_some_iff.1 h
  have := length_hexNumber? hn
  dsimp only at h
  split at h
  · cases h
    omega
  · cases h

theorem length_escaped {cs rest : List Char} {c : Char} (h : escaped cs = some (c, rest)) :
    rest.length < cs.length := by
  unfold escaped at h
  split at h
  · exact Nat.lt_succ_of_le (length_codePoint? h)
  · exact Nat.lt_succ_of_le (length_codePoint? h)
  · obtain ⟨_, _, h⟩ := Option.map_eq_some_iff.1 h
    cases h
    simp
  · cases h

theorem length_skipBreaks_le (cs : List Char) : (skipBreaks cs).length ≤ cs.length := by
  fun_induction skipBreaks cs <;> simp_all <;> omega

theorem length_lineBreak? {cs rest : List Char} (h : lineBreak? cs = some rest) :
    rest.length < cs.length := by
  unfold lineBreak? at h
  split at h <;> cases h <;> simp only [List.length_cons] <;> omega

/-- A quoted text on one line, behind its mark. -/
def quotedLine (cs : List Char) : Option (List Char × List Char) :=
  match cs with
  | [] => none
  | '"' :: rest => some ([], rest)
  | '\\' :: rest =>
    match _h : escaped rest with
    | none => none
    | some (c, rest) => (quotedLine rest).map fun (text, rest) => (c :: text, rest)
  | c :: rest =>
    if isPlain c then (quotedLine rest).map fun (text, rest) => (c :: text, rest) else none
termination_by cs.length
decreasing_by
  · have := length_escaped _h
    simp only [List.length_cons]
    omega
  · simp

/-- A text on one line without escapes, behind its mark. -/
def literalLine (cs : List Char) : Option (List Char × List Char) :=
  match cs.dropWhile (fun c => isPlain c && c != '\'') with
  | '\'' :: rest => some (cs.takeWhile (fun c => isPlain c && c != '\''), rest)
  | _ => none

/-- The end of a text on several lines. Up to two marks before the last three belong to it. -/
def closing? (mark : Char) (cs : List Char) : Option (List Char × List Char) :=
  let run := (cs.takeWhile (· == mark)).length
  if run < 3 then none
  else some (List.replicate (min (run - 3) 2) mark, cs.drop (min run 5))

/-- A quoted text on several lines. A backslash at the end of a line takes away the line break
and all blanks and line breaks behind it. -/
def quotedLines (cs : List Char) : Option (List Char × List Char) :=
  match closing? '"' cs with
  | some r => some r
  | none =>
    match cs with
    | [] => none
    | '\\' :: rest =>
      match _hb : lineBreak? (skipGaps rest) with
      | some next => quotedLines (skipBreaks next)
      | none =>
        match _he : escaped rest with
        | none => none
        | some (c, rest) => (quotedLines rest).map fun (text, rest) => (c :: text, rest)
    | c :: rest =>
      match _hl : lineBreak? (c :: rest) with
      | some rest => (quotedLines rest).map fun (text, rest) => ('\n' :: text, rest)
      | none =>
        if isPlain c then (quotedLines rest).map fun (text, rest) => (c :: text, rest) else none
termination_by cs.length
decreasing_by
  · have h₁ := length_lineBreak? _hb
    have h₂ := length_skipBreaks_le next
    have h₃ : (skipGaps rest).length ≤ rest.length := (List.dropWhile_suffix _).length_le
    simp only [List.length_cons]
    omega
  · have := length_escaped _he
    simp only [List.length_cons]
    omega
  · exact length_lineBreak? _hl
  · simp

/-- A text on several lines without escapes. -/
def literalLines (cs : List Char) : Option (List Char × List Char) :=
  match closing? '\'' cs with
  | some r => some r
  | none =>
    match cs with
    | [] => none
    | c :: rest =>
      match _hl : lineBreak? (c :: rest) with
      | some rest => (literalLines rest).map fun (text, rest) => ('\n' :: text, rest)
      | none =>
        if isPlain c then (literalLines rest).map fun (text, rest) => (c :: text, rest) else none
termination_by cs.length
decreasing_by
  · exact length_lineBreak? _hl
  · simp

/-- The text behind a line break right behind the opening marks. -/
def behindBreak (cs : List Char) : List Char := (lineBreak? cs).getD cs

/-- A text in any of the four forms. -/
def text? : List Char → Option (List Char × List Char)
  | '"' :: '"' :: '"' :: cs => quotedLines (behindBreak cs)
  | '"' :: cs => quotedLine cs
  | '\'' :: '\'' :: '\'' :: cs => literalLines (behindBreak cs)
  | '\'' :: cs => literalLine cs
  | _ => none

/-- A character of a key without quotes. -/
def isBare (c : Char) : Bool := c.isAlphanum || c == '-' || c == '_'

/-- A key on its own. -/
def simpleKey? (cs : List Char) : Option (List Char × List Char) :=
  match cs with
  | '"' :: cs => quotedLine cs
  | '\'' :: cs => literalLine cs
  | cs =>
    match cs.takeWhile isBare with
    | [] => none
    | key => some (key, cs.dropWhile isBare)

/-- A key that may be made up of others with points between them: its path and its last part. -/
def key? (cs : List Char) : Option ((List String × String) × List Char) :=
  match simpleKey? (skipGaps cs) with
  | none => none
  | some (key, rest) =>
    match skipGaps rest with
    | '.' :: rest =>
      if _h : rest.length < cs.length then
        (key? rest).map fun ((path, last), rest) => ((String.ofList key :: path, last), rest)
      else none
    | rest => some (([], String.ofList key), rest)
termination_by cs.length

end Interpolation.Toml
