/-
  Segments of a pattern: literal text, argument placeholders and expressions, in order, and what
  stands at the end of a malformed pattern. A token's text belongs to the state before it, so
  segments are grouped from tokens with the state that was left.
-/
import Interpolation.Pattern.Token

namespace Interpolation.Pattern

inductive Segment where
  | literal (text : String)
  /-- a placeholder for an argument: the digits of its index and its formatter spec, if written -/
  | argument (index spec : Option String)
  | expression (body : String)
deriving DecidableEq, Repr

/-- What follows the last segment. -/
inductive Ending where
  | complete
  /-- the pattern ends inside a placeholder, after the digits of an index and a colon if given -/
  | unterminated (index : Option String)
  /-- a byte that cannot stand there -/
  | refused (error : Error)
deriving DecidableEq, Repr

/-- The segments that the tokens after a state make up, in a placeholder with the given index. -/
def group (last : State) (index : Option String) :
    List (Except Error Token) → List Segment × Ending
  | [] => ([], .complete)
  | .error e :: _ => ([], .refused e)
  | .ok t :: ts =>
    if t.isEnd && last.isInside then ([], .unterminated index) else
    let closed := t.state == .placeholderEnd
    let index := if last = .parseIndex then some t.text else index
    let here := match last with
      | .literal => [.literal t.text]
      | .placeholderStart | .parseIndex => if closed then [.argument index none] else []
      | .parseFormatterSpec => [.argument index (some t.text)]
      | .exprBody => [.expression t.text]
      | _ => []
    if t.isEnd then (here, .complete) else
    let (segments, ending) := group t.state (if closed then none else index) ts
    (here ++ segments, ending)

/-- The segments of a pattern and what follows them. -/
def segments (pattern : String) : List Segment × Ending :=
  group .start none (Lexer.ofPattern pattern).drain.1

end Interpolation.Pattern
