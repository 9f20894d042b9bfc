/-
  Escaped texts. A pattern shows every character but an opening brace as it stands, and an opening
  brace is shown by an expression that quotes it. Character by character a text is thus made of
  parts that show what they were made for (`shown_ofChar`), in every engine and with any neighbours,
  and so the escaped text is rendered to the text itself (`render_escaped`).
-/
import Interpolation.Proofs.Engine.Embedding
import Interpolation.Proofs.Engine.Rendering
import Interpolation.Proofs.Pattern.Rewriting
import Mathlib.Data.List.Basic

namespace Interpolation

open Text Pattern

namespace Pattern

/-- A character as it is written in a pattern that is to show it. -/
def escapedChar (c : Char) : List Char :=
  if c = '{' then ['{', '{', '\'', '{', '\'', '}', '}'] else [c]

/-- A text as it is written in a pattern that is to show it. -/
def escaped (text : String) : String := String.ofList (text.toList.flatMap escapedChar)

/-- The part of a pattern that shows one character. -/
def Segment.ofChar (c : Char) : Segment :=
  if c = '{' then expression "'\x7b'" else literal (String.ofList [c])

section
variable {c : Char} {text : String}

theorem Segment.spelling_ofChar (c : Char) : (ofChar c).spelling = escapedChar c := by
  unfold ofChar escapedChar
  split
  · rfl
  · exact String.toList_ofList

theorem Segment.wellFormed_ofChar (c : Char) : (ofChar c).WellFormed := by
  unfold ofChar
  split
  · show '}' ∉ "'\x7b'".toList
    decide
  · next hc =>
    show '{' ∉ (String.ofList [c]).toList
    rw [String.toList_ofList, List.mem_singleton]
    exact fun h => hc h.symm

/-- A character that is shown takes no argument. -/
theorem Segment.isExplicit_ofChar (c : Char) : (ofChar c).isExplicit = false := by
  unfold ofChar
  split <;> rfl

theorem spell_map_ofChar (cs : List Char) :
    spell (cs.map Segment.ofChar) = cs.flatMap escapedChar := by
  induction cs with
  | nil => rfl
  | cons c cs ih =>
    rw [List.map_cons, spell_cons, List.flatMap_cons, ih, Segment.spelling_ofChar]

theorem nul_not_mem_escaped (hn : '\x00' ∉ text.toList) :
    '\x00' ∉ text.toList.flatMap escapedChar := by
  intro hm
  obtain ⟨c, hc, hmem⟩ := List.mem_flatMap.1 hm
  unfold escapedChar at hmem
  split at hmem
  · exact absurd hmem (by decide)
  · exact hn (List.mem_singleton.1 hmem ▸ hc)

/-- Without an opening brace there is nothing to escape. -/
theorem escaped_eq_self (h : '{' ∉ text.toList) : escaped text = text := by
  have hchars : text.toList.flatMap escapedChar = text.toList.flatMap fun c => [c] := by
    refine List.flatMap_congr fun c hc => if_neg ?_
    rintro rfl
    exact h hc
  unfold escaped
  rw [hchars, List.flatMap_singleton', String.ofList_toList]

end

end Pattern

namespace Engine

variable {σ : Type} (engine : Engine σ) (args : List Value)

/-- Whatever operators there are, a quoted brace is evaluated to the brace. -/
theorem evaluate_quotedBrace : engine.evaluate "'\x7b'" args = pure "\x7b" := by
  have hbrace : (Expr.literal "\x7b").WellFormed engine.grammar := by
    show '\'' ∉ "\x7b".toList
    decide
  have hspelled : Expr.SpelledBy engine.grammar "'\x7b'" (.literal "\x7b") :=
    Expr.spelledBy_display hbrace
  exact evaluate_of_spelledBy engine args hspelled

theorem shown_ofChar (c : Char) (k : Nat) (st : σ) :
    Shown engine args k (Segment.ofChar c) st (String.ofList [c]) st := by
  unfold Segment.ofChar
  split
  · next hc =>
    subst hc
    exact .expression (by rw [evaluate_quotedBrace]; rfl)
  · exact .literal

theorem shows_map_ofChar (cs : List Char) (k : Nat) (st : σ) :
    Shows engine args k (cs.map Segment.ofChar) st (String.ofList cs) st := by
  induction cs generalizing k with
  | nil => exact .nil
  | cons c cs ih =>
    have hcons : String.ofList ([c] ++ cs) = String.ofList [c] ++ String.ofList cs :=
      String.ofList_append
    show Shows engine args k _ st (String.ofList ([c] ++ cs)) st
    rw [hcons]
    exact .cons (engine.shown_ofChar args c k st) (ih _)

theorem render_escaped_eq {text : String} (hn : '\x00' ∉ text.toList) :
    engine.render (escaped text) args = pure text := by
  refine Eval.ext fun st => ?_
  have hsplit : readable (escaped text) = spell (text.toList.map Segment.ofChar) := by
    rw [spell_map_ofChar]
    exact readable_ofList (nul_not_mem_escaped hn)
  have hw : ∀ p ∈ text.toList.map Segment.ofChar, p.WellFormed := by
    rw [List.forall_mem_map]
    exact fun c _ => Segment.wellFormed_ofChar c
  have hone : OneStyle (text.toList.map Segment.ofChar) := by
    left
    rw [List.forall_mem_map]
    exact fun c _ => Segment.isExplicit_ofChar c
  have hshows := engine.shows_map_ofChar args text.toList 0 st
  rw [String.ofList_toList] at hshows
  exact render_complete hsplit hw hone hshows

/-- Every text without a NUL can be shown: with its opening braces escaped it is rendered to exactly
itself, whatever the engine and the arguments are. A text without an opening brace is a pattern of
itself. -/
theorem render_escaped {text : String} (hn : '\x00' ∉ text.toList) :
    engine.render (escaped text) args = pure text ∧
      ('{' ∉ text.toList → engine.render text args = pure text) := by
  have hescaped := engine.render_escaped_eq args hn
  refine ⟨hescaped, fun hbrace => ?_⟩
  rwa [escaped_eq_self hbrace] at hescaped

theorem render_escaped_braces :
    let engine : Engine Unit := clearOperators bare
    let braces := "\x7b\x7b0\x7d'\x7b'\x7d\x7d\x7b\x7d\x7b"
    let plain := "\x7d'\x7d\x7d: é"
    '\x00' ∉ braces.toList ∧ '\x00' ∉ plain.toList ∧ '{' ∉ plain.toList ∧
      escaped "\x7b0\x7d" = "\x7b\x7b'\x7b'\x7d\x7d0\x7d" ∧
      (engine.render (escaped braces) [.null]).result () = (.ok braces, ()) ∧
      (engine.render plain [.null]).result () = (.ok plain, ()) := by
  intro engine braces plain
  have hbraces : '\x00' ∉ braces.toList := by decide
  have hplain : '\x00' ∉ plain.toList := by decide
  have hbrace : '{' ∉ plain.toList := by decide
  obtain ⟨hescaped, -⟩ := render_escaped engine [.null] hbraces
  obtain ⟨-, hsame⟩ := render_escaped engine [.null] hplain
  refine ⟨hbraces, hplain, hbrace, by decide, ?_, ?_⟩
  · rw [hescaped]
    rfl
  · rw [hsame hbrace]
    rfl

end Engine

end Interpolation
