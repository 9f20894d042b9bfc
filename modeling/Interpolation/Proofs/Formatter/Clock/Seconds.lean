/-
  Seconds as values. The time formatter reads the integer that a value gives as seconds after
  1970-01-01 00:00:00 (`readInteger_secondsText`), so whatever the spec, it shows a signed word, an
  unsigned word and a decimal text alike: as the moment that is so many seconds after, or with a
  message if its year is none that moments may lie in (`render_seconds`).
-/
import Interpolation.Formatter.Clock
import Interpolation.Proofs.Calendar.Counting
import Interpolation.Proofs.Text.Numeral
import Interpolation.Proofs.Text.Runs

namespace Interpolation.Formatter.Clock

open Text Calendar

/-- The value gives an integer: it is a word, or the decimal text with any blanks around it. -/
inductive Gives (n : Int) : Value → Prop
  | int {k : Int64} (h : k.toInt = n) : Gives n (.int k)
  | uint {k : UInt64} (h : (k.toNat : Int) = n) : Gives n (.uint k)
  | str (before after : String) (hbefore : ∀ c ∈ before.toList, isBlank c)
      (hafter : ∀ c ∈ after.toList, isBlank c) : Gives n (.str (before ++ decimalInt n ++ after))

section
variable {n : Int} {v : Value}

theorem secondsText_of_gives (h : Gives n v) : secondsText v = (decimalInt n).toList := by
  cases h with
  | int h => exact h ▸ rfl
  | uint h =>
    rw [← h, decimalInt_natCast]
    rfl
  | str before after hbefore hafter =>
    unfold secondsText
    dsimp only
    rw [String.toList_append, String.toList_append]
    exact trim_around hbefore hafter (decimalInt_ne_nil n)
      (forall_mem_decimalInt (fun _ => not_isBlank_of_isAsciiDigit) (by decide) n)

/-- What gives an integer of seconds is shown as the moment of these seconds, if there is one. -/
theorem render_of_gives (layout : String) (h : Gives n v) (hn : FitsSigned n) :
    render layout v = (Moment.ofSeconds? n).elim ("timestamp " ++ decimalInt n ++ " out of range")
      fun m => m.layOut layout := by
  have hread : readInteger (secondsText v) = .ok n := by
    rw [secondsText_of_gives h, readInteger_decimalInt hn]
  unfold render
  split
  · cases h
  · rw [hread]
    dsimp only
    cases Moment.ofSeconds? n <;> rfl

end

/-- Every spec is accepted. An integer of seconds has one moment, by the calendar; all values that
give the integer are shown as this moment is, if its year is one that moments may lie in, and
otherwise, if it fits a signed word, with a message. -/
theorem render_seconds (spec : String) :
    ∃ display, clock.factory.configured spec = .ok display ∧
      ∀ n : Int, ∃ m : Moment, (∀ m' : Moment, m'.IsAt n ↔ m' = m) ∧
        ∀ v, Gives n v →
          (-262143 ≤ m.date.year ∧ m.date.year ≤ 262142 → display v = display (.time m)) ∧
          (¬ (-262143 ≤ m.date.year ∧ m.date.year ≤ 262142) → FitsSigned n →
            display v = "timestamp " ++ decimalInt n ++ " out of range") := by
  refine ⟨render (layout spec), rfl, fun n => ⟨.ofSeconds n, fun _ => Moment.isAt_iff, ?_⟩⟩
  intro v hv
  refine ⟨fun ⟨hfirst, hlast⟩ => ?_, fun hyear hn => ?_⟩
  · have hn : FitsSigned n := (Moment.isAt_iff.2 rfl).fitsSigned hfirst hlast
    have hsome : Moment.ofSeconds? n = some (.ofSeconds n) := if_pos ⟨hfirst, hlast⟩
    rw [render_of_gives _ hv hn, hsome]
    rfl
  · have hnone : Moment.ofSeconds? n = none := if_neg hyear
    rw [render_of_gives _ hv hn, hnone]
    rfl

/-- The last second that moments have, the first one beyond it, and the last one of 1969. -/
theorem render_seconds_ends :
    ∃ display, clock.factory.configured "D.M.Y h:m:s" = .ok display ∧
      Gives 8210266876799 (.uint 8210266876799) ∧ Gives 8210266876800 (.int 8210266876800) ∧
      Gives (-1) (.str "\u2003-1\n") ∧
      display (.uint 8210266876799) = display (.time ⟨⟨262142, 12, 31⟩, 23, 59, 59, 0⟩) ∧
      display (.int 8210266876800) = "timestamp 8210266876800 out of range" ∧
      display (.str "\u2003-1\n") = display (.time ⟨⟨1969, 12, 31⟩, 23, 59, 59, 0⟩) := by
  obtain ⟨display, hconfigured, hdisplay⟩ := render_seconds "D.M.Y h:m:s"
  have huint : Gives 8210266876799 (.uint 8210266876799) := .uint (by decide)
  have hint : Gives 8210266876800 (.int 8210266876800) := .int (by decide)
  have hstr : Gives (-1) (.str "\u2003-1\n") :=
    .str "\u2003" "\n" (List.all_eq_true.1 (by decide)) (List.all_eq_true.1 (by decide))
  refine ⟨display, hconfigured, huint, hint, hstr, ?_, ?_, ?_⟩
  · obtain ⟨m, hm, hshown⟩ := hdisplay 8210266876799
    obtain rfl := (hm ⟨⟨262142, 12, 31⟩, 23, 59, 59, 0⟩).1 (Moment.isAt_iff.2 (by decide))
    exact (hshown _ huint).1 (by decide)
  · obtain ⟨m, hm, hshown⟩ := hdisplay 8210266876800
    obtain rfl := (hm ⟨⟨262143, 1, 1⟩, 0, 0, 0, 0⟩).1 (Moment.isAt_iff.2 (by decide))
    exact (hshown _ hint).2 (by decide) (by decide)
  · obtain ⟨m, hm, hshown⟩ := hdisplay (-1)
    obtain rfl := (hm ⟨⟨1969, 12, 31⟩, 23, 59, 59, 0⟩).1 (Moment.isAt_iff.2 (by decide))
    exact (hshown _ hstr).1 (by decide)

end Interpolation.Formatter.Clock
