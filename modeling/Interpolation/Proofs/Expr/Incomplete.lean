/-
  When the input ends too early. What is wanting at the end of a source can be supplied
  (`completes_expression`), and what may be continued is accepted or wanting (`cut_of_spells`); so
  incomplete sources are exactly those that are not accepted but whose continuation may be, except
  where a source ends in the first of two colons (`ofSource_incomplete_iff`).
-/
import Interpolation.Proofs.Expr.Blanks
import Interpolation.Proofs.Expr.Cutting
import Interpolation.Proofs.Expr.Leftover

namespace Interpolation.Expr

open Text

section
variable {g : Grammar}

/-! ## The single colon -/

theorem EndsInColon.reported {src : String} (h : EndsInColon g src.toList) :
    ofSource g src =
      .error (.syntaxError ("invalid operator ':' in expression " ++ quote src)) := by
  obtain ⟨hop, u, e, r, key, hsrc, hspells, hr, hlast⟩ := h
  have hfound : (r ++ [':']).dropWhile isBlank = [':'] := dropWhile_run hr (ends_cons (by decide))
  have hparted : Parted e (r ++ [':']) :=
    parted_of_found hr (by decide) (fun _ _ => by decide) (fun _ => by decide)
  have hlonger : Spells g e src.toList (r ++ [':']) := by
    rw [hsrc]
    exact hspells.extend hparted
  have htext : "invalid operator " ++ quoteChar ':' ++ " in expression " =
      "invalid operator ':' in expression " := by decide
  rw [← htext]
  exact ofSource_of_stuck hlonger (fun n _ => alone_of_colon hr) hfound hop

/-- With a second colon and a key behind it, the last name gets a namespace. -/
theorem spells_colons {e : Expr} {key : String} {u r : List Char} (h : Spells g e u r)
    (hr : ∀ c ∈ r, isBlank c) (hlast : e.lastUnit = .value ⟨none, key⟩) :
    ∃ e', Spells g e' (u ++ [':', ':', 'b']) [] := by
  induction h with
  | literal _ _ => cases hlast
  | call _ _ _ => cases hlast
  | @value n u r hn _ =>
    obtain rfl := Expr.value.inj hlast
    cases hn with
    | bare hkey =>
      have hcolons : Word [':', ':'] (r ++ [':', ':', 'b']) ['b'] := ⟨r, hr, rfl⟩
      have hends := hcolons.ends (by decide) (fun _ => isLabelChar_of_isBlank)
      have hb : SpellsLabel "b" ['b'] [] := ⟨by decide, word_self ['b'] [], ends_nil isLabelChar⟩
      exact ⟨_, .value (.qualified (hkey.framed.extend hends) hcolons hb)
        (not_paren_of_blanks (by simp))⟩
  | binary hl hunit hop hblank hword _ _ ih =>
    obtain ⟨e', he'⟩ := ih hr hlast
    exact ⟨_, spells_right hl hunit hop hblank hword he'⟩

end

/-! ## Sources -/

/-- The source is accepted but for a single colon at its end, behind a name without a namespace. -/
def LoneColon (isOperator : Char → Bool) (src : String) : Prop :=
  isOperator ':' = false ∧ ∃ u e key, src = u ++ ":" ∧ ofSource { isOperator } u = .ok e ∧
    e.lastUnit = .value ⟨none, key⟩

theorem endsInColon_iff {isOperator : Char → Bool} {src : String} :
    EndsInColon { isOperator } src.toList ↔ LoneColon isOperator src := by
  constructor
  · rintro ⟨hop, u, e, r, key, hsrc, hspells, hr, hlast⟩
    refine ⟨hop, String.ofList u, e, key, ?_, ?_, hlast⟩
    · rw [← String.toList_inj, hsrc, String.toList_append, String.toList_ofList]
      rfl
    · refine ofSource_of_spelledBy ⟨r, ?_, hr⟩
      rw [String.toList_ofList]
      exact hspells
  · rintro ⟨hop, u, e, key, rfl, hread, hlast⟩
    obtain ⟨r, hspells, hr⟩ := spelledBy_of_ofSource hread
    exact ⟨hop, u.toList, e, r, key, String.toList_append, hspells, hr, hlast⟩

theorem ofSource_of_expression {g : Grammar} {src : String} {f : Failure}
    (h : (expression g none (.ofSource src)).1 = .error f) :
    ofSource g src = .error (f.error src) := by
  rcases hexpr : expression g none (.ofSource src) with ⟨r, noted⟩
  rw [hexpr] at h
  obtain rfl : r = .error f := h
  unfold ofSource
  rw [hexpr]

/-- Only the end of the input is reported as such. -/
theorem expression_of_report {g : Grammar} {src : String} {need : Need}
    (h : ofSource g src = .error ((Failure.incomplete need).error src)) :
    ∃ need, (expression g none (.ofSource src)).1 = .error (.incomplete need) := by
  rcases hexpr : expression g none (.ofSource src) with ⟨(m | need') | ⟨e, after⟩, noted⟩
  · have hreport := ofSource_of_expression (congrArg Prod.fst hexpr)
    rw [h] at hreport
    exact absurd (Except.error.inj hreport) (incomplete_error_ne_misfit src need m)
  · exact ⟨need', rfl⟩
  · unfold ofSource at h
    rw [hexpr] at h
    dsimp only at h
    split at h
    · cases h
    · split at h
      · have hreport := Except.error.inj h
        split at hreport
        · exact absurd hreport.symm (incomplete_error_ne_misfit src need _)
        · exact absurd hreport.symm (incomplete_error_ne_leftover src need _ _)
      · exact absurd (Except.error.inj h).symm (incomplete_error_ne_leftover src need _ _)

/-- The input of a source ends too early exactly if the source is not accepted but may be continued
to one that is, unless it ends in the first of two colons. That one is taken for an operator. -/
theorem ofSource_incomplete_iff (isOperator : Char → Bool) (src : String) :
    ((∃ need, (expression { isOperator } none (.ofSource src)).1 = .error (.incomplete need)) ↔
        ∃ need, ofSource { isOperator } src = .error ((Failure.incomplete need).error src)) ∧
      ((∃ need, ofSource { isOperator } src = .error ((Failure.incomplete need).error src)) ↔
        (∀ e, ofSource { isOperator } src ≠ .ok e) ∧
          (∃ t e, ofSource { isOperator } (src ++ t) = .ok e) ∧ ¬ LoneColon isOperator src) ∧
      (LoneColon isOperator src →
        ofSource { isOperator } src =
            .error (.syntaxError ("invalid operator ':' in expression " ++ quote src)) ∧
          ∃ e, ofSource { isOperator } (src ++ ":b") = .ok e) := by
  refine ⟨?_, ?_, ?_⟩
  · constructor
    · rintro ⟨need, h⟩
      exact ⟨need, ofSource_of_expression h⟩
    · rintro ⟨need, h⟩
      exact expression_of_report h
  · constructor
    · rintro ⟨need, h⟩
      refine ⟨?_, ?_, ?_⟩
      · intro e he
        rw [h] at he
        cases he
      · obtain ⟨need', hexpr⟩ := expression_of_report h
        obtain ⟨t, e, he⟩ := completes_expression rfl hexpr
        refine ⟨String.ofList t, e, ofSource_of_spelledBy ⟨[], ?_, by simp⟩⟩
        rw [String.toList_append, String.toList_ofList]
        exact he
      · intro hcolon
        rw [(endsInColon_iff.2 hcolon).reported] at h
        have hm := incomplete_error_ne_misfit src need ⟨0, .invalidOperator ':'⟩
        exact hm (Except.error.inj h).symm
    · rintro ⟨hnot, ⟨t, e, he⟩, hcolon⟩
      obtain ⟨rest, hspells, hrest⟩ := spelledBy_of_ofSource he
      cases cut_of_spells rfl hspells hrest String.toList_append with
      | accepted h hr => exact absurd (ofSource_of_spelledBy ⟨_, h, hr⟩) (hnot _)
      | hungry h =>
        obtain ⟨need, hneed⟩ := h none 0
        exact ⟨need, ofSource_of_expression hneed⟩
      | colon h => exact absurd (endsInColon_iff.1 h) hcolon
  · intro hcolon
    have hends := endsInColon_iff.2 hcolon
    refine ⟨hends.reported, ?_⟩
    obtain ⟨hop, u, e, r, key, hsrc, hspells, hr, hlast⟩ := hends
    obtain ⟨e', he'⟩ := spells_colons hspells hr hlast
    refine ⟨e', ofSource_of_spelledBy ⟨[], ?_, by simp⟩⟩
    rw [String.toList_append, hsrc, List.append_assoc]
    exact he'

/-- A text in front, an operator and a blank before the colon make no difference. -/
theorem ofSource_incomplete_iff_colon :
    LoneColon (· == '+') "'x' + f :" ∧
      ofSource { isOperator := (· == '+') } "'x' + f :" =
        .error (.syntaxError "invalid operator ':' in expression \"'x' + f :\"") ∧
      ∃ e, ofSource { isOperator := (· == '+') } "'x' + f ::b" = .ok e := by
  have hspelled : SpelledBy { isOperator := (· == '+') } ("" ++ "'x' + f" ++ " ")
      (.binary (.literal "x") '+' (.value ⟨none, "f"⟩)) := by
    refine SpelledBy.around (by simp) ?_ (spelledBy_display (by decide))
    exact List.forall_mem_singleton.2 (by decide)
  have hcolon : LoneColon (· == '+') "'x' + f :" :=
    ⟨by decide, _, _, "f", by decide, ofSource_of_spelledBy hspelled, rfl⟩
  exact ⟨hcolon, (ofSource_incomplete_iff (· == '+') "'x' + f :").2.2 hcolon⟩

end Interpolation.Expr
