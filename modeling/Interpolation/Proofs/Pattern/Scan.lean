/-
  The parts of a text, read from left to right. One equation for each thing that can stand between
  two parts or inside a placeholder: a literal (`scan_literal`), the pieces of a placeholder and of
  an expression, and each way in which a pattern can break off or go wrong.
-/
import Interpolation.Pattern.Segment
import Interpolation.Proofs.Pattern.Tokens

namespace Interpolation.Pattern

open Text

/-- The parts of a text and what follows them, read in a state and behind the given index. -/
def scanFrom (s : State) (index : Option String) (offset : Nat) (cs : List Char) :
    List Segment × Ending :=
  group s index (Lexer.before cs offset s).drain.1

/-- The parts of a text and what follows them, read between two parts of a pattern. -/
def scan (offset : Nat) (cs : List Char) : List Segment × Ending :=
  scanFrom .start none offset cs

/-- A part in front of others. -/
def ahead (p : Segment) (r : List Segment × Ending) : List Segment × Ending := (p :: r.1, r.2)

theorem segments_eq_scan (pattern : String) : segments pattern = scan 0 pattern.toList := by
  unfold segments scan scanFrom
  rw [Lexer.ofPattern_eq]

/-- A text is read up to its first NUL. -/
theorem scan_behindNul (offset : Nat) (cs junk : List Char) :
    scan offset (cs ++ '\x00' :: junk) = scan offset cs := by
  have h : Lexer.before (cs ++ '\x00' :: junk) offset .start =
      (Lexer.before cs offset .start).behindNul (utf8Chars junk) := by
    unfold Lexer.before Lexer.behindNul
    rw [utf8Chars_append, utf8Chars_cons]
    rfl
  unfold scan scanFrom
  rw [h, Lexer.drain_behindNul]

/-! ## Between two parts -/

variable {offset : Nat} {index : Option String} {t cs : List Char} {c : Char}

theorem scan_nil (offset : Nat) : scan offset [] = ([], .complete) := by
  unfold scan scanFrom
  rw [Lexer.drain_stop (t := []) (by simp)]
  rfl

theorem scan_opening :
    scan offset ('{' :: cs) = scanFrom .placeholderStart none (offset + 1) cs := by
  unfold scan scanFrom
  rw [← List.nil_append ('{' :: cs), Lexer.drain_leave .placeholderStart (by simp)
    (by decide)]
  rfl

/-- The machine goes into a literal before it uses up the first character of it. -/
theorem scan_enter_literal (hc : State.literal.staysOn c) :
    scan offset (c :: cs) = scanFrom .literal none offset (c :: cs) := by
  have hstep : State.start.step (.ofChar c) = (.literal, false) := by
    unfold State.staysOn at hc
    revert hc
    cases ByteClass.ofChar c <;> decide
  unfold scan scanFrom
  rw [← List.nil_append (c :: cs), Lexer.drain_look .literal (by simp) (by decide) hstep
    (by decide) (by decide)]
  rfl

/-- A literal reaches up to the next placeholder or the end of the pattern. -/
theorem scan_literal (ht : ∀ c ∈ t, State.literal.staysOn c) (hne : t ≠ [])
    (hcs : cs = [] ∨ ∃ cs', cs = '{' :: cs') :
    scan offset (t ++ cs) =
      ahead (.literal (String.ofList t)) (scan (offset + utf8Size t) cs) := by
  have henter : scan offset (t ++ cs) = scanFrom .literal none offset (t ++ cs) := by
    cases t with
    | nil => exact absurd rfl hne
    | cons c t => exact scan_enter_literal (ht c List.mem_cons_self)
  rw [henter]
  rcases hcs with rfl | ⟨cs, rfl⟩
  · rw [scan_nil, List.append_nil]
    unfold scanFrom
    rw [Lexer.drain_stop ht]
    rfl
  · rw [scan_opening]
    unfold scanFrom
    rw [Lexer.drain_leave .placeholderStart ht (by decide)]
    rfl

/-- Text in front of some parts; no text is no part. -/
def textAhead (t : List Char) (r : List Segment × Ending) : List Segment × Ending :=
  if t = [] then r else ahead (.literal (String.ofList t)) r

theorem scan_run (ht : ∀ c ∈ t, State.literal.staysOn c)
    (hcs : cs = [] ∨ ∃ cs', cs = '{' :: cs') :
    scan offset (t ++ cs) = textAhead t (scan (offset + utf8Size t) cs) := by
  unfold textAhead
  split
  · next hnil =>
    subst hnil
    rfl
  · next hne => exact scan_literal ht hne hcs

/-- Where text is cut in two, both pieces belong to one literal, up to where it ends. -/
theorem scan_text (offset : Nat) (ht : ∀ c ∈ t, State.literal.staysOn c) (hn : '\x00' ∉ cs) :
    ∃ u r, scan offset (t ++ cs) = textAhead (t ++ u) r ∧
      scan (offset + utf8Size t) cs = textAhead u r := by
  obtain ⟨u, rest, rfl, hu, hends⟩ := exists_run State.literal.staysOn cs
  have hrest : rest = [] ∨ ∃ cs', rest = '{' :: cs' := by
    cases rest with
    | nil => exact .inl rfl
    | cons c cs' =>
      right
      have hc : ¬ State.literal.staysOn c := by simp [hends c rfl]
      have h0 : c ≠ '\x00' := by
        rintro rfl
        exact hn (by simp)
      rw [State.staysOn_literal] at hc
      have hbrace : c = '{' := Classical.byContradiction fun h => hc ⟨h, h0⟩
      exact ⟨cs', by rw [hbrace]⟩
  have hall : ∀ c ∈ t ++ u, State.literal.staysOn c := by
    intro c hc
    exact (List.mem_append.1 hc).elim (ht c) (hu c)
  refine ⟨u, scan (offset + utf8Size (t ++ u)) rest, ?_, ?_⟩
  · rw [← List.append_assoc]
    exact scan_run hall hrest
  · rw [utf8Size_append, ← Nat.add_assoc]
    exact scan_run hu hrest

/-- Behind the brace that closes a placeholder the next part begins. -/
theorem scanFrom_placeholderEnd :
    scanFrom .placeholderEnd none offset cs = scan offset cs := by
  cases cs with
  | nil =>
    rw [scan_nil]
    unfold scanFrom
    rw [Lexer.drain_stop (t := []) (by simp)]
    rfl
  | cons c cs =>
    unfold scan scanFrom
    rw [← List.nil_append (c :: cs)]
    by_cases hn : ByteClass.ofChar c = .nul
    · have hstep : ∀ s : State, s.step (.ofChar c) = (.end, false) := by
        intro s
        rw [hn]
        cases s <;> rfl
      rw [Lexer.drain_halt (by simp) (by decide) (hstep _), Lexer.drain_halt (by simp) (by decide)
        (hstep _)]
      rfl
    · have hstep : State.placeholderEnd.step (.ofChar c) = (.start, false) := by
        revert hn
        cases ByteClass.ofChar c <;> decide
      rw [Lexer.drain_look .start (by simp) (by decide) hstep (by decide) (by decide)]
      rfl

/-! ## Inside a placeholder -/

theorem scan_start_closing : scanFrom .placeholderStart none offset ('}' :: cs) =
    ahead (.argument none none) (scan (offset + 1) cs) := by
  rw [← scanFrom_placeholderEnd]
  unfold scanFrom
  rw [← List.nil_append ('}' :: cs), Lexer.drain_leave .placeholderEnd (by simp)
    (by decide)]
  rfl

theorem scan_start_colon : scanFrom .placeholderStart none offset (':' :: cs) =
    scanFrom .parseFormatterSpec none (offset + 1) cs := by
  unfold scanFrom
  rw [← List.nil_append (':' :: cs), Lexer.drain_leave .parseFormatterSpec (by simp)
    (by decide)]
  rfl

theorem scan_start_opening : scanFrom .placeholderStart none offset ('{' :: cs) =
    scanFrom .exprBody none (offset + 1) cs := by
  unfold scanFrom
  rw [← List.nil_append ('{' :: cs), Lexer.drain_leave .exprBody (by simp)
    (by decide)]
  rfl

theorem scan_start_digit (hc : isAsciiDigit c) : scanFrom .placeholderStart none offset (c :: cs) =
    scanFrom .parseIndex none offset (c :: cs) := by
  have hstep : State.placeholderStart.step (.ofChar c) = (.parseIndex, false) := by
    rw [ByteClass.ofChar_digit hc]
    rfl
  unfold scanFrom
  rw [← List.nil_append (c :: cs), Lexer.drain_look .parseIndex (by simp) (by decide) hstep
    (by decide) (by decide)]
  rfl

theorem scan_start_nil : scanFrom .placeholderStart none offset [] = ([], .unterminated none) := by
  unfold scanFrom
  rw [Lexer.drain_stop (t := []) (by simp)]
  rfl

theorem scan_start_other (hc : ByteClass.ofChar c = .other) :
    scanFrom .placeholderStart none offset (c :: cs) =
      ([], .refused (.invalidPattern offset "")) := by
  have hstep : State.placeholderStart.step (.ofChar c) = (.error, false) := by
    rw [hc]
    rfl
  unfold scanFrom
  rw [← List.nil_append (c :: cs), Lexer.drain_refuse (by simp) (by decide) hstep]
  rfl

theorem scan_index_closing (ht : ∀ c ∈ t, isAsciiDigit c) :
    scanFrom .parseIndex none offset (t ++ '}' :: cs) =
      ahead (.argument (some (String.ofList t)) none) (scan (offset + utf8Size t + 1) cs) := by
  rw [← scanFrom_placeholderEnd]
  unfold scanFrom
  rw [Lexer.drain_leave .placeholderEnd (fun c hc => State.staysOn_parseIndex.2 (ht c hc))
    (by decide)]
  rfl

theorem scan_index_colon (ht : ∀ c ∈ t, isAsciiDigit c) :
    scanFrom .parseIndex none offset (t ++ ':' :: cs) =
      scanFrom .parseFormatterSpec (some (String.ofList t)) (offset + utf8Size t + 1) cs := by
  unfold scanFrom
  rw [Lexer.drain_leave .parseFormatterSpec
    (fun c hc => State.staysOn_parseIndex.2 (ht c hc)) (by decide)]
  rfl

theorem scan_index_nil (ht : ∀ c ∈ t, isAsciiDigit c) :
    scanFrom .parseIndex none offset t = ([], .unterminated none) := by
  unfold scanFrom
  rw [Lexer.drain_stop (fun c hc => State.staysOn_parseIndex.2 (ht c hc))]
  rfl

/-- A character that cannot stand behind the digits of an index ends the pattern there. -/
theorem scan_index_other (ht : ∀ c ∈ t, isAsciiDigit c) (hd : ¬ isAsciiDigit c) (h1 : c ≠ ':')
    (h2 : c ≠ '}') :
    scanFrom .parseIndex none offset (t ++ c :: cs) = ([], .unterminated none) := by
  have hstep : State.parseIndex.step (.ofChar c) = (.end, false) := by
    have hk := ByteClass.has_ofChar c
    cases hc : ByteClass.ofChar c <;> rw [hc] at hk
    · rfl
    · exact absurd hk hd
    · exact absurd hk h1
    · rfl
    · exact absurd hk h2
    · rfl
  unfold scanFrom
  rw [Lexer.drain_halt (fun c hc => State.staysOn_parseIndex.2 (ht c hc)) (by decide) hstep]
  rfl

theorem scan_spec_closing (ht : ∀ c ∈ t, State.parseFormatterSpec.staysOn c) :
    scanFrom .parseFormatterSpec index offset (t ++ '}' :: cs) =
      ahead (.argument index (some (String.ofList t))) (scan (offset + utf8Size t + 1) cs) := by
  rw [← scanFrom_placeholderEnd]
  unfold scanFrom
  rw [Lexer.drain_leave .placeholderEnd ht (by decide)]
  rfl

theorem scan_spec_nil (ht : ∀ c ∈ t, State.parseFormatterSpec.staysOn c) :
    scanFrom .parseFormatterSpec index offset t = ([], .unterminated index) := by
  unfold scanFrom
  rw [Lexer.drain_stop ht]
  rfl

/-! ## Inside an expression -/

theorem scan_body_closing (ht : ∀ c ∈ t, State.exprBody.staysOn c) :
    scanFrom .exprBody none offset (t ++ '}' :: cs) =
      ahead (.expression (String.ofList t))
        (scanFrom .exprBodyEnd none (offset + utf8Size t + 1) cs) := by
  unfold scanFrom
  rw [Lexer.drain_leave .exprBodyEnd ht (by decide)]
  rfl

theorem scan_body_nil (ht : ∀ c ∈ t, State.exprBody.staysOn c) :
    scanFrom .exprBody none offset t = ([], .unterminated none) := by
  unfold scanFrom
  rw [Lexer.drain_stop ht]
  rfl

theorem scan_bodyEnd_closing :
    scanFrom .exprBodyEnd none offset ('}' :: cs) = scan (offset + 1) cs := by
  rw [← scanFrom_placeholderEnd]
  unfold scanFrom
  rw [← List.nil_append ('}' :: cs), Lexer.drain_leave .placeholderEnd (by simp)
    (by decide)]
  rfl

theorem scan_bodyEnd_nil : scanFrom .exprBodyEnd none offset [] = ([], .unterminated none) := by
  unfold scanFrom
  rw [Lexer.drain_stop (t := []) (by simp)]
  rfl

theorem scan_bodyEnd_other (h1 : c ≠ '}') (h2 : c ≠ '\x00') :
    scanFrom .exprBodyEnd none offset (c :: cs) =
      ([], .refused (.invalidPattern offset "")) := by
  have hstep : State.exprBodyEnd.step (.ofChar c) = (.error, false) := by
    have hk := ByteClass.has_ofChar c
    cases hc : ByteClass.ofChar c <;> rw [hc] at hk
    · exact absurd hk h2
    · rfl
    · rfl
    · rfl
    · exact absurd hk h1
    · rfl
  unfold scanFrom
  rw [← List.nil_append (c :: cs), Lexer.drain_refuse (by simp) (by decide) hstep]
  rfl

end Interpolation.Pattern
