/-
  How parts of a pattern are written, and that they are read as they are written: in front of any
  text, a well-formed placeholder or expression is scanned as itself (`scan_argument`,
  `scan_expression`).
-/
import Interpolation.Proofs.Pattern.Scan

namespace Interpolation.Pattern

open Text

namespace Segment

/-- A part of a pattern as it is written there. -/
def spelling : Segment → List Char
  | literal text => text.toList
  | argument index spec =>
    '{' :: (index.elim [] String.toList ++ (spec.elim [] (fun s => ':' :: s.toList) ++ ['}']))
  | expression body => '{' :: '{' :: (body.toList ++ ['}', '}'])

/-- An index is written with one digit or more. -/
def IsIndex (ds : String) : Prop := ds.toList ≠ [] ∧ ∀ c ∈ ds.toList, isAsciiDigit c

/-- A part that its braces keep apart from the rest: no text before a placeholder holds an opening
brace, and neither a spec nor an expression holds a closing one. -/
def WellFormed : Segment → Prop
  | literal text => '{' ∉ text.toList
  | argument index spec => (∀ ds ∈ index, IsIndex ds) ∧ ∀ s ∈ spec, '}' ∉ s.toList
  | expression body => '}' ∉ body.toList

-- the characters that are written are tried, not all there are
instance (ds : String) : Decidable (IsIndex ds) :=
  have : Decidable (∀ c ∈ ds.toList, isAsciiDigit c) := List.decidableBAll _ ds.toList
  inferInstanceAs (Decidable (_ ∧ _))

instance : (p : Segment) → Decidable p.WellFormed
  | literal text => inferInstanceAs (Decidable ('{' ∉ text.toList))
  | argument index spec =>
    inferInstanceAs (Decidable ((∀ ds ∈ index, IsIndex ds) ∧ ∀ s ∈ spec, '}' ∉ s.toList))
  | expression body => inferInstanceAs (Decidable ('}' ∉ body.toList))

/-- A placeholder that takes the next argument. -/
def isImplicit : Segment → Bool
  | argument none _ => true
  | _ => false

/-- A placeholder with an index of its own. -/
def isExplicit : Segment → Bool
  | argument (some _) _ => true
  | _ => false

end Segment

/-- Some parts one after the other, as they are written in a pattern. -/
def spell (parts : List Segment) : List Char := parts.flatMap Segment.spelling

/-- How many placeholders take the next argument. -/
def implicits (parts : List Segment) : Nat := parts.countP Segment.isImplicit

/-- No placeholder has an index, or all of them have one. -/
def OneStyle (parts : List Segment) : Prop :=
  (∀ p ∈ parts, p.isExplicit = false) ∨ ∀ p ∈ parts, p.isImplicit = false

/-- The part of a pattern that is read: all of it up to the first NUL. -/
def readable (pattern : String) : List Char := pattern.toList.takeWhile (· ≠ '\x00')

theorem spell_cons (p : Segment) (ps : List Segment) : spell (p :: ps) = p.spelling ++ spell ps :=
  rfl

theorem spell_append (ps qs : List Segment) : spell (ps ++ qs) = spell ps ++ spell qs :=
  List.flatMap_append

theorem implicits_append (ps qs : List Segment) :
    implicits (ps ++ qs) = implicits ps + implicits qs := List.countP_append

theorem implicits_eq_zero {ps : List Segment} (h : ∀ p ∈ ps, p.isImplicit = false) :
    implicits ps = 0 := by
  unfold implicits
  rw [List.countP_eq_zero]
  intro p hp
  simp [h p hp]

theorem oneStyle_append_iff {ps qs : List Segment} : OneStyle (ps ++ qs) ↔
    ((∀ p ∈ ps, p.isExplicit = false) ∧ ∀ p ∈ qs, p.isExplicit = false) ∨
      ((∀ p ∈ ps, p.isImplicit = false) ∧ ∀ p ∈ qs, p.isImplicit = false) := by
  unfold OneStyle
  rw [List.forall_mem_append, List.forall_mem_append]

theorem OneStyle.left {ps qs : List Segment} (h : OneStyle (ps ++ qs)) : OneStyle ps :=
  h.imp (fun h p hp => h p (List.mem_append_left qs hp))
    (fun h p hp => h p (List.mem_append_left qs hp))

/-- Text and expressions have no part in how arguments are numbered. -/
theorem OneStyle.concat {ps : List Segment} {p : Segment} (h : OneStyle ps)
    (hi : p.isImplicit = false) (he : p.isExplicit = false) : OneStyle (ps ++ [p]) := by
  rcases h with h | h
  · left
    intro q hq
    rcases List.mem_append.1 hq with hq | hq
    · exact h q hq
    · rw [List.mem_singleton.1 hq]
      exact he
  · right
    intro q hq
    rcases List.mem_append.1 hq with hq | hq
    · exact h q hq
    · rw [List.mem_singleton.1 hq]
      exact hi

/-- Of parts in one style, a placeholder among them says which. -/
theorem OneStyle.no_explicit {ps : List Segment} {p : Segment} (h : OneStyle ps) (hp : p ∈ ps)
    (hi : p.isImplicit) : ∀ q ∈ ps, q.isExplicit = false :=
  h.resolve_right fun h' => by rw [h' p hp] at hi; cases hi

theorem OneStyle.no_implicit {ps : List Segment} {p : Segment} (h : OneStyle ps) (hp : p ∈ ps)
    (he : p.isExplicit) : ∀ q ∈ ps, q.isImplicit = false :=
  h.resolve_left fun h' => by rw [h' p hp] at he; cases he

theorem nul_not_mem_readable (pattern : String) : '\x00' ∉ readable pattern := by
  intro h
  have := List.all_eq_true.1 (List.all_takeWhile (l := pattern.toList)) _ h
  simp at this

theorem readable_eq_toList {pattern : String} (h : '\x00' ∉ pattern.toList) :
    readable pattern = pattern.toList := by
  have hall : ∀ c ∈ pattern.toList, decide (c ≠ '\x00') := by
    intro c hc
    exact decide_eq_true fun h0 => h (h0 ▸ hc)
  have hrun := takeWhile_run hall (ends_nil _)
  rwa [List.append_nil] at hrun

/-- The parts of a pattern are those of its readable text. -/
theorem segments_eq_readable (pattern : String) :
    segments pattern = scan 0 (readable pattern) := by
  rw [segments_eq_scan]
  have hsplit := List.takeWhile_append_dropWhile (p := (· ≠ '\x00')) (l := pattern.toList)
  have hends := ends_dropWhile (· ≠ '\x00') pattern.toList
  cases hd : pattern.toList.dropWhile (· ≠ '\x00') with
  | nil =>
    rw [hd, List.append_nil] at hsplit
    rw [readable, hsplit]
  | cons c rest =>
    have hc : c = '\x00' := by simpa [hd] using hends c (by rw [hd]; rfl)
    rw [hd, hc] at hsplit
    rw [← hsplit, scan_behindNul]
    rfl

/-! ## Reading what is written -/

section
variable {offset : Nat} {cs : List Char}

/-- A run that neither a NUL nor the given brace cuts. -/
theorem forall_staysOn {s : State} {brace : Char}
    (hs : ∀ {c}, s.staysOn c ↔ c ≠ brace ∧ c ≠ '\x00') {t : List Char} (hb : brace ∉ t)
    (hn : '\x00' ∉ t) : ∀ c ∈ t, s.staysOn c := by
  intro c hc
  rw [hs]
  exact ⟨fun h => hb (h ▸ hc), fun h => hn (h ▸ hc)⟩

theorem utf8Size_ascii_cons {c : Char} (hc : c.utf8Size = 1) (cs : List Char) :
    utf8Size (c :: cs) = utf8Size cs + 1 := by
  rw [utf8Size_cons, hc, Nat.add_comm]

/-- The index of a placeholder, up to the colon or the brace behind it. -/
theorem scan_start_index {ds : String} (hd : Segment.IsIndex ds) :
    scanFrom .placeholderStart none offset (ds.toList ++ cs) =
      scanFrom .parseIndex none offset (ds.toList ++ cs) := by
  obtain ⟨hne, hdigits⟩ := hd
  cases h : ds.toList with
  | nil => exact absurd h hne
  | cons c rest => exact scan_start_digit (hdigits c (by simp [h]))

/-- Behind its index, if it has one, a placeholder is closed. -/
theorem scan_placeholder_closing {index : Option String}
    (hindex : ∀ ds ∈ index, Segment.IsIndex ds) :
    scanFrom .placeholderStart none offset (index.elim [] String.toList ++ '}' :: cs) =
      ahead (.argument index none)
        (scan (offset + utf8Size (index.elim [] String.toList) + 1) cs) := by
  rcases index with _ | ds
  · exact scan_start_closing
  · have hd := hindex ds rfl
    show scanFrom .placeholderStart none offset (ds.toList ++ '}' :: cs) = _
    rw [scan_start_index hd, scan_index_closing hd.2, String.ofList_toList]
    rfl

/-- Behind its index, if it has one, the spec of a placeholder begins. -/
theorem scan_placeholder_colon {index : Option String}
    (hindex : ∀ ds ∈ index, Segment.IsIndex ds) :
    scanFrom .placeholderStart none offset (index.elim [] String.toList ++ ':' :: cs) =
      scanFrom .parseFormatterSpec index
        (offset + utf8Size (index.elim [] String.toList) + 1) cs := by
  rcases index with _ | ds
  · exact scan_start_colon
  · have hd := hindex ds rfl
    show scanFrom .placeholderStart none offset (ds.toList ++ ':' :: cs) = _
    rw [scan_start_index hd, scan_index_colon hd.2, String.ofList_toList]
    rfl

/-- A placeholder is read as itself, whatever follows. -/
theorem scan_argument {index spec : Option String}
    (h : (Segment.argument index spec).WellFormed)
    (hn : '\x00' ∉ (Segment.argument index spec).spelling) :
    scan offset ((Segment.argument index spec).spelling ++ cs) =
      ahead (.argument index spec)
        (scan (offset + utf8Size (Segment.argument index spec).spelling) cs) := by
  obtain ⟨hindex, hspec⟩ := h
  have hbrace : utf8Size ['}'] = 1 := rfl
  rcases spec with _ | s
  · have hsize : utf8Size (Segment.argument index none).spelling =
        1 + utf8Size (index.elim [] String.toList) + 1 := by
      show utf8Size ('{' :: (index.elim [] String.toList ++ ['}'])) = _
      rw [utf8Size_ascii_cons rfl, utf8Size_append, hbrace]
      omega
    have htext : (Segment.argument index none).spelling ++ cs =
        '{' :: (index.elim [] String.toList ++ '}' :: cs) := by simp [Segment.spelling]
    rw [htext, hsize, scan_opening, scan_placeholder_closing hindex]
    simp only [Nat.add_assoc]
  · have hs : ∀ c ∈ s.toList, State.parseFormatterSpec.staysOn c := by
      refine forall_staysOn State.staysOn_parseFormatterSpec (hspec s rfl) ?_
      intro hm
      exact hn (by simp [Segment.spelling, hm])
    have hsize : utf8Size (Segment.argument index (some s)).spelling =
        1 + utf8Size (index.elim [] String.toList) + 1 + utf8Size s.toList + 1 := by
      show utf8Size ('{' :: (index.elim [] String.toList ++ (':' :: s.toList ++ ['}']))) = _
      rw [utf8Size_ascii_cons rfl, utf8Size_append, utf8Size_append, utf8Size_ascii_cons rfl,
        hbrace]
      omega
    have htext : (Segment.argument index (some s)).spelling ++ cs =
        '{' :: (index.elim [] String.toList ++ ':' :: (s.toList ++ '}' :: cs)) := by
      simp [Segment.spelling]
    rw [htext, hsize, scan_opening, scan_placeholder_colon hindex, scan_spec_closing hs,
      String.ofList_toList]
    simp only [Nat.add_assoc]

/-- A spec that is not closed leaves a placeholder without an end. -/
theorem scan_unclosed_spec {index : Option String} {spec : List Char}
    (hindex : ∀ ds ∈ index, Segment.IsIndex ds) (hs : '}' ∉ spec) (hn : '\x00' ∉ spec) :
    scan offset ('{' :: (index.elim [] String.toList ++ ':' :: spec)) =
      ([], .unterminated index) := by
  rw [scan_opening, scan_placeholder_colon hindex,
    scan_spec_nil (forall_staysOn State.staysOn_parseFormatterSpec hs hn)]

/-- Behind an opening brace a character that begins no placeholder is refused. -/
theorem scan_character {c : Char} (h0 : c ≠ '\x00') (hd : ¬ isAsciiDigit c) (hcolon : c ≠ ':')
    (hopening : c ≠ '{') (hclosing : c ≠ '}') :
    scan offset ('{' :: c :: cs) = ([], .refused (.invalidPattern (offset + 1) "")) := by
  have hother : ByteClass.ofChar c = .other :=
    ByteClass.ofChar_of_has ⟨h0, hd, hcolon, hopening, hclosing⟩
  rw [scan_opening, scan_start_other hother]

/-- The body of an expression is read up to the first closing brace. -/
theorem scan_expression_body {body : List Char} (hb : '}' ∉ body) (hn : '\x00' ∉ body) :
    scan offset ('{' :: '{' :: (body ++ '}' :: cs)) =
      ahead (.expression (String.ofList body))
        (scanFrom .exprBodyEnd none (offset + utf8Size body + 3) cs) := by
  rw [scan_opening, scan_start_opening,
    scan_body_closing (forall_staysOn State.staysOn_exprBody hb hn)]
  congr 2
  omega

/-- An expression is read as itself, whatever follows. -/
theorem scan_expression {body : String} (h : (Segment.expression body).WellFormed)
    (hn : '\x00' ∉ (Segment.expression body).spelling) :
    scan offset ((Segment.expression body).spelling ++ cs) =
      ahead (.expression body)
        (scan (offset + utf8Size (Segment.expression body).spelling) cs) := by
  have hbody : '\x00' ∉ body.toList := by
    intro hm
    exact hn (by simp [Segment.spelling, hm])
  have hsize : utf8Size (Segment.expression body).spelling = utf8Size body.toList + 4 := by
    show utf8Size ('{' :: '{' :: (body.toList ++ ['}', '}'])) = _
    rw [utf8Size_ascii_cons rfl, utf8Size_ascii_cons rfl, utf8Size_append]
    rfl
  have htext : (Segment.expression body).spelling ++ cs =
      '{' :: '{' :: (body.toList ++ '}' :: '}' :: cs) := by simp [Segment.spelling]
  rw [htext, hsize, scan_expression_body h hbody, scan_bodyEnd_closing, String.ofList_toList]
  rfl

end

end Interpolation.Pattern
