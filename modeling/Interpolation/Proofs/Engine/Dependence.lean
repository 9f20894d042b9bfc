/-
  What rendering depends on. The segments of a pattern are well formed, so behind those that were
  rendered the numbering is known, and a placeholder either fails whatever the arguments are or
  shows the one that it takes (`placeholder_cases`). Two lists of arguments on which every segment
  agrees, at the numbering where it stands, are rendered alike (`render_congr`).
-/
import Interpolation.Proofs.Engine.Concatenation

namespace Interpolation

open Text Pattern

/-! ## Segments are well formed -/

namespace Pattern

theorem wellFormed_ahead {p : Segment} {r : List Segment × Ending} (hp : p.WellFormed)
    (hr : ∀ s ∈ r.1, s.WellFormed) : ∀ s ∈ (ahead p r).1, s.WellFormed := by
  intro s hs
  rcases List.mem_cons.1 hs with rfl | hs
  · exact hp
  · exact hr s hs

/-- Text in front is well formed with the text behind it. -/
theorem wellFormed_textAhead {t u : List Char} {r : List Segment × Ending} (ht : '{' ∉ t)
    (h : ∀ s ∈ (textAhead u r).1, s.WellFormed) :
    ∀ s ∈ (textAhead (t ++ u) r).1, s.WellFormed := by
  have hboth : '{' ∉ u ∧ ∀ s ∈ r.1, s.WellFormed := by
    unfold textAhead at h
    split at h
    · next hnil =>
      subst hnil
      exact ⟨List.not_mem_nil, h⟩
    · have hu : (Segment.literal (String.ofList u)).WellFormed := h _ List.mem_cons_self
      rw [Segment.WellFormed, String.toList_ofList] at hu
      exact ⟨hu, fun s hs => h s (List.mem_cons_of_mem _ hs)⟩
  obtain ⟨hu, hr⟩ := hboth
  unfold textAhead
  split
  · exact hr
  · refine wellFormed_ahead ?_ hr
    rw [Segment.WellFormed, String.toList_ofList]
    exact fun hm => (List.mem_append.1 hm).elim ht hu

end Pattern

namespace Engine

variable {σ : Type} {engine : Engine σ} {args args' : List Value} {earlier : List Segment}
  {st st' : σ}

/-- The part behind an opening brace is well formed if those behind it are. -/
theorem wellFormed_scan_opened {cs : List Char} (h : Opened cs) (hn : '\x00' ∉ cs)
    (ih : ∀ rest offset, rest.length < cs.length → '\x00' ∉ rest →
      ∀ s ∈ (scan offset rest).1, s.WellFormed) (offset : Nat) :
    ∀ s ∈ (scan offset cs).1, s.WellFormed := by
  cases h with
  | @argument index spec more hw =>
    rw [scan_argument hw fun hm => hn (List.mem_append_left _ hm)]
    refine wellFormed_ahead hw (ih more _ ?_ fun hm => hn (List.mem_append_right _ hm))
    simp [Segment.spelling]
    omega
  | @body body more hb =>
    rw [scan_expression_body hb fun hm => hn (by simp [hm]), String.ofList_toList]
    refine wellFormed_ahead hb ?_
    cases more with
    | nil =>
      rw [scan_bodyEnd_nil]
      exact List.forall_mem_nil _
    | cons c more =>
      by_cases hc : c = '}'
      · subst hc
        rw [scan_bodyEnd_closing]
        exact ih more _ (by simp; omega) fun hm => hn (by simp [hm])
      · have h0 : c ≠ '\x00' := by
          rintro rfl
          exact hn (by simp)
        rw [scan_bodyEnd_other hc h0]
        exact List.forall_mem_nil _
  | @spec ds spec hd hs =>
    have hns : '\x00' ∉ spec := fun hm => hn (by simp [hm])
    have hindex : ∀ d ∈ some ds, Segment.IsIndex d := fun d hd' => by cases hd'; exact hd
    have hscan : scan offset ('{' :: (ds.toList ++ ':' :: spec)) = ([], .unterminated (some ds)) :=
      scan_unclosed_spec hindex hs hns
    rw [hscan]
    exact List.forall_mem_nil _
  | unclosed hu =>
    obtain ⟨index, read, hscan, -⟩ := scan_unclosed offset hu hn
    rw [hscan]
    exact List.forall_mem_nil _
  | @character c more hd hcolon hclosing hopening =>
    have h0 : c ≠ '\x00' := by
      rintro rfl
      exact hn (by simp)
    rw [scan_character h0 hd hcolon hopening hclosing]
    exact List.forall_mem_nil _

theorem wellFormed_scan {cs : List Char} (hn : '\x00' ∉ cs) (offset : Nat) :
    ∀ s ∈ (scan offset cs).1, s.WellFormed := by
  induction hlen : cs.length using Nat.strongRecOn generalizing cs offset with
  | ind n ih =>
    subst hlen
    cases cs with
    | nil =>
      rw [scan_nil]
      exact List.forall_mem_nil _
    | cons c cs =>
      by_cases hc : c = '{'
      · subst hc
        exact wellFormed_scan_opened (opened cs) hn
          (fun rest offset hlt hrest => ih _ hlt hrest offset rfl) offset
      · have hncs : '\x00' ∉ cs := fun hm => hn (List.mem_cons_of_mem c hm)
        have hbrace : '{' ∉ [c] := fun hm => hc (List.mem_singleton.1 hm).symm
        have hnul : '\x00' ∉ [c] := fun hm => hn (List.mem_singleton.1 hm ▸ List.mem_cons_self)
        obtain ⟨u, r, hboth, hbehind⟩ :=
          scan_text offset (forall_staysOn State.staysOn_literal hbrace hnul) hncs
        have hcs := ih _ (Nat.lt_succ_self _) hncs (offset + utf8Size [c]) rfl
        rw [hbehind] at hcs
        show ∀ s ∈ (scan offset ([c] ++ cs)).1, s.WellFormed
        rw [hboth]
        exact wellFormed_textAhead hbrace hcs

/-- Every segment of a pattern is well formed, also of one that is broken off or refused. -/
theorem wellFormed_contents (pattern : String) : ∀ s ∈ contents pattern, s.WellFormed := by
  unfold contents
  rw [segments_eq_readable]
  exact wellFormed_scan (nul_not_mem_readable pattern) 0

/-! ## Numbering behind segments -/

/-- A placeholder behind others fails in the same way for all arguments, or it shows the one that it
takes. -/
theorem placeholder_cases {index spec : Option String} (engine : Engine σ)
    (hw : (Segment.argument index spec).WellFormed) (hone : OneStyle earlier) :
    (∃ e, ∀ args, engine.placeholder args (numberingAfter earlier) index spec = .error e) ∨
      ∃ i display, Takes (implicits earlier) index i ∧ Displays engine spec display ∧
        OneStyle (earlier ++ [.argument index spec]) ∧
        ∀ args, engine.placeholder args (numberingAfter earlier) index spec =
          (argumentAt args i).map fun v =>
            (display v, numberingAfter (earlier ++ [.argument index spec])) := by
  rcases takes_or_tooLarge (implicits earlier) index with ⟨i, ht⟩ | ⟨ds, rfl, hlarge⟩
  · rcases displays_or_refused engine spec with ⟨display, hd⟩ | ⟨t, e, rfl, he⟩
    · by_cases hone' : OneStyle (earlier ++ [.argument index spec])
      · refine .inr ⟨i, display, ht, hd, hone', fun args => ?_⟩
        rw [placeholder_of_choose hw.1 ht (choose_of_takes ht hone'), renderer_eq_ok_iff.2 hd]
        rfl
      · refine .inl ⟨.mixedIndexing, fun args => ?_⟩
        rw [placeholder_eq _ hw ht hd, choose_mixed Option.isSome_map hone hone']
        rfl
    · exact .inl ⟨e, fun args => placeholder_refused _ hw.1 ht he⟩
  · refine .inl ⟨indexTooLarge ds, fun args => ?_⟩
    unfold placeholder
    rw [readIndex_tooLarge (hw.1 ds rfl) hlarge]
    rfl

/-- Behind a segment that was rendered the style is kept and the numbering known. -/
theorem numbering_of_segment {p : Segment} {text : String} {n : Numbering} (hw : p.WellFormed)
    (hone : OneStyle earlier)
    (h : (engine.segment args (numberingAfter earlier) p).result st = (.ok (text, n), st')) :
    OneStyle (earlier ++ [p]) ∧ n = numberingAfter (earlier ++ [p]) := by
  cases p with
  | literal t =>
    cases h
    exact ⟨hone.concat rfl rfl, (numberingAfter_concat rfl rfl).symm⟩
  | argument index spec =>
    have hplace : engine.placeholder args (numberingAfter earlier) index spec = .ok (text, n) :=
      (Prod.mk.inj h).1
    rcases placeholder_cases engine hw hone with ⟨e, herror⟩ | ⟨i, display, -, -, hone', hshow⟩
    · rw [herror] at hplace
      cases hplace
    · rw [hshow] at hplace
      cases hv : argumentAt args i with
      | error e =>
        rw [hv] at hplace
        cases hplace
      | ok v =>
        rw [hv] at hplace
        cases hplace
        exact ⟨hone', rfl⟩
  | expression body =>
    rcases he : (engine.evaluate body args).result st with ⟨r, st₁⟩
    cases r with
    | error e =>
      have herror := (Eval.result_bind_error he).symm.trans h
      cases herror
    | ok t =>
      have hok := (Eval.result_bind_ok he).symm.trans h
      cases hok
      exact ⟨hone.concat rfl rfl, (numberingAfter_concat rfl rfl).symm⟩

/-! ## Two lists of arguments -/

/-- Segments that agree where they stand are rendered alike. -/
theorem pieces_congr {parts : List Segment} (hw : ∀ p ∈ parts, p.WellFormed)
    (hone : OneStyle earlier)
    (h : ∀ before p after, parts = before ++ p :: after → OneStyle (earlier ++ before) →
      engine.segment args (numberingAfter (earlier ++ before)) p =
        engine.segment args' (numberingAfter (earlier ++ before)) p) :
    engine.pieces args (numberingAfter earlier) parts =
      engine.pieces args' (numberingAfter earlier) parts := by
  induction parts generalizing earlier with
  | nil => rfl
  | cons p ps ih =>
    have hfirst := h [] p ps rfl (by rwa [List.append_nil])
    rw [List.append_nil] at hfirst
    have hrest : OneStyle (earlier ++ [p]) →
        engine.pieces args (numberingAfter (earlier ++ [p])) ps =
          engine.pieces args' (numberingAfter (earlier ++ [p])) ps := by
      intro hone'
      refine ih (fun q hq => hw q (List.mem_cons_of_mem p hq)) hone' ?_
      intro before q after hps hbefore
      have hq := h (p :: before) q after (by rw [hps]; rfl)
      rw [List.append_cons] at hq
      exact hq hbefore
    refine Eval.ext fun st => ?_
    unfold pieces
    rw [← hfirst]
    rcases hs : (engine.segment args (numberingAfter earlier) p).result st with ⟨r, st'⟩
    cases r with
    | error e => rw [Eval.result_bind_error hs, Eval.result_bind_error hs]
    | ok r =>
      obtain ⟨text, n⟩ := r
      obtain ⟨hone', rfl⟩ := numbering_of_segment (hw p List.mem_cons_self) hone hs
      rw [Eval.result_bind_ok hs, Eval.result_bind_ok hs]
      dsimp only
      rw [hrest hone']

/-- A pattern is rendered alike for two lists of arguments if all its segments are, each where it
stands behind segments in one style. -/
theorem render_congr (engine : Engine σ) {pattern : String} {args args' : List Value}
    (h : ∀ before p after, contents pattern = before ++ p :: after → OneStyle before →
      engine.segment args (numberingAfter before) p =
        engine.segment args' (numberingAfter before) p) :
    engine.render pattern args = engine.render pattern args' := by
  have hpieces : engine.pieces args (numberingAfter []) (contents pattern) =
      engine.pieces args' (numberingAfter []) (contents pattern) :=
    pieces_congr (wellFormed_contents pattern) oneStyle_nil h
  show (engine.pieces args (numberingAfter []) (contents pattern) >>= _) = _
  rw [hpieces]
  rfl

end Engine

end Interpolation
