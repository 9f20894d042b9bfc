/-
  What a pattern comes to. Rendering succeeds exactly when all of the readable text is made of
  parts in one style that show (`render_eq_ok_iff`), and fails exactly with the error of the first
  place where it stops (`render_eq_error_iff`); whatever stands behind that place has no say.

  Every text shows parts up to its end or up to a place where it stops (`progress`), and filling
  follows both, so that the two cases exclude each other.
-/
import Interpolation.Proofs.Engine.Stopping

namespace Interpolation.Engine

open Text Pattern

variable {σ : Type} {engine : Engine σ} {args : List Value} {earlier : List Segment} {st st' : σ}

/-! ## What stands behind an opening brace -/

/-- The text behind an opening brace begins with a placeholder or with the body of an expression,
or it is broken off or refused. -/
inductive Opened : List Char → Prop
  | argument {index spec : Option String} {more : List Char} :
      (Segment.argument index spec).WellFormed →
      Opened ((Segment.argument index spec).spelling ++ more)
  | body {body : String} {more : List Char} : '}' ∉ body.toList →
      Opened ('{' :: '{' :: (body.toList ++ '}' :: more))
  | spec {ds : String} {spec : List Char} : Segment.IsIndex ds → '}' ∉ spec →
      Opened ('{' :: (ds.toList ++ ':' :: spec))
  | unclosed {rest : List Char} : Unclosed rest → Opened rest
  | character {c : Char} {more : List Char} : ¬ isAsciiDigit c → c ≠ ':' → c ≠ '}' → c ≠ '{' →
      Opened ('{' :: c :: more)

/-- A text is free of closing braces or has a first one. -/
theorem exists_closing (cs : List Char) :
    ∃ t : String, '}' ∉ t.toList ∧ (cs = t.toList ∨ ∃ more, cs = t.toList ++ '}' :: more) := by
  obtain ⟨t, rest, rfl, ht, hends⟩ := exists_run (· ≠ '}') cs
  refine ⟨String.ofList t, ?_, ?_⟩
  · rw [String.toList_ofList]
    intro hm
    simpa using ht _ hm
  · rw [String.toList_ofList]
    cases rest with
    | nil => exact .inl (List.append_nil t)
    | cons c more =>
      have hc : c = '}' := by simpa using hends c rfl
      exact .inr ⟨more, by rw [hc]⟩

/-- The spec of a placeholder behind its index, if it has one. -/
theorem opened_colon (index : Option String) (hw : ∀ ds ∈ index, Segment.IsIndex ds)
    (cs : List Char) : Opened ('{' :: (index.elim [] String.toList ++ ':' :: cs)) := by
  obtain ⟨s, hs, rfl | ⟨more, rfl⟩⟩ := exists_closing cs
  · cases index with
    | none => exact .unclosed (.spec hw (.next (k := 0)) hs)
    | some ds => exact .spec (hw ds rfl) hs
  · have h : Opened ((Segment.argument index (some s)).spelling ++ more) :=
      .argument ⟨hw, fun s' hs' => by cases hs'; exact hs⟩
    simpa [Segment.spelling] using h

theorem opened_index {ds : String} (hd : Segment.IsIndex ds) (cs : List Char)
    (hends : Ends isAsciiDigit cs) : Opened ('{' :: (ds.toList ++ cs)) := by
  have hw : ∀ d ∈ some ds, Segment.IsIndex d := fun d hd' => by cases hd'; exact hd
  cases cs with
  | nil => exact .unclosed (.index hd (by simp))
  | cons c more =>
    have hc : ¬ isAsciiDigit c := by simp [hends c rfl]
    by_cases hcolon : c = ':'
    · subst hcolon
      exact opened_colon (some ds) hw more
    by_cases hbrace : c = '}'
    · subst hbrace
      have h : Opened ((Segment.argument (some ds) none).spelling ++ more) :=
        .argument ⟨hw, by simp⟩
      simpa [Segment.spelling] using h
    · refine .unclosed (.index hd ?_)
      intro d hd'
      cases hd'
      exact ⟨hc, hcolon, hbrace⟩

theorem opened (cs : List Char) : Opened ('{' :: cs) := by
  cases cs with
  | nil => exact .unclosed .brace
  | cons c more =>
    by_cases hbrace : c = '}'
    · subst hbrace
      have h : Opened ((Segment.argument none none).spelling ++ more) :=
        .argument ⟨by simp, by simp⟩
      exact h
    by_cases hcolon : c = ':'
    · subst hcolon
      exact opened_colon none (by simp) more
    by_cases hopening : c = '{'
    · subst hopening
      obtain ⟨body, hb, rfl | ⟨more, rfl⟩⟩ := exists_closing more
      · exact .unclosed (.body hb)
      · exact .body hb
    by_cases hdigit : isAsciiDigit c
    · obtain ⟨t, rest, hsplit, ht, hends⟩ := exists_run isAsciiDigit (c :: more)
      have hne : t ≠ [] := by
        rintro rfl
        rw [List.nil_append] at hsplit
        rw [← hsplit] at hends
        simp [hends c rfl] at hdigit
      rw [hsplit, ← String.toList_ofList (l := t)]
      exact opened_index ⟨by simpa using hne, by simpa using ht⟩ rest hends
    · exact .character hdigit hcolon hbrace hopening

/-! ## Progress -/

/-- The text shows parts, behind which it is at its end or stops. -/
def Progress (engine : Engine σ) (args : List Value) (earlier : List Segment) (st : σ)
    (cs : List Char) : Prop :=
  ∃ parts rest out st₁, cs = spell parts ++ rest ∧ (∀ p ∈ parts, p.WellFormed) ∧
    OneStyle (earlier ++ parts) ∧ Shows engine args (implicits earlier) parts st out st₁ ∧
    (rest = [] ∨ ∃ e st', Stops engine args (earlier ++ parts) st₁ rest e st')

theorem Progress.stop {cs : List Char} {e : Error} (hone : OneStyle earlier)
    (h : Stops engine args earlier st cs e st') : Progress engine args earlier st cs := by
  refine ⟨[], cs, "", st, rfl, by simp, ?_, .nil, .inr ⟨e, st', ?_⟩⟩
  · rwa [List.append_nil]
  · rwa [List.append_nil]

theorem Progress.cons {p : Segment} {text : String} {cs : List Char} (hw : p.WellFormed)
    (hp : Shown engine args (implicits earlier) p st text st')
    (h : Progress engine args (earlier ++ [p]) st' cs) :
    Progress engine args earlier st (p.spelling ++ cs) := by
  obtain ⟨parts, rest, out, st₁, rfl, hws, hone, hshows, hrest⟩ := h
  rw [← List.append_cons] at hone hrest
  rw [implicits_append] at hshows
  refine ⟨p :: parts, rest, text ++ out, st₁, ?_, ?_, hone, .cons hp hshows, hrest⟩
  · rw [spell_cons, List.append_assoc]
  · intro q hq
    rcases List.mem_cons.1 hq with rfl | hq
    · exact hw
    · exact hws q hq

/-- A placeholder whose index fits shows an argument or stops the rendering. -/
theorem shown_or_stops_of_takes {index spec : Option String} {i : Nat} (more : List Char)
    (hw : (Segment.argument index spec).WellFormed) (ht : Takes (implicits earlier) index i) :
    (∃ text, Shown engine args (implicits earlier) (.argument index spec) st text st ∧
      OneStyle (earlier ++ [.argument index spec])) ∨
    ∃ e, Stops engine args earlier st ((Segment.argument index spec).spelling ++ more) e st := by
  rcases displays_or_refused engine spec with ⟨display, hd⟩ | ⟨t, e, rfl, he⟩
  · by_cases hone : OneStyle (earlier ++ [.argument index spec])
    · by_cases hi : i < args.length
      · exact .inl ⟨_, .argument ht hd (List.getElem?_eq_getElem hi), hone⟩
      · exact .inr ⟨_, .range hw ht hd hone (Nat.le_of_not_lt hi)⟩
    · exact .inr ⟨_, .mixed hw ht hd hone⟩
  · exact .inr ⟨e, .spec hw ht he⟩

theorem shown_or_stops {index spec : Option String} (more : List Char)
    (hw : (Segment.argument index spec).WellFormed) :
    (∃ text, Shown engine args (implicits earlier) (.argument index spec) st text st ∧
      OneStyle (earlier ++ [.argument index spec])) ∨
    ∃ e, Stops engine args earlier st ((Segment.argument index spec).spelling ++ more) e st := by
  rcases takes_or_tooLarge (implicits earlier) index with ⟨i, ht⟩ | ⟨ds, rfl, hlarge⟩
  · exact shown_or_stops_of_takes more hw ht
  · have hd := hw.1 ds rfl
    refine .inr ⟨indexTooLarge ds, ?_⟩
    cases spec with
    | none =>
      have h : Stops engine args earlier st ('{' :: (ds.toList ++ '}' :: more)) _ st :=
        .index hd hlarge (.inr rfl)
      simpa [Segment.spelling] using h
    | some s =>
      have h : Stops engine args earlier st
          ('{' :: (ds.toList ++ ':' :: (s.toList ++ '}' :: more))) _ st :=
        .index hd hlarge (.inl rfl)
      simpa [Segment.spelling] using h

/-- Text behind an opening brace goes on if what is left behind its part does. -/
theorem progress_opened {cs : List Char} (hone : OneStyle earlier) (h : Opened cs)
    (ih : ∀ {earlier st} rest, rest.length < cs.length → OneStyle earlier →
      Progress engine args earlier st rest) : Progress engine args earlier st cs := by
  cases h with
  | @argument index spec more hw =>
    rcases shown_or_stops more hw with ⟨text, hshown, hone'⟩ | ⟨e, hstops⟩
    · exact .cons hw hshown (ih more (by simp [Segment.spelling]; omega) hone')
    · exact .stop hone hstops
  | @body body more hb =>
    cases he : (engine.evaluate body args).result st with
    | mk res st' =>
      cases res with
      | error e => exact .stop hone (.body hb he)
      | ok text =>
        cases more with
        | nil => exact .stop hone (.bodyEnd hb he)
        | cons c more =>
          by_cases hc : c = '}'
          · subst hc
            have h : Progress engine args earlier st ((Segment.expression body).spelling ++ more) :=
              .cons hb (.expression he) (ih more (by simp; omega) (hone.concat rfl rfl))
            simpa [Segment.spelling] using h
          · exact .stop hone (.bodyBrace hb he hc)
  | @spec ds spec hd hs =>
    by_cases hle : digitsValue ds.toList ≤ maxUnsigned
    · have hu : Unclosed ('{' :: ((some ds).elim [] String.toList ++ ':' :: spec)) :=
        .spec (fun d hd' => by cases hd'; exact hd) (.written (k := 0) hle) hs
      exact .stop hone (.unclosed hu)
    · exact .stop hone (.index hd (Nat.lt_of_not_le hle) (.inl rfl))
  | unclosed hu => exact .stop hone (.unclosed hu)
  | character h1 h2 h3 h4 => exact .stop hone (.character h1 h2 h3 h4)

/-- Every text shows parts up to its end or up to a place where it stops. -/
theorem progress (cs : List Char) (hone : OneStyle earlier) :
    Progress engine args earlier st cs := by
  induction hlen : cs.length using Nat.strongRecOn generalizing cs earlier st with
  | ind n ih =>
    subst hlen
    cases cs with
    | nil => exact ⟨[], [], "", st, rfl, by simp, by rwa [List.append_nil], .nil, .inl rfl⟩
    | cons c cs =>
      by_cases hc : c = '{'
      · subst hc
        exact progress_opened hone (opened cs) fun rest hlt hone' => ih _ hlt rest hone' rfl
      · have hw : (Segment.literal (String.ofList [c])).WellFormed := by
          show '{' ∉ (String.ofList [c]).toList
          rw [String.toList_ofList, List.mem_singleton]
          exact fun h => hc h.symm
        have h : Progress engine args earlier st
            ((Segment.literal (String.ofList [c])).spelling ++ cs) :=
          .cons hw .literal (ih _ (Nat.lt_succ_self _) cs (hone.concat rfl rfl) rfl)
        rwa [Segment.spelling, String.toList_ofList] at h

/-! ## Results of rendering -/

theorem oneStyle_nil : OneStyle [] := .inl fun _ hp => absurd hp List.not_mem_nil

/-- Behind parts that show, rendering goes on with the rest of the readable text. -/
theorem render_shows {pattern : String} {parts : List Segment} {rest : List Char} {out : String}
    (hsplit : readable pattern = spell parts ++ rest) (hw : ∀ p ∈ parts, p.WellFormed)
    (hone : OneStyle parts) (h : Shows engine args 0 parts st out st') :
    (engine.render pattern args).result st =
      inFront out ((engine.fill args (numberingAfter parts)
        (scan (utf8Size (spell parts)) rest)).result st') := by
  have hn := nul_not_mem_readable pattern
  rw [hsplit] at hn
  have hfill : (engine.fill args (numberingAfter []) (scan 0 (spell parts ++ rest))).result st =
      inFront out ((engine.fill args (numberingAfter parts)
        (scan (0 + utf8Size (spell parts)) rest)).result st') := fill_shows hw hone hn h
  rw [Nat.zero_add, ← hsplit] at hfill
  rw [render_eq_fill]
  exact hfill

theorem render_complete {pattern : String} {parts : List Segment} {out : String}
    (hsplit : readable pattern = spell parts) (hw : ∀ p ∈ parts, p.WellFormed)
    (hone : OneStyle parts) (h : Shows engine args 0 parts st out st') :
    (engine.render pattern args).result st = (.ok out, st') := by
  rw [render_shows (hsplit.trans (List.append_nil _).symm) hw hone h, scan_nil, fill_end]
  show (Except.ok (out ++ ""), st') = _
  rw [String.append_empty]

theorem render_stopped {pattern : String} {parts : List Segment} {rest : List Char}
    {out : String} {e : Error} {st₁ : σ} (hsplit : readable pattern = spell parts ++ rest)
    (hw : ∀ p ∈ parts, p.WellFormed) (hone : OneStyle parts)
    (h : Shows engine args 0 parts st out st₁) (hstops : Stops engine args parts st₁ rest e st') :
    (engine.render pattern args).result st = (.error e, st') := by
  have hn : '\x00' ∉ rest := by
    have := nul_not_mem_readable pattern
    rw [hsplit] at this
    exact fun hm => this (List.mem_append_right _ hm)
  rw [render_shows hsplit hw hone h, fill_stops hone hn hstops]
  rfl

/-- A pattern that is rendered is made of parts that show what it renders to. -/
theorem exists_parts {pattern out : String}
    (h : (engine.render pattern args).result st = (.ok out, st')) :
    ∃ parts, readable pattern = spell parts ∧ (∀ p ∈ parts, p.WellFormed) ∧ OneStyle parts ∧
      Shows engine args 0 parts st out st' := by
  obtain ⟨parts, rest, out, st₁, hsplit, hw, hone, hshows, hrest⟩ :
    Progress engine args [] st (readable pattern) := progress _ oneStyle_nil
  rcases hrest with rfl | ⟨e, st₂, hstops⟩
  · rw [List.append_nil] at hsplit
    rw [render_complete hsplit hw hone hshows] at h
    cases h
    exact ⟨parts, hsplit, hw, hone, hshows⟩
  · rw [render_stopped hsplit hw hone hshows hstops] at h
    cases h

/-- Rendering succeeds exactly if the readable text is made of parts in one style, all of which
show: literal text as it is, placeholders the arguments that they take, in order or by index, and
expressions what they are evaluated to. The result is what they show, in order. -/
theorem render_eq_ok_iff (engine : Engine σ) (pattern : String) (args : List Value) (st st' : σ)
    (out : String) :
    (engine.render pattern args).result st = (.ok out, st') ↔
      ∃ parts, readable pattern = spell parts ∧ (∀ p ∈ parts, p.WellFormed) ∧ OneStyle parts ∧
        Shows engine args 0 parts st out st' := by
  constructor
  · intro h
    obtain ⟨parts, rest, out', st₁, hsplit, hw, hone, hshows, hrest⟩ :
      Progress engine args [] st (readable pattern) := progress _ oneStyle_nil
    rcases hrest with rfl | ⟨e, st₂, hstops⟩
    · rw [List.append_nil] at hsplit
      have hr := render_complete hsplit hw hone hshows
      rw [h] at hr
      cases hr
      exact ⟨parts, hsplit, hw, hone, hshows⟩
    · have hr := render_stopped hsplit hw hone hshows hstops
      rw [h] at hr
      cases hr
  · intro h
    obtain ⟨parts, hsplit, hw, hone, hshows⟩ := h
    exact render_complete hsplit hw hone hshows

/-- Rendering fails exactly with the error of the place where the readable text stops, behind
parts in one style that all show. -/
theorem render_eq_error_iff (engine : Engine σ) (pattern : String) (args : List Value)
    (st st' : σ) (e : Error) :
    (engine.render pattern args).result st = (.error e, st') ↔
      ∃ parts rest out st₁, readable pattern = spell parts ++ rest ∧
        (∀ p ∈ parts, p.WellFormed) ∧ OneStyle parts ∧ Shows engine args 0 parts st out st₁ ∧
        Stops engine args parts st₁ rest e st' := by
  constructor
  · intro h
    obtain ⟨parts, rest, out, st₁, hsplit, hw, hone, hshows, hrest⟩ :
      Progress engine args [] st (readable pattern) := progress _ oneStyle_nil
    rcases hrest with rfl | ⟨e', st₂, hstops⟩
    · rw [List.append_nil] at hsplit
      have hr := render_complete hsplit hw hone hshows
      rw [h] at hr
      cases hr
    · have hr := render_stopped hsplit hw hone hshows hstops
      rw [h] at hr
      cases hr
      exact ⟨parts, rest, out, st₁, hsplit, hw, hone, hshows, hstops⟩
  · intro h
    obtain ⟨parts, rest, out, st₁, hsplit, hw, hone, hshows, hstops⟩ := h
    exact render_stopped hsplit hw hone hshows hstops

end Interpolation.Engine
