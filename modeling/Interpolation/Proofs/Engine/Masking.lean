/-
  Masked arguments do not show. A mask has no more of a value than the length of its text, and
  nothing at all where its spec gives a length. So of two lists of arguments that differ at one
  index, a pattern that masks this argument wherever it takes it makes the same, error or text
  (`render_masked`).
-/
import Interpolation.Proofs.Engine.Dependence

namespace Interpolation

open Text Pattern

variable {σ : Type}

namespace Pattern

/-- A placeholder with the given spec takes the argument at an index. One that is refused, since it
is not in the style of those before it or its index is too large, takes none. -/
def Selects (pattern : String) (k : Nat) (spec : Option String) : Prop :=
  ∃ before index after, contents pattern = before ++ .argument index spec :: after ∧
    OneStyle (before ++ [.argument index spec]) ∧ Engine.Takes (implicits before) index k

end Pattern

/-- What stands behind the label of a mask gives a length, unless it is refused. -/
def Formatter.MaskSettings.GivesLength (rest : String) : Prop :=
  ∀ settings, configure {} rest = (settings, .ok ()) → ∃ n, 1 ≤ n ∧ settings.length = some n

/-- Two lists of arguments with the same values, except at one index. -/
structure SameBut (k : Nat) (args args' : List Value) : Prop where
  length : args.length = args'.length
  elsewhere : ∀ i, i ≠ k → args[i]? = args'[i]?

/-- What is shown of an argument in a pattern is masked: every placeholder that takes it has a spec
for the mask formatter, and no expression refers to it. -/
structure Engine.Masks (engine : Engine σ) (pattern : String) (k : Nat) : Prop where
  formatter : engine.formatters.find? '*' = some Formatter.mask.factory
  specs : ∀ spec, Selects pattern k spec → ∃ rest, spec = some ("*" ++ rest)
  bodies : ∀ body, .expression body ∈ contents pattern → ∀ e, engine.readExpr body = .ok e →
    k ∉ e.params

/-! ## Masks -/

namespace Formatter.MaskSettings

/-- A mask shows as much of two values if their texts have the same length. -/
theorem render_eq_of_length (settings : MaskSettings) {v v' : Value}
    (h : v.text.length = v'.text.length) : settings.render v = settings.render v' := by
  unfold render
  rw [String.length_toList, String.length_toList, h]

theorem render_eq_of_isSome {settings : MaskSettings} {n : Nat} (h : settings.length = some n)
    (v v' : Value) : settings.render v = settings.render v' := by
  unfold render
  rw [h]
  rfl

end Formatter.MaskSettings

/-! ## Arguments but for one -/

section
variable {k i : Nat} {args args' : List Value}

theorem SameBut.argumentAt_eq (h : SameBut k args args') (hi : i ≠ k) :
    argumentAt args i = argumentAt args' i := by
  unfold argumentAt
  rw [h.elsewhere i hi, h.length]

/-- The argument at the index is missing in both lists, or there is one in each. -/
theorem SameBut.at_index (h : SameBut k args args') :
    argumentAt args k = argumentAt args' k ∨
      ∃ v v', args[k]? = some v ∧ args'[k]? = some v' := by
  rcases Nat.lt_or_ge k args.length with hlt | hle
  · exact .inr ⟨_, _, List.getElem?_eq_getElem hlt, List.getElem?_eq_getElem (h.length ▸ hlt)⟩
  · left
    rw [Engine.argumentAt_of_le hle, Engine.argumentAt_of_le (h.length ▸ hle), h.length]

end

/-! ## Masked patterns -/

namespace Engine

variable {engine : Engine σ} {pattern : String} {k : Nat} {args args' : List Value}

theorem displays_mask (hmask : engine.formatters.find? '*' = some Formatter.mask.factory)
    {rest : String} {display : Value → String}
    (h : Displays engine (some ("*" ++ rest)) display) :
    ∃ settings, Formatter.MaskSettings.configure {} rest = (settings, .ok ()) ∧
      display = settings.render := by
  cases h with
  | spec h =>
    rw [FormatterTable.select_of_find? hmask String.toList_append] at h
    exact Formatter.configured_eq_ok h

/-- A placeholder that takes the masked argument shows the same of both. -/
theorem placeholder_masked (h : engine.Masks pattern k) (hargs : SameBut k args args')
    (hsize : (∀ v v', args[k]? = some v → args'[k]? = some v' → v.text.length = v'.text.length) ∨
      ∀ rest, Selects pattern k (some ("*" ++ rest)) →
        Formatter.MaskSettings.GivesLength rest)
    {spec : Option String} {display : Value → String} (hselects : Selects pattern k spec)
    (hd : Displays engine spec display) (n : Numbering) :
    (argumentAt args k).map (fun v => (display v, n)) =
      (argumentAt args' k).map fun v => (display v, n) := by
  obtain ⟨rest, rfl⟩ := h.specs spec hselects
  obtain ⟨settings, hconfigure, rfl⟩ := displays_mask h.formatter hd
  rcases hargs.at_index with heq | ⟨v, v', hv, hv'⟩
  · rw [heq]
  · have hshown : settings.render v = settings.render v' := by
      rcases hsize with hsize | hgives
      · exact settings.render_eq_of_length (hsize v v' hv hv')
      · obtain ⟨n, -, hn⟩ := hgives rest hselects settings hconfigure
        exact Formatter.MaskSettings.render_eq_of_isSome hn v v'
    rw [argumentAt_of_getElem? hv, argumentAt_of_getElem? hv']
    show Except.ok (settings.render v, n) = Except.ok (settings.render v', n)
    rw [hshown]

/-- Masked arguments do not show: a pattern is rendered alike for two lists of arguments that
differ at one index only, if it masks what it shows of this argument, and if the two texts there
have the same length or every mask of them gives a length of its own. Other formatters and the
interpreters may be any. -/
theorem render_masked (engine : Engine σ) {pattern : String} {k : Nat} {args args' : List Value}
    (h : engine.Masks pattern k) (hargs : SameBut k args args')
    (hsize : (∀ v v', args[k]? = some v → args'[k]? = some v' → v.text.length = v'.text.length) ∨
      ∀ rest, Selects pattern k (some ("*" ++ rest)) →
        Formatter.MaskSettings.GivesLength rest) :
    engine.render pattern args = engine.render pattern args' := by
  refine render_congr engine fun before p after hsplit hone => ?_
  have hp : p ∈ contents pattern := by
    rw [hsplit]
    exact List.mem_append_right _ List.mem_cons_self
  cases p with
  | literal text => rfl
  | argument index spec =>
    show Eval.of (engine.placeholder args _ index spec) = Eval.of _
    rcases placeholder_cases engine (wellFormed_contents pattern _ hp) hone with
      ⟨e, herror⟩ | ⟨i, display, ht, hd, hone', hshow⟩
    · rw [herror, herror]
    · rw [hshow, hshow]
      by_cases hi : i = k
      · subst hi
        rw [placeholder_masked h hargs hsize ⟨before, index, after, hsplit, hone', ht⟩ hd]
      · rw [hargs.argumentAt_eq hi]
  | expression body =>
    have hbody : engine.evaluate body args = engine.evaluate body args' := by
      refine evaluate_congr fun e he i hi => hargs.argumentAt_eq ?_
      rintro rfl
      exact h.bodies body hp e he hi
    show (engine.evaluate body args >>= _) = _
    rw [hbody]
    rfl

theorem render_masked_passwords :
    let engine : Engine Unit := {}
    let pattern := "\x7b:*\x7d \x7b\x7d\x7b\x7b'!'\x7d\x7d"
    let sized := "\x7b1\x7d: \x7b00:*#8\x7d"
    let args := [Value.str "secret", .str "Ann"]
    let args' := [Value.str "hidden", .str "Ann"]
    let args'' := [Value.int 7, .str "Ann"]
    engine.Masks pattern 0 ∧ engine.Masks sized 0 ∧ SameBut 0 args args' ∧
      SameBut 0 args args'' ∧
      (∀ v v', args[0]? = some v → args'[0]? = some v' → v.text.length = v'.text.length) ∧
      (∀ rest, Selects sized 0 (some ("*" ++ rest)) → Formatter.MaskSettings.GivesLength rest) ∧
      (engine.render pattern args).result () = (.ok "****** Ann!", ()) ∧
      (engine.render pattern args').result () = (.ok "****** Ann!", ()) ∧
      (engine.render sized args).result () = (.ok "Ann: ########", ()) ∧
      (engine.render sized args'').result () = (.ok "Ann: ########", ()) := by
  intro engine pattern sized args args' args''
  have hcontents : contents pattern = [.argument none (some "*"), .literal " ",
      .argument none none, .expression "'!'"] := by decide +kernel
  have hcontents' : contents sized = [.argument (some "1") none, .literal ": ",
      .argument (some "00") (some "*#8")] := by decide +kernel
  have hselects : ∀ spec, Selects pattern 0 spec → spec = some "*" := by
    rintro spec ⟨before, index, after, hsplit, -, ht⟩
    rw [hcontents] at hsplit
    rcases before with _ | ⟨p, _ | ⟨q, _ | ⟨r, _ | ⟨t, before⟩⟩⟩⟩ <;>
      simp only [List.nil_append, List.cons_append, List.cons.injEq, Segment.argument.injEq,
        List.nil_eq, List.append_eq_nil_iff, reduceCtorEq, false_and, and_false] at hsplit
    · exact hsplit.1.2.symm
    · obtain ⟨rfl, rfl, ⟨rfl, rfl⟩, rfl⟩ := hsplit
      cases ht
  have hselects' : ∀ spec, Selects sized 0 spec → spec = some "*#8" := by
    rintro spec ⟨before, index, after, hsplit, -, ht⟩
    rw [hcontents'] at hsplit
    rcases before with _ | ⟨p, _ | ⟨q, _ | ⟨r, before⟩⟩⟩ <;>
      simp only [List.nil_append, List.cons_append, List.cons.injEq, Segment.argument.injEq,
        List.nil_eq, List.append_eq_nil_iff, reduceCtorEq, false_and, and_false] at hsplit
    · obtain ⟨⟨rfl, rfl⟩, rfl⟩ := hsplit
      cases ht
    · exact hsplit.2.2.1.2.symm
  have hread : engine.readExpr "'!'" = .ok (.literal "!") := by decide +kernel
  have hmasks : engine.Masks pattern 0 := by
    refine ⟨rfl, fun spec h => ⟨"", hselects spec h⟩, ?_⟩
    intro body hbody e he
    obtain rfl : body = "'!'" := by simpa [hcontents] using hbody
    obtain rfl := Except.ok.inj (hread.symm.trans he)
    exact List.not_mem_nil
  have hmasks' : engine.Masks sized 0 := by
    refine ⟨rfl, fun spec h => ⟨"#8", hselects' spec h⟩, ?_⟩
    intro body hbody
    simp [hcontents'] at hbody
  have hargs : SameBut 0 args args' := by
    refine ⟨rfl, fun i hi => ?_⟩
    obtain ⟨i, rfl⟩ := Nat.exists_eq_succ_of_ne_zero hi
    rfl
  have hargs' : SameBut 0 args args'' := by
    refine ⟨rfl, fun i hi => ?_⟩
    obtain ⟨i, rfl⟩ := Nat.exists_eq_succ_of_ne_zero hi
    rfl
  have hsize : ∀ v v', args[0]? = some v → args'[0]? = some v' →
      v.text.length = v'.text.length := by
    rintro v v' ⟨⟩ ⟨⟩
    decide
  have hgives : ∀ rest, Selects sized 0 (some ("*" ++ rest)) →
      Formatter.MaskSettings.GivesLength rest := by
    intro rest h settings hconfigure
    have hrest : rest = "#8" := by
      have htext : '*' :: rest.toList = "*#8".toList := by
        rw [← Option.some.inj (hselects' _ h), String.toList_append]
        rfl
      exact String.toList_inj.1 (List.cons.inj htext).2
    subst hrest
    have hsettings : Formatter.MaskSettings.configure {} "#8" =
        ({ mask := '#', length := some 8 }, .ok ()) := by decide +kernel
    rw [hsettings] at hconfigure
    cases hconfigure
    exact ⟨8, by decide, rfl⟩
  have hshown : (engine.render pattern args).result () = (.ok "****** Ann!", ()) := by
    decide +kernel
  have hshown' : (engine.render sized args).result () = (.ok "Ann: ########", ()) := by
    decide +kernel
  refine ⟨hmasks, hmasks', hargs, hargs', hsize, hgives, hshown, ?_, hshown', ?_⟩
  · rw [← render_masked engine hmasks hargs (.inl hsize), hshown]
  · rw [← render_masked engine hmasks' hargs' (.inr hgives), hshown']

end Engine

end Interpolation
