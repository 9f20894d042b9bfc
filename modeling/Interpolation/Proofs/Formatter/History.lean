/-
  The history of a formatter: the specs it was configured by, accepted or refused, and the values
  it rendered. An accepted spec leaves nothing of the settings before, so a formatter renders as if
  it had been configured by that spec alone. A refused spec changes some settings and keeps others;
  those that it keeps are, after any calls, as if refused specs had changed nothing
  (`Overwrites.after_eq_settled`).
-/
import Interpolation.Formatter.Standard
import Interpolation.Proofs.Formatter.Printf.Grammar

namespace Interpolation.Formatter

open Text

/-! ## Calls -/

/-- What can be asked of a formatter. -/
inductive Call where
  | configure (spec : String)
  | render (v : Value)

section
variable {S : Type} (f : Formatter S)

/-- The settings after a call. -/
def call (settings : S) : Call → S
  | .configure spec => (f.configure settings spec).1
  | .render _ => settings

/-- The settings after some calls, from the first to the last. -/
def after (calls : List Call) : S := calls.foldl f.call f.start

/-- The settings after a call, if a refused spec changed nothing. -/
def settle (settings : S) : Call → S
  | .configure spec =>
    match f.configure settings spec with
    | (settings', .ok ()) => settings'
    | (_, .error _) => settings
  | .render _ => settings

/-- The settings by the last spec that was accepted among some calls. -/
def settled (calls : List Call) : S := calls.foldl f.settle f.start

/-- Whether a spec is accepted does not depend on the settings before, and an accepted one leaves
nothing of them. -/
def Overwrites : Prop :=
  ∀ spec, (∃ accepted, ∀ settings, f.configure settings spec = (accepted, .ok ())) ∨
    ∃ e, ∀ settings, (f.configure settings spec).2 = .error e

/-- Whatever the calls before, a spec has the result that it has from the start, and if it is
accepted, values are rendered as if there had been no calls. -/
def ForgetsHistory : Prop :=
  ∀ (calls : List Call) (spec : String),
    (f.configure (f.after calls) spec).2 = (f.configure f.start spec).2 ∧
      ((f.configure (f.after calls) spec).2 = .ok () →
        ∀ v, f.render (f.configure (f.after calls) spec).1 v =
          f.render (f.configure f.start spec).1 v)

/-- A refused spec leaves a part of the settings as it was. -/
def Keeps {α : Type} (part : S → α) : Prop :=
  ∀ settings spec e, (f.configure settings spec).2 = .error e →
    part (f.configure settings spec).1 = part settings

end

section
variable {S α : Type} {f : Formatter S} {part : S → α} {settings settings' : S}

theorem Overwrites.forgetsHistory (h : f.Overwrites) : f.ForgetsHistory := by
  intro calls spec
  rcases h spec with ⟨accepted, hsettings⟩ | ⟨e, hrefused⟩
  · rw [hsettings, hsettings]
    exact ⟨rfl, fun _ _ => rfl⟩
  · rw [hrefused, hrefused]
    exact ⟨rfl, nofun⟩

theorem Overwrites.call_eq_settle (h : f.Overwrites) (hkeeps : f.Keeps part)
    (hpart : part settings = part settings') (c : Call) :
    part (f.call settings c) = part (f.settle settings' c) := by
  cases c with
  | render v => exact hpart
  | configure spec =>
    rcases h spec with ⟨accepted, hsettings⟩ | ⟨e, hrefused⟩
    · unfold call settle
      dsimp only
      rw [hsettings, hsettings]
    · have hsettle : f.settle settings' (.configure spec) = settings' := by
        unfold settle
        dsimp only
        split
        · next haccepted => cases (hrefused settings').symm.trans (congrArg Prod.snd haccepted)
        · rfl
      rw [hsettle, ← hpart]
      exact hkeeps settings spec e (hrefused settings)

/-- What refused specs keep is, after any calls, that of the last accepted spec. -/
theorem Overwrites.after_eq_settled (h : f.Overwrites) (hkeeps : f.Keeps part)
    (calls : List Call) : part (f.after calls) = part (f.settled calls) := by
  -- the two runs go apart with the first refused spec, but not in the part that it keeps
  have hrun : ∀ settings settings', part settings = part settings' →
      part (calls.foldl f.call settings) = part (calls.foldl f.settle settings') := by
    induction calls with
    | nil => exact fun _ _ hpart => hpart
    | cons c calls ih => exact fun _ _ hpart => ih _ _ (h.call_eq_settle hkeeps hpart c)
  exact hrun f.start f.start rfl

end

/-! ## Formatters that take every spec -/

theorem plain_overwrites : plain.Overwrites := fun _ => .inl ⟨_, fun _ => rfl⟩

theorem clock_overwrites : clock.Overwrites := fun _ => .inl ⟨_, fun _ => rfl⟩

/-! ## The mask formatter -/

/-- A spec is accepted whatever the settings, or it is refused and begins with a mask, which is
kept. -/
theorem mask_configure_cases (spec : String) :
    (∃ accepted, ∀ settings, mask.configure settings spec = (accepted, .ok ())) ∨
      ∃ c rest reason, spec.toList = c :: rest ∧
        ∀ settings, mask.configure settings spec =
          ({ settings with mask := c }, refusal spec reason) := by
  show (∃ accepted, ∀ settings, MaskSettings.configure settings spec = (accepted, .ok ())) ∨
    ∃ c rest reason, spec.toList = c :: rest ∧
      ∀ settings, MaskSettings.configure settings spec = _
  unfold MaskSettings.configure
  cases spec.toList with
  | nil => exact .inl ⟨_, fun _ => rfl⟩
  | cons c rest =>
    dsimp only
    cases MaskSettings.readLength rest with
    | ok length => exact .inl ⟨_, fun _ => rfl⟩
    | error reason => exact .inr ⟨c, rest, reason, rfl, fun _ => rfl⟩

theorem mask_overwrites : mask.Overwrites := by
  intro spec
  rcases mask_configure_cases spec with haccepted | ⟨c, rest, reason, -, hsettings⟩
  · exact .inl haccepted
  · exact .inr ⟨_, fun settings => congrArg Prod.snd (hsettings settings)⟩

theorem mask_configure_of_refused {settings : MaskSettings} {spec : String} {e : Error}
    (h : (mask.configure settings spec).2 = .error e) :
    ∃ c rest, spec.toList = c :: rest ∧
      (mask.configure settings spec).1 = { settings with mask := c } := by
  rcases mask_configure_cases spec with ⟨_, hsettings⟩ | ⟨c, rest, _, hspec, hsettings⟩
  · rw [hsettings] at h
    cases h
  · exact ⟨c, rest, hspec, congrArg Prod.fst (hsettings settings)⟩

theorem mask_keeps_length : mask.Keeps MaskSettings.length := by
  intro settings spec e hrefused
  obtain ⟨c, rest, -, hsettings⟩ := mask_configure_of_refused hrefused
  rw [hsettings]

/-! ## The printf formatter -/

namespace Printf

theorem printf_overwrites : printf.Overwrites := by
  intro spec
  show (∃ accepted, ∀ settings, Settings.configure settings spec = (accepted, .ok ())) ∨
    ∃ e, ∀ settings, (Settings.configure settings spec).2 = .error e
  unfold Settings.configure
  cases Parts.ofSpec? spec.toList with
  | none => exact .inr ⟨_, fun _ => rfl⟩
  | some parts =>
    dsimp only
    cases parts.widthNumber with
    | error reason => exact .inr ⟨_, fun _ => rfl⟩
    | ok width =>
      dsimp only
      cases parts.precisionNumber with
      | error reason => exact .inr ⟨_, fun _ => rfl⟩
      | ok precision => exact .inl ⟨_, fun _ => rfl⟩

/-- What a refused spec may leave of the settings: everything, if it is not of the form of a spec;
else the flags are its own, and the width as well if that could be read. -/
inductive LeftBy (settings : Settings) (spec : String) : Settings → Prop
  | nothing (unwritten : ¬ ∃ p : Written, p.Matches ∧ p.spelling = spec.toList) :
      LeftBy settings spec settings
  | flags (p : Written) (form : p.Matches) (leading : p.width.head? ≠ some '0')
      (spelling : p.spelling = spec.toList) (width : ¬ IsField p.width) :
      LeftBy settings spec { settings with flags := Flags.ofChars p.flags }
  | width (p : Written) (form : p.Matches) (leading : p.width.head? ≠ some '0')
      (spelling : p.spelling = spec.toList) (width : IsField p.width)
      (precision : ¬ ∀ ds ∈ p.precision, IsField ds) :
      LeftBy settings spec
        { settings with
          flags := Flags.ofChars p.flags
          width := if p.width = [] then none else some (digitsValue p.width) }

theorem leftBy_of_refused {settings : Settings} {spec : String} {e : Error}
    (h : (settings.configure spec).2 = .error e) :
    LeftBy settings spec (settings.configure spec).1 := by
  unfold Settings.configure at h ⊢
  -- the fields are set in the order of their parts, up to the first number that is refused
  cases hparts : Parts.ofSpec? spec.toList with
  | none =>
    refine .nothing fun hwritten => ?_
    rw [← Written.ofSpec?_isSome_iff, hparts] at hwritten
    cases hwritten
  | some parts =>
    obtain ⟨p, hmatches, hleading, hspelling, verb, rfl⟩ := Written.exists_matches_parts hparts
    rw [hparts] at h
    dsimp only at h ⊢
    split
    · next reason hwidth =>
      refine .flags p hmatches hleading hspelling fun hfield => ?_
      cases hwidth.symm.trans ((hmatches.widthNumber_eq_ok_iff rfl).2 ⟨hfield, rfl⟩)
    · next width hwidth =>
      obtain ⟨hfield, rfl⟩ := (hmatches.widthNumber_eq_ok_iff rfl).1 hwidth
      rw [hwidth] at h
      dsimp only at h
      split
      · next reason hprecision =>
        refine .width p hmatches hleading hspelling hfield fun hfields => ?_
        cases hprecision.symm.trans ((hmatches.precisionNumber_eq_ok_iff rfl).2 ⟨hfields, rfl⟩)
      · next precision hprecision =>
        rw [hprecision] at h
        cases h

theorem LeftBy.precision_verb {settings settings' : Settings} {spec : String}
    (h : LeftBy settings spec settings') :
    (settings'.precision, settings'.verb) = (settings.precision, settings.verb) := by
  cases h <;> rfl

theorem printf_keeps_precision_verb : printf.Keeps fun s => (s.precision, s.verb) :=
  fun _ _ _ hrefused => (leftBy_of_refused hrefused).precision_verb

end Printf

/-- No formatter remembers what it was asked before a spec that is accepted, nor does it matter for
whether it is. A refused spec leaves the settings of the printf formatter as they were, but for the
flags and a width that could be read, and those of the mask formatter, but for the mask. So after
any calls the precision, the verb and the length are those of the last accepted spec. -/
theorem history_forgotten :
    (plain.ForgetsHistory ∧ printf.ForgetsHistory ∧ mask.ForgetsHistory ∧ clock.ForgetsHistory) ∧
    (∀ (settings : Printf.Settings) (spec : String) (e : Error),
      (printf.configure settings spec).2 = .error e →
        Printf.LeftBy settings spec (printf.configure settings spec).1) ∧
    (∀ (settings : MaskSettings) (spec : String) (e : Error),
      (mask.configure settings spec).2 = .error e →
        ∃ c rest, spec.toList = c :: rest ∧
          (mask.configure settings spec).1 = { settings with mask := c }) ∧
    ∀ calls : List Call,
      (printf.after calls).precision = (printf.settled calls).precision ∧
        (printf.after calls).verb = (printf.settled calls).verb ∧
        (mask.after calls).length = (mask.settled calls).length := by
  refine ⟨⟨plain_overwrites.forgetsHistory, Printf.printf_overwrites.forgetsHistory,
    mask_overwrites.forgetsHistory, clock_overwrites.forgetsHistory⟩,
    fun _ _ _ => Printf.leftBy_of_refused, fun _ _ _ => mask_configure_of_refused, fun calls => ?_⟩
  have hprintf := Printf.printf_overwrites.after_eq_settled Printf.printf_keeps_precision_verb calls
  obtain ⟨hprecision, hverb⟩ := Prod.mk.inj hprintf
  exact ⟨hprecision, hverb, mask_overwrites.after_eq_settled mask_keeps_length calls⟩

/-- Two specs are refused after one that was accepted: the first for its precision, the second for
its form. The flags and the width are those of the first, until another spec is accepted. -/
theorem history_forgotten_refusals :
    let calls : List Call :=
      [.configure "0+8.3f", .render (.int 7), .configure " 5.99999d", .configure "-4z"]
    let before : Printf.Settings :=
      ⟨{ plus := true, zero := true }, some 8, some 3, .fixed false⟩
    let masks : List Call := [.configure "x3", .render (.int 7), .configure "#abc"]
    printf.after calls = ⟨{ space := true }, some 5, some 3, .fixed false⟩ ∧
      (printf.configure (printf.after calls) "#x").2 = .ok () ∧
      (∀ v, printf.render (printf.configure (printf.after calls) "#x").1 v =
        printf.render (printf.configure {} "#x").1 v) ∧
      (printf.configure before " 5.99999d").2 =
        .error (.formatterSpec " 5.99999d" "precision 99999 exceeds 65535") ∧
      Printf.LeftBy before " 5.99999d" (printf.configure before " 5.99999d").1 ∧
      mask.after masks = ⟨'#', some 3⟩ ∧ (mask.after masks).length = (mask.settled masks).length ∧
      (mask.configure ⟨'x', some 3⟩ "#abc").2 =
        .error (.formatterSpec "#abc" "invalid digit found in string") ∧
      ∃ c rest, "#abc".toList = c :: rest ∧
        (mask.configure ⟨'x', some 3⟩ "#abc").1 = { mask := c, length := some 3 } := by
  intro calls before masks
  obtain ⟨⟨-, hforgets, -, -⟩, hprintf, hmask, hsettled⟩ := history_forgotten
  have haccepted : (printf.configure (printf.after calls) "#x").2 = .ok () := by decide
  have hprecision : (printf.configure before " 5.99999d").2 =
      .error (.formatterSpec " 5.99999d" "precision 99999 exceeds 65535") := by decide
  have hlength : (mask.configure ⟨'x', some 3⟩ "#abc").2 =
      .error (.formatterSpec "#abc" "invalid digit found in string") := by decide
  exact ⟨by decide, haccepted, (hforgets calls "#x").2 haccepted, hprecision,
    hprintf _ _ _ hprecision, by decide, (hsettled masks).2.2, hlength, hmask _ _ _ hlength⟩

end Interpolation.Formatter
