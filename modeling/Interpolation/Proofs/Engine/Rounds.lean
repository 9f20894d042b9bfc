/-
  Rendering token by token. A round asks for a token, adds what the text in front of it shows to
  the draft, and ends the rendering at the end token or at an error. The rounds always come to an
  end, and to what the segments of the pattern show one after the other (`rounds_eq`).
-/
import Interpolation.Proofs.Engine.Filling
import Interpolation.Proofs.Pattern.Progress

namespace Interpolation

open Text Pattern

/-- What has been rendered so far, the numbering, and the index of an open placeholder. -/
structure Draft where
  index : Option Nat := none
  numbering : Numbering := .unused
  text : String := ""

namespace Draft

/-- Adds the next argument as it is shown. -/
def addArgument (d : Draft) (args : List Value) (shown : Value → String) :
    Except Error Draft := do
  let (index, numbering) ← d.numbering.choose d.index
  let v ← argumentAt args index
  return { d with numbering, text := d.text ++ shown v }

end Draft

namespace Engine

variable {σ : Type}

/-- Adds what a text shows that was read in the given state. -/
def addText (engine : Engine σ) (args : List Value) (s : State) (text : String) (d : Draft) :
    Eval σ Draft :=
  match s with
  | .literal => return { d with text := d.text ++ text }
  | .parseIndex => return { d with index := ← Eval.of (readIndex (some text)) }
  | .parseFormatterSpec => do
    let shown ← Eval.of (engine.formatters.select text)
    Eval.of (d.addArgument args shown)
  | .exprBody => return { d with text := d.text ++ (← engine.evaluate text args) }
  | _ => return d

/-- Inside of a placeholder that shows its argument only when it ends. -/
def Waits (s : State) : Prop := s = .placeholderStart ∨ s = .parseIndex

instance : DecidablePred Waits := fun _ => inferInstanceAs (Decidable (_ ∨ _))

/-- Closes the placeholder, if one ends, behind the text that was read in the given state. -/
def close (args : List Value) (s : State) (t : Token) (d : Draft) : Except Error Draft :=
  if t.state = .placeholderEnd then do
    let d ← if Waits s then d.addArgument args Value.text else .ok d
    return { d with index := none }
  else .ok d

/-- Takes a token, whose text was read in the given state, into the draft. -/
def take (engine : Engine σ) (args : List Value) (s : State) (t : Token) (d : Draft) :
    Eval σ Draft := do
  if t.isEnd && s.isInside then throw .unterminatedPlaceholder
  let d ← engine.addText args s t.text d
  Eval.of (close args s t d)

/-- The rounds of a rendering from a machine in front of a token, whose text was read in the given
state. It is nothing if the rendering has not ended after the given number of rounds, or if a call
for a token comes to nothing. -/
def rounds (engine : Engine σ) (pattern : String) (args : List Value) :
    Nat → State → Lexer → Draft → σ → Option (Except Error String × σ)
  | 0, _, _, _, _ => none
  | n + 1, s, l, d, st => do
    match ← l.next? pattern with
    | (.error e, _) => return (.error e, st)
    | (.ok t, l') =>
      match (engine.take args s t d).result st with
      | (.error e, st) => return (.error e, st)
      | (.ok d, st) =>
        if t.isEnd then return (.ok d.text, st)
        else rounds engine pattern args n t.state l' d st

variable {engine : Engine σ} {pattern : String} {args : List Value} {s : State} {l l' : Lexer}
  {d : Draft} {t : Token} {index : Option String} {n : Option Nat} {m : Nat} {st st' : σ}
  {e : Error}

/-! ## Segments and tokens -/

/-- The index that is written in front of a token of a placeholder. -/
def indexBefore (s : State) (index : Option String) (t : Token) : Option String :=
  if s = .parseIndex then some t.text else index

/-- The index that is written behind a token. -/
def indexBehind {α : Type} (t : Token) (index : Option α) : Option α :=
  if t.state = .placeholderEnd then none else index

theorem indexBefore_other (hs : s ≠ .parseIndex) : indexBefore s index t = index := if_neg hs

theorem readIndex_indexBehind (h : readIndex index = .ok n) :
    readIndex (indexBehind t index) = .ok (indexBehind t n) := by
  unfold indexBehind
  split
  · rfl
  · exact h

/-- The segment that a token ends. -/
def ended? (s : State) (index : Option String) (t : Token) : Option Segment :=
  match s with
  | .literal => some (.literal t.text)
  | .placeholderStart | .parseIndex =>
    if t.state = .placeholderEnd then some (.argument index none) else none
  | .parseFormatterSpec => some (.argument index (some t.text))
  | .exprBody => some (.expression t.text)
  | _ => none

/-- A segment, if there is one, in front of others. -/
def aheadOf (p : Option Segment) (r : List Segment × Ending) : List Segment × Ending :=
  p.elim r (ahead · r)

theorem group_unterminated {ts : List (Except Error Token)} (ht : t.isEnd) (hs : s.isInside) :
    group s index (.ok t :: ts) = ([], .unterminated index) := by
  unfold group
  rw [ht, hs]
  rfl

theorem group_end {ts : List (Except Error Token)} (ht : t.isEnd) (hs : s.isInside = false) :
    group s index (.ok t :: ts) = aheadOf (ended? s (indexBefore s index t) t) ([], .complete) := by
  unfold group
  rw [ht, hs]
  cases s <;> first | rfl | cases hs

theorem group_token {ts : List (Except Error Token)} (ht : t.isEnd = false) :
    group s index (.ok t :: ts) =
      aheadOf (ended? s (indexBefore s index t) t)
        (group t.state (indexBehind t (indexBefore s index t)) ts) := by
  rw [group]
  unfold indexBehind
  rw [ht]
  by_cases hclosed : t.state = .placeholderEnd
  · cases s <;> simp [hclosed, ended?, indexBefore, aheadOf, ahead]
  · cases s <;> simp [hclosed, ended?, indexBefore, aheadOf, ahead]

/-! ## What a token adds -/

/-- The draft behind a segment that shows a text and leaves a numbering. -/
def afterSegment (d : Draft) (n : Option Nat) (r : String × Numbering) : Draft :=
  { index := n, numbering := r.2, text := d.text ++ r.1 }

/-- Adds what a segment shows, if there is one, and leaves an index. -/
def addSegment (engine : Engine σ) (args : List Value) (d : Draft) (n : Option Nat) :
    Option Segment → Eval σ Draft
  | none => return { d with index := n }
  | some p => return afterSegment d n (← engine.segment args d.numbering p)

/-- Behind a segment the index may still be changed. -/
theorem addSegment_index (f : Option Nat → Option Nat) (p : Option Segment) :
    (engine.addSegment args d n p >>= fun d' => return { d' with index := f d'.index }) =
      engine.addSegment args d (f n) p := by
  cases p with
  | none => rfl
  | some p =>
    unfold addSegment
    rw [bind_assoc]
    rfl

/-- A placeholder adds its argument as it would be shown. -/
theorem addArgument_eq (engine : Engine σ) (args : List Value) (spec : Option String)
    (hindex : readIndex index = .ok d.index) :
    Eval.of (engine.renderer spec >>= d.addArgument args) =
      engine.addSegment args d d.index (some (.argument index spec)) := by
  have hplaceholder : engine.placeholder args d.numbering index spec =
      engine.renderer spec >>= fun shown => do
        let (i, numbering) ← d.numbering.choose d.index
        let v ← argumentAt args i
        return (shown v, numbering) := by
    unfold placeholder
    rw [hindex]
    rfl
  show _ = Eval.of (engine.placeholder args d.numbering index spec) >>= _
  rw [hplaceholder]
  cases engine.renderer spec with
  | error e => rfl
  | ok shown =>
    show Eval.of (d.numbering.choose d.index >>= _) =
      Eval.of (d.numbering.choose d.index >>= _) >>= _
    cases d.numbering.choose d.index with
    | error e => rfl
    | ok r =>
      show Eval.of (argumentAt args r.1 >>= _) = Eval.of (argumentAt args r.1 >>= _) >>= _
      cases argumentAt args r.1 <;> rfl

theorem close_other (hs : ¬ Waits s) :
    close args s t d = .ok { d with index := indexBehind t d.index } := by
  unfold close indexBehind
  rw [if_neg hs]
  split <;> rfl

/-- A placeholder without a spec shows its argument when it ends. -/
theorem close_waits (engine : Engine σ) (hs : Waits s) (hindex : readIndex index = .ok d.index) :
    Eval.of (close args s t d) =
      engine.addSegment args d (indexBehind t d.index)
        (if t.state = .placeholderEnd then some (.argument index none) else none) := by
  unfold close indexBehind
  rw [if_pos hs]
  split
  · have hadd : Eval.of (d.addArgument args Value.text) = _ :=
      addArgument_eq engine args none hindex
    rw [← addSegment_index (fun _ => none), ← hadd]
    cases d.addArgument args Value.text <;> rfl
  · rfl

/-- In other places a text adds the segment that it is. -/
theorem addText_other (hs : ¬ Waits s) (hindex : readIndex index = .ok d.index) :
    engine.addText args s t.text d = engine.addSegment args d d.index (ended? s index t) := by
  cases s with
  | placeholderStart => exact absurd (.inl rfl) hs
  | parseIndex => exact absurd (.inr rfl) hs
  | literal | start | placeholderEnd | exprBodyEnd | «end» | error => rfl
  | parseFormatterSpec =>
    show _ = engine.addSegment args d d.index (some (.argument index (some t.text)))
    rw [← addArgument_eq engine args (some t.text) hindex]
    unfold addText renderer
    dsimp only
    cases engine.formatters.select t.text <;> rfl
  | exprBody =>
    show _ = engine.segment args d.numbering (.expression t.text) >>= _
    unfold addText segment
    rw [bind_assoc]
    rfl

/-- What a token adds to a draft is what the segment that it ends shows. -/
theorem take_eq (hopen : (t.isEnd && s.isInside) = false)
    (hindex : readIndex (indexBefore s index t) = .ok n) (hd : s ≠ .parseIndex → d.index = n) :
    engine.take args s t d =
      engine.addSegment args d (indexBehind t n) (ended? s (indexBefore s index t) t) := by
  have htake : engine.take args s t d =
      engine.addText args s t.text d >>= fun d => Eval.of (close args s t d) := by
    unfold take
    rw [hopen]
    rfl
  rw [htake]
  by_cases hs : Waits s
  · obtain rfl | rfl := hs
    · obtain rfl := hd nofun
      exact close_waits engine (.inl rfl) hindex
    · have htext : engine.addText args .parseIndex t.text d = pure { d with index := n } := by
        show (do return { d with index := ← Eval.of (readIndex (some t.text)) }) = _
        rw [show readIndex (some t.text) = .ok n from hindex]
        rfl
      rw [htext, pure_bind]
      exact close_waits engine (d := { d with index := n }) (.inr rfl) hindex
  · obtain rfl := hd fun h => hs (.inr h)
    rw [indexBefore_other fun h => hs (.inr h)] at hindex ⊢
    rw [addText_other hs hindex]
    simp only [close_other hs]
    exact addSegment_index (indexBehind t) (ended? s index t)

/-! ## Rounds and segments -/

/-- The index behind what a segment adds is the one that it leaves. -/
theorem index_addSegment {p : Option Segment} {d' : Draft}
    (h : (engine.addSegment args d n p).result st = (.ok d', st')) : d'.index = n := by
  cases p with
  | none => cases h; rfl
  | some p =>
    unfold addSegment at h
    rw [Eval.result_bind] at h
    split at h <;> cases h
    rfl

/-- What a draft comes to when segments are filled in behind it. -/
def fillBehind (engine : Engine σ) (args : List Value) (d : Draft) (r : List Segment × Ending)
    (st : σ) : Except Error String × σ :=
  inFront d.text ((engine.fill args d.numbering r).result st)

theorem fillBehind_start (r : List Segment × Ending) :
    engine.fillBehind args {} r st = (engine.fill args .unused r).result st := inFront_empty _

theorem fillBehind_end (ending : Ending) :
    engine.fillBehind args d ([], ending) st = ((finish ending).map fun _ => d.text, st) := by
  unfold fillBehind
  rw [fill_end]
  cases finish ending with
  | error e => rfl
  | ok u =>
    show (Except.ok (d.text ++ ""), st) = _
    rw [String.append_empty]
    rfl

theorem fillBehind_error {r : List Segment × Ending}
    (h : (engine.fill args d.numbering r).result st = (.error e, st')) :
    engine.fillBehind args d r st = (.error e, st') := by
  unfold fillBehind
  rw [h]
  rfl

/-- The first segment is added to the draft, and the others are filled in behind it. -/
theorem fillBehind_aheadOf (n : Option Nat) (p : Option Segment) (r : List Segment × Ending) :
    engine.fillBehind args d (aheadOf p r) st =
      match (engine.addSegment args d n p).result st with
      | (.ok d', st') => engine.fillBehind args d' r st'
      | (.error e, st') => (.error e, st') := by
  cases p with
  | none => rfl
  | some p =>
    unfold addSegment
    rw [Eval.result_bind]
    rcases hp : (engine.segment args d.numbering p).result st with ⟨res, st'⟩
    cases res with
    | error e => exact fillBehind_error (fill_ahead_error hp)
    | ok shown =>
      show inFront d.text ((engine.fill args d.numbering (ahead p r)).result st) = _
      rw [fill_ahead hp, ← inFront_append]
      rfl

theorem finish_unterminated (index : Option String) :
    finish (.unterminated index) =
      (readIndex index >>= fun _ => .error .unterminatedPlaceholder) := rfl

theorem segment_bad_index {index spec : Option String} {n : Numbering}
    (he : readIndex index = .error e) :
    (engine.segment args n (.argument index spec)).result st = (.error e, st) := by
  show (Eval.of (engine.placeholder args n index spec)).result st = _
  unfold placeholder
  rw [he]
  rfl

/-- A placeholder with an index that cannot be read fails in its spec, even if it is not closed. -/
theorem fill_spec_bad_index {n : Numbering} (he : readIndex index = .error e)
    (hl : l.state = .parseFormatterSpec) :
    (engine.fill args n (group .parseFormatterSpec index l.drain.1)).result st =
      (.error e, st) := by
  rcases h : l.tokenStep with ⟨item, l'⟩
  cases item with
  | error e' =>
    obtain ⟨b, _, _, hnext, _⟩ := Lexer.tokenStep_error h
    rw [hl] at hnext
    exact absurd hnext State.step_spec_ne_error
  | ok t =>
    by_cases ht : t.isEnd
    · rw [Lexer.drain_of_end h ht, group_unterminated ht rfl, fill_end, finish_unterminated, he]
      rfl
    · have ht : t.isEnd = false := by simpa using ht
      rw [Lexer.drain_of_token h ht, group_token ht]
      exact fill_ahead_error (segment_bad_index he)

/-- A placeholder with an index that cannot be read fails, with a spec and without one. -/
theorem fill_bad_index {n : Numbering} (hl : l.AtText) (hs : l.state = .parseIndex)
    (h : l.tokenStep = (.ok t, l')) (ht : t.isEnd = false)
    (he : readIndex (some t.text) = .error e) :
    (engine.fill args n (group .parseIndex index l.drain.1)).result st = (.error e, st) := by
  obtain ⟨hne, k, hstep⟩ := Lexer.step_of_token h ht
  rw [hs] at hne hstep
  rw [Lexer.drain_of_token h ht, group_token ht]
  rcases State.step_index hstep hne (Lexer.state_ne_end ht) with hclosed | hspec
  · unfold ended? indexBefore
    rw [hclosed]
    exact fill_ahead_error (segment_bad_index he)
  · unfold ended? indexBefore indexBehind
    rw [hspec]
    exact fill_spec_bad_index he ((Lexer.tokenStep_ok hl h).state.trans hspec)

theorem rounds_refused (h : l.next? pattern = some (.error e, l')) :
    engine.rounds pattern args (m + 1) s l d st = some (.error e, st) := by
  rw [rounds, h]
  rfl

theorem rounds_token (h : l.next? pattern = some (.ok t, l')) :
    engine.rounds pattern args (m + 1) s l d st =
      match (engine.take args s t d).result st with
      | (.error e, st') => some (.error e, st')
      | (.ok d', st') =>
        if t.isEnd then some (.ok d'.text, st')
        else engine.rounds pattern args m t.state l' d' st' := by
  rw [rounds, h]
  rfl

theorem result_take_unterminated (hinside : (t.isEnd && s.isInside) = true) :
    (engine.take args s t d).result st = (.error .unterminatedPlaceholder, st) := by
  unfold take
  rw [hinside]
  rfl

theorem result_take_bad_index (ht : t.isEnd = false) (he : readIndex (some t.text) = .error e) :
    (engine.take args .parseIndex t d).result st = (.error e, st) := by
  unfold take addText
  rw [ht, he]
  rfl

/-- The round of the end token is the last. -/
theorem rounds_end (h : l.next? pattern = some (.ok t, l')) (ht : t.isEnd)
    (hindex : readIndex index = .ok d.index) :
    engine.rounds pattern args (m + 1) s l d st =
      some (engine.fillBehind args d (group s index [.ok t]) st) := by
  rw [rounds_token h]
  by_cases hinside : s.isInside
  · rw [result_take_unterminated (by rw [ht, hinside]; rfl), group_unterminated ht hinside,
      fillBehind_end, finish_unterminated, hindex]
    rfl
  · have hinside : s.isInside = false := by simpa using hinside
    have hs : s ≠ .parseIndex := by
      rintro rfl
      cases hinside
    rw [take_eq (by rw [ht, hinside]; rfl) (by rw [indexBefore_other hs]; exact hindex)
      fun _ => rfl, group_end ht hinside, fillBehind_aheadOf (indexBehind t d.index)]
    rcases (engine.addSegment args d _ _).result st with ⟨res, st'⟩
    cases res with
    | error e => rfl
    | ok d' =>
      dsimp only
      rw [if_pos ht, fillBehind_end]
      rfl

/-- A round whose token is no end token, in front of rounds that end as the segments do. -/
theorem rounds_ahead (hl : l.AtText) (h : l.tokenStep = (.ok t, l'))
    (hnext : l.next? pattern = some (.ok t, l')) (ht : t.isEnd = false)
    (hindex : readIndex index = .ok d.index)
    (hrest : ∀ {d : Draft} {index : Option String} {st : σ}, readIndex index = .ok d.index →
      engine.rounds pattern args m t.state l' d st =
        some (engine.fillBehind args d (group t.state index l'.drain.1) st)) :
    engine.rounds pattern args (m + 1) l.state l d st =
      some (engine.fillBehind args d (group l.state index l.drain.1) st) := by
  rw [rounds_token hnext]
  cases hbehind : readIndex (indexBefore l.state index t) with
  | error e =>
    have hs : l.state = .parseIndex := by
      by_contra hs
      rw [indexBefore_other hs, hindex] at hbehind
      cases hbehind
    rw [hs] at hbehind ⊢
    rw [result_take_bad_index ht hbehind,
      fillBehind_error (fill_bad_index hl hs h ht hbehind)]
  | ok n =>
    have hd : l.state ≠ .parseIndex → d.index = n := by
      intro hs
      rw [indexBefore_other hs, hindex] at hbehind
      exact Except.ok.inj hbehind
    rw [Lexer.drain_of_token h ht, group_token ht, take_eq (by rw [ht]; rfl) hbehind hd,
      fillBehind_aheadOf (indexBehind t n)]
    rcases hadd : (engine.addSegment args d _ _).result st with ⟨res, st'⟩
    cases res with
    | error e => rfl
    | ok d' =>
      dsimp only
      rw [if_neg (by rw [ht]; decide)]
      exact hrest ((readIndex_indexBehind hbehind).trans (congrArg _ (index_addSegment hadd).symm))

/-- The rounds end with what the segments show one after the other, a round for every token. -/
theorem rounds_eq (hl : l.Within pattern) (hindex : readIndex index = .ok d.index)
    (hm : l.drain.1.length ≤ m) :
    engine.rounds pattern args m l.state l d st =
      some (engine.fillBehind args d (group l.state index l.drain.1) st) := by
  -- on the stream of tokens: a round takes its first, and the bound falls by one
  induction l using Lexer.drain.induct generalizing index d st m with
  | case1 l e l' h =>
    have hnext : l.next? pattern = some (.error e, l') := hl.next?_eq.trans (congrArg some h)
    rw [Lexer.drain_of_error h] at hm ⊢
    obtain ⟨m, rfl⟩ := Nat.exists_eq_add_one.2 hm
    rw [rounds_refused hnext]
    exact (congrArg some (fillBehind_end (.refused e))).symm
  | case2 l t l' h ht =>
    have hnext : l.next? pattern = some (.ok t, l') := hl.next?_eq.trans (congrArg some h)
    rw [Lexer.drain_of_end h ht] at hm ⊢
    obtain ⟨m, rfl⟩ := Nat.exists_eq_add_one.2 hm
    exact rounds_end hnext ht hindex
  | case3 l t l' h ht ih =>
    have hnext : l.next? pattern = some (.ok t, l') := hl.next?_eq.trans (congrArg some h)
    have ht : t.isEnd = false := by simpa using ht
    have hl' : l'.Within pattern := by
      have := hl.tokenStep
      rw [h] at this
      exact this
    have hstate : l'.state = t.state := (Lexer.tokenStep_ok hl.atText h).state
    rw [hstate] at ih
    rw [Lexer.drain_of_token h ht, List.length_cons] at hm
    obtain ⟨m, rfl⟩ := Nat.exists_eq_add_one.2 (Nat.zero_lt_of_lt hm)
    exact rounds_ahead hl.atText h hnext ht hindex
      fun hindex => ih hl' hindex (Nat.le_of_succ_le_succ hm)

/-- The machine gets on over every pattern, and so the rounds end, with what the pattern shows. -/
theorem rounds_progress (engine : Engine σ) (pattern : String) (args : List Value) (st : σ) :
    Lexer.Progress pattern ∧ ∀ m, 2 * pattern.utf8ByteSize + 1 ≤ m →
      engine.rounds pattern args m .start (.ofPattern pattern) {} st =
        some ((engine.render pattern args).result st) := by
  have hprogress := Lexer.progress pattern
  refine ⟨hprogress, fun m hm => ?_⟩
  have hindex : readIndex none = .ok ({} : Draft).index := rfl
  have hrounds : engine.rounds pattern args m .start (.ofPattern pattern) {} st = _ :=
    rounds_eq (Lexer.within_ofPattern pattern) hindex (Nat.le_trans hprogress.items hm)
  exact hrounds.trans (congrArg some (fillBehind_start _))

end Engine

end Interpolation
