import DocInsight.Worker.Chunking
import Mathlib.Data.List.GetD

/-! The units of a page: in order, inside the page, and covering every word, also the
ones that are cut between their tokens. -/
namespace DocInsight.Worker

open DocInsight.Contracts DocInsight.Python Loop

/-- Non-empty spans within bounds, with nondecreasing starts and nondecreasing ends. -/
structure SpansOrdered (low high : Int) (spans : List Span) : Prop where
  inside : ∀ span ∈ spans, low ≤ span.1 ∧ span.1 < span.2 ∧ span.2 ≤ high
  sorted : spans.Pairwise fun first second => first.1 ≤ second.1 ∧ first.2 ≤ second.2

theorem SpansOrdered.singleton {low high : Int} {span : Span}
    (h : low ≤ span.1 ∧ span.1 < span.2 ∧ span.2 ≤ high) : SpansOrdered low high [span] where
  inside other hOther := by
    obtain rfl := List.mem_singleton.mp hOther
    exact h
  sorted := List.pairwise_singleton _ _

theorem SpansOrdered.getD_inside {low high : Int} {spans : List Span}
    (ordered : SpansOrdered low high spans) {index : Nat} (hIndex : index < spans.length) :
    low ≤ (spans.getD index (0, 0)).1 ∧
      (spans.getD index (0, 0)).1 < (spans.getD index (0, 0)).2 ∧
      (spans.getD index (0, 0)).2 ≤ high := by
  rw [List.getD_eq_getElem _ _ hIndex]
  exact ordered.inside _ (List.getElem_mem hIndex)

theorem SpansOrdered.getD_le {low high : Int} {spans : List Span}
    (ordered : SpansOrdered low high spans) {first second : Nat} (hOrder : first ≤ second)
    (hSecond : second < spans.length) :
    (spans.getD first (0, 0)).1 ≤ (spans.getD second (0, 0)).1 ∧
      (spans.getD first (0, 0)).2 ≤ (spans.getD second (0, 0)).2 := by
  rw [List.getD_eq_getElem _ _ hSecond, List.getD_eq_getElem _ _ (by omega)]
  rcases Nat.lt_or_eq_of_le hOrder with hLess | rfl
  · exact List.pairwise_iff_getElem.mp ordered.sorted first second _ _ hLess
  · exact ⟨le_refl _, le_refl _⟩

/-- One span covers another. -/
def Covers (outer inner : Span) : Prop := outer.1 ≤ inner.1 ∧ inner.2 ≤ outer.2

section Split
variable {tokenizer : Tokenizer} {group : Text} {cap : Nat} {offsets : List Span} {high : Int}

/-- The pieces of a word made of the tokens up to some index: in order, ending where
those tokens end, and covering each of them. -/
structure PiecesOf (offsets : List Span) (start : Nat) (high : Int) (upTo : Nat)
    (units : List Span) : Prop where
  bound : upTo ≤ offsets.length
  ordered : SpansOrdered start (start + high) units
  before : ∀ unit ∈ units, ∀ index, upTo ≤ index → index < offsets.length →
    unit.1 ≤ start + (offsets.getD index (0, 0)).1 ∧
      unit.2 ≤ start + (offsets.getD index (0, 0)).2
  covers : ∀ index < upTo, ∃ unit ∈ units, Covers unit
    (start + (offsets.getD index (0, 0)).1, start + (offsets.getD index (0, 0)).2)

/-- The next piece goes from one token to a later one. -/
theorem PiecesOf.append (ordered : SpansOrdered 0 high offsets) {start first last : Nat}
    {units : List Span} (pieces : PiecesOf offsets start high first units)
    (hFirst : first < last) (hLast : last ≤ offsets.length) :
    PiecesOf offsets start high last
      (units ++ [((start : Int) + (offsets.getD first (0, 0)).1,
        (start : Int) + (offsets.getD (last - 1) (0, 0)).2)]) := by
  have hHead := ordered.getD_inside (by omega : first < offsets.length)
  have hTail := ordered.getD_inside (by omega : last - 1 < offsets.length)
  have hSpan := ordered.getD_le (by omega : first ≤ last - 1) (by omega)
  refine ⟨hLast, ⟨?_, ?_⟩, ?_, ?_⟩
  · intro unit hUnit
    rcases List.mem_append.mp hUnit with hOld | hNew
    · exact pieces.ordered.inside unit hOld
    · obtain rfl := List.mem_singleton.mp hNew
      simp only
      omega
  · refine List.pairwise_append.mpr ⟨pieces.ordered.sorted, List.pairwise_singleton _ _, ?_⟩
    intro unit hUnit other hOther
    obtain rfl := List.mem_singleton.mp hOther
    have hBegin := pieces.before unit hUnit first (le_refl _) (by omega)
    have hEnd := pieces.before unit hUnit (last - 1) (by omega) (by omega)
    exact ⟨hBegin.1, hEnd.2⟩
  · intro unit hUnit index hIndex hInside
    rcases List.mem_append.mp hUnit with hOld | hNew
    · exact pieces.before unit hOld index (by omega) hInside
    · obtain rfl := List.mem_singleton.mp hNew
      have hBegin := ordered.getD_le (by omega : first ≤ index) hInside
      have hEnd := ordered.getD_le (by omega : last - 1 ≤ index) hInside
      simp only
      omega
  · intro index hIndex
    by_cases hOld : index < first
    · obtain ⟨unit, hUnit, hCovers⟩ := pieces.covers index hOld
      exact ⟨unit, List.mem_append_left _ hUnit, hCovers⟩
    · have hBegin := ordered.getD_le (by omega : first ≤ index) (by omega)
      have hEnd := ordered.getD_le (by omega : index ≤ last - 1) (by omega)
      refine ⟨_, List.mem_append_right _ (List.mem_singleton.mpr rfl), ?_⟩
      simp only [Covers]
      omega

/-- Cutting a word between ordered tokens covers every token by ordered pieces. -/
theorem splitOffsets_pieces (ordered : SpansOrdered 0 high offsets) (start : Nat) :
    PiecesOf offsets start high offsets.length
      (splitOffsets tokenizer group cap offsets start) := by
  refine repeatUntil_invariant (splitTurn_decreases tokenizer group cap offsets start)
    (fun state => PiecesOf offsets start high state.1 state.2)
    (fun units => PiecesOf offsets start high offsets.length units) ?_ ?_ ?_
  · intro state later pieces h
    unfold splitTurn at h
    simp only at h
    split_ifs at h with hInside
    cases h
    obtain ⟨hGrown, hBound⟩ := pieceEnd_bounds tokenizer group cap offsets state.1 hInside
    exact pieces.append ordered hGrown hBound
  · intro state result pieces h
    unfold splitTurn at h
    simp only at h
    split_ifs at h with hInside
    cases h
    have hAll : state.1 = offsets.length := le_antisymm pieces.bound (by omega)
    exact hAll ▸ pieces
  · refine ⟨Nat.zero_le _, ⟨?_, List.Pairwise.nil⟩, ?_, ?_⟩
    · intro unit hUnit
      cases hUnit
    · intro unit hUnit
      cases hUnit
    · intro index hIndex
      exact absurd hIndex (Nat.not_lt_zero _)

end Split

/-- The units of one word: the word itself, or pieces that cover its tokens. -/
structure UnitsOf (tokenizer : Tokenizer) (word : Match) (units : List Span) : Prop where
  ordered : SpansOrdered word.start word.stop units
  covers : units = [((word.start : Int), (word.stop : Int))] ∨
    ∀ span ∈ tokenizer.encode word.group, ∃ unit ∈ units,
      Covers unit (word.start + span.1, word.start + span.2)

theorem unitsOf_whole (tokenizer : Tokenizer) {word : Match} {page : Text} (h : word.In page) :
    UnitsOf tokenizer word [((word.start : Int), (word.stop : Int))] := by
  have hLength := List.length_pos_iff.mpr h.nonempty
  refine ⟨SpansOrdered.singleton ⟨le_refl _, ?_, le_refl _⟩, Or.inl rfl⟩
  simp only [Match.stop]
  omega

theorem unitsOf_split {tokenizer : Tokenizer} {word : Match}
    (ordered : SpansOrdered 0 word.group.length (tokenizer.encode word.group)) (cap : Nat) :
    UnitsOf tokenizer word (splitOffsets tokenizer word.group cap
      (tokenizer.encode word.group) word.start) := by
  have pieces : PiecesOf _ word.start _ _ (splitOffsets tokenizer word.group cap
    (tokenizer.encode word.group) word.start) := splitOffsets_pieces ordered word.start
  have hStop : (word.stop : Int) = word.start + word.group.length := by
    simp only [Match.stop]
    omega
  refine ⟨hStop ▸ pieces.ordered, Or.inr fun span hSpan => ?_⟩
  obtain ⟨index, hIndex, rfl⟩ := List.mem_iff_getElem.mp hSpan
  have hCovers := pieces.covers index hIndex
  rwa [List.getD_eq_getElem _ _ hIndex] at hCovers

/-- The units of all words of a page come in order and inside the page. -/
theorem flatMap_ordered {tokenizer : Tokenizer} {page : Text} {unitsOf : Match → List Span}
    (h : ∀ word ∈ words page, UnitsOf tokenizer word (unitsOf word)) :
    SpansOrdered 0 page.length ((words page).flatMap unitsOf) := by
  refine ⟨fun unit hUnit => ?_, List.pairwise_flatMap.mpr
    ⟨fun word hWord => (h word hWord).ordered.sorted, ?_⟩⟩
  · obtain ⟨word, hWord, hMem⟩ := List.mem_flatMap.mp hUnit
    have hInside := (h word hWord).ordered.inside unit hMem
    have hStop := (words_in hWord).stop_le
    omega
  · refine (words_pairwise page).imp_of_mem ?_
    intro first second hFirst hSecond hOrder unit hUnit other hOther
    have hUnitInside := (h first hFirst).ordered.inside unit hUnit
    have hOtherInside := (h second hSecond).ordered.inside other hOther
    omega

/-- Every word is cut into its units, in both ways of counting. -/
theorem referenceUnits_of {page : Page} {tokenizer : Tokenizer}
    (ordered : ∀ word ∈ words page.text,
      SpansOrdered 0 word.group.length (tokenizer.encode word.group)) (cap : Nat) :
    ∃ unitsOf, referenceUnits page tokenizer cap = (words page.text).flatMap unitsOf ∧
      ∀ word ∈ words page.text, UnitsOf tokenizer word (unitsOf word) := by
  refine ⟨_, rfl, fun word hWord => ?_⟩
  simp only
  split_ifs with hLong hFits hFits
  · exact unitsOf_whole tokenizer (words_in hWord)
  · exact unitsOf_split (ordered word hWord) cap
  · exact unitsOf_whole tokenizer (words_in hWord)
  · exact absurd (Nat.zero_le cap) hFits

theorem pageUnits_of {page : Page} {tokens : PageTokens}
    (ordered : ∀ word ∈ words page.text,
      SpansOrdered 0 word.group.length (tokens.tokenizer.encode word.group)) (cap : Nat) :
    ∃ unitsOf, pageUnits page tokens cap = (words page.text).flatMap unitsOf ∧
      ∀ word ∈ words page.text, UnitsOf tokens.tokenizer word (unitsOf word) := by
  refine ⟨_, rfl, fun word hWord => ?_⟩
  split_ifs
  · exact unitsOf_whole tokens.tokenizer (words_in hWord)
  · exact unitsOf_split (ordered word hWord) cap

end DocInsight.Worker
