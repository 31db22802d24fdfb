import DocInsight.Worker.ChunkWindows

/-! Chunking loses no text: the window loop ends, and every unit, so every whole word and
every token of a cut word, is inside a chunk. -/
namespace DocInsight.Worker

open DocInsight.Contracts DocInsight.Python Loop

/-- The tokens of any text are in order and inside it. -/
def OrderedTokens (tokenizer : Tokenizer) : Prop :=
  ∀ value, SpansOrdered 0 value.length (tokenizer.encode value)

section Coverage
variable {page : Page} {tokenizer : Tokenizer} {counting : Counting}

/-- Every word is cut into its units, in both ways of counting. -/
theorem Counting.units_of (ordered : OrderedTokens tokenizer) (page : Page) (cap : Nat)
    (counting : Counting) :
    ∃ unitsOf, counting.units page tokenizer cap = (words page.text).flatMap unitsOf ∧
      ∀ word ∈ words page.text, UnitsOf tokenizer word (unitsOf word) := by
  have hWords : ∀ word ∈ words page.text,
      SpansOrdered 0 word.group.length (tokenizer.encode word.group) :=
    fun word _ => ordered word.group
  cases counting with
  | pageOffsets => exact pageUnits_of hWords cap
  | candidates => exact referenceUnits_of hWords cap

theorem Counting.units_ordered (ordered : OrderedTokens tokenizer) (page : Page) (cap : Nat)
    (counting : Counting) :
    SpansOrdered 0 page.text.length (counting.units page tokenizer cap) := by
  obtain ⟨unitsOf, hUnits, hEach⟩ := counting.units_of ordered page cap
  rw [hUnits]
  exact flatMap_ordered hEach

/-- Some chunk has the whole span. -/
def InChunk (chunks : List Chunk) (span : Span) : Prop :=
  ∃ chunk ∈ chunks, Covers (chunk.charStart, chunk.charEnd) span

theorem InChunk.mono {chunks : List Chunk} {outer inner : Span} (h : InChunk chunks outer)
    (hInner : Covers outer inner) : InChunk chunks inner := by
  obtain ⟨chunk, hChunk, hCovers⟩ := h
  exact ⟨chunk, hChunk, le_trans hCovers.1 hInner.1, le_trans hInner.2 hCovers.2⟩

/-- Chunks that go on, and have every unit, every word that is not cut and every token
of a word that is. -/
structure LosesNothing (page : Page) (tokenizer : Tokenizer) (units : List Span)
    (chunks : List Chunk) : Prop where
  ends : chunks.Pairwise fun earlier later => earlier.charEnd < later.charEnd
  starts : chunks.Pairwise fun earlier later => earlier.charStart ≤ later.charStart
  everyUnit : ∀ unit ∈ units, InChunk chunks unit
  wholeWords : ∀ word ∈ words page.text, ((word.start : Int), (word.stop : Int)) ∈ units →
    InChunk chunks (word.start, word.stop)
  cutTokens : ∀ word ∈ words page.text, ((word.start : Int), (word.stop : Int)) ∉ units →
    ∀ span ∈ tokenizer.encode word.group, InChunk chunks (word.start + span.1, word.start + span.2)

/-- The window loop ends on every page. If it does not fail, its chunks go on and leave
no unit, no whole word and no token of a cut word behind. -/
theorem chunking_losesNothing (page : Page) (tokenizer : Tokenizer) (settings : ChunkSettings)
    (startOrd : Int) (counting : Counting) (ordered : OrderedTokens tokenizer) :
    (∀ state later, windowTurn (counting.units page tokenizer settings.chunkTokens)
        (counting.count page tokenizer) page settings startOrd state = .next later →
      state.1 < later.1) ∧
    run (windowTurn (counting.units page tokenizer settings.chunkTokens)
        (counting.count page tokenizer) page settings startOrd)
      ((counting.units page tokenizer settings.chunkTokens).length + 1) (0, []) =
        some (counting.chunks page tokenizer settings startOrd) ∧
    (∀ chunks, counting.chunks page tokenizer settings startOrd = .ok chunks →
      LosesNothing page tokenizer (counting.units page tokenizer settings.chunkTokens) chunks) ∧
    chunkPage page tokenizer settings startOrd =
      (Counting.select page tokenizer).chunks page tokenizer settings startOrd ∧
    referenceChunkPage page tokenizer settings startOrd =
      Counting.candidates.chunks page tokenizer settings startOrd := by
  refine ⟨?_, ?_, ?_, chunkPage_eq _ _ _ _, referenceChunkPage_eq _ _ _ _⟩
  · intro state later hTurn
    obtain ⟨-, hGrown, -, hFirst, -⟩ := windowTurn_next _ _ page settings startOrd hTurn
    rw [hFirst]
    exact (overlapStart_bounds _ _ _ _ settings.chunkOverlap hGrown).1
  · exact run_eq_repeatUntil (windowTurn_decreases _ _ page settings startOrd)
      (Nat.lt_succ_self _)
  · intro chunks hChunks
    have hOrdered := counting.units_ordered ordered page settings.chunkTokens
    have hFrontier := chunkWindows_frontier hOrdered hChunks
    have hUnits : ∀ unit ∈ counting.units page tokenizer settings.chunkTokens,
        InChunk chunks unit := by
      intro unit hUnit
      obtain ⟨index, hIndex, rfl⟩ := List.mem_iff_getElem.mp hUnit
      have hCovered := hFrontier.covered index hIndex
      rwa [unitAt, List.getD_eq_getElem _ _ hIndex] at hCovered
    refine ⟨hFrontier.ends, hFrontier.starts, hUnits, fun word _ hWhole => hUnits _ hWhole, ?_⟩
    intro word hWord hCut span hSpan
    obtain ⟨unitsOf, hAll, hEach⟩ := counting.units_of ordered page settings.chunkTokens
    rcases (hEach word hWord).covers with hWhole | hTokens
    · refine absurd ?_ hCut
      rw [hAll]
      exact List.mem_flatMap.mpr ⟨word, hWord, by simp [hWhole]⟩
    · obtain ⟨unit, hUnit, hCovers⟩ := hTokens span hSpan
      refine (hUnits unit ?_).mono hCovers
      rw [hAll]
      exact List.mem_flatMap.mpr ⟨word, hWord, hUnit⟩

end Coverage

/-- One token for each character. -/
def characters : Tokenizer where
  encode value := (List.range value.length).map fun index : Nat => ((index : Int), (index : Int) + 1)

theorem characters_ordered : OrderedTokens characters := by
  intro value
  constructor
  · intro span hSpan
    obtain ⟨index, hIndex, rfl⟩ := List.mem_map.mp hSpan
    have hLess := List.mem_range.mp hIndex
    simp only
    omega
  · refine List.pairwise_map.mpr (List.pairwise_lt_range.imp ?_)
    intro first second hLess
    simp only
    omega

/-- The last window of a cut word ends where its overlap with the next word would not fit. -/
def spacedPage : Page where
  number := 4
  text := text "abc d"
  source := .ocr
  number_ge := by decide

theorem chunking_losesNothing_spaced :
    (Counting.pageOffsets.chunks spacedPage characters ⟨2, 1, by decide⟩ 0).toOption.map
        (List.map fun chunk => (chunk.charStart, chunk.charEnd)) =
      some [(0, 2), (2, 3), (4, 5)] ∧
    ∀ chunks, Counting.pageOffsets.chunks spacedPage characters ⟨2, 1, by decide⟩ 0 = .ok chunks →
      LosesNothing spacedPage characters (Counting.pageOffsets.units spacedPage characters 2)
        chunks :=
  ⟨by decide, (chunking_losesNothing spacedPage characters ⟨2, 1, by decide⟩ 0 .pageOffsets
    characters_ordered).2.2.1⟩

end DocInsight.Worker
