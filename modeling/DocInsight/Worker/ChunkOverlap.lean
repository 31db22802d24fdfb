import DocInsight.Worker.ChunkBudget
import Mathlib.Data.List.Chain

/-! How consecutive chunks of a page overlap, also where windows between them added no new
end and were left out, and that no chunk could take one more unit. -/
namespace DocInsight.Worker

open DocInsight.Contracts DocInsight.Python Loop

/-- Spans one after the other. -/
structure SpansDisjoint (low high : Int) (spans : List Span) : Prop where
  inside : ∀ span ∈ spans, low ≤ span.1 ∧ span.1 < span.2 ∧ span.2 ≤ high
  apart : spans.Pairwise fun first second => first.2 ≤ second.1

theorem SpansDisjoint.ordered {low high : Int} {spans : List Span}
    (disjoint : SpansDisjoint low high spans) : SpansOrdered low high spans where
  inside := disjoint.inside
  sorted := disjoint.apart.imp_of_mem fun {first second} hFirst hSecond hApart => by
    have hFirstInside := disjoint.inside first hFirst
    have hSecondInside := disjoint.inside second hSecond
    omega

theorem SpansDisjoint.unitAt_inside {low high : Int} {units : List Span}
    (disjoint : SpansDisjoint low high units) {index : Nat} (hIndex : index < units.length) :
    (unitAt units index).1 < (unitAt units index).2 :=
  (disjoint.ordered.getD_inside hIndex).2.1

theorem SpansDisjoint.unitAt_apart {low high : Int} {units : List Span}
    (disjoint : SpansDisjoint low high units) {first second : Nat} (hOrder : first < second)
    (hSecond : second < units.length) : (unitAt units first).2 ≤ (unitAt units second).1 := by
  rw [unitAt, unitAt, List.getD_eq_getElem _ _ hSecond, List.getD_eq_getElem _ _ (by omega)]
  exact List.pairwise_iff_getElem.mp disjoint.apart first second _ _ hOrder

section Units
variable {tokenizer : Tokenizer} {page : Page}

/-- The pieces of a word with disjoint tokens are disjoint. -/
theorem splitOffsets_apart {group : Text} {cap : Nat} {offsets : List Span} {high : Int}
    (disjoint : SpansDisjoint 0 high offsets) (start : Nat) :
    (splitOffsets tokenizer group cap offsets start).Pairwise fun first second =>
      first.2 ≤ second.1 := by
  refine repeatUntil_invariant (splitTurn_decreases tokenizer group cap offsets start)
    (fun state => state.2.Pairwise (fun first second => first.2 ≤ second.1) ∧
      ∀ unit ∈ state.2, ∀ index, state.1 ≤ index → index < offsets.length →
        unit.2 ≤ start + (offsets.getD index (0, 0)).1)
    (fun units => units.Pairwise fun first second => first.2 ≤ second.1) ?_ ?_ ?_
  · rintro state later ⟨hApart, hBefore⟩ h
    unfold splitTurn at h
    simp only at h
    split_ifs at h with hInside
    cases h
    obtain ⟨hGrown, hBound⟩ := pieceEnd_bounds tokenizer group cap offsets state.1 hInside
    refine ⟨List.pairwise_append.mpr ⟨hApart, List.pairwise_singleton _ _, ?_⟩, ?_⟩
    · intro unit hUnit other hOther
      obtain rfl := List.mem_singleton.mp hOther
      exact hBefore unit hUnit state.1 le_rfl hInside
    · intro unit hUnit index hIndex hLength
      obtain hOld | hNew := List.mem_append.mp hUnit
      · exact hBefore unit hOld index (by omega) hLength
      · obtain rfl := List.mem_singleton.mp hNew
        have hApart := disjoint.unitAt_apart
          (by omega : pieceEnd tokenizer group cap offsets state.1 - 1 < index) hLength
        simp only [unitAt] at hApart
        omega
  · rintro state result ⟨hApart, -⟩ h
    unfold splitTurn at h
    simp only at h
    split_ifs at h
    cases h
    exact hApart
  · exact ⟨List.Pairwise.nil, fun _ hUnit => absurd hUnit List.not_mem_nil⟩

/-- The units of a page whose words have disjoint tokens are disjoint. -/
theorem referenceUnits_disjoint
    (disjoint : ∀ word ∈ words page.text,
      SpansDisjoint 0 word.group.length (tokenizer.encode word.group)) (cap : Nat) :
    SpansDisjoint 0 page.text.length (referenceUnits page tokenizer cap) := by
  obtain ⟨unitsOf, hUnits, hEach⟩ : ∃ unitsOf,
      referenceUnits page tokenizer cap = (words page.text).flatMap unitsOf ∧
      ∀ word ∈ words page.text, UnitsOf tokenizer word (unitsOf word) ∧
        (unitsOf word).Pairwise fun first second => first.2 ≤ second.1 := by
    refine ⟨_, rfl, fun word hWord => ?_⟩
    simp only
    split_ifs with hLong hFits hFits
    · exact ⟨unitsOf_whole tokenizer (words_in hWord), List.pairwise_singleton _ _⟩
    · exact ⟨unitsOf_split (disjoint word hWord).ordered cap,
        splitOffsets_apart (disjoint word hWord) word.start⟩
    · exact ⟨unitsOf_whole tokenizer (words_in hWord), List.pairwise_singleton _ _⟩
    · exact absurd (Nat.zero_le cap) hFits
  rw [hUnits]
  refine ⟨(flatMap_ordered fun word hWord => (hEach word hWord).1).inside,
    List.pairwise_flatMap.mpr ⟨fun word hWord => (hEach word hWord).2, ?_⟩⟩
  refine (words_pairwise page.text).imp_of_mem ?_
  intro first second hFirst hSecond hOrder unit hUnit other hOther
  have hUnitInside := (hEach first hFirst).1.ordered.inside unit hUnit
  have hOtherInside := (hEach second hSecond).1.ordered.inside other hOther
  omega

end Units

section Windows
variable {units : List Span} {count : Int → Int → Int} {page : Page} {settings : ChunkSettings}
  {startOrd high : Int}

/-- A run of units counts no more than a longer run around it. -/
def RunsMonotone (units : List Span) (count : Int → Int → Int) : Prop :=
  ∀ last < units.length, ∀ innerLast ≤ last, ∀ innerFirst ≤ innerLast, ∀ first ≤ innerFirst,
    count (unitAt units innerFirst).1 (unitAt units innerLast).2 ≤
      count (unitAt units first).1 (unitAt units last).2

instance (units : List Span) (count : Int → Int → Int) : Decidable (RunsMonotone units count) := by
  unfold RunsMonotone
  infer_instance

/-- A window ends with the last unit, or because the next one does not fit. -/
theorem growWindow_maximal (units : List Span) (count : Int → Int → Int) (cap : Nat)
    {first : Nat} (hFirst : first < units.length) :
    (growWindow units count first cap).1 = units.length ∨
      cap < count (unitAt units first).1
        (unitAt units (growWindow units count first cap).1).2 := by
  refine repeatUntil_invariant (growTurn_decreases units count cap (unitAt units first).1)
    (fun state => state.1 ≤ units.length)
    (fun state => state.1 = units.length ∨
      cap < count (unitAt units first).1 (unitAt units state.1).2) ?_ ?_ hFirst.le
  · intro state later hState h
    unfold growTurn at h
    simp only at h
    split_ifs at h
    cases h
    simp only
    omega
  · intro state result hState h
    unfold growTurn at h
    simp only at h
    split_ifs at h with hInside hMore
    · cases h
      exact Or.inr hMore
    · cases h
      exact Or.inl (by omega)

/-- A window takes every unit up to one that fits. -/
theorem growWindow_reaches (monotone : RunsMonotone units count) {first last cap : Nat}
    (hOrder : first < last) (hLast : last ≤ units.length)
    (hFits : count (unitAt units first).1 (unitAt units (last - 1)).2 ≤ cap) :
    last ≤ (growWindow units count first cap).1 := by
  obtain hEnd | hMore := growWindow_maximal units count cap (by omega : first < units.length)
  · omega
  · by_contra hShort
    have hBounds := growWindow_bounds units count first cap (by omega)
    have hLess := monotone (last - 1) (by omega) (growWindow units count first cap).1 (by omega)
      first hBounds.1 first le_rfl
    omega

/-- The next window starts at the end, or where the overlap is within its budget. -/
theorem overlapStart_budget (units : List Span) (count : Int → Int → Int)
    (first last budget : Nat) :
    overlapStart units count first last budget = last ∨
      count (unitAt units (overlapStart units count first last budget)).1
        (unitAt units (last - 1)).2 ≤ budget := by
  refine repeatUntil_invariant
    (overlapTurn_decreases units count first budget (unitAt units (last - 1)).2)
    (fun nextFirst => nextFirst = last ∨
      count (unitAt units nextFirst).1 (unitAt units (last - 1)).2 ≤ budget)
    (fun nextFirst => nextFirst = last ∨
      count (unitAt units nextFirst).1 (unitAt units (last - 1)).2 ≤ budget) ?_ ?_ (Or.inl rfl)
  · intro nextFirst later _ h
    unfold overlapTurn at h
    split_ifs at h with hInside hMore
    cases h
    exact Or.inr (not_lt.mp hMore)
  · intro nextFirst result hBudget h
    unfold overlapTurn at h
    split_ifs at h <;> cases h <;> exact hBudget

/-- One chunk after another: neither contains the other, and what they have in common is
nothing or within the overlap. -/
structure Follows (units : List Span) (count : Int → Int → Int) (overlap : Nat)
    (earlier later : Chunk) : Prop where
  starts : earlier.charStart < later.charStart
  ends : earlier.charEnd < later.charEnd
  shared : (∀ unit ∈ units, ¬(Covers (earlier.charStart, earlier.charEnd) unit ∧
      Covers (later.charStart, later.charEnd) unit)) ∨
    count later.charStart earlier.charEnd ≤ overlap

/-- A chunk of whole units that is the last of the page or cannot take the next unit. -/
def Full (units : List Span) (count : Int → Int → Int) (cap : Nat) (chunk : Chunk) : Prop :=
  ∃ first last, first < last ∧ last ≤ units.length ∧
    chunk.charStart = (unitAt units first).1 ∧ chunk.charEnd = (unitAt units (last - 1)).2 ∧
    (last = units.length ∨ cap < count chunk.charStart (unitAt units last).2)

/-- The chunks so far, with where the next window stands to the last of them. Windows that
were left out since end with that chunk too. -/
structure Overlapping (units : List Span) (count : Int → Int → Int) (settings : ChunkSettings)
    (first : Nat) (chunks : List Chunk) : Prop where
  chain : chunks.IsChain (Follows units count settings.chunkOverlap)
  full : ∀ chunk ∈ chunks, Full units count settings.chunkTokens chunk
  next : ∀ previous ∈ chunks.getLast?, ∃ stop, 0 < stop ∧ first ≤ stop ∧ stop < units.length ∧
    previous.charStart < (unitAt units first).1 ∧
    previous.charEnd = (unitAt units (stop - 1)).2 ∧
    (first = stop ∨ count (unitAt units first).1 previous.charEnd ≤ settings.chunkOverlap)

/-- The window after some chunks, emitted or left out, keeps them in a chain. -/
theorem Overlapping.append (disjoint : SpansDisjoint 0 high units) {first : Nat}
    {chunks : List Chunk} (overlapping : Overlapping units count settings first chunks)
    (hFirst : first < units.length)
    (hGrown : first < (growWindow units count first settings.chunkTokens).1) :
    (appendChunk units page startOrd chunks first
        (growWindow units count first settings.chunkTokens).1
        (growWindow units count first settings.chunkTokens).2).IsChain
      (Follows units count settings.chunkOverlap) ∧
    ∀ chunk ∈ appendChunk units page startOrd chunks first
        (growWindow units count first settings.chunkTokens).1
        (growWindow units count first settings.chunkTokens).2,
      Full units count settings.chunkTokens chunk := by
  have hBounds := growWindow_bounds units count first settings.chunkTokens hFirst
  have hFull := growWindow_maximal units count settings.chunkTokens hFirst
  unfold appendChunk
  simp only
  split_ifs with hNew
  · refine ⟨List.isChain_append.mpr ⟨overlapping.chain, List.isChain_singleton _, ?_⟩, ?_⟩
    · intro previous hPrevious later hLater
      simp only [List.head?_cons, Option.mem_def, Option.some.injEq] at hLater
      obtain ⟨stop, hSome, -, hInside, hStart, hEnd, hBudget⟩ := overlapping.next previous hPrevious
      have hEnds : previous.charEnd < (unitAt units
          ((growWindow units count first settings.chunkTokens).1 - 1)).2 := by
        rw [Option.mem_def.mp hPrevious] at hNew
        simpa using hNew
      subst hLater
      refine ⟨hStart, hEnds, hBudget.imp (fun hSame unit hUnit hBoth => ?_) id⟩
      -- The last unit of the one chunk is before the first of the other.
      have hApart := disjoint.unitAt_apart (by omega : stop - 1 < first) hFirst
      have hUnitInside := disjoint.inside unit hUnit
      simp only [Covers] at hBoth
      omega
    · intro chunk hChunk
      obtain hOld | hLast := List.mem_append.mp hChunk
      · exact overlapping.full chunk hOld
      · obtain rfl := List.mem_singleton.mp hLast
        exact ⟨first, _, hGrown, hBounds.2, rfl, rfl, hFull⟩
  · exact ⟨overlapping.chain, overlapping.full⟩

/-- The next window stands to the chunk of this one, or to the last one before it if this
one was left out: then both end with the same unit. -/
theorem Overlapping.step (disjoint : SpansDisjoint 0 high units)
    (monotone : RunsMonotone units count) {first : Nat} {chunks : List Chunk}
    (overlapping : Overlapping units count settings first chunks) (hFirst : first < units.length)
    (hGrown : first < (growWindow units count first settings.chunkTokens).1)
    (hShort : (growWindow units count first settings.chunkTokens).1 < units.length) :
    Overlapping units count settings
      (overlapStart units count first (growWindow units count first settings.chunkTokens).1
        settings.chunkOverlap)
      (appendChunk units page startOrd chunks first
        (growWindow units count first settings.chunkTokens).1
        (growWindow units count first settings.chunkTokens).2) := by
  obtain ⟨hChain, hAll⟩ :=
    @Overlapping.append _ _ page _ startOrd _ disjoint _ _ overlapping hFirst hGrown
  have hStart := overlapStart_bounds units count first _ settings.chunkOverlap hGrown
  have hBudget := overlapStart_budget units count first
    (growWindow units count first settings.chunkTokens).1 settings.chunkOverlap
  have hReaches := @growWindow_reaches _ _ monotone first
  generalize overlapStart units count first (growWindow units count first settings.chunkTokens).1
    settings.chunkOverlap = nextFirst at *
  have hLater : (unitAt units first).1 < (unitAt units nextFirst).1 := by
    have hUnit := disjoint.unitAt_inside hFirst
    have hApart := disjoint.unitAt_apart hStart.1 (by omega)
    omega
  refine ⟨hChain, hAll, ?_⟩
  intro previous hPrevious
  unfold appendChunk at hPrevious
  simp only at hPrevious
  split_ifs at hPrevious with hNew
  · rw [List.getLast?_concat, Option.mem_def, Option.some.injEq] at hPrevious
    subst hPrevious
    exact ⟨_, by omega, hStart.2, hShort, hLater, rfl, hBudget⟩
  · obtain ⟨stop, hSome, hStop, hInside, hBegin, hEnd, hOld⟩ :=
      overlapping.next previous hPrevious
    rw [Option.mem_def.mp hPrevious, Option.all_some, decide_eq_true_eq, not_lt, hEnd] at hNew
    have hWithin : (growWindow units count first settings.chunkTokens).1 ≤ stop := by
      by_contra hPast
      have hApart := disjoint.unitAt_apart (by omega : stop - 1 <
        (growWindow units count first settings.chunkTokens).1 - 1) (by omega)
      have hUnit := disjoint.unitAt_inside (by omega :
        (growWindow units count first settings.chunkTokens).1 - 1 < units.length)
      omega
    have hFits := hOld.resolve_left (by omega)
    have hSame : stop = (growWindow units count first settings.chunkTokens).1 := by
      have hOverlap := settings.valid_overlap
      have hTaken := hReaches (by omega : first < stop) hInside.le
        (hEnd ▸ (by omega : count (unitAt units first).1 previous.charEnd ≤ settings.chunkTokens))
      omega
    rw [hEnd, hSame]
    rw [hSame] at hInside hSome
    exact ⟨_, hSome, hStart.2, hInside, by omega, rfl, hBudget⟩

/-- The chunks of the window loop, over disjoint units and a count that grows with them. -/
theorem chunkWindows_overlapping (disjoint : SpansDisjoint 0 high units)
    (monotone : RunsMonotone units count) {chunks : List Chunk}
    (h : chunkWindows units count page settings startOrd = .ok chunks) :
    chunks.IsChain (Follows units count settings.chunkOverlap) ∧
      ∀ chunk ∈ chunks, Full units count settings.chunkTokens chunk := by
  have hAll : ∀ chunks, chunkWindows units count page settings startOrd = .ok chunks →
      chunks.IsChain (Follows units count settings.chunkOverlap) ∧
        ∀ chunk ∈ chunks, Full units count settings.chunkTokens chunk := by
    apply repeatUntil_invariant (windowTurn_decreases units count page settings startOrd)
      (fun state => Overlapping units count settings state.1 state.2)
      (fun result => ∀ chunks, result = .ok chunks →
        chunks.IsChain (Follows units count settings.chunkOverlap) ∧
          ∀ chunk ∈ chunks, Full units count settings.chunkTokens chunk)
    · intro state later hOverlapping hTurn
      obtain ⟨hInside, hGrown, hShort, hFirst, hChunks⟩ :=
        windowTurn_next units count page settings startOrd hTurn
      rw [hFirst, hChunks]
      exact hOverlapping.step disjoint monotone hInside hGrown hShort
    · rintro state result hOverlapping hTurn chunks rfl
      unfold windowTurn at hTurn
      simp only at hTurn
      split_ifs at hTurn with hInside hStuck hEnd
      · cases hTurn
      · cases hTurn
        have hBounds := growWindow_bounds units count state.1 settings.chunkTokens hInside
        exact hOverlapping.append disjoint hInside (by omega)
      · cases hTurn
        exact ⟨hOverlapping.chain, hOverlapping.full⟩
    · exact ⟨List.isChain_nil, fun chunk hChunk => (nomatch hChunk),
        fun previous hPrevious => (nomatch hPrevious)⟩
  exact hAll chunks h

end Windows

/-- Consecutive chunks that share no unit or no more tokens than the overlap, and no chunk
that could take one more unit, all counted by encoding the text of the page. -/
structure KeepsOverlap (page : Page) (tokenizer : Tokenizer) (settings : ChunkSettings)
    (units : List Span) (chunks : List Chunk) : Prop where
  consecutive : chunks.IsChain
    (Follows units (referenceCount page tokenizer) settings.chunkOverlap)
  maximal : ∀ chunk ∈ chunks,
    Full units (referenceCount page tokenizer) settings.chunkTokens chunk

/-- The overlap of consecutive chunks and the size of each, in both ways of counting: for
every page and settings, and a tokenizer that encodes word by word, with disjoint tokens, and
counts a run of units no higher than a longer run around it. -/
theorem chunking_keepsOverlap (page : Page) (tokenizer : Tokenizer) (settings : ChunkSettings)
    (startOrd : Int) (hTokenizer : WordCompositional tokenizer page.text)
    (hDisjoint : ∀ word ∈ words page.text,
      SpansDisjoint 0 word.group.length (tokenizer.encode word.group))
    (hMonotone : RunsMonotone (referenceUnits page tokenizer settings.chunkTokens)
      (referenceCount page tokenizer)) :
    (∀ chunks, chunkPage page tokenizer settings startOrd = .ok chunks →
      KeepsOverlap page tokenizer settings
        ((Counting.select page tokenizer).units page tokenizer settings.chunkTokens) chunks) ∧
    ∀ chunks, referenceChunkPage page tokenizer settings startOrd = .ok chunks →
      KeepsOverlap page tokenizer settings
        (referenceUnits page tokenizer settings.chunkTokens) chunks := by
  have hReference : ∀ chunks, referenceChunkPage page tokenizer settings startOrd = .ok chunks →
      KeepsOverlap page tokenizer settings
        (referenceUnits page tokenizer settings.chunkTokens) chunks := by
    intro chunks hChunks
    have hAll := chunkWindows_overlapping
      (referenceUnits_disjoint hDisjoint settings.chunkTokens) hMonotone hChunks
    exact ⟨hAll.1, hAll.2⟩
  refine ⟨?_, hReference⟩
  intro chunks hChunks
  have hUnits : (Counting.select page tokenizer).units page tokenizer settings.chunkTokens =
      referenceUnits page tokenizer settings.chunkTokens := by
    cases hSelect : Counting.select page tokenizer with
    | candidates => rfl
    | pageOffsets =>
        exact pageUnits_eq hTokenizer (select_pageOffsets hSelect) settings.chunkTokens
  rw [chunkPage_refines page tokenizer settings startOrd hTokenizer] at hChunks
  rw [hUnits]
  exact hReference chunks hChunks

theorem letters_disjoint {word : Match} {value : Text} (h : word.In value) :
    SpansDisjoint 0 word.group.length (letters.encode word.group) := by
  rw [letters_word h]
  constructor
  · intro span hSpan
    obtain ⟨index, hIndex, rfl⟩ := List.mem_map.mp hSpan
    have hLess := List.mem_range.mp hIndex
    simp only
    omega
  · rw [List.pairwise_map]
    apply List.pairwise_lt_range.imp
    intro first second hLess
    simp only
    omega

/-- A word that leaves no room for the overlap before it: the windows from the second to the
fourth word would end where the first window did. -/
def crowdedPage : Page where
  number := 5
  text := text "a b c d abcdefghij"
  source := .textLayer
  number_ge := by omega

theorem crowdedPage_monotone :
    RunsMonotone (referenceUnits crowdedPage letters 10) (referenceCount crowdedPage letters) := by
  decide +kernel

theorem chunking_keepsOverlap_crowded :
    (chunkPage crowdedPage letters ⟨10, 4, by decide⟩ 0).toOption.map
        (List.map fun chunk => (chunk.charStart, chunk.charEnd)) = some [(0, 7), (8, 18)] ∧
    ∀ chunks, chunkPage crowdedPage letters ⟨10, 4, by decide⟩ 0 = .ok chunks →
      KeepsOverlap crowdedPage letters ⟨10, 4, by decide⟩
        ((Counting.select crowdedPage letters).units crowdedPage letters 10) chunks :=
  ⟨by decide +kernel, (chunking_keepsOverlap crowdedPage letters ⟨10, 4, by decide⟩ 0
    (letters_compositional _) (fun _ hWord => letters_disjoint (words_in hWord))
    crowdedPage_monotone).1⟩

end DocInsight.Worker
