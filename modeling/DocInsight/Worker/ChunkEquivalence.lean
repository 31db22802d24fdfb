import DocInsight.Worker.ChunkUnits

/-! Counting on the offsets of one page encoding is counting every candidate on its own,
for a tokenizer that encodes a text word by word. -/
namespace DocInsight.Worker

open DocInsight.Contracts DocInsight.Python Loop Bisect

/-- The tokens of a word, at their places in the text around it. -/
def placed (tokenizer : Tokenizer) (word : Match) : List Span :=
  (tokenizer.encode word.group).map fun span => (word.start + span.1, word.start + span.2)

/-- Whole words of a page are encoded one by one, as tokens inside their word. Nothing
is said about a piece that is cut inside a word. -/
structure WordCompositional (tokenizer : Tokenizer) (page : Text) : Prop where
  whole : ∀ before middle after, page = before ++ middle ++ after → closed before = true →
    openAt after = true → tokenizer.encode middle = (words middle).flatMap (placed tokenizer)
  inside : ∀ word ∈ words page, ∀ span ∈ tokenizer.encode word.group,
    0 ≤ span.1 ∧ span.1 < span.2 ∧ span.2 ≤ word.group.length

/-- Each value is at least every value before it. -/
theorem ascending_pairwise {values : List Int} (h : ascending values = true) :
    values.Pairwise (· ≤ ·) := by
  rw [← List.isChain_iff_pairwise]
  induction values with
  | nil => exact List.IsChain.nil
  | cons value rest ih =>
      cases rest with
      | nil => exact List.IsChain.singleton value
      | cons next rest =>
          simp only [ascending, List.tail_cons, List.zip_cons_cons, List.all_cons, Bool.and_eq_true,
            decide_eq_true_eq] at h
          exact List.IsChain.cons_cons h.1 (ih (by simpa [ascending] using h.2))

section Count
variable {tokenizer : Tokenizer}

/-- The tokens of words within a range lie within it. -/
theorem placed_bounds (low high : Int) {found : List Match}
    (hInside : ∀ word ∈ found, ∀ span ∈ tokenizer.encode word.group,
      0 ≤ span.1 ∧ span.1 < span.2 ∧ span.2 ≤ word.group.length)
    (hRange : ∀ word ∈ found, low ≤ word.start ∧ word.stop ≤ high) :
    ∀ span ∈ found.flatMap (placed tokenizer), low ≤ span.1 ∧ span.1 < span.2 ∧ span.2 ≤ high := by
  intro span hSpan
  obtain ⟨word, hWord, hMem⟩ := List.mem_flatMap.mp hSpan
  obtain ⟨token, hToken, rfl⟩ := List.mem_map.mp hMem
  have hBounds := hInside word hWord token hToken
  have hWordRange := hRange word hWord
  simp only [Match.stop] at hWordRange ⊢
  omega

/-- Moving words leaves the number of their tokens as it is. -/
theorem placed_shift (offset : Nat) (found : List Match) :
    ((found.map (Match.shift offset)).flatMap (placed tokenizer)).length =
      (found.flatMap (placed tokenizer)).length := by
  induction found with
  | nil => rfl
  | cons word rest ih =>
      simp only [List.map_cons, List.flatMap_cons, List.length_append, ih]
      simp [placed, Match.shift]

/-- Between two cuts of a page that are not inside a word, the ends up to the second cut
less the starts before the first are the tokens between them. -/
theorem count_between {before middle after : Text}
    (hTokenizer : WordCompositional tokenizer (before ++ middle ++ after))
    (hBefore : closed before = true) (hAfter : openAt after = true)
    (hOrdered : (PageTokens.new (before ++ middle ++ after) tokenizer).ordered = true) :
    (bisectRight (PageTokens.new (before ++ middle ++ after) tokenizer).ends
        (before.length + middle.length : Nat) : Int) -
      bisectLeft (PageTokens.new (before ++ middle ++ after) tokenizer).starts before.length =
    (tokenizer.encode middle).length := by
  obtain ⟨hStarts, hEnds⟩ := Bool.and_eq_true_iff.mp hOrdered
  rw [bisectRight_eq_countP (ascending_pairwise hEnds),
    bisectLeft_eq_countP (ascending_pairwise hStarts)]
  have hWords : words (before ++ middle ++ after) = words before ++
      (words middle).map (Match.shift before.length) ++
      (words after).map (Match.shift (before ++ middle).length) := by
    rw [words_append (Or.inr hAfter), words_append (Or.inl hBefore)]
  have hEncode : tokenizer.encode (before ++ middle ++ after) =
      (words before).flatMap (placed tokenizer) ++
      ((words middle).map (Match.shift before.length)).flatMap (placed tokenizer) ++
      ((words after).map (Match.shift (before ++ middle).length)).flatMap (placed tokenizer) := by
    rw [hTokenizer.whole [] _ [] (by simp) closed_nil openAt_nil, hWords, List.flatMap_append,
      List.flatMap_append]
  have hInside := hTokenizer.inside
  rw [hWords] at hInside
  have hFirst := placed_bounds 0 before.length
    (fun word hWord => hInside word (by simp only [List.mem_append]; exact Or.inl (Or.inl hWord)))
    fun word hWord => by
      have hStop := (words_in hWord).stop_le
      omega
  have hSecond := placed_bounds before.length (before ++ middle).length
    (fun word hWord => hInside word (by simp only [List.mem_append]; exact Or.inl (Or.inr hWord)))
    fun word hWord => by
      obtain ⟨found, hFound, rfl⟩ := List.mem_map.mp hWord
      have hStop := (words_in hFound).stop_le
      simp only [Match.shift, Match.stop, List.length_append] at hStop ⊢
      omega
  have hThird := placed_bounds (before ++ middle).length (before ++ middle ++ after).length
    (fun word hWord => hInside word (by simp only [List.mem_append]; exact Or.inr hWord))
    fun word hWord => by
      obtain ⟨found, hFound, rfl⟩ := List.mem_map.mp hWord
      have hStop := (words_in hFound).stop_le
      simp only [Match.shift, Match.stop, List.length_append] at hStop ⊢
      omega
  have hLength : (before ++ middle).length = before.length + middle.length := List.length_append
  simp only [PageTokens.new, List.countP_map, hEncode, List.countP_append]
  -- Ends: the first two parts count in full, the last not at all; starts: only the first.
  rw [List.countP_eq_length.mpr, List.countP_eq_length.mpr, List.countP_eq_zero.mpr,
    List.countP_eq_length.mpr, List.countP_eq_zero.mpr, List.countP_eq_zero.mpr, placed_shift,
    ← hTokenizer.whole before middle after rfl hBefore hAfter]
  · omega
  all_goals
    intro span hSpan
    simp only [Function.comp_apply, decide_eq_true_eq]
  · have hBounds := hThird span hSpan
    omega
  · have hBounds := hSecond span hSpan
    omega
  · have hBounds := hFirst span hSpan
    omega
  · have hBounds := hThird span hSpan
    omega
  · have hBounds := hSecond span hSpan
    omega
  · have hBounds := hFirst span hSpan
    omega

variable {page : Page}

/-- An edge that cuts no word parts a text between its words. -/
theorem parts_of_cuts {value : Text} {start stop : Int} (hStart : 0 ≤ start) (hOrder : start ≤ stop)
    (hStop : stop ≤ value.length) (hCuts : PageTokens.cutsWord value start stop = false) :
    ∃ before middle after, value = before ++ middle ++ after ∧ start = before.length ∧
      stop = (before.length + middle.length : Nat) ∧ closed before = true ∧
      openAt after = true := by
  obtain ⟨first, rfl⟩ := Int.eq_ofNat_of_zero_le hStart
  obtain ⟨last, rfl⟩ := Int.eq_ofNat_of_zero_le (le_trans hStart hOrder)
  rw [Int.ofNat_le] at hOrder hStop
  obtain ⟨hLow, hHigh⟩ := Bool.or_eq_false_iff.mp hCuts
  refine ⟨value.take first, (value.take last).drop first, value.drop last, ?_, ?_, ?_, ?_, ?_⟩
  · have hTake : value.take first = (value.take last).take first := by
      rw [List.take_take, Nat.min_eq_left hOrder]
    rw [hTake, List.take_append_drop, List.take_append_drop]
  · rw [List.length_take]
    omega
  · rw [List.length_take, List.length_drop, List.length_take]
    omega
  · rw [closed, List.getLast?_take]
    cases first with
    | zero => rfl
    | succ first =>
        have hInside : first < value.length := by omega
        have hPlace : ((first + 1 : Nat) : Int) - 1 = first := by omega
        rw [hPlace, charAt_natCast, List.getElem?_eq_getElem hInside] at hLow
        simpa [List.getElem?_eq_getElem hInside] using hLow
  · rw [openAt, List.head?_drop]
    by_cases hInside : last < value.length
    · rw [charAt_natCast, List.getElem?_eq_getElem hInside] at hHigh
      simpa [List.getElem?_eq_getElem hInside, hInside] using hHigh
    · rw [List.getElem?_eq_none (by omega)]
      rfl

/-- The count on the page offsets is the count of the candidate. -/
theorem count_eq (hTokenizer : WordCompositional tokenizer page.text)
    (hOrdered : (PageTokens.new page.text tokenizer).ordered = true) {start stop : Int}
    (hStart : 0 ≤ start) (hOrder : start ≤ stop) (hStop : stop ≤ page.text.length) :
    (PageTokens.new page.text tokenizer).count start stop =
      referenceCount page tokenizer start stop := by
  unfold PageTokens.count referenceCount
  split_ifs with hCuts
  · rfl
  · rw [Bool.not_eq_true] at hCuts
    obtain ⟨before, middle, after, hValue, rfl, rfl, hBefore, hAfter⟩ :=
      parts_of_cuts hStart hOrder hStop hCuts
    rw [hValue] at hTokenizer hOrdered ⊢
    rw [slice_append]
    exact count_between hTokenizer hBefore hAfter hOrdered

/-- On an ordered page the tokens of every word are ordered. -/
theorem word_ordered (hTokenizer : WordCompositional tokenizer page.text)
    (hOrdered : (PageTokens.new page.text tokenizer).ordered = true) :
    ∀ word ∈ words page.text, SpansOrdered 0 word.group.length (tokenizer.encode word.group) := by
  obtain ⟨hStarts, hEnds⟩ := Bool.and_eq_true_iff.mp hOrdered
  have hSorted : (tokenizer.encode page.text).Pairwise fun first second =>
      first.1 ≤ second.1 ∧ first.2 ≤ second.2 :=
    (List.pairwise_map.mp (ascending_pairwise hStarts)).and
      (List.pairwise_map.mp (ascending_pairwise hEnds))
  rw [hTokenizer.whole [] _ [] (by simp) closed_nil openAt_nil, List.pairwise_flatMap] at hSorted
  intro word hWord
  constructor
  · exact hTokenizer.inside word hWord
  · refine (List.pairwise_map.mp (hSorted.1 word hWord)).imp ?_
    rintro first second ⟨hFirst, hSecond⟩
    simp only at hFirst hSecond
    omega

/-- The words are cut into the same units. -/
theorem pageUnits_eq (hTokenizer : WordCompositional tokenizer page.text)
    (hOrdered : (PageTokens.new page.text tokenizer).ordered = true) (cap : Nat) :
    pageUnits page (PageTokens.new page.text tokenizer) cap =
      referenceUnits page tokenizer cap := by
  apply List.flatMap_congr
  intro word hWord
  have hIn := words_in hWord
  have hStop := hIn.stop_le
  have hCount : (PageTokens.new page.text tokenizer).count word.start word.stop =
      (tokenizer.encode word.group).length := by
    rw [count_eq hTokenizer hOrdered (by omega) (by simp only [Match.stop]; omega) (by omega),
      referenceCount, hIn.slice]
  simp only [hCount, Bool.or_eq_true, decide_eq_true_eq, Int.ofNat_le]
  by_cases hShort : word.group.length ≤ cap
  · rw [if_pos (Or.inl hShort), if_neg (not_lt.mpr hShort), List.length_nil,
      if_pos (Nat.zero_le _)]
  · rw [if_pos (not_le.mp hShort)]
    by_cases hFits : (tokenizer.encode word.group).length ≤ cap
    · rw [if_pos (Or.inr hFits), if_pos hFits]
    · rw [if_neg (not_or.mpr ⟨hShort, hFits⟩), if_neg hFits]
      rfl

end Count

section Windows
variable {units : List Span} {count count' : Int → Int → Int}

/-- Two ways to count agree from the start of any unit to the end of any later one. -/
def SameCounts (units : List Span) (count count' : Int → Int → Int) : Prop :=
  ∀ first last, first ≤ last → last < units.length →
    count (unitAt units first).1 (unitAt units last).2 =
      count' (unitAt units first).1 (unitAt units last).2

theorem growWindow_congr (hSame : SameCounts units count count') (first cap : Nat) :
    growWindow units count first cap = growWindow units count' first cap := by
  apply repeatUntil_congr (growTurn_decreases units count cap (unitAt units first).1)
    (growTurn_decreases units count' cap (unitAt units first).1) (fun state => first ≤ state.1)
  · intro state hState
    unfold growTurn
    simp only
    split_ifs with hInside hCap hCap' hCap'
    · rfl
    · rw [hSame first state.1 hState hInside] at hCap
      exact absurd hCap hCap'
    · rw [hSame first state.1 hState hInside] at hCap
      exact absurd hCap' hCap
    · rw [hSame first state.1 hState hInside]
    · rfl
  · intro state later hState hTurn
    unfold growTurn at hTurn
    simp only at hTurn
    split_ifs at hTurn
    cases hTurn
    exact Nat.le_succ_of_le hState
  · exact le_refl _

theorem overlapStart_congr (hSame : SameCounts units count count') {first last : Nat} (budget : Nat)
    (hFirst : first < last) (hLast : last ≤ units.length) :
    overlapStart units count first last budget = overlapStart units count' first last budget := by
  apply repeatUntil_congr
    (overlapTurn_decreases units count first budget (unitAt units (last - 1)).2)
    (overlapTurn_decreases units count' first budget (unitAt units (last - 1)).2)
    (fun nextFirst => nextFirst ≤ last)
  · intro nextFirst hNext
    have hCount := hSame (nextFirst - 1) (last - 1) (by omega) (by omega)
    unfold overlapTurn
    rw [hCount]
  · intro nextFirst later hNext hTurn
    unfold overlapTurn at hTurn
    split_ifs at hTurn
    cases hTurn
    omega
  · exact le_refl _

/-- The windows depend only on the counts between units. -/
theorem chunkWindows_congr (hSame : SameCounts units count count') (page : Page)
    (settings : ChunkSettings) (startOrd : Int) :
    chunkWindows units count page settings startOrd =
      chunkWindows units count' page settings startOrd := by
  apply repeatUntil_congr (windowTurn_decreases units count page settings startOrd)
    (windowTurn_decreases units count' page settings startOrd) (fun _ => True)
  · intro state _
    have hGrow := growWindow_congr hSame state.1 settings.chunkTokens
    unfold windowTurn
    simp only [← hGrow]
    split_ifs with hInside hStuck hEnd
    · rfl
    · rfl
    · have hBounds := growWindow_bounds units count state.1 settings.chunkTokens hInside
      rw [overlapStart_congr hSame settings.chunkOverlap (by omega) hBounds.2]
    · rfl
  · intro state later _ _
    trivial
  · trivial

end Windows

/-- Chunking a page by its offsets gives what the reference gives, chunks or error: for
every page, settings and first ordinal, and every tokenizer that encodes word by word. -/
theorem chunkPage_refines (page : Page) (tokenizer : Tokenizer) (settings : ChunkSettings)
    (startOrd : Int) (hTokenizer : WordCompositional tokenizer page.text) :
    chunkPage page tokenizer settings startOrd =
      referenceChunkPage page tokenizer settings startOrd := by
  unfold chunkPage
  simp only
  split_ifs with hGuard hUnordered
  · rfl
  · rfl
  · have hOrdered : (PageTokens.new page.text tokenizer).ordered = true := by
      simpa using hUnordered
    obtain ⟨unitsOf, hUnits, hEach⟩ :=
      referenceUnits_of (word_ordered hTokenizer hOrdered) settings.chunkTokens
    have ordered : SpansOrdered 0 page.text.length
        (referenceUnits page tokenizer settings.chunkTokens) := hUnits ▸ flatMap_ordered hEach
    rw [pageUnits_eq hTokenizer hOrdered, referenceChunkPage]
    apply chunkWindows_congr
    intro first last hOrder hLast
    have hFirst := ordered.getD_inside (by omega : first < _)
    have hEnd := ordered.getD_inside hLast
    have hSpan := ordered.getD_le hOrder hLast
    exact count_eq hTokenizer hOrdered hFirst.1 (by simp only [unitAt]; omega) hEnd.2.2

/-- One token for each letter of each word. -/
def letters : Tokenizer where
  encode value := (words value).flatMap fun word =>
    (List.range word.group.length).map fun index : Nat =>
      ((word.start : Int) + index, (word.start : Int) + (index + 1))

theorem letters_word {word : Match} {value : Text} (h : word.In value) :
    letters.encode word.group =
      (List.range word.group.length).map fun index : Nat => ((index : Int), (index : Int) + 1) := by
  simp only [letters, h.words_group, List.flatMap_cons, List.flatMap_nil, List.append_nil]
  apply List.map_congr_left
  intro index _
  simp

theorem letters_compositional (page : Text) : WordCompositional letters page where
  whole before middle after _ _ _ := by
    apply List.flatMap_congr
    intro word hWord
    rw [placed, letters_word (words_in hWord), List.map_map]
    rfl
  inside word hWord span hSpan := by
    rw [letters_word (words_in hWord)] at hSpan
    obtain ⟨index, hIndex, rfl⟩ := List.mem_map.mp hSpan
    have hLess := List.mem_range.mp hIndex
    simp only
    omega

/-- A word of three letters is cut for windows of two. -/
def cutWordPage : Page where
  number := 1
  text := text "abc d"
  source := .textLayer
  number_ge := le_refl _

theorem chunkPage_refines_cutWord :
    chunkPage cutWordPage letters ⟨2, 1, by decide⟩ 7 =
        referenceChunkPage cutWordPage letters ⟨2, 1, by decide⟩ 7 ∧
      (referenceChunkPage cutWordPage letters ⟨2, 1, by decide⟩ 7).toOption.map
        (List.map fun chunk => (chunk.charStart, chunk.charEnd)) = some [(0, 2), (2, 5)] :=
  ⟨chunkPage_refines _ _ _ _ (letters_compositional _), by decide⟩

end DocInsight.Worker
