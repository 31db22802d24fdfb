import DocInsight.Python.Sentences
import DocInsight.Query.Ranking
import Mathlib.Algebra.Order.Field.Basic
import Mathlib.Data.List.GetD
import Mathlib.Data.List.MinMax
import Mathlib.Tactic.Linarith

/-! Contiguous sentence windows from the highest-ranked passage. Cutting a text between words
cuts no token, so a window is grounded in its passage. -/
namespace DocInsight.Query

open DocInsight.Contracts DocInsight.Python

namespace ExtractiveGenerator

/-- Of items that are alike the first is chosen. -/
theorem argmax_first {Item : Type} {key : Item → ℚ} {items : List Item} {best : Item}
    (h : items.argmax key = some best) :
    ∃ index : Nat, items[index]? = some best ∧
      ∀ earlier < index, ∀ item, items[earlier]? = some item → key item < key best := by
  induction items generalizing best with
  | nil => cases h
  | cons head rest ih =>
      rw [List.argmax_cons] at h
      cases hRest : rest.argmax key with
      | none =>
          rw [hRest] at h
          cases h
          exact ⟨0, rfl, fun earlier hEarlier => absurd hEarlier (Nat.not_lt_zero _)⟩
      | some other =>
          rw [hRest] at h
          simp only at h
          split_ifs at h with hLess
          · cases h
            obtain ⟨index, hIndex, hFirst⟩ := ih hRest
            refine ⟨index + 1, hIndex, ?_⟩
            intro earlier hEarlier item hItem
            cases earlier with
            | zero =>
                cases hItem
                exact hLess
            | succ earlier => exact hFirst earlier (Nat.lt_of_succ_lt_succ hEarlier) item hItem
          · cases h
            exact ⟨0, rfl, fun earlier hEarlier => absurd hEarlier (Nat.not_lt_zero _)⟩

/-- From each boundary to the second one behind it. -/
def windows (passage : Text) : List Text :=
  let bounds := boundaries passage
  bounds.dropLast.zipIdx.map fun (start, index) =>
    strip (slice passage start (bounds.getD (min (index + 2) (bounds.length - 1)) 0))

variable (unicode : Unicode)

def generate (question : Text) : List Text → Generation
  | [] => { answer := [], supported := false }
  | passage :: _ =>
      -- The first of the windows with the largest overlap.
      let answer := ((windows passage).argmax (Ranking.overlap unicode question)).getD []
      { answer
        supported := !answer.isEmpty && 3 / 10 ≤ Ranking.overlap unicode question answer
        citedPassageIndexes := if answer.isEmpty then [] else [0] }

end ExtractiveGenerator

namespace Ranking
variable {unicode : Unicode}

/-- The character tables know no whitespace in words. -/
def SpaceApart (unicode : Unicode) : Prop :=
  ∀ character, isSpace character = true → unicode.isWord character = false

section Tokens
variable (apart : SpaceApart unicode)
include apart

theorem tokens_append_space (before after : Text) {space : CodePoint}
    (hSpace : isSpace space = true) :
    tokens unicode (before ++ space :: after) = tokens unicode before ++ tokens unicode after := by
  rw [tokens, List.splitOnP_append_cons _ _ (by simp [apart space hSpace]), List.filter_append,
    tokens, tokens]

/-- Cutting a text between words cuts no token. -/
theorem tokens_append {first second : Text}
    (hBetween : closed first = true ∨ openAt second = true) :
    tokens unicode (first ++ second) = tokens unicode first ++ tokens unicode second := by
  have hNone : tokens unicode [] = [] := by simp [tokens]
  obtain hClosed | hOpen := hBetween
  · cases first using List.reverseRecOn with
    | nil => rw [hNone, List.nil_append, List.nil_append]
    | append_singleton first space =>
        have hSpace : isSpace space = true := by simpa [closed] using hClosed
        rw [List.append_assoc, List.singleton_append, tokens_append_space apart _ _ hSpace,
          tokens_append_space apart _ _ hSpace, hNone, List.append_nil]
  · cases second with
    | nil => rw [hNone, List.append_nil, List.append_nil]
    | cons space second =>
        have hSpace : isSpace space = true := by simpa [openAt] using hOpen
        have hAlone := tokens_append_space apart [] second hSpace
        rw [List.nil_append, hNone, List.nil_append] at hAlone
        rw [tokens_append_space apart _ _ hSpace, hAlone]

theorem tokens_space {value : Text} (h : ∀ character ∈ value, isSpace character = true) :
    tokens unicode value = [] := by
  induction value with
  | nil => simp [tokens]
  | cons space rest ih =>
      rw [List.forall_mem_cons] at h
      have hAlone := tokens_append_space apart [] rest h.1
      rw [List.nil_append, ih h.2, List.append_nil] at hAlone
      rw [hAlone]
      simp [tokens]

/-- Stripping takes no token. -/
theorem tokens_strip (value : Text) : tokens unicode (strip value) = tokens unicode value := by
  obtain ⟨leading, trailing, hParts, hLeading, hTrailing⟩ := strip_parts value
  conv_rhs => rw [hParts]
  rw [tokens_append apart (Or.inl (closed_of_space hLeading)),
    tokens_append apart (Or.inr (openAt_of_space hTrailing)), tokens_space apart hLeading,
    tokens_space apart hTrailing, List.nil_append, List.append_nil]

/-- The words of a slice between cuts are words of every slice around it. -/
theorem tokens_slice_subset {value : Text} {first start stop last : Nat} (hStart : IsCut value start)
    (hStop : IsCut value stop) (hFirst : first ≤ start) (hOrder : start ≤ stop)
    (hLast : stop ≤ last) :
    tokens unicode (slice value start stop) ⊆ tokens unicode (slice value first last) := by
  rw [slice_split hFirst (hOrder.trans hLast), slice_split hOrder hLast,
    tokens_append apart (by rw [← slice_split hOrder hLast]; exact hStart.between_slices first last),
    tokens_append apart (hStop.between_slices start last)]
  intro token hToken
  exact List.mem_append_right _ (List.mem_append_left _ hToken)

end Tokens

theorem words_subset {value evidence : Text}
    (h : tokens unicode value ⊆ tokens unicode evidence) :
    words unicode value ⊆ words unicode evidence := by
  intro word hWord
  rw [words, mem_fromKeys] at hWord ⊢
  exact List.map_subset _ (List.filter_subset _ h) hWord

/-- More evidence overlaps more. -/
theorem overlap_mono (question : Text) {evidence more : Text}
    (h : words unicode evidence ⊆ words unicode more) :
    overlap unicode question evidence ≤ overlap unicode question more := by
  unfold overlap
  simp only
  split_ifs with hNone
  · exact le_rfl
  · have hFound : ((words unicode question).filter (· ∈ words unicode evidence)).length ≤
        ((words unicode question).filter (· ∈ words unicode more)).length := by
      apply List.Sublist.length_le
      apply List.monotone_filter_right
      intro word hWord
      simpa using h (by simpa using hWord)
    gcongr

/-- A text all of whose words are in the evidence overlaps it in full. -/
theorem overlap_full {value evidence : Text} (hWords : words unicode value ≠ [])
    (h : words unicode value ⊆ words unicode evidence) : overlap unicode value evidence = 1 := by
  have hAll : (words unicode value).filter (· ∈ words unicode evidence) = words unicode value :=
    List.filter_eq_self.mpr fun word hWord => by simpa using h hWord
  have hLength : ((words unicode value).length : ℚ) ≠ 0 := by
    simpa using hWords
  unfold overlap
  simp only [List.isEmpty_iff, hWords, if_false, hAll]
  exact div_self hLength

/-- No evidence of any overlap is without words. -/
theorem words_ne_nil {question evidence : Text} (h : 0 < overlap unicode question evidence) :
    words unicode evidence ≠ [] := by
  intro hNone
  unfold overlap at h
  simp [hNone] at h

end Ranking

namespace ExtractiveGenerator
variable {unicode : Unicode} {question passage : Text}

/-- The boundary a window starts or ends at; behind the last there is none. -/
def boundaryAt (passage : Text) (index : Nat) : Nat :=
  (boundaries passage).getD (min index ((boundaries passage).length - 1)) 0

/-- The window that starts at a boundary. -/
def windowAt (passage : Text) (index : Nat) : Text :=
  strip (slice passage (boundaryAt passage index) (boundaryAt passage (index + 2)))

theorem windows_eq (passage : Text) :
    windows passage = (List.range ((sentenceEnds passage).length + 1)).map (windowAt passage) := by
  apply List.ext_getElem
  · simp [windows, boundaries_dropLast]
  · intro index hLeft hRight
    have hIndex : index < (sentenceEnds passage).length + 1 := by simpa using hRight
    have hBound : index < (boundaries passage).length := by
      rw [length_boundaries]
      omega
    have hStart : boundaryAt passage index = (boundaries passage)[index] := by
      rw [boundaryAt, Nat.min_eq_left (by omega), List.getD_eq_getElem _ _ hBound]
    simp only [windows, List.getElem_map, List.getElem_zipIdx, List.getElem_dropLast,
      List.getElem_range, Nat.zero_add, windowAt, hStart]
    rfl

theorem boundaryAt_eq {index : Nat} (h : index < (0 :: sentenceEnds passage).length) :
    boundaryAt passage index = (0 :: sentenceEnds passage)[index] := by
  have hIndex : min index ((boundaries passage).length - 1) = index := by
    rw [List.length_cons] at h
    rw [length_boundaries]
    omega
  rw [boundaryAt, hIndex, boundaries, ← List.cons_append, List.getD_append _ _ _ _ h,
    List.getD_eq_getElem _ _ h]

theorem boundaryAt_end (passage : Text) {index : Nat}
    (h : (sentenceEnds passage).length < index) : boundaryAt passage index = passage.length := by
  have hIndex : min index ((boundaries passage).length - 1) =
      (0 :: sentenceEnds passage).length := by
    rw [length_boundaries, List.length_cons]
    omega
  rw [boundaryAt, hIndex, boundaries, ← List.cons_append, List.getD_append_right _ _ _ _ le_rfl]
  simp

theorem isCut_boundaryAt (passage : Text) (index : Nat) :
    IsCut passage (boundaryAt passage index) := by
  obtain hEnd | hInside := Nat.lt_or_ge (sentenceEnds passage).length index
  · rw [boundaryAt_end passage hEnd]
    exact Or.inr (Or.inl rfl)
  · rw [boundaryAt_eq (Nat.lt_succ_of_le hInside), ← mem_boundaries, boundaries,
      ← List.cons_append]
    exact List.mem_append_left _ (List.getElem_mem _)

theorem boundaryAt_lt (passage : Text) {index later : Nat} (h : index < later)
    (hLater : later ≤ (sentenceEnds passage).length) :
    boundaryAt passage index < boundaryAt passage later := by
  rw [boundaryAt_eq (Nat.lt_succ_of_le (h.le.trans hLater)),
    boundaryAt_eq (Nat.lt_succ_of_le hLater)]
  exact List.pairwise_iff_getElem.mp (boundaries_strict passage) _ _ _ _ h

theorem boundaryAt_mono (passage : Text) {index later : Nat} (h : index ≤ later) :
    boundaryAt passage index ≤ boundaryAt passage later := by
  obtain hEnd | hInside := Nat.lt_or_ge (sentenceEnds passage).length later
  · rw [boundaryAt_end passage hEnd]
    exact (isCut_boundaryAt passage index).le
  · obtain rfl | hLess := Nat.eq_or_lt_of_le h
    · exact le_rfl
    · exact (boundaryAt_lt passage hLess hInside).le

theorem exists_boundaryAt {place : Nat} (h : IsCut passage place) :
    ∃ index, boundaryAt passage index = place := by
  rw [← mem_boundaries, boundaries, ← List.cons_append, List.mem_append, List.mem_singleton] at h
  obtain hInside | rfl := h
  · obtain ⟨index, hIndex, rfl⟩ := List.mem_iff_getElem.mp hInside
    exact ⟨index, boundaryAt_eq hIndex⟩
  · exact ⟨_, boundaryAt_end passage (Nat.lt_succ_self _)⟩

/-- A text between two cuts with at most one more between them, so of at most two sentences,
without the whitespace around it. -/
structure SentenceWindow (passage : Text) (start stop : Nat) (window : Text) : Prop where
  starts : IsCut passage start
  stops : IsCut passage stop
  ordered : start ≤ stop
  sentences : ∃ middle, ∀ place, IsCut passage place → start < place → place < stop → place = middle
  text : window = strip (slice passage start stop)

/-- A window has no boundary inside but the next one. -/
theorem windowAt_spans (passage : Text) (index : Nat) :
    SentenceWindow passage (boundaryAt passage index) (boundaryAt passage (index + 2))
      (windowAt passage index) where
  starts := isCut_boundaryAt passage index
  stops := isCut_boundaryAt passage (index + 2)
  ordered := boundaryAt_mono passage (Nat.le_add_right index 2)
  sentences := by
    refine ⟨boundaryAt passage (index + 1), ?_⟩
    intro place hCut hStart hStop
    obtain ⟨other, rfl⟩ := exists_boundaryAt hCut
    obtain hBefore | rfl | hBehind := Nat.lt_trichotomy other (index + 1)
    · have hLow := boundaryAt_mono passage (Nat.le_of_lt_succ hBefore)
      omega
    · rfl
    · have hHigh := boundaryAt_mono passage (by omega : index + 2 ≤ other)
      omega
  text := rfl

theorem SentenceWindow.part {start stop : Nat} {window : Text}
    (spans : SentenceWindow passage start stop window) : window <:+: passage := by
  obtain ⟨leading, trailing, hParts, -⟩ := strip_parts (slice passage start stop)
  rw [← spans.text, slice_natCast] at hParts
  have hInside : (passage.take stop).drop start <:+: passage :=
    (List.drop_suffix _ _).isInfix.trans (List.take_prefix _ _).isInfix
  rw [hParts] at hInside
  exact (List.infix_append' leading window trailing).trans (by simpa using hInside)

section Grounded
variable (apart : Ranking.SpaceApart unicode)
include apart

/-- Every word of a window is a word of its passage. -/
theorem SentenceWindow.words_subset {start stop : Nat} {window : Text}
    (spans : SentenceWindow passage start stop window) :
    Ranking.words unicode window ⊆ Ranking.words unicode passage := by
  have hWhole : slice passage 0 passage.length = passage := by
    rw [← Nat.cast_zero, slice_natCast]
    simp
  apply Ranking.words_subset
  rw [spans.text, Ranking.tokens_strip apart]
  have hInside := Ranking.tokens_slice_subset apart spans.starts spans.stops (Nat.zero_le start)
    spans.ordered spans.stops.le
  rwa [Nat.cast_zero, hWhole] at hInside

/-- The window that starts at a boundary overlaps most of those that start there. -/
theorem SentenceWindow.overlap_le {start stop : Nat} {window : Text}
    (spans : SentenceWindow passage start stop window) :
    ∃ best ∈ windows passage,
      Ranking.overlap unicode question window ≤ Ranking.overlap unicode question best := by
  rw [windows_eq]
  obtain hSame | hLess := Nat.eq_or_lt_of_le spans.ordered
  · refine ⟨windowAt passage 0, List.mem_map_of_mem (List.mem_range.mpr (Nat.succ_pos _)), ?_⟩
    apply Ranking.overlap_mono
    apply Ranking.words_subset
    have hEmpty : window = [] := by
      rw [spans.text, hSame, slice_natCast, List.drop_eq_nil_of_le (List.length_take_le _ _)]
      rfl
    rw [hEmpty]
    simp [Ranking.tokens]
  · obtain ⟨index, rfl⟩ := exists_boundaryAt spans.starts
    have hIndex : index < (sentenceEnds passage).length + 1 := by
      by_contra hEnd
      have hStop := spans.stops.le
      rw [boundaryAt_end passage (by omega)] at hLess
      omega
    refine ⟨windowAt passage index, List.mem_map_of_mem (List.mem_range.mpr hIndex), ?_⟩
    apply Ranking.overlap_mono
    apply Ranking.words_subset
    rw [spans.text, windowAt, Ranking.tokens_strip apart, Ranking.tokens_strip apart]
    refine Ranking.tokens_slice_subset apart spans.starts spans.stops le_rfl spans.ordered ?_
    -- Otherwise the next two boundaries would both be inside.
    by_contra hLast
    obtain ⟨middle, hMiddle⟩ := spans.sentences
    have hStop := spans.stops.le
    have hInside : index + 2 ≤ (sentenceEnds passage).length := by
      by_contra hEnd
      rw [boundaryAt_end passage (not_le.mp hEnd)] at hLast
      omega
    have hNext := boundaryAt_lt passage (by omega : index < index + 1) (by omega)
    have hSecond := boundaryAt_lt passage (by omega : index + 1 < index + 2) hInside
    have hOne := hMiddle _ (isCut_boundaryAt passage (index + 1)) hNext (by omega)
    have hOther := hMiddle _ (isCut_boundaryAt passage (index + 2)) (by omega) (by omega)
    omega

/-- The first of the windows with the largest overlap, of all that have at most two sentences;
it is a part of the passage and has its words from it. -/
structure BestWindow (unicode : Unicode) (question passage answer : Text) : Prop where
  spans : ∃ start stop, SentenceWindow passage start stop answer
  part : answer <:+: passage
  best : ∀ start stop window, SentenceWindow passage start stop window →
    Ranking.overlap unicode question window ≤ Ranking.overlap unicode question answer
  first : ∃ index : Nat, (windows passage)[index]? = some answer ∧
    ∀ earlier < index, ∀ window, (windows passage)[earlier]? = some window →
      Ranking.overlap unicode question window < Ranking.overlap unicode question answer
  words : Ranking.words unicode answer ⊆ Ranking.words unicode passage

/-- The answer to a question from the first passage. -/
theorem generate_best (question passage : Text) (others : List Text) :
    BestWindow unicode question passage
      (generate unicode question (passage :: others)).answer := by
  obtain ⟨answer, hAnswer⟩ : ∃ answer,
      (windows passage).argmax (Ranking.overlap unicode question) = some answer := by
    apply Option.ne_none_iff_exists'.mp
    rw [ne_eq, List.argmax_eq_none, windows_eq]
    simp
  have hGenerated : (generate unicode question (passage :: others)).answer = answer := by
    simp only [generate, hAnswer, Option.getD_some]
  rw [hGenerated]
  have hMember := List.argmax_mem hAnswer
  obtain ⟨index, -, rfl⟩ := List.mem_map.mp (windows_eq passage ▸ hMember)
  have hSpans := windowAt_spans passage index
  refine ⟨⟨_, _, hSpans⟩, hSpans.part, ?_, ?_, hSpans.words_subset apart⟩
  · intro start stop window hWindow
    obtain ⟨best, hBest, hOverlap⟩ := @SentenceWindow.overlap_le _ question _ apart _ _ _ hWindow
    exact hOverlap.trans (List.le_of_mem_argmax hBest hAnswer)
  · exact argmax_first hAnswer

end Grounded

section Assessment
variable {passage : Text} {others : List Text}

/-- The relative distance of the last score from the first. -/
def margin (scores : List ℚ) : ℚ :=
  match scores.head?, scores.getLast? with
  | some first, some last => if 1 < scores.length then (first - last) / first else 0
  | _, _ => 0

theorem margin_bounds {scores : List ℚ} (hPositive : ∀ score ∈ scores, 0 < score)
    (hOrder : scores.Pairwise fun earlier later => later ≤ earlier) :
    0 ≤ margin scores ∧ margin scores ≤ 1 := by
  cases scores with
  | nil => exact ⟨le_rfl, zero_le_one⟩
  | cons first rest =>
      obtain ⟨last, hLast⟩ : ∃ last, (first :: rest).getLast? = some last :=
        ⟨_, List.getLast?_eq_some_getLast (List.cons_ne_nil _ _)⟩
      have hFirst := hPositive first List.mem_cons_self
      have hMember := List.mem_of_getLast? hLast
      have hBelow : last ≤ first := by
        obtain rfl | hRest := List.mem_cons.mp hMember
        · exact le_rfl
        · exact (List.pairwise_cons.mp hOrder).1 last hRest
      have hAbove := hPositive last hMember
      unfold margin
      rw [List.head?_cons, hLast]
      simp only
      split_ifs
      · exact ⟨div_nonneg (sub_nonneg.mpr hBelow) hFirst.le,
          (div_le_one hFirst).mpr (by linarith)⟩
      · exact ⟨le_rfl, zero_le_one⟩

/-- A grounded answer to ranked passages is scored by their margin alone. -/
theorem confidence_grounded {scores : List ℚ} (hScores : scores ≠ [])
    (hPositive : ∀ score ∈ scores, 0 < score)
    (hOrder : scores.Pairwise fun earlier later => later ≤ earlier) {answer : Text}
    (hAnswer : strip answer ≠ []) (hGrounded : Ranking.overlap unicode answer passage = 1) :
    Ranking.confidence unicode scores true answer [passage] =
      7 / 10 + 3 / 10 * margin scores := by
  obtain ⟨hLow, hHigh⟩ := margin_bounds hPositive hOrder
  obtain ⟨first, rest, rfl⟩ := List.exists_cons_of_ne_nil hScores
  have hFirst := hPositive first List.mem_cons_self
  have hOne : (text " ").intercalate [passage] = passage := by simp [List.intercalate]
  obtain ⟨last, hLast⟩ : ∃ last, (first :: rest).getLast? = some last :=
    ⟨_, List.getLast?_eq_some_getLast (List.cons_ne_nil _ _)⟩
  have hMargin : (if 1 < (first :: rest).length ∧ 0 < first then (first - last) / first else 0) =
      margin (first :: rest) := by
    rw [margin, List.head?_cons, hLast]
    simp only [hFirst, and_true]
  have hShown : (strip answer).isEmpty = false := by simpa using hAnswer
  unfold Ranking.confidence
  simp only [List.head?_cons, hLast, hOne, hGrounded, hShown, List.isEmpty_cons, Bool.not_true,
    Bool.or_self, Bool.false_eq_true, if_false]
  rw [hMargin, max_eq_right hLow, min_eq_right hHigh, mul_one, max_eq_right (by linarith),
    min_eq_right (by linarith)]

/-- An answer is supported by its overlap with the question alone. -/
theorem supported_iff {question : Text} :
    (generate unicode question (passage :: others)).supported = true ↔
      3 / 10 ≤ Ranking.overlap unicode question
        (generate unicode question (passage :: others)).answer := by
  have hSupported : (generate unicode question (passage :: others)).supported =
      (!(generate unicode question (passage :: others)).answer.isEmpty &&
        3 / 10 ≤ Ranking.overlap unicode question
          (generate unicode question (passage :: others)).answer) := rfl
  rw [hSupported, Bool.and_eq_true, decide_eq_true_eq, and_iff_right_iff_imp]
  intro hOverlap
  have hWords := Ranking.words_ne_nil (lt_of_lt_of_le (by norm_num) hOverlap)
  cases hAnswer : (generate unicode question (passage :: others)).answer with
  | nil =>
      rw [hAnswer] at hWords
      exact absurd (by simp [Ranking.words, Ranking.tokens, fromKeys]) hWords
  | cons head tail => rfl

/-- A supported answer is not empty and cites the passage. -/
theorem supported_cites {question : Text}
    (hSupported : (generate unicode question (passage :: others)).supported = true) :
    (generate unicode question (passage :: others)).answer ≠ [] ∧
      (generate unicode question (passage :: others)).citedPassageIndexes = [0] := by
  have hShown : (!(generate unicode question (passage :: others)).answer.isEmpty) = true :=
    (Bool.and_eq_true_iff.mp hSupported).1
  have hCited : (generate unicode question (passage :: others)).citedPassageIndexes =
      if (generate unicode question (passage :: others)).answer.isEmpty then [] else [0] := rfl
  rw [Bool.not_eq_true'] at hShown
  rw [hCited, hShown]
  exact ⟨by simpa using hShown, rfl⟩

/-- Stripping leaves a supported answer as it is. -/
theorem strip_answer_ne (apart : Ranking.SpaceApart unicode) {question : Text}
    (hSupported : (generate unicode question (passage :: others)).supported = true) :
    strip (generate unicode question (passage :: others)).answer ≠ [] := by
  obtain ⟨start, stop, spans⟩ := (generate_best apart question passage others).spans
  have hStripped : strip (generate unicode question (passage :: others)).answer =
      (generate unicode question (passage :: others)).answer := by
    rw [spans.text, strip_strip]
  rw [hStripped]
  exact (supported_cites hSupported).1

/-- A shown answer that cites the first hit is assessed by it. -/
theorem assess_first {generation : Generation} (provider : GenerationInfo) (hit : SearchHit)
    (rest : List SearchHit) (threshold : ℚ) (hAnswer : strip generation.answer ≠ [])
    (hSupported : generation.supported = true) (hCited : generation.citedPassageIndexes = [0]) :
    (Ranking.assessGeneration unicode generation provider (hit :: rest) threshold).1 =
        Ranking.confidence unicode ((hit :: rest).map (·.score)) true generation.answer
          [hit.chunk.text] ∧
      (Ranking.assessGeneration unicode generation provider (hit :: rest) threshold).2.1 =
        Ranking.shouldAbstain (Ranking.confidence unicode ((hit :: rest).map (·.score)) true
          generation.answer [hit.chunk.text]) threshold true (provider.provider = "openai") := by
  have hIndexes : fromKeys [(0 : Int)] = [0] := by decide
  have hShown : (strip generation.answer).isEmpty = false := by simpa using hAnswer
  have hHit : itemAt (hit :: rest) 0 = some hit := itemAt_natCast (hit :: rest) 0
  unfold Ranking.assessGeneration
  simp [hCited, hIndexes, hShown, hSupported, hHit]

end Assessment

/-- Extracted answers are grounded in full, so that support alone decides on abstention: for
every question and nonempty list of hits with positive scores that do not go up, every threshold of
at most 0.7, and whatever provider is named. -/
theorem extractive_grounded (apart : Ranking.SpaceApart unicode) (question : Text)
    {hits : List SearchHit} (hHits : hits ≠ []) (hPositive : ∀ hit ∈ hits, 0 < hit.score)
    (hOrder : hits.Pairwise fun earlier later => later.score ≤ earlier.score) {threshold : ℚ}
    (hThreshold : threshold ≤ 7 / 10) (provider : GenerationInfo) :
    ∃ passage others, hits.map (·.chunk.text) = passage :: others ∧
      BestWindow unicode question passage
        (generate unicode question (passage :: others)).answer ∧
      ((generate unicode question (passage :: others)).supported = true →
        Ranking.overlap unicode (generate unicode question (passage :: others)).answer passage = 1 ∧
        (Ranking.assessGeneration unicode (generate unicode question (passage :: others)) provider
          hits threshold).1 = 7 / 10 + 3 / 10 * margin (hits.map (·.score)) ∧
        7 / 10 ≤ (Ranking.assessGeneration unicode (generate unicode question (passage :: others))
          provider hits threshold).1) ∧
      ((Ranking.assessGeneration unicode (generate unicode question (passage :: others)) provider
          hits threshold).2.1 = true ↔
        Ranking.overlap unicode question (generate unicode question (passage :: others)).answer <
          3 / 10) := by
  obtain ⟨hit, rest, rfl⟩ := List.exists_cons_of_ne_nil hHits
  refine ⟨hit.chunk.text, rest.map (·.chunk.text), rfl, generate_best apart _ _ _, ?_⟩
  have hBest := generate_best apart question hit.chunk.text (rest.map (·.chunk.text))
  have hStripped := @strip_answer_ne unicode hit.chunk.text (rest.map (·.chunk.text)) apart question
  have hCites := @supported_cites unicode hit.chunk.text (rest.map (·.chunk.text)) question
  have hSupportedIff := @supported_iff unicode hit.chunk.text (rest.map (·.chunk.text)) question
  generalize generate unicode question (hit.chunk.text :: rest.map (·.chunk.text)) = generation at *
  have hScores : ∀ score ∈ (hit :: rest).map (·.score), 0 < score := by simpa using hPositive
  have hSorted : ((hit :: rest).map (·.score)).Pairwise fun earlier later => later ≤ earlier := by
    simpa [List.pairwise_map] using hOrder
  have hMargin := margin_bounds hScores hSorted
  by_cases hSupported : generation.supported = true
  · have hOverlap := hSupportedIff.mp hSupported
    have hWords := Ranking.words_ne_nil (lt_of_lt_of_le (by norm_num) hOverlap)
    have hGrounded := Ranking.overlap_full hWords hBest.words
    have hConfidence := confidence_grounded (by simp : (hit :: rest).map (·.score) ≠ [])
      hScores hSorted (hStripped hSupported) hGrounded
    obtain ⟨hValue, hAbstained⟩ := @assess_first unicode generation provider hit rest threshold
      (hStripped hSupported) hSupported (hCites hSupported).2
    have hAbove : 7 / 10 ≤ 7 / 10 + 3 / 10 * margin ((hit :: rest).map (·.score)) := by linarith
    refine ⟨fun _ => ?_, ?_⟩
    · rw [hValue, hConfidence]
      exact ⟨hGrounded, rfl, hAbove⟩
    · rw [hAbstained, hConfidence, Ranking.shouldAbstain]
      refine iff_of_false ?_ (not_lt.mpr hOverlap)
      simp only [Bool.not_true, Bool.false_or, Bool.and_eq_true, Bool.or_eq_true,
        decide_eq_true_eq, not_and, not_or, not_le, not_lt]
      exact fun _ => ⟨by linarith, by linarith⟩
  · refine ⟨fun hShown => absurd hShown hSupported, iff_of_true ?_ ?_⟩
    · rw [Bool.not_eq_true] at hSupported
      simp [Ranking.assessGeneration, Ranking.shouldAbstain, hSupported]
    · exact not_le.mp fun hOverlap => hSupported (hSupportedIff.mpr hOverlap)

/-- Words of small letters. -/
def smallLetters : Unicode where
  isWord character := 97 ≤ character.val && character.val ≤ 122
  isUpper _ := false
  casefold := id
  nfkc := id

theorem smallLetters_apart : Ranking.SpaceApart smallLetters := by
  intro character hSpace
  simp only [isSpace, Bool.or_eq_true, Bool.and_eq_true, decide_eq_true_eq] at hSpace
  simp only [smallLetters, Bool.and_eq_false_iff, decide_eq_false_iff_not]
  omega

def skyHits : List SearchHit :=
  let hit (passage : Text) (score : ℚ) : SearchHit :=
    { documentId := ⟨7⟩, score,
      chunk := { text := passage, page := 1, ord := 0, charStart := 0, charEnd := 1,
                 tokenCount := 1 } }
  [hit (text "grass is green.  the sky is blue! water too.") (1 / 2), hit (text "no") (1 / 4)]

theorem extractive_grounded_sky :
    (generate smallLetters (text "blue sky") (skyHits.map (·.chunk.text))).answer =
        text "grass is green.  the sky is blue!" ∧
      (Ranking.assessGeneration smallLetters
        (generate smallLetters (text "blue sky") (skyHits.map (·.chunk.text)))
        { provider := "extractive", model := "sentence-window-v1" } skyHits (3 / 5)).2.1 = false := by
  have hAnswer : (generate smallLetters (text "blue sky") (skyHits.map (·.chunk.text))).answer =
      text "grass is green.  the sky is blue!" := by decide +kernel
  obtain ⟨passage, others, hPassages, -, -, hAbstained⟩ := extractive_grounded smallLetters_apart
    (text "blue sky") (by simp [skyHits] : skyHits ≠ []) (by simp [skyHits])
    (by simp [skyHits]; norm_num) (by norm_num : (3 / 5 : ℚ) ≤ 7 / 10)
    { provider := "extractive", model := "sentence-window-v1" }
  rw [← hPassages, hAnswer] at hAbstained
  refine ⟨hAnswer, Bool.not_eq_true _ ▸ fun hShown => ?_⟩
  have hBelow := hAbstained.mp hShown
  revert hBelow
  decide +kernel

end ExtractiveGenerator

end DocInsight.Query
