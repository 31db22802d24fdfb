import DocInsight.Python.Text
import Mathlib.Data.List.Pairwise

/-! The matches of the pattern `\S+` in a text: its words, each with its place. -/
namespace DocInsight.Python

/-- A match with the place where it starts. -/
structure Match where
  start : Nat
  group : Text
  deriving DecidableEq, Repr

def Match.stop (found : Match) : Nat := found.start + found.group.length

def Match.shift (offset : Nat) (found : Match) : Match :=
  { found with start := offset + found.start }

/-- The word read so far, when there is one. -/
def flush (start : Nat) (current : Text) : List Match :=
  if current.isEmpty then [] else [⟨start, current⟩]

/-- Read on from a place, with the word that is being read. -/
def wordsFrom (start : Nat) (current : Text) : Text → List Match
  | [] => flush start current
  | character :: rest =>
      if isSpace character then
        flush start current ++ wordsFrom (start + current.length + 1) [] rest
      else wordsFrom start (current ++ [character]) rest

/-- `re.finditer(r"\S+", value)`. -/
def words (value : Text) : List Match := wordsFrom 0 [] value

/-- The text ends in whitespace or is empty. -/
def closed (value : Text) : Bool := value.getLast?.all isSpace

/-- The text starts with whitespace or is empty. -/
def openAt (value : Text) : Bool := value.head?.all isSpace

@[simp] theorem closed_nil : closed [] = true := rfl

@[simp] theorem openAt_nil : openAt [] = true := rfl

theorem flush_shift (offset start : Nat) (current : Text) :
    flush (offset + start) current = (flush start current).map (Match.shift offset) := by
  unfold flush
  split_ifs <;> rfl

theorem wordsFrom_shift (offset start : Nat) (current value : Text) :
    wordsFrom (offset + start) current value =
      (wordsFrom start current value).map (Match.shift offset) := by
  induction value generalizing start current with
  | nil => exact flush_shift offset start current
  | cons character rest ih =>
      unfold wordsFrom
      split_ifs
      · rw [List.map_append, ← flush_shift, ← ih]
        congr 2
        omega
      · exact ih start _

theorem closed_append_cons (before : Text) (character : CodePoint) (after : Text)
    (hSpace : isSpace character = true) : closed (before ++ character :: after) = closed after := by
  cases after with
  | nil => simp [closed, hSpace]
  | cons head tail => simp [closed, List.getLast?_eq_some_getLast]

/-- A nonempty text without whitespace is not closed. -/
theorem eq_nil_of_closed {value : Text} (hWord : ∀ character ∈ value, isSpace character = false)
    (hClosed : closed value = true) : value = [] := by
  by_contra hNe
  have hLast := hWord _ (List.getLast_mem hNe)
  rw [closed, List.getLast?_eq_some_getLast hNe, Option.all_some, hLast] at hClosed
  cases hClosed

/-- Reading a text whose first part ends, or whose second part starts, between words
reads the parts one after the other. -/
theorem wordsFrom_append (start : Nat) (current first second : Text)
    (hWord : ∀ character ∈ current, isSpace character = false)
    (hBetween : closed (current ++ first) = true ∨ openAt second = true) :
    wordsFrom start current (first ++ second) = wordsFrom start current first ++
      wordsFrom (start + current.length + first.length) [] second := by
  induction first generalizing start current with
  | nil =>
      rw [List.append_nil] at hBetween
      show wordsFrom start current second = flush start current ++
        wordsFrom (start + current.length) [] second
      rcases hBetween with hClosed | hOpen
      · obtain rfl := eq_nil_of_closed hWord hClosed
        rfl
      · cases second with
        | nil => simp [wordsFrom, flush]
        | cons character rest =>
            have hSpace : isSpace character = true := by simpa [openAt] using hOpen
            rw [wordsFrom, if_pos hSpace, wordsFrom, if_pos hSpace]
            rfl
  | cons character rest ih =>
      rw [List.cons_append, wordsFrom, wordsFrom]
      split_ifs with hSpace
      · rw [closed_append_cons _ _ _ hSpace] at hBetween
        rw [ih _ [] (by simp) hBetween, List.append_assoc]
        congr 3
        simp only [List.length_nil, List.length_cons]
        omega
      · rw [ih start (current ++ [character])]
        · congr 2
          simp only [List.length_append, List.length_cons, List.length_nil]
          omega
        · intro other hOther
          rcases List.mem_append.mp hOther with hOld | hNew
          · exact hWord other hOld
          · obtain rfl := List.mem_singleton.mp hNew
            simpa using hSpace
        · simpa using hBetween

/-- The words of a text cut between words are the words of its parts, in place. -/
theorem words_append {first second : Text}
    (hBetween : closed first = true ∨ openAt second = true) :
    words (first ++ second) = words first ++ (words second).map (Match.shift first.length) := by
  rw [words, wordsFrom_append 0 [] first second (by simp) hBetween, words, words,
    ← wordsFrom_shift, List.length_nil, Nat.zero_add, Nat.add_zero]

/-- Where a match stands in a text: between whitespace or the ends, without any inside. -/
structure Match.In (found : Match) (value : Text) : Prop where
  nonempty : found.group ≠ []
  word : ∀ character ∈ found.group, isSpace character = false
  cut : ∃ before after, value = before ++ found.group ++ after ∧ before.length = found.start ∧
    closed before = true ∧ openAt after = true

theorem flush_in {current : Text} (hWord : ∀ character ∈ current, isSpace character = false)
    {after : Text} (hAfter : openAt after = true) {start : Nat} {found : Match}
    (hFound : found ∈ flush start current) :
    found = ⟨start, current⟩ ∧ Match.In ⟨0, current⟩ (current ++ after) := by
  unfold flush at hFound
  split_ifs at hFound with hEmpty
  · cases hFound
  · obtain rfl := List.mem_singleton.mp hFound
    exact ⟨rfl, by simpa using hEmpty, hWord, [], after, rfl, rfl, rfl, hAfter⟩

theorem wordsFrom_in {start : Nat} {current value : Text}
    (hWord : ∀ character ∈ current, isSpace character = false) {found : Match}
    (hFound : found ∈ wordsFrom start current value) :
    ∃ place, found.start = start + place ∧ Match.In ⟨place, found.group⟩ (current ++ value) := by
  induction value generalizing start current with
  | nil =>
      obtain ⟨rfl, hIn⟩ := flush_in hWord openAt_nil hFound
      exact ⟨0, rfl, hIn⟩
  | cons character rest ih =>
      unfold wordsFrom at hFound
      split_ifs at hFound with hSpace
      · rcases List.mem_append.mp hFound with hFlush | hRest
        · have hAfter : openAt (character :: rest) = true := by simpa [openAt] using hSpace
          obtain ⟨rfl, hIn⟩ := flush_in hWord hAfter hFlush
          exact ⟨0, rfl, hIn⟩
        · obtain ⟨place, hPlace, hIn⟩ := ih (by simp) hRest
          obtain ⟨before, after, hValue, hLength, hClosed, hOpen⟩ := hIn.cut
          refine ⟨current.length + 1 + place, by omega, hIn.nonempty, hIn.word,
            current ++ character :: before, after, ?_, ?_, ?_, hOpen⟩
          · rw [List.nil_append] at hValue
            rw [hValue]
            simp
          · rw [List.length_append, List.length_cons, hLength]
            show current.length + (place + 1) = current.length + 1 + place
            omega
          · rw [closed_append_cons _ _ _ hSpace]
            exact hClosed
      · obtain ⟨place, hPlace, hIn⟩ := ih (fun other hOther => by
          rcases List.mem_append.mp hOther with hOld | hNew
          · exact hWord other hOld
          · obtain rfl := List.mem_singleton.mp hNew
            simpa using hSpace) hFound
        exact ⟨place, hPlace, by simpa using hIn⟩

/-- Every match of a text is one of its whole words. -/
theorem words_in {value : Text} {found : Match} (hFound : found ∈ words value) :
    found.In value := by
  obtain ⟨place, hPlace, hIn⟩ := wordsFrom_in (by simp) hFound
  rw [Nat.zero_add] at hPlace
  subst hPlace
  exact hIn

theorem wordsFrom_word {start : Nat} {current value : Text}
    (hWord : ∀ character ∈ value, isSpace character = false) :
    wordsFrom start current value = flush start (current ++ value) := by
  induction value generalizing current with
  | nil => rw [wordsFrom, List.append_nil]
  | cons character rest ih =>
      rw [wordsFrom, hWord character (List.mem_cons_self ..), if_neg Bool.false_ne_true,
        ih fun other hOther => hWord other (List.mem_cons_of_mem _ hOther)]
      simp

/-- A word alone is its only match. -/
theorem Match.In.words_group {found : Match} {value : Text} (h : found.In value) :
    words found.group = [⟨0, found.group⟩] := by
  rw [words, wordsFrom_word h.word, List.nil_append, flush, if_neg]
  simpa using h.nonempty

theorem Match.In.stop_le {found : Match} {value : Text} (h : found.In value) :
    found.stop ≤ value.length := by
  obtain ⟨before, after, hValue, hLength, -, -⟩ := h.cut
  rw [hValue, Match.stop]
  simp only [List.length_append]
  omega

theorem Match.In.slice {found : Match} {value : Text} (h : found.In value) :
    slice value found.start found.stop = found.group := by
  obtain ⟨before, after, hValue, hLength, -, -⟩ := h.cut
  rw [hValue, Match.stop, ← hLength]
  exact slice_append before found.group after

theorem flush_pairwise (start : Nat) (current : Text) :
    (flush start current).Pairwise fun first second => first.stop ≤ second.start := by
  unfold flush
  split_ifs
  · exact List.Pairwise.nil
  · exact List.pairwise_singleton _ _

theorem wordsFrom_pairwise (start : Nat) (current value : Text)
    (hWord : ∀ character ∈ current, isSpace character = false) :
    (wordsFrom start current value).Pairwise fun first second => first.stop ≤ second.start := by
  induction value generalizing start current with
  | nil => exact flush_pairwise start current
  | cons character rest ih =>
      unfold wordsFrom
      split_ifs with hSpace
      · refine List.pairwise_append.mpr ⟨flush_pairwise start current, ih _ [] (by simp), ?_⟩
        intro first hFirst second hSecond
        obtain ⟨rfl, -⟩ := flush_in hWord openAt_nil hFirst
        obtain ⟨place, hPlace, -⟩ := wordsFrom_in (by simp) hSecond
        show start + current.length ≤ second.start
        omega
      · refine ih _ _ fun other hOther => ?_
        rcases List.mem_append.mp hOther with hOld | hNew
        · exact hWord other hOld
        · obtain rfl := List.mem_singleton.mp hNew
          simpa using hSpace

/-- The words of a text come one after the other. -/
theorem words_pairwise (value : Text) :
    (words value).Pairwise fun first second => first.stop ≤ second.start :=
  wordsFrom_pairwise 0 [] value (by simp)

end DocInsight.Python
