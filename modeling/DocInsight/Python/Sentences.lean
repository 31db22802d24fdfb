import DocInsight.Python.Words
import Mathlib.Data.List.DropRight
import Mathlib.Data.List.TakeWhile

/-! The matches of the pattern `[.!?]\s+` in a text, and the places between its sentences. -/
namespace DocInsight.Python

/-- `[.!?]` -/
def isMark (character : CodePoint) : Bool := (text ".!?").contains character

/-- The ends of the matches from a place on, where the next characters that belong to a match
are skipped. -/
def matchEnds (place skipped : Nat) : Text → List Nat
  | [] => []
  | character :: rest =>
      match skipped with
      | skipped + 1 => matchEnds (place + 1) skipped rest
      | 0 =>
          if isMark character && rest.head?.any isSpace then
            let spaces := (rest.takeWhile isSpace).length
            (place + 1 + spaces) :: matchEnds (place + 1) spaces rest
          else matchEnds (place + 1) 0 rest

/-- `[m.end() for m in re.finditer(r"[.!?]\s+", value)]` -/
def sentenceEnds (value : Text) : List Nat := matchEnds 0 0 value

/-- A match as long as it can be: a mark with all the whitespace behind it. -/
structure IsMatch (value body : Text) (mark : CodePoint) (spaces after : Text) : Prop where
  parts : value = body ++ mark :: (spaces ++ after)
  mark : isMark mark = true
  nonempty : spaces ≠ []
  space : ∀ character ∈ spaces, isSpace character = true
  rest : after.head?.any isSpace = false

theorem isSpace_of_isMark {character : CodePoint} (h : isMark character = true) :
    isSpace character = false := by
  have hMark : character = codePoint '.' ∨ character = codePoint '!' ∨ character = codePoint '?' := by
    simpa [isMark, text] using h
  obtain rfl | rfl | rfl := hMark <;> decide

/-- The whitespace at the start of a text is all of it up to what is none. -/
theorem takeWhile_isSpace {spaces after : Text}
    (hSpace : ∀ character ∈ spaces, isSpace character = true)
    (hRest : after.head?.any isSpace = false) :
    (spaces ++ after).takeWhile isSpace = spaces := by
  rw [List.takeWhile_append_of_pos hSpace]
  cases after with
  | nil => simp
  | cons head tail =>
      have hHead : isSpace head = false := by simpa using hRest
      simp [hHead]

/-- What is left after the whitespace starts with none. -/
theorem head_dropWhile (value : Text) : (value.dropWhile isSpace).head?.any isSpace = false := by
  induction value with
  | nil => rfl
  | cons character rest ih =>
      by_cases hSpace : isSpace character = true
      · rw [List.dropWhile_cons_of_pos hSpace]
        exact ih
      · rw [List.dropWhile_cons_of_neg hSpace]
        simpa using hSpace

namespace IsMatch
variable {value body spaces after : Text} {mark : CodePoint}

theorem cons (character : CodePoint) :
    IsMatch (character :: value) (character :: body) mark spaces after ↔
      IsMatch value body mark spaces after := by
  constructor
  · intro found
    exact ⟨(List.cons.inj found.parts).2, found.mark, found.nonempty, found.space, found.rest⟩
  · intro found
    exact ⟨congrArg (character :: ·) found.parts, found.mark, found.nonempty, found.space,
      found.rest⟩

/-- No match starts in whitespace. -/
theorem skipped_le (found : IsMatch value body mark spaces after) {skipped : Nat}
    (hSkipped : ∀ character ∈ value.take skipped, isSpace character = true) :
    skipped ≤ body.length := by
  by_contra hInside
  have hMark : mark ∈ value.take skipped := by
    rw [found.parts, List.take_append, List.mem_append]
    right
    obtain ⟨count, hCount⟩ := Nat.exists_eq_succ_of_ne_zero (by omega : skipped - body.length ≠ 0)
    rw [hCount, List.take_succ_cons]
    exact List.mem_cons_self
  have hSpace := hSkipped mark hMark
  rw [isSpace_of_isMark found.mark] at hSpace
  cases hSpace

end IsMatch

/-- A match starts with the first character or is one of the rest. -/
theorem match_cons_iff {character : CodePoint} {rest : Text} {place stop : Nat} :
    (∃ body mark spaces after, IsMatch (character :: rest) body mark spaces after ∧
      stop = place + (body.length + 1 + spaces.length)) ↔
    ((isMark character && rest.head?.any isSpace) = true ∧
      stop = place + 1 + (rest.takeWhile isSpace).length) ∨
    ∃ body mark spaces after, IsMatch rest body mark spaces after ∧
      stop = place + 1 + (body.length + 1 + spaces.length) := by
  constructor
  · rintro ⟨body, mark, spaces, after, found, hStop⟩
    cases body with
    | nil =>
        left
        obtain ⟨rfl, rfl⟩ := List.cons.inj found.parts
        rw [takeWhile_isSpace found.space found.rest, found.mark]
        obtain ⟨head, tail, rfl⟩ := List.exists_cons_of_ne_nil found.nonempty
        refine ⟨?_, ?_⟩
        · simpa using found.space head List.mem_cons_self
        · simp only [List.length_nil] at hStop
          omega
    | cons head body =>
        right
        obtain ⟨rfl, -⟩ := List.cons.inj found.parts
        rw [List.length_cons] at hStop
        exact ⟨body, mark, spaces, after, (IsMatch.cons _).mp found, by omega⟩
  · rintro (⟨hHead, hStop⟩ | ⟨body, mark, spaces, after, found, hStop⟩)
    · rw [Bool.and_eq_true] at hHead
      refine ⟨[], character, rest.takeWhile isSpace, rest.dropWhile isSpace, ⟨?_, hHead.1, ?_, ?_,
        head_dropWhile rest⟩, ?_⟩
      · rw [List.takeWhile_append_dropWhile, List.nil_append]
      · cases rest with
        | nil => simp at hHead
        | cons head tail =>
            have hSpace : isSpace head = true := by simpa using hHead.2
            simp [hSpace]
      · intro space hSpace
        exact List.mem_takeWhile_imp hSpace
      · rw [List.length_nil]
        omega
    · refine ⟨character :: body, mark, spaces, after, (IsMatch.cons character).mpr found, ?_⟩
      rw [List.length_cons]
      omega

theorem take_takeWhile_length (value : Text) :
    value.take (value.takeWhile isSpace).length = value.takeWhile isSpace :=
  (List.prefix_iff_eq_take.mp (List.takeWhile_prefix isSpace)).symm

/-- The scan finds the ends of all matches. -/
theorem mem_matchEnds {value : Text} {place skipped stop : Nat}
    (hSkipped : ∀ character ∈ value.take skipped, isSpace character = true) :
    stop ∈ matchEnds place skipped value ↔
      ∃ body mark spaces after, IsMatch value body mark spaces after ∧
        stop = place + (body.length + 1 + spaces.length) := by
  induction value generalizing place skipped with
  | nil =>
      simp only [matchEnds, List.not_mem_nil, false_iff]
      rintro ⟨body, mark, spaces, after, found, -⟩
      simpa using found.parts
  | cons character rest ih =>
      rw [match_cons_iff]
      cases skipped with
      | succ skipped =>
          rw [List.take_succ_cons, List.forall_mem_cons] at hSkipped
          have hNone : isMark character = false := by
            by_contra hMark
            rw [isSpace_of_isMark (Bool.not_eq_false _ ▸ hMark)] at hSkipped
            exact absurd hSkipped.1 Bool.false_ne_true
          rw [matchEnds, ih hSkipped.2]
          simp [hNone]
      | zero =>
          rw [matchEnds]
          split_ifs with hMark
          · rw [List.mem_cons, ih (fun space hSpace => ?_)]
            · simp [hMark]
            · rw [take_takeWhile_length] at hSpace
              exact List.mem_takeWhile_imp hSpace
          · rw [ih (by simp)]
            simp [hMark]

/-- The ends go up. -/
theorem matchEnds_pairwise {value : Text} {place skipped : Nat}
    (hSkipped : ∀ character ∈ value.take skipped, isSpace character = true) :
    (matchEnds place skipped value).Pairwise (· < ·) := by
  induction value generalizing place skipped with
  | nil => exact List.Pairwise.nil
  | cons character rest ih =>
      cases skipped with
      | succ skipped =>
          rw [List.take_succ_cons, List.forall_mem_cons] at hSkipped
          exact ih hSkipped.2
      | zero =>
          rw [matchEnds]
          split_ifs with hMark
          · have hSpaces : ∀ space ∈ rest.take (rest.takeWhile isSpace).length,
                isSpace space = true := by
              intro space hSpace
              rw [take_takeWhile_length] at hSpace
              exact List.mem_takeWhile_imp hSpace
            refine List.Pairwise.cons ?_ (ih hSpaces)
            intro stop hStop
            obtain ⟨body, mark, spaces, after, found, rfl⟩ := (mem_matchEnds hSpaces).mp hStop
            have hBody := found.skipped_le hSpaces
            omega
          · exact ih (by simp)

/-- Where a text can be cut: at its ends, and behind a mark with all its whitespace. -/
def IsCut (value : Text) (place : Nat) : Prop :=
  place = 0 ∨ place = value.length ∨ ∃ body mark spaces after,
    IsMatch value body mark spaces after ∧ place = body.length + 1 + spaces.length

/-- `[0, *ends, len(value)]` -/
def boundaries (value : Text) : List Nat := 0 :: (sentenceEnds value ++ [value.length])

theorem mem_boundaries {value : Text} {place : Nat} :
    place ∈ boundaries value ↔ IsCut value place := by
  have hEnds : place ∈ sentenceEnds value ↔ ∃ body mark spaces after,
      IsMatch value body mark spaces after ∧ place = body.length + 1 + spaces.length := by
    rw [sentenceEnds, mem_matchEnds (by simp)]
    simp only [Nat.zero_add]
  rw [boundaries, List.mem_cons, List.mem_append, List.mem_singleton, hEnds, IsCut]
  exact or_congr_right or_comm

theorem IsCut.le {value : Text} {place : Nat} (h : IsCut value place) : place ≤ value.length := by
  obtain rfl | rfl | ⟨body, mark, spaces, after, found, rfl⟩ := h
  · exact Nat.zero_le _
  · exact le_rfl
  · rw [found.parts]
    simp only [List.length_append, List.length_cons]
    omega

theorem closed_of_space {value : Text} (h : ∀ character ∈ value, isSpace character = true) :
    closed value = true := by
  rw [closed, Option.all_eq_true]
  intro last hLast
  exact h last (List.mem_of_getLast? hLast)

theorem openAt_of_space {value : Text} (h : ∀ character ∈ value, isSpace character = true) :
    openAt value = true := by
  rw [openAt, Option.all_eq_true]
  intro first hFirst
  exact h first (List.mem_of_head? hFirst)

theorem boundaries_dropLast (value : Text) :
    (boundaries value).dropLast = 0 :: sentenceEnds value := by
  rw [boundaries, ← List.cons_append, List.dropLast_concat]

theorem length_boundaries (value : Text) :
    (boundaries value).length = (sentenceEnds value).length + 2 := by
  simp [boundaries]

/-- But for the end of the text no boundary is there twice. -/
theorem boundaries_strict (value : Text) : (0 :: sentenceEnds value).Pairwise (· < ·) := by
  refine List.Pairwise.cons ?_ (matchEnds_pairwise (by simp))
  intro stop hStop
  obtain ⟨body, mark, spaces, after, -, rfl⟩ := (mem_matchEnds (by simp)).mp hStop
  omega

/-- A cut stands between words. -/
theorem IsCut.between {value : Text} {place : Nat} (h : IsCut value place) :
    closed (value.take place) = true ∨ openAt (value.drop place) = true := by
  obtain rfl | rfl | ⟨body, mark, spaces, after, found, rfl⟩ := h
  · exact Or.inl (by simp)
  · exact Or.inr (by simp)
  · left
    obtain ⟨head, tail, rfl⟩ := List.exists_cons_of_ne_nil found.nonempty
    have hParts : value = ((body ++ [mark]) ++ head :: tail) ++ after := by simp [found.parts]
    have hLength : body.length + 1 + (head :: tail).length =
        ((body ++ [mark]) ++ head :: tail).length := by
      simp only [List.length_append, List.length_cons, List.length_nil]
    have hSpace := List.forall_mem_cons.mp found.space
    rw [hLength, hParts, List.take_left, closed_append_cons _ _ _ hSpace.1]
    exact closed_of_space hSpace.2

theorem closed_drop {value : Text} (h : closed value = true) (count : Nat) :
    closed (value.drop count) = true := by
  rw [closed, List.getLast?_drop]
  split_ifs
  · rfl
  · exact h

theorem strip_eq (value : Text) : strip value = (value.dropWhile isSpace).rdropWhile isSpace := rfl

theorem openAt_take {value : Text} (h : openAt value = true) (count : Nat) :
    openAt (value.take count) = true := by
  rw [openAt, List.head?_take]
  split_ifs
  · rfl
  · exact h

theorem slice_natCast (value : Text) (start stop : Nat) :
    slice value start stop = (value.take stop).drop start := by
  have hPlace : ∀ index : Nat, place value.length index = min index value.length := by
    intro index
    rw [place, if_neg (by omega), Int.toNat_natCast]
  rw [slice, hPlace, hPlace, ← List.take_eq_take_min]
  by_cases hStart : start ≤ value.length
  · rw [Nat.min_eq_left hStart]
  · rw [List.drop_eq_nil_of_le, List.drop_eq_nil_of_le]
    all_goals
      rw [List.length_take]
      omega

section Slices
variable {value : Text} {start stop later : Nat}

/-- A slice is cut at a place inside it. -/
theorem slice_split (hStart : start ≤ stop) (hStop : stop ≤ later) :
    slice value start later = slice value start stop ++ slice value stop later := by
  rw [slice_natCast, slice_natCast, slice_natCast]
  have hTake : value.take later = value.take stop ++ (value.take later).drop stop := by
    conv_lhs => rw [← List.take_append_drop stop (value.take later), List.take_take,
      Nat.min_eq_left hStop]
  conv_lhs => rw [hTake]
  by_cases hLength : start ≤ (value.take stop).length
  · rw [List.drop_append_of_le_length hLength]
  · rw [List.length_take] at hLength
    rw [List.drop_eq_nil_of_le, List.drop_eq_nil_of_le, List.drop_eq_nil_of_le]
    · rfl
    all_goals
      simp only [List.length_append, List.length_take, List.length_drop]
      omega

/-- Around a cut, one of the slices ends or starts between words. -/
theorem IsCut.between_slices (h : IsCut value stop) (start later : Nat) :
    closed (slice value start stop) = true ∨ openAt (slice value stop later) = true := by
  rw [slice_natCast, slice_natCast]
  obtain hClosed | hOpen := h.between
  · exact Or.inl (closed_drop hClosed start)
  · right
    rw [List.drop_take]
    exact openAt_take hOpen _

end Slices

/-- Stripping takes whitespace from both ends. -/
theorem strip_parts (value : Text) :
    ∃ leading trailing, value = leading ++ (strip value ++ trailing) ∧
      (∀ character ∈ leading, isSpace character = true) ∧
      ∀ character ∈ trailing, isSpace character = true := by
  refine ⟨value.takeWhile isSpace, (value.dropWhile isSpace).rtakeWhile isSpace, ?_,
    fun character h => List.mem_takeWhile_imp h, fun character h => List.mem_rtakeWhile_imp h⟩
  rw [strip_eq, List.rdropWhile_append_rtakeWhile, List.takeWhile_append_dropWhile]

theorem strip_strip (value : Text) : strip (strip value) = strip value := by
  have hStart : (strip value).dropWhile isSpace = strip value := by
    cases hValue : strip value with
    | nil => rfl
    | cons head tail =>
        have hPrefix : head :: tail <+: value.dropWhile isSpace := by
          rw [← hValue, strip_eq]
          exact List.rdropWhile_prefix isSpace _
        obtain ⟨rest, hRest⟩ := hPrefix
        have hHead := head_dropWhile value
        rw [← hRest] at hHead
        exact List.dropWhile_cons_of_neg (by simpa using hHead)
  rw [strip_eq, hStart, strip_eq, List.rdropWhile_idempotent]

end DocInsight.Python
