import DocInsight.Library.Loop
import Mathlib.Data.List.Basic
import Mathlib.Order.Lattice

/-! Binary search for the place where a monotone test changes, and the two insertion
points of a sorted list as counts of its elements. -/
namespace Bisect

open Loop

/-- Halve the range that still contains the change. -/
def halve (before : Nat → Bool) (range : Nat × Nat) : Turn (Nat × Nat) Nat :=
  if range.1 < range.2 then
    let middle := (range.1 + range.2) / 2
    if before middle then .next (middle + 1, range.2) else .next (range.1, middle)
  else .stop range.1

theorem halve_decreases (before : Nat → Bool) (range later : Nat × Nat)
    (h : halve before range = .next later) : later.2 - later.1 < range.2 - range.1 := by
  unfold halve at h
  simp only at h
  split_ifs at h <;> cases h <;> simp only <;> omega

/-- The first index below the length at which the test fails. -/
def search (before : Nat → Bool) (length : Nat) : Nat :=
  repeatUntil (halve before) (fun range => range.2 - range.1) (halve_decreases before) (0, length)

/-- A test that never comes back separates the indexes at the place found. -/
theorem search_spec {before : Nat → Bool} {length : Nat}
    (hMonotone : ∀ first second, first ≤ second → second < length →
      before second = true → before first = true) :
    search before length ≤ length ∧ (∀ index < search before length, before index = true) ∧
      ∀ index, search before length ≤ index → index < length → before index = false := by
  unfold search
  refine repeatUntil_invariant (halve_decreases before)
    (fun range => range.1 ≤ range.2 ∧ range.2 ≤ length ∧
      (∀ index < range.1, before index = true) ∧
      ∀ index, range.2 ≤ index → index < length → before index = false)
    (fun place => place ≤ length ∧ (∀ index < place, before index = true) ∧
      ∀ index, place ≤ index → index < length → before index = false) ?_ ?_ ?_
  · rintro ⟨low, high⟩ later ⟨hRange, hLength, hBefore, hAfter⟩ h
    simp only [halve] at h hRange hLength hBefore hAfter
    split_ifs at h with hOpen hMiddle <;> cases h
    · refine ⟨by simp only; omega, hLength, fun index hIndex => ?_, hAfter⟩
      exact hMonotone index ((low + high) / 2) (by simp only at hIndex; omega) (by omega) hMiddle
    · refine ⟨by simp only; omega, by simp only; omega, hBefore, fun index hIndex hInside => ?_⟩
      cases hTest : before index with
      | false => rfl
      | true =>
          exact absurd (hMonotone ((low + high) / 2) index hIndex hInside hTest) hMiddle
  · rintro ⟨low, high⟩ place ⟨hRange, hLength, hBefore, hAfter⟩ h
    simp only [halve] at h hRange hLength hBefore hAfter
    split_ifs at h with hOpen
    cases h
    obtain rfl : low = high := by omega
    exact ⟨hLength, hBefore, hAfter⟩
  · exact ⟨Nat.zero_le _, le_refl _, fun index h => absurd h (Nat.not_lt_zero _),
      fun index h h' => absurd h' (by simp only at h; omega)⟩

variable {Element : Type*}

/-- A count is the place that separates what is counted from what is not. -/
theorem countP_eq_of_separates {test : Element → Bool} {values : List Element} {place : Nat}
    (hPlace : place ≤ values.length)
    (hBefore : ∀ index < place, values[index]?.any test = true)
    (hAfter : ∀ index, place ≤ index → index < values.length → values[index]?.any test = false) :
    values.countP test = place := by
  have hTaken : (values.take place).countP test = (values.take place).length := by
    refine List.countP_eq_length.mpr fun value hValue => ?_
    obtain ⟨index, hIndex, rfl⟩ := List.mem_iff_getElem.mp hValue
    rw [List.length_take] at hIndex
    have hTest := hBefore index (by omega)
    rw [List.getElem?_eq_getElem (by omega), Option.any_some] at hTest
    rw [List.getElem_take]
    exact hTest
  have hDropped : (values.drop place).countP test = 0 := by
    refine List.countP_eq_zero.mpr fun value hValue => ?_
    obtain ⟨index, hIndex, rfl⟩ := List.mem_iff_getElem.mp hValue
    rw [List.length_drop] at hIndex
    have hTest := hAfter (place + index) (by omega) (by omega)
    rw [List.getElem?_eq_getElem (by omega), Option.any_some] at hTest
    rw [List.getElem_drop, hTest]
    exact Bool.false_ne_true
  rw [← List.take_append_drop place values, List.countP_append, hTaken, hDropped,
    List.length_take]
  omega

section Sorted
variable [LinearOrder Element]

/-- The first place where the element can be inserted. -/
def bisectLeft (values : List Element) (element : Element) : Nat :=
  search (fun index => values[index]?.any (· < element)) values.length

/-- The last place where the element can be inserted. -/
def bisectRight (values : List Element) (element : Element) : Nat :=
  search (fun index => values[index]?.any fun value => !decide (element < value)) values.length

/-- A sorted list is searched as it is counted, for any test that only its smaller
elements pass. -/
theorem search_eq_countP {test : Element → Bool} {values : List Element}
    (hSorted : values.Pairwise (· ≤ ·))
    (hTest : ∀ first second, first ≤ second → test second = true → test first = true) :
    search (fun index => values[index]?.any test) values.length = values.countP test := by
  have hMonotone : ∀ first second, first ≤ second → second < values.length →
      values[second]?.any test = true → values[first]?.any test = true := by
    intro first second hOrder hInside hSecond
    rw [List.getElem?_eq_getElem hInside, Option.any_some] at hSecond
    rw [List.getElem?_eq_getElem (by omega), Option.any_some]
    rcases Nat.lt_or_eq_of_le hOrder with hLess | rfl
    · exact hTest _ _ (List.pairwise_iff_getElem.mp hSorted first second _ _ hLess) hSecond
    · exact hSecond
  obtain ⟨hPlace, hBefore, hAfter⟩ := search_spec hMonotone
  exact (countP_eq_of_separates hPlace hBefore hAfter).symm

theorem bisectLeft_eq_countP {values : List Element} (hSorted : values.Pairwise (· ≤ ·))
    (element : Element) : bisectLeft values element = values.countP (· < element) :=
  search_eq_countP hSorted fun first second hOrder hSecond => by
    simp only [decide_eq_true_eq] at hSecond ⊢
    exact lt_of_le_of_lt hOrder hSecond

theorem bisectRight_eq_countP {values : List Element} (hSorted : values.Pairwise (· ≤ ·))
    (element : Element) : bisectRight values element = values.countP (· ≤ element) := by
  have hCount : values.countP (· ≤ element) =
      values.countP fun value => !decide (element < value) := by
    refine List.countP_congr fun value _ => ?_
    simp
  rw [hCount]
  refine search_eq_countP hSorted fun first second hOrder hSecond => ?_
  simp only [Bool.not_eq_true', decide_eq_false_iff_not, not_lt] at hSecond ⊢
  exact le_trans hOrder hSecond

end Sorted

end Bisect
