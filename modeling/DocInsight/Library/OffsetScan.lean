import Mathlib.Data.List.Nodup
import Mathlib.Data.List.Perm.Subperm
import Mathlib.Data.Nat.Find
import Mathlib.Order.Lattice

/-! Ordered places read page by page with a limit and an offset, while places are added in
between. What a page shows is decided by how many places stand before one, and that number
only grows. -/
namespace OffsetScan

variable {Place : Type} [LinearOrder Place]

/-- The page with an index, of places in their order. -/
def page {Item : Type} (limit index : Nat) (items : List Item) : List Item :=
  (items.drop (index * limit)).take limit

/-- How many places stand before one. -/
def rank (place : Place) (places : List Place) : Nat :=
  places.countP fun other => decide (other < place)

/-- In strict order, a place is found at its rank. -/
theorem rank_of_getElem? {places : List Place} (ascending : places.Pairwise (· < ·)) {index : Nat}
    {place : Place} (h : places[index]? = some place) : rank place places = index := by
  induction places generalizing index with
  | nil => simp at h
  | cons first rest ih =>
      obtain ⟨hFirst, hRest⟩ := List.pairwise_cons.mp ascending
      cases index with
      | zero =>
          simp only [List.getElem?_cons_zero, Option.some.injEq] at h
          subst h
          rw [rank, List.countP_eq_zero]
          intro other hOther
          simp only [decide_eq_true_eq, not_lt]
          cases List.mem_cons.mp hOther with
          | inl hSame => exact hSame.ge
          | inr hLater => exact (hFirst other hLater).le
      | succ index =>
          rw [List.getElem?_cons_succ] at h
          have hBefore : first < place := hFirst place (List.mem_of_getElem? h)
          rw [rank, List.countP_cons_of_pos (by simpa using hBefore)]
          exact congrArg (· + 1) (ih hRest h)

theorem mem_page_iff {Item : Type} {limit index : Nat} {items : List Item} {item : Item} :
    item ∈ page limit index items ↔
      ∃ place, index * limit ≤ place ∧ place < (index + 1) * limit ∧ items[place]? = some item := by
  rw [page, List.mem_iff_getElem?, Nat.succ_mul]
  constructor
  · intro ⟨place, h⟩
    rw [List.getElem?_take] at h
    split_ifs at h with hShort
    rw [List.getElem?_drop] at h
    exact ⟨index * limit + place, by omega, by omega, h⟩
  · intro ⟨place, hFrom, hTo, h⟩
    refine ⟨place - index * limit, ?_⟩
    rw [List.getElem?_take, if_pos (by omega), List.getElem?_drop, Nat.add_sub_cancel' hFrom, h]

/-- A page shows the places whose ranks are its own. -/
theorem mem_page {places : List Place} (ascending : places.Pairwise (· < ·)) {limit index : Nat}
    {place : Place} (hPlace : place ∈ places) :
    place ∈ page limit index places ↔
      index * limit ≤ rank place places ∧ rank place places < (index + 1) * limit := by
  obtain ⟨found, hFound⟩ := List.mem_iff_getElem?.mp hPlace
  rw [mem_page_iff]
  constructor
  · intro ⟨other, hFrom, hTo, hOther⟩
    rw [rank_of_getElem? ascending hOther]
    exact ⟨hFrom, hTo⟩
  · rw [rank_of_getElem? ascending hFound]
    exact fun ⟨hFrom, hTo⟩ => ⟨found, hFrom, hTo, hFound⟩

/-- A page that is not full is the last one. -/
theorem rank_lt_of_short {places : List Place} (ascending : places.Pairwise (· < ·))
    {limit index : Nat} (h : (page limit index places).length < limit) {place : Place}
    (hPlace : place ∈ places) : rank place places < (index + 1) * limit := by
  obtain ⟨found, hFound⟩ := List.mem_iff_getElem?.mp hPlace
  obtain ⟨hInside, -⟩ := List.getElem?_eq_some_iff.mp hFound
  rw [rank_of_getElem? ascending hFound, Nat.succ_mul]
  rw [page, List.length_take, List.length_drop] at h
  omega

/-- Ranks only grow as places are added. -/
theorem rank_mono {before after : List Place} (ascending : before.Pairwise (· < ·))
    (hSubset : before ⊆ after) (place : Place) : rank place before ≤ rank place after :=
  (List.Nodup.subperm (ascending.imp LT.lt.ne) hSubset).countP_le _

/-- A rank that has grown has a new place before it. -/
theorem exists_of_rank_lt {before after : List Place} (ascending : after.Pairwise (· < ·))
    {place : Place} (h : rank place before < rank place after) :
    ∃ new ∈ after, new ∉ before ∧ new < place := by
  by_contra hNone
  push Not at hNone
  have hKnown : after.filter (fun other => decide (other < place)) ⊆
      before.filter fun other => decide (other < place) := by
    intro other hOther
    obtain ⟨hMem, hBefore⟩ := List.mem_filter.mp hOther
    refine List.mem_filter.mpr ⟨?_, hBefore⟩
    by_contra hNew
    exact absurd (of_decide_eq_true hBefore) (not_lt_of_ge (hNone other hMem hNew))
  have hDistinct : (after.filter fun other => decide (other < place)).Nodup :=
    (ascending.imp LT.lt.ne).filter _
  have hLength := (hDistinct.subperm hKnown).length_le
  rw [rank, rank, List.countP_eq_length_filter, List.countP_eq_length_filter] at h
  omega

section Walk
variable {places : Nat → List Place} (ascending : ∀ turn, (places turn).Pairwise (· < ·))
  (grows : ∀ turn, places turn ⊆ places (turn + 1)) {limit : Nat}

omit [LinearOrder Place] in
include grows in
theorem subset_of_le {early late : Nat} (h : early ≤ late) : places early ⊆ places late := by
  induction late, h using Nat.le_induction with
  | base => exact List.Subset.refl _
  | succ late _ ih => exact fun place hPlace => grows late (ih hPlace)

include ascending grows

/-- A walk from the first page to one that is not full shows every place that was there from
the beginning, whatever is added between its pages. -/
theorem shown {last : Nat} (hShort : (page limit last (places last)).length < limit)
    {place : Place} (hPlace : place ∈ places 0) :
    ∃ turn ≤ last, place ∈ page limit turn (places turn) := by
  have hMem (turn : Nat) : place ∈ places turn := subset_of_le grows (Nat.zero_le turn) hPlace
  have hEnds : ∃ turn, rank place (places turn) < (turn + 1) * limit :=
    ⟨last, rank_lt_of_short (ascending last) hShort (hMem last)⟩
  refine ⟨Nat.find hEnds, Nat.find_min' hEnds (rank_lt_of_short (ascending last) hShort (hMem last)), ?_⟩
  rw [mem_page (ascending _) (hMem _)]
  refine ⟨?_, Nat.find_spec hEnds⟩
  cases hFirst : Nat.find hEnds with
  | zero => simp
  | succ turn =>
      -- The page before came too early for the place, and it has not moved forward since.
      have hEarlier : ¬ rank place (places turn) < (turn + 1) * limit :=
        Nat.find_min hEnds (by omega)
      exact (Nat.le_of_not_lt hEarlier).trans
        (rank_mono (ascending turn) (grows turn) place)

/-- A place that is shown again has had new places put before it. -/
theorem shown_again {early late : Nat} (hTurns : early < late) {place : Place}
    (hEarly : place ∈ page limit early (places early))
    (hLate : place ∈ page limit late (places late)) :
    ∃ new ∈ places late, new ∉ places early ∧ new < place := by
  have hMemEarly : place ∈ places early := List.mem_of_mem_drop (List.mem_of_mem_take hEarly)
  have hMemLate : place ∈ places late := subset_of_le grows hTurns.le hMemEarly
  have hBelow := ((mem_page (ascending early) hMemEarly).mp hEarly).2
  have hAbove := ((mem_page (ascending late) hMemLate).mp hLate).1
  apply exists_of_rank_lt (ascending late)
  calc rank place (places early) < (early + 1) * limit := hBelow
    _ ≤ late * limit := Nat.mul_le_mul_right limit hTurns
    _ ≤ rank place (places late) := hAbove

end Walk

end OffsetScan
