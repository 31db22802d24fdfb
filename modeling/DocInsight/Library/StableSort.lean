import Mathlib.Data.List.Induction
import Mathlib.Data.List.Nodup
import Mathlib.Data.List.Sort
import Mathlib.Order.Lattice

/-! Stable sorting by a rank, and lists of first occurrences. A list sorted by rank is
known from its items at every single rank. -/
namespace StableSort

variable {Item Key Rank : Type} [LinearOrder Rank] (rank : Item → Rank)

/-- Sort by rank; items of one rank keep their order. -/
def sortBy (items : List Item) : List Item :=
  items.mergeSort fun first second => rank first ≤ rank second

/-- The items at one rank, in order. -/
def level (value : Rank) (items : List Item) : List Item :=
  items.filter (rank · = value)

theorem sortBy_perm (items : List Item) : (sortBy rank items).Perm items :=
  List.mergeSort_perm items _

@[simp] theorem mem_sortBy {items : List Item} {item : Item} :
    item ∈ sortBy rank items ↔ item ∈ items :=
  (sortBy_perm rank items).mem_iff

theorem pairwise_sortBy (items : List Item) :
    (sortBy rank items).Pairwise (rank · ≤ rank ·) := by
  have hSorted := @List.pairwise_mergeSort _ (fun first second => rank first ≤ rank second)
    (fun _ _ _ hFirst hSecond => by simp only [decide_eq_true_eq] at *; exact hFirst.trans hSecond)
    (fun first second => by simp [le_total]) items
  exact hSorted.imp fun h => of_decide_eq_true h

theorem sortBy_of_pairwise {items : List Item} (h : items.Pairwise (rank · ≤ rank ·)) :
    sortBy rank items = items :=
  List.mergeSort_of_pairwise (h.imp fun hOrder => decide_eq_true hOrder)

theorem level_append (value : Rank) (first second : List Item) :
    level rank value (first ++ second) = level rank value first ++ level rank value second :=
  List.filter_append first second

/-- Sorting is stable: at every rank the items stay as they were. -/
theorem level_sortBy (value : Rank) (items : List Item) :
    level rank value (sortBy rank items) = level rank value items := by
  have hTies : (level rank value items).Pairwise fun first second =>
      decide (rank first ≤ rank second) = true := by
    refine List.pairwise_of_forall_mem_list fun first hFirst second hSecond => ?_
    rw [level, List.mem_filter, decide_eq_true_eq] at hFirst hSecond
    exact decide_eq_true (by rw [hFirst.2, hSecond.2])
  have hWithin : (level rank value items).Sublist (sortBy rank items) :=
    List.sublist_mergeSort
      (fun _ _ _ hFirst hSecond => by simp only [decide_eq_true_eq] at *; exact hFirst.trans hSecond)
      (fun first second => by simp [le_total]) hTies List.filter_sublist
  have hFiltered := hWithin.filter (rank · = value)
  rw [level, List.filter_filter] at hFiltered
  simp only [Bool.and_self] at hFiltered
  exact (hFiltered.eq_of_length ((sortBy_perm rank items).filter _).length_eq.symm).symm

/-- Two sorted lists with the same items at every rank are the same. -/
theorem eq_of_level_eq {first second : List Item} (hFirst : first.Pairwise (rank · ≤ rank ·))
    (hSecond : second.Pairwise (rank · ≤ rank ·))
    (h : ∀ value, level rank value first = level rank value second) : first = second := by
  have hSame (item : Item) : item ∈ first ↔ item ∈ second := by
    have hLevel : item ∈ level rank (rank item) first ↔ item ∈ level rank (rank item) second := by
      rw [h]
    simpa [level] using hLevel
  induction first generalizing second with
  | nil =>
      cases second with
      | nil => rfl
      | cons item rest => simpa using hSame item
  | cons item rest ih =>
      cases second with
      | nil => simpa using hSame item
      | cons other others =>
          have hLe : rank item ≤ rank other := by
            obtain rfl | hRest := List.mem_cons.mp ((hSame other).mpr List.mem_cons_self)
            · exact le_rfl
            · exact List.rel_of_pairwise_cons hFirst hRest
          have hGe : rank other ≤ rank item := by
            obtain rfl | hOthers := List.mem_cons.mp ((hSame item).mp List.mem_cons_self)
            · exact le_rfl
            · exact List.rel_of_pairwise_cons hSecond hOthers
          have hRank : rank other = rank item := le_antisymm hGe hLe
          have hHead := h (rank item)
          simp only [level, List.filter_cons, hRank, decide_true, ↓reduceIte, List.cons.injEq]
            at hHead
          obtain ⟨rfl, -⟩ := hHead
          have hTail (value : Rank) : level rank value rest = level rank value others := by
            have hValue := h value
            simp only [level, List.filter_cons] at hValue
            split_ifs at hValue
            · exact (List.cons.inj hValue).2
            · exact hValue
          congr 1
          refine ih hFirst.of_cons hSecond.of_cons hTail fun member => ?_
          have hLevel : member ∈ level rank (rank member) rest ↔
              member ∈ level rank (rank member) others := by rw [hTail]
          simpa [level] using hLevel

/-- Below a rank, at it and above it, in that order. -/
theorem split_at_level {items : List Item} (h : items.Pairwise (rank · ≤ rank ·)) (value : Rank) :
    items = items.filter (rank · < value) ++ level rank value items ++
      items.filter (value < rank ·) := by
  induction items with
  | nil => rfl
  | cons item rest ih =>
      have hRest := ih h.of_cons
      have hAbove : ∀ other ∈ rest, rank item ≤ rank other := fun _ =>
        List.rel_of_pairwise_cons h
      have hNone {predicate : Item → Bool} (hFalse : ∀ other, rank item ≤ rank other →
          predicate other = false) : rest.filter predicate = [] :=
        List.filter_eq_nil_iff.mpr fun other hOther => by simp [hFalse other (hAbove other hOther)]
      obtain hLow | rfl | hHigh := lt_trichotomy (rank item) value
      · simpa [level, hLow, hLow.ne, hLow.not_gt] using hRest
      · have hLows : rest.filter (rank · < rank item) = [] :=
          hNone fun other hOther => by simpa using hOther
        rw [hLows, List.nil_append] at hRest
        simpa [level, hLows] using hRest
      · have hLows : rest.filter (rank · < value) = [] :=
          hNone fun other hOther => by simpa using (hHigh.le.trans hOther)
        have hLevel : rest.filter (rank · = value) = [] :=
          hNone fun other hOther => by simpa using (hHigh.trans_le hOther).ne'
        rw [hLows, level, hLevel, List.nil_append, List.nil_append] at hRest
        simpa [level, hHigh, hHigh.ne', hHigh.not_gt, hLows, hLevel] using hRest

/-- Where no two items have one rank, the order of the input does not matter. -/
theorem sortBy_eq_of_perm {first second : List Item} (hRank : Function.Injective rank)
    (h : first.Perm second) : sortBy rank first = sortBy rank second := by
  refine List.Perm.eq_of_pairwise (fun _ _ _ _ hLe hGe => hRank (le_antisymm hLe hGe))
    (pairwise_sortBy rank first) (pairwise_sortBy rank second) ?_
  exact (sortBy_perm rank first).trans (h.trans (sortBy_perm rank second).symm)

/-- Values found for keys, and read back to their keys. -/
theorem map_filterMap_inverse {Value : Type} {find : Key → Option Value} {keyOf : Value → Key}
    {keys : List Key} (h : ∀ key ∈ keys, ∃ value, find key = some value ∧ keyOf value = key) :
    (keys.filterMap find).map keyOf = keys := by
  induction keys with
  | nil => rfl
  | cons key rest ih =>
      obtain ⟨value, hFind, hKey⟩ := h key List.mem_cons_self
      rw [List.filterMap_cons_some hFind, List.map_cons, hKey,
        ih fun other hOther => h other (List.mem_cons_of_mem key hOther)]

section FirstOccurrences
variable [DecidableEq Key]

/-- Distinct keys that satisfy a predicate are the distinct ones among those that do. -/
theorem eraseDups_filter (keys : List Key) (predicate : Key → Bool) :
    (keys.filter predicate).eraseDups = keys.eraseDups.filter predicate := by
  induction keys using List.reverseRecOn with
  | nil => rfl
  | append_singleton keys last ih =>
      rw [List.filter_append, List.eraseDups_append, List.eraseDups_append, ih,
        List.filter_append]
      congr 1
      by_cases hPredicate : predicate last = true <;> by_cases hLast : last ∈ keys <;>
        simp [List.removeAll, hPredicate, hLast, List.eraseDups_cons]

/-- Keys that occurred before add nothing. -/
theorem eraseDups_append_of_subset {first second : List Key} (h : second ⊆ first) :
    (first ++ second).eraseDups = first.eraseDups := by
  have hNone : second.removeAll first = [] :=
    List.filter_eq_nil_iff.mpr fun key hKey => by simp [h hKey]
  rw [List.eraseDups_append, hNone, List.eraseDups_nil, List.append_nil]

theorem eraseDups_concat {keys : List Key} {last : Key} (h : last ∉ keys) :
    (keys ++ [last]).eraseDups = keys.eraseDups ++ [last] := by
  rw [List.eraseDups_append]
  simp [List.removeAll, h, List.eraseDups_cons]

theorem eraseDups_eraseDups (keys : List Key) : keys.eraseDups.eraseDups = keys.eraseDups := by
  induction keys using List.reverseRecOn with
  | nil => rfl
  | append_singleton keys last ih =>
      by_cases hLast : last ∈ keys
      · rw [eraseDups_append_of_subset (by simpa using hLast), ih]
      · rw [eraseDups_concat hLast, eraseDups_concat (by simpa using hLast), ih]

theorem nodup_eraseDups (keys : List Key) : keys.eraseDups.Nodup := by
  induction keys using List.reverseRecOn with
  | nil => exact List.nodup_nil
  | append_singleton keys last ih =>
      by_cases hLast : last ∈ keys
      · rwa [eraseDups_append_of_subset (by simpa using hLast)]
      · rw [eraseDups_concat hLast]
        exact List.nodup_append'.mpr ⟨ih, List.nodup_singleton last, by simpa using hLast⟩

theorem eraseDups_append_eraseDups (first second : List Key) :
    (first.eraseDups ++ second.eraseDups).eraseDups = (first ++ second).eraseDups := by
  rw [List.eraseDups_append, List.eraseDups_append, eraseDups_eraseDups]
  have hNew (keys : List Key) : keys.removeAll first.eraseDups = keys.removeAll first := by
    simp [List.removeAll]
  rw [hNew, List.removeAll, eraseDups_filter, eraseDups_eraseDups, List.removeAll,
    eraseDups_filter]

end FirstOccurrences

end StableSort
