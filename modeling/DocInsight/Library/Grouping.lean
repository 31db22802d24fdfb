import DocInsight.Library.StableSort
import Mathlib.Algebra.BigOperators.Group.List.Basic
import Mathlib.Algebra.Order.Ring.Int

/-! Grouping by a key: the items of one key become the first of them by rank, with the
sum of their counts. Grouping the groups of two lists groups the two lists. -/

/-- Items with a key, a rank and a count that can be replaced. -/
structure Tally (Item Key Rank : Type) where
  key : Item → Key
  rank : Item → Rank
  count : Item → Int
  recount : Item → Int → Item
  key_recount : ∀ item number, key (recount item number) = key item
  rank_recount : ∀ item number, rank (recount item number) = rank item
  count_recount : ∀ item number, count (recount item number) = number
  recount_recount : ∀ item first second, recount (recount item first) second = recount item second
  recount_count : ∀ item, recount item (count item) = item

namespace Tally

open StableSort

variable {Item Key Rank : Type} [DecidableEq Key] (tally : Tally Item Key Rank)

/-- The items of one key. -/
def group (items : List Item) (key : Key) : List Item :=
  items.filter (tally.key · = key)

def total (items : List Item) (key : Key) : Int :=
  ((tally.group items key).map tally.count).sum

/-- The first item of a key, with the count of all. -/
def entry (items : List Item) (key : Key) : Option Item :=
  (items.find? (tally.key · = key)).map (tally.recount · (tally.total items key))

/-- One item for each key, in the order of first occurrences. -/
def merge (items : List Item) : List Item :=
  (items.map tally.key).eraseDups.filterMap (tally.entry items)

/-- Count an item with the one that is kept for its key. -/
def collect (groups : List (Key × Item)) (item : Item) : List (Key × Item) :=
  if groups.any fun entry => entry.1 = tally.key item then
    groups.map fun entry =>
      if entry.1 = tally.key item then
        (entry.1, tally.recount entry.2 (tally.count entry.2 + tally.count item))
      else entry
  else groups ++ [(tally.key item, item)]

section Merge

theorem group_append (first second : List Item) (key : Key) :
    tally.group (first ++ second) key = tally.group first key ++ tally.group second key :=
  List.filter_append first second

theorem total_append (first second : List Item) (key : Key) :
    tally.total (first ++ second) key = tally.total first key + tally.total second key := by
  rw [total, group_append, List.map_append, List.sum_append, total, total]

theorem total_perm {first second : List Item} (h : first.Perm second) (key : Key) :
    tally.total first key = tally.total second key :=
  ((h.filter _).map _).sum_eq

theorem key_of_find {items : List Item} {key : Key} {item : Item}
    (h : items.find? (tally.key · = key) = some item) : tally.key item = key := by
  simpa using List.find?_some h

theorem find_isSome {items : List Item} {key : Key} :
    (items.find? (tally.key · = key)).isSome ↔ key ∈ items.map tally.key := by
  simp only [List.find?_isSome, decide_eq_true_eq, List.mem_map]

theorem key_entry {items : List Item} {key : Key} {item : Item}
    (h : tally.entry items key = some item) : tally.key item = key := by
  obtain ⟨first, hFirst, rfl⟩ := Option.map_eq_some_iff.mp h
  rw [tally.key_recount, tally.key_of_find hFirst]

/-- An item counted with others changes the entry of its own key alone. -/
theorem entry_concat (items : List Item) (last : Item) (key : Key) :
    tally.entry (items ++ [last]) key =
      if tally.key last = key then
        some ((tally.entry items key).elim last fun item =>
          tally.recount item (tally.count item + tally.count last))
      else tally.entry items key := by
  by_cases hKey : tally.key last = key
  · have hTotal : tally.total (items ++ [last]) key = tally.total items key + tally.count last := by
      simp [total, group, hKey]
    rw [entry, entry, List.find?_append, if_pos hKey, hTotal]
    cases hFind : items.find? (tally.key · = key) with
    | none =>
        have hNone : tally.total items key = 0 := by
          have hEmpty : tally.group items key = [] :=
            List.filter_eq_nil_iff.mpr (List.find?_eq_none.mp hFind)
          rw [total, hEmpty, List.map_nil, List.sum_nil]
        simp [hKey, hNone, tally.recount_count]
    | some first => simp [tally.recount_recount, tally.count_recount]
  · have hTotal : tally.total (items ++ [last]) key = tally.total items key := by
      simp [total, group, hKey]
    rw [entry, entry, List.find?_append, if_neg hKey, hTotal]
    simp [hKey]

theorem entry_isSome {items : List Item} {key : Key} :
    (tally.entry items key).isSome ↔ key ∈ items.map tally.key := by
  rw [entry, Option.isSome_map, find_isSome]

theorem keys_collected (items : List Item) :
    ((items.map tally.key).eraseDups.filterMap fun key =>
      (tally.entry items key).map (key, ·)).map Prod.fst = (items.map tally.key).eraseDups := by
  refine map_filterMap_inverse fun key hKey => ?_
  obtain ⟨item, hItem⟩ := Option.isSome_iff_exists.mp
    (tally.entry_isSome.mpr (List.mem_eraseDups.mp hKey))
  exact ⟨(key, item), by rw [hItem, Option.map_some], rfl⟩

/-- Collecting the items one by one groups them. -/
theorem foldl_collect (items : List Item) :
    items.foldl tally.collect [] = (items.map tally.key).eraseDups.filterMap fun key =>
      (tally.entry items key).map (key, ·) := by
  induction items using List.reverseRecOn with
  | nil => rfl
  | append_singleton items last ih =>
      have hKnown : ((items.foldl tally.collect []).any fun entry => entry.1 = tally.key last) =
          decide (tally.key last ∈ items.map tally.key) := by
        have hKeys := tally.keys_collected items
        rw [← ih] at hKeys
        rw [Bool.eq_iff_iff, decide_eq_true_iff, ← List.mem_eraseDups, ← hKeys]
        simp
      rw [List.foldl_append, List.foldl_cons, List.foldl_nil, collect, hKnown, List.map_append,
        List.map_singleton]
      simp only [decide_eq_true_eq]
      split_ifs with hLast
      · rw [eraseDups_append_of_subset (by simpa using hLast), ih, List.map_filterMap]
        refine List.filterMap_congr fun key _ => ?_
        rw [entry_concat]
        cases hEntry : tally.entry items key with
        | none =>
            have hKey : tally.key last ≠ key := by
              rintro rfl
              have hSome := tally.entry_isSome.mpr hLast
              rw [hEntry] at hSome
              cases hSome
            simp [hKey]
        | some first =>
            by_cases hKey : tally.key last = key
            · simp [hKey]
            · simp [hKey, Ne.symm hKey]
      · have hOld : ∀ key ∈ (items.map tally.key).eraseDups, tally.key last ≠ key := by
          rintro key hKey rfl
          exact hLast (List.mem_eraseDups.mp hKey)
        have hNew : tally.entry items (tally.key last) = none := by
          rwa [← Option.not_isSome_iff_eq_none, entry_isSome]
        rw [eraseDups_concat hLast, ih, List.filterMap_append]
        congr 1
        · refine List.filterMap_congr fun key hKey => ?_
          rw [entry_concat, if_neg (hOld key hKey)]
        · simp [entry_concat, hNew]

theorem nodup_collected (items : List Item) :
    ((items.foldl tally.collect []).map Prod.fst).Nodup := by
  rw [foldl_collect, keys_collected]
  exact nodup_eraseDups _

theorem map_snd_collect (items : List Item) :
    (items.foldl tally.collect []).map Prod.snd = tally.merge items := by
  rw [foldl_collect, List.map_filterMap, merge]
  refine List.filterMap_congr fun key _ => ?_
  rw [Option.map_map]
  exact Option.map_id'

theorem mem_merge {items : List Item} {item : Item} :
    item ∈ tally.merge items ↔ tally.entry items (tally.key item) = some item := by
  rw [merge, List.mem_filterMap]
  constructor
  · rintro ⟨key, -, hEntry⟩
    rwa [tally.key_entry hEntry]
  · intro hEntry
    exact ⟨tally.key item, List.mem_eraseDups.mpr (tally.entry_isSome.mp (by simp [hEntry])), hEntry⟩

theorem keys_merge (items : List Item) :
    (tally.merge items).map tally.key = (items.map tally.key).eraseDups := by
  refine map_filterMap_inverse fun key hKey => ?_
  obtain ⟨item, hItem⟩ := Option.isSome_iff_exists.mp
    (tally.entry_isSome.mpr (List.mem_eraseDups.mp hKey))
  exact ⟨item, hItem, tally.key_entry hItem⟩

theorem count_of_mem_merge {items : List Item} {item : Item} (h : item ∈ tally.merge items) :
    tally.count item = tally.total items (tally.key item) := by
  obtain ⟨first, -, hItem⟩ := Option.map_eq_some_iff.mp (tally.mem_merge.mp h)
  have hCount := congrArg tally.count hItem
  rw [tally.count_recount] at hCount
  exact hCount.symm

theorem total_eq_zero {items : List Item} {key : Key} (h : key ∉ items.map tally.key) :
    tally.total items key = 0 := by
  have hEmpty : tally.group items key = [] :=
    List.filter_eq_nil_iff.mpr fun item hItem hKey =>
      h (List.mem_map.mpr ⟨item, hItem, of_decide_eq_true hKey⟩)
  rw [total, hEmpty, List.map_nil, List.sum_nil]

/-- What is kept for a key has its whole count. -/
theorem total_merge (items : List Item) (key : Key) :
    tally.total (tally.merge items) key = tally.total items key := by
  have hCounts : ∀ number ∈ (tally.group (tally.merge items) key).map tally.count,
      number = tally.total items key := by
    intro number hNumber
    obtain ⟨item, hItem, rfl⟩ := List.mem_map.mp hNumber
    rw [group, List.mem_filter, decide_eq_true_eq] at hItem
    rw [tally.count_of_mem_merge hItem.1, hItem.2]
  have hLength : (tally.group (tally.merge items) key).length =
      (items.map tally.key).eraseDups.count key := by
    rw [← keys_merge, List.count, List.countP_map, group, List.countP_eq_length_filter]
    rfl
  rw [total, List.sum_eq_card_nsmul _ _ hCounts, List.length_map, hLength]
  by_cases hKey : key ∈ items.map tally.key
  · rw [List.count_eq_one_of_mem (nodup_eraseDups _) (List.mem_eraseDups.mpr hKey), one_nsmul]
  · rw [tally.total_eq_zero hKey, nsmul_zero]

/-- The totals of distinct keys add up, when they are all the keys there are. -/
theorem sum_total {keys : List Key} {items : List Item} (hNodup : keys.Nodup)
    (h : ∀ item ∈ items, tally.key item ∈ keys) :
    (keys.map (tally.total items)).sum = (items.map tally.count).sum := by
  induction items with
  | nil => exact List.sum_eq_zero (by simp [total, group])
  | cons item rest ih =>
      have hTotal : tally.total (item :: rest) = fun key =>
          if key = tally.key item then tally.count item + tally.total rest key
          else tally.total rest key := by
        funext key
        by_cases hKey : key = tally.key item
        · simp [total, group, hKey]
        · simp [total, group, hKey, Ne.symm hKey]
      rw [hTotal, List.sum_map_ite_eq, ih fun other hOther => h other (List.mem_cons_of_mem item hOther),
        List.count_eq_one_of_mem hNodup (h item List.mem_cons_self), one_nsmul, List.map_cons,
        List.sum_cons, add_sub_cancel_right]

theorem sum_merge (items : List Item) :
    ((tally.merge items).map tally.count).sum = (items.map tally.count).sum := by
  have hCounts : (tally.merge items).map tally.count =
      ((items.map tally.key).eraseDups).map (tally.total items) := by
    rw [← keys_merge, List.map_map]
    exact List.map_congr_left fun item hItem => tally.count_of_mem_merge hItem
  rw [hCounts]
  exact tally.sum_total (nodup_eraseDups _) fun item hItem =>
    List.mem_eraseDups.mpr (List.mem_map_of_mem hItem)

end Merge

section Ranked
variable [LinearOrder Rank]

/-- Group by key along the rank; ties keep their order. -/
def deduplicate (items : List Item) : List Item :=
  tally.merge (sortBy tally.rank items)

/-- No item of the key is below the rank. -/
def Lowest (items : List Item) (value : Rank) (key : Key) : Prop :=
  ∀ item ∈ items, tally.key item = key → value ≤ tally.rank item

instance (items : List Item) (value : Rank) (key : Key) :
    Decidable (tally.Lowest items value key) := by
  unfold Lowest
  infer_instance

/-- The keys whose kept items are at a rank, in the order of their first items there. -/
def levelKeys (items : List Item) (value : Rank) : List Key :=
  ((level tally.rank value items).map tally.key).eraseDups.filter
    (tally.Lowest items value ·)

/-- The item kept for such a key. -/
def levelEntry (items : List Item) (value : Rank) (key : Key) : Option Item :=
  ((level tally.rank value items).find? (tally.key · = key)).map
    (tally.recount · (tally.total items key))

/-- The first item of each key. -/
def firsts (items : List Item) : List Item :=
  (items.map tally.key).eraseDups.filterMap fun key => items.find? (tally.key · = key)

omit [LinearOrder Rank] in
theorem firsts_sublist (items : List Item) : (tally.firsts items).Sublist items := by
  induction items using List.reverseRecOn with
  | nil => exact List.Sublist.refl []
  | append_singleton items last ih =>
      have hOld : ((items.map tally.key).eraseDups.filterMap fun key =>
          (items ++ [last]).find? (tally.key · = key)) = tally.firsts items := by
        refine List.filterMap_congr fun key hKey => ?_
        rw [List.find?_append, Option.or_of_isSome]
        exact tally.find_isSome.mpr (List.mem_eraseDups.mp hKey)
      rw [firsts, List.map_append, List.map_singleton]
      by_cases hLast : tally.key last ∈ items.map tally.key
      · rw [eraseDups_append_of_subset (by simpa using hLast), hOld]
        exact ih.trans (List.sublist_append_left items [last])
      · have hNone : items.find? (tally.key · = tally.key last) = none := by
          rwa [← Option.not_isSome_iff_eq_none, find_isSome]
        rw [eraseDups_concat hLast, List.filterMap_append, hOld]
        exact ih.append (by simp [hNone])

omit [LinearOrder Rank] in
theorem ranks_merge (items : List Item) :
    (tally.merge items).map tally.rank = (tally.firsts items).map tally.rank := by
  rw [merge, firsts, List.map_filterMap, List.map_filterMap]
  refine List.filterMap_congr fun key _ => ?_
  simp [entry, Option.map_map, Function.comp_def, tally.rank_recount]

theorem pairwise_merge {items : List Item} (h : items.Pairwise (tally.rank · ≤ tally.rank ·)) :
    (tally.merge items).Pairwise (tally.rank · ≤ tally.rank ·) := by
  have hRanks : ((tally.merge items).map tally.rank).Pairwise (· ≤ ·) := by
    rw [ranks_merge]
    exact List.pairwise_map.mpr (h.sublist (tally.firsts_sublist items))
  exact List.pairwise_map.mp hRanks

theorem pairwise_deduplicate (items : List Item) :
    (tally.deduplicate items).Pairwise (tally.rank · ≤ tally.rank ·) :=
  tally.pairwise_merge (pairwise_sortBy tally.rank items)

/-- The first item of a key is at a rank when none is below and there is one at it. -/
theorem find_at_level (items : List Item) (value : Rank) (key : Key) :
    ((sortBy tally.rank items).find? (tally.key · = key)).filter (tally.rank · = value) =
      if tally.Lowest items value key then
        (level tally.rank value items).find? (tally.key · = key)
      else none := by
  have hSplit := split_at_level tally.rank (pairwise_sortBy tally.rank items) value
  rw [level_sortBy] at hSplit
  rw [hSplit, List.find?_append, List.find?_append]
  split_ifs with hLowest
  · have hLows : ((sortBy tally.rank items).filter (tally.rank · < value)).find?
        (tally.key · = key) = none := by
      refine List.find?_eq_none.mpr fun item hItem hKey => ?_
      rw [List.mem_filter, mem_sortBy, decide_eq_true_eq] at hItem
      exact absurd hItem.2 (hLowest item hItem.1 (of_decide_eq_true hKey)).not_gt
    rw [hLows, Option.none_or]
    cases hLevel : (level tally.rank value items).find? (tally.key · = key) with
    | some first =>
        have hFirst := List.mem_of_find?_eq_some hLevel
        rw [level, List.mem_filter] at hFirst
        simp [Option.filter, hFirst.2]
    | none =>
        refine Option.filter_eq_none_iff.mpr fun item hItem hRank => ?_
        have hHigh := List.mem_of_find?_eq_some hItem
        rw [List.mem_filter, decide_eq_true_eq] at hHigh
        exact absurd (of_decide_eq_true hRank) hHigh.2.ne'
  · simp only [Lowest, not_forall, not_le] at hLowest
    obtain ⟨item, hItem, hKey, hBelow⟩ := hLowest
    have hLows : (((sortBy tally.rank items).filter (tally.rank · < value)).find?
        (tally.key · = key)).isSome := by
      refine List.find?_isSome.mpr ⟨item, ?_, decide_eq_true hKey⟩
      rw [List.mem_filter, mem_sortBy]
      exact ⟨hItem, decide_eq_true hBelow⟩
    rw [Option.or_assoc, Option.or_of_isSome hLows]
    refine Option.filter_eq_none_iff.mpr fun first hFirst hRank => ?_
    have hLow := List.mem_of_find?_eq_some hFirst
    rw [List.mem_filter, decide_eq_true_eq] at hLow
    exact absurd (of_decide_eq_true hRank) hLow.2.ne

theorem entry_at_level (items : List Item) (value : Rank) (key : Key) :
    (tally.entry (sortBy tally.rank items) key).filter (tally.rank · = value) =
      if tally.Lowest items value key then tally.levelEntry items value key else none := by
  have hFind := congrArg (Option.map (tally.recount · (tally.total items key)))
    (tally.find_at_level items value key)
  rw [apply_ite (Option.map _), Option.map_none] at hFind
  rw [levelEntry, ← hFind, entry, tally.total_perm (sortBy_perm tally.rank items)]
  simp [Option.filter_map, Function.comp_def, tally.rank_recount]

/-- What is kept at a rank is decided by the items at that rank, but for the counts. -/
theorem level_deduplicate (items : List Item) (value : Rank) :
    level tally.rank value (tally.deduplicate items) =
      (tally.levelKeys items value).filterMap (tally.levelEntry items value) := by
  have hSplit := split_at_level tally.rank (pairwise_sortBy tally.rank items) value
  rw [level_sortBy] at hSplit
  have hLows : (((sortBy tally.rank items).filter (tally.rank · < value)).map tally.key).filter
      (tally.Lowest items value ·) = [] := by
    refine List.filter_eq_nil_iff.mpr fun key hKey hLowest => ?_
    obtain ⟨item, hItem, rfl⟩ := List.mem_map.mp hKey
    rw [List.mem_filter, mem_sortBy, decide_eq_true_eq] at hItem
    exact absurd hItem.2 (of_decide_eq_true hLowest item hItem.1 rfl).not_gt
  calc
    _ = ((sortBy tally.rank items).map tally.key).eraseDups.filterMap fun key =>
        if decide (tally.Lowest items value key) = true then tally.levelEntry items value key
        else none := by
      rw [level, deduplicate, merge, List.filter_filterMap]
      simp only [entry_at_level, decide_eq_true_eq]
    _ = (((sortBy tally.rank items).map tally.key).filter
          (tally.Lowest items value ·)).eraseDups.filterMap (tally.levelEntry items value) := by
      rw [← List.filterMap_filter, eraseDups_filter]
    _ = (tally.levelKeys items value).filterMap (tally.levelEntry items value) := by
      rw [hSplit, List.append_assoc, List.map_append, List.filter_append, hLows, List.nil_append,
        List.map_append, List.filter_append, List.eraseDups_append, List.filterMap_append,
        eraseDups_filter, levelKeys, List.append_right_eq_self, List.filterMap_eq_nil_iff]
      intro key hKey
      -- A key that is only above the rank has nothing at it.
      rw [List.mem_eraseDups, List.removeAll, List.mem_filter, List.mem_filter] at hKey
      obtain ⟨⟨-, hLowest⟩, hNew⟩ := hKey
      rw [levelEntry, Option.map_eq_none_iff, ← Option.not_isSome_iff_eq_none, find_isSome]
      intro hLevel
      simp only [Bool.not_eq_true', List.elem_eq_mem, decide_eq_false_iff_not] at hNew
      exact hNew (List.mem_filter.mpr ⟨hLevel, hLowest⟩)

/-- There is one item for each key. -/
theorem nodup_keys_deduplicate (items : List Item) :
    ((tally.deduplicate items).map tally.key).Nodup := by
  rw [deduplicate, keys_merge]
  exact nodup_eraseDups _

theorem mem_keys_deduplicate {items : List Item} {key : Key} :
    key ∈ (tally.deduplicate items).map tally.key ↔ key ∈ items.map tally.key := by
  rw [deduplicate, keys_merge, List.mem_eraseDups]
  simp only [List.mem_map, mem_sortBy]

/-- No count is lost. -/
theorem sum_deduplicate (items : List Item) :
    ((tally.deduplicate items).map tally.count).sum = (items.map tally.count).sum :=
  (tally.sum_merge _).trans (((sortBy_perm tally.rank items).map _).sum_eq)

theorem total_deduplicate (items : List Item) (key : Key) :
    tally.total (tally.deduplicate items) key = tally.total items key := by
  rw [deduplicate, total_merge, tally.total_perm (sortBy_perm tally.rank items)]

theorem keys_levelEntry (items : List Item) (value : Rank) :
    ((tally.levelKeys items value).filterMap (tally.levelEntry items value)).map tally.key =
      tally.levelKeys items value := by
  refine map_filterMap_inverse fun key hKey => ?_
  rw [levelKeys, List.mem_filter, List.mem_eraseDups, ← find_isSome] at hKey
  obtain ⟨first, hFirst⟩ := Option.isSome_iff_exists.mp hKey.1
  refine ⟨tally.recount first (tally.total items key), by rw [levelEntry, hFirst]; rfl, ?_⟩
  rw [tally.key_recount, tally.key_of_find hFirst]

omit [LinearOrder Rank] in
/-- What is kept for a key is found by it. -/
theorem find_merge (items : List Item) (key : Key) :
    (tally.merge items).find? (tally.key · = key) = tally.entry items key := by
  cases hFind : (tally.merge items).find? (tally.key · = key) with
  | some item =>
      have hItem := tally.mem_merge.mp (List.mem_of_find?_eq_some hFind)
      rw [← hItem, tally.key_of_find hFind]
  | none =>
      rw [eq_comm, ← Option.not_isSome_iff_eq_none, entry_isSome, ← List.mem_eraseDups,
        ← keys_merge, ← find_isSome, hFind]
      exact Bool.false_ne_true

theorem find_le {items : List Item} {key : Key} {first item : Item}
    (h : items.Pairwise (tally.rank · ≤ tally.rank ·))
    (hFirst : items.find? (tally.key · = key) = some first) (hItem : item ∈ items)
    (hKey : tally.key item = key) : tally.rank first ≤ tally.rank item := by
  obtain ⟨-, before, after, rfl, hBefore⟩ := List.find?_eq_some_iff_append.mp hFirst
  obtain hItem | hItem := List.mem_append.mp hItem
  · simpa [hKey] using hBefore item hItem
  · obtain rfl | hAfter := List.mem_cons.mp hItem
    · exact le_rfl
    · exact List.rel_of_pairwise_cons (List.pairwise_append.mp h).2.1 hAfter

/-- Grouping keeps the lowest rank of every key. -/
theorem lowest_deduplicate (items : List Item) (value : Rank) (key : Key) :
    tally.Lowest (tally.deduplicate items) value key ↔ tally.Lowest items value key := by
  have hSorted := pairwise_sortBy tally.rank items
  constructor
  · intro h item hItem hKey
    have hMember := (mem_sortBy tally.rank).mpr hItem
    obtain ⟨first, hFirst⟩ := Option.isSome_iff_exists.mp
      (tally.find_isSome.mpr (List.mem_map.mpr ⟨item, hMember, hKey⟩))
    have hKept : tally.recount first (tally.total (sortBy tally.rank items) key) ∈
        tally.deduplicate items := by
      rw [deduplicate, mem_merge, tally.key_recount, tally.key_of_find hFirst, entry, hFirst]
      rfl
    have hLe := h _ hKept (by rw [tally.key_recount, tally.key_of_find hFirst])
    rw [tally.rank_recount] at hLe
    exact hLe.trans (tally.find_le hSorted hFirst hMember hKey)
  · rintro h item hItem rfl
    obtain ⟨first, hFirst, hCounted⟩ := Option.map_eq_some_iff.mp (tally.mem_merge.mp hItem)
    rw [← hCounted, tally.rank_recount]
    refine h first ((mem_sortBy tally.rank).mp (List.mem_of_find?_eq_some hFirst)) ?_
    exact tally.key_of_find hFirst

/-- The earliest of some items by rank; the first one of several at that rank. -/
def Earliest (items : List Item) (first : Item) : Prop :=
  ∃ before after, items = before ++ first :: after ∧
    (∀ other ∈ before, tally.rank first < tally.rank other) ∧
    ∀ other ∈ after, tally.rank first ≤ tally.rank other

/-- What is kept is the earliest item of its key, with the count of all of them. -/
theorem earliest_of_mem {items : List Item} {item : Item} (h : item ∈ tally.deduplicate items) :
    ∃ first, tally.Earliest (tally.group items (tally.key item)) first ∧
      item = tally.recount first (tally.total items (tally.key item)) := by
  obtain ⟨first, hFirst, hItem⟩ := Option.map_eq_some_iff.mp (tally.mem_merge.mp h)
  rw [tally.total_perm (sortBy_perm tally.rank items)] at hItem
  refine ⟨first, ?_, hItem.symm⟩
  have hLowest : tally.Lowest items (tally.rank first) (tally.key item) := fun other hOther hKey =>
    tally.find_le (pairwise_sortBy tally.rank items) hFirst ((mem_sortBy tally.rank).mpr hOther) hKey
  have hLevel := tally.find_at_level items (tally.rank first) (tally.key item)
  rw [hFirst, if_pos hLowest, level, List.find?_filter] at hLevel
  have hGroup : (tally.group items (tally.key item)).find? (tally.rank · = tally.rank first) =
      some first := by
    rw [group, List.find?_filter]
    simpa [Option.filter, Bool.and_comm] using hLevel.symm
  obtain ⟨-, before, after, hItems, hBefore⟩ := List.find?_eq_some_iff_append.mp hGroup
  have hLe : ∀ other ∈ tally.group items (tally.key item), tally.rank first ≤ tally.rank other := by
    intro other hOther
    rw [group, List.mem_filter, decide_eq_true_eq] at hOther
    exact hLowest other hOther.1 hOther.2
  rw [hItems] at hLe ⊢
  refine ⟨before, after, rfl, fun other hOther => ?_, fun other hOther => ?_⟩
  · refine lt_of_le_of_ne (hLe other (List.mem_append_left _ hOther)) (Ne.symm ?_)
    simpa using hBefore other hOther
  · exact hLe other (List.mem_append_right before (List.mem_cons_of_mem first hOther))

omit [DecidableEq Key] in
theorem lowest_append {first second : List Item} {value : Rank} {key : Key} :
    tally.Lowest (first ++ second) value key ↔
      tally.Lowest first value key ∧ tally.Lowest second value key :=
  List.forall_mem_append

theorem find_level_deduplicate {items : List Item} {value : Rank} {key : Key}
    (h : tally.Lowest items value key) :
    (level tally.rank value (tally.deduplicate items)).find? (tally.key · = key) =
      tally.levelEntry items value key := by
  have hFind := tally.find_at_level (tally.deduplicate items) value key
  rw [sortBy_of_pairwise tally.rank (tally.pairwise_deduplicate items), deduplicate, find_merge,
    entry_at_level, if_pos h, ← deduplicate,
    if_pos ((tally.lowest_deduplicate items value key).mpr h)] at hFind
  exact hFind.symm

/-- At every rank the groups of two lists are made of the same keys as the lists. -/
theorem levelKeys_append (first second : List Item) (value : Rank) :
    tally.levelKeys (tally.deduplicate first ++ tally.deduplicate second) value =
      tally.levelKeys (first ++ second) value := by
  have hKeys (items : List Item) : (level tally.rank value (tally.deduplicate items)).map tally.key =
      tally.levelKeys items value := by rw [level_deduplicate, keys_levelEntry]
  have hLowest (key : Key) :
      tally.Lowest (tally.deduplicate first ++ tally.deduplicate second) value key ↔
        tally.Lowest (first ++ second) value key := by
    rw [lowest_append, lowest_append, lowest_deduplicate, lowest_deduplicate]
  -- Whatever is lowest in both lists is lowest in each.
  have hKept {items : List Item} (hWithin : ∀ key, tally.Lowest (first ++ second) value key →
      tally.Lowest items value key) :
      (tally.levelKeys items value).filter (tally.Lowest (first ++ second) value ·) =
        (((level tally.rank value items).map tally.key).filter
          (tally.Lowest (first ++ second) value ·)).eraseDups := by
    rw [levelKeys, List.filter_filter, eraseDups_filter]
    refine List.filter_congr fun key _ => ?_
    simpa using hWithin key
  rw [levelKeys]
  simp only [hLowest, level_append, List.map_append, hKeys]
  rw [← eraseDups_filter, List.filter_append, hKept fun _ h => (tally.lowest_append.mp h).1,
    hKept fun _ h => (tally.lowest_append.mp h).2, eraseDups_append_eraseDups,
    ← List.filter_append, eraseDups_filter, levelKeys, level_append, List.map_append]

theorem levelEntry_append {first second : List Item} {value : Rank} {key : Key}
    (h : tally.Lowest (first ++ second) value key) :
    tally.levelEntry (tally.deduplicate first ++ tally.deduplicate second) value key =
      tally.levelEntry (first ++ second) value key := by
  obtain ⟨hFirst, hSecond⟩ := tally.lowest_append.mp h
  rw [levelEntry, level_append, List.find?_append, tally.find_level_deduplicate hFirst,
    tally.find_level_deduplicate hSecond, total_append, total_deduplicate, total_deduplicate,
    ← total_append]
  simp only [levelEntry, level_append, List.find?_append, Option.map_or, Option.map_map,
    Function.comp_def, tally.recount_recount]

/-- Grouping the groups of two lists groups the two lists. -/
theorem deduplicate_append (first second : List Item) :
    tally.deduplicate (tally.deduplicate first ++ tally.deduplicate second) =
      tally.deduplicate (first ++ second) := by
  refine eq_of_level_eq tally.rank (tally.pairwise_deduplicate _) (tally.pairwise_deduplicate _)
    fun value => ?_
  rw [level_deduplicate, level_deduplicate, levelKeys_append]
  refine List.filterMap_congr fun key hKey => tally.levelEntry_append ?_
  rw [levelKeys, List.mem_filter] at hKey
  exact of_decide_eq_true hKey.2

theorem deduplicate_deduplicate (items : List Item) :
    tally.deduplicate (tally.deduplicate items) = tally.deduplicate items := by
  have h := tally.deduplicate_append items []
  rwa [show tally.deduplicate [] = [] by simp [deduplicate, sortBy, merge], List.append_nil,
    List.append_nil] at h

end Ranked

end Tally
