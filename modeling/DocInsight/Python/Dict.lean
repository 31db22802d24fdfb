import Mathlib.Data.List.Induction
import Mathlib.Data.List.Nodup

/-! Dictionaries as lists of items in insertion order, and the list operations whose
results follow the order of first occurrence. -/
namespace DocInsight.Python

variable {Key Value : Type} [DecidableEq Key]

/-- `list(dict.fromkeys(values))`. -/
def fromKeys (values : List Key) : List Key := values.eraseDups

@[simp] theorem mem_fromKeys {value : Key} {values : List Key} :
    value ∈ fromKeys values ↔ value ∈ values := List.mem_eraseDups

/-- Distinct values come in the order of their first occurrences. -/
theorem fromKeys_order (values : List Key) :
    (fromKeys values).Pairwise fun first second =>
      values.idxOf first < values.idxOf second := by
  induction values using List.reverseRecOn with
  | nil => exact List.Pairwise.nil
  | append_singleton values last ih =>
      have hOld {value : Key} (h : value ∈ values) :
          (values ++ [last]).idxOf value = values.idxOf value := by
        simp [List.idxOf_append, h]
      have hKept : (fromKeys values).Pairwise fun first second =>
          (values ++ [last]).idxOf first < (values ++ [last]).idxOf second := by
        refine ih.imp_of_mem ?_
        intro first second hFirst hSecond hOrder
        rwa [hOld (mem_fromKeys.mp hFirst), hOld (mem_fromKeys.mp hSecond)]
      rw [fromKeys, List.eraseDups_append]
      by_cases hLast : last ∈ values
      · rw [show [last].removeAll values = [] by simp [List.removeAll, hLast],
          List.eraseDups_nil, List.append_nil]
        exact hKept
      · simp only [List.removeAll, List.elem_eq_mem, hLast, decide_false, Bool.not_false,
          List.filter_cons_of_pos, List.filter_nil, List.eraseDups_cons, List.eraseDups_nil]
        refine List.pairwise_append.mpr ⟨hKept, List.pairwise_singleton _ _, ?_⟩
        intro first hFirst second hSecond
        obtain rfl := List.mem_singleton.mp hSecond
        rw [hOld (mem_fromKeys.mp hFirst)]
        have hBound := List.idxOf_lt_length_of_mem (mem_fromKeys.mp hFirst)
        simpa [List.idxOf_append, hLast] using hBound

theorem nodup_fromKeys (values : List Key) : (fromKeys values).Nodup :=
  (fromKeys_order values).imp fun hOrder hSame => absurd (hSame ▸ hOrder) (Nat.lt_irrefl _)

/-- `values[index]`, where a negative index counts from the end. -/
def itemAt (values : List Value) (index : Int) : Option Value :=
  let place := if index < 0 then index + values.length else index
  if place < 0 then none else values[place.toNat]?

theorem itemAt_natCast (values : List Value) (index : Nat) :
    itemAt values index = values[index]? := by
  have hPlace : (if (index : Int) < 0 then (index : Int) + values.length else index) = index :=
    if_neg (by omega)
  rw [itemAt]
  simp only [hPlace]
  rw [if_neg (by omega), Int.toNat_natCast]

/-- `if key not in items: items[key] = value`. -/
def insertNew (items : List (Key × Value)) (key : Key) (value : Value) : List (Key × Value) :=
  if key ∈ items.map Prod.fst then items else items ++ [(key, value)]

theorem nodup_insertNew {items : List (Key × Value)} (key : Key) (value : Value)
    (h : (items.map Prod.fst).Nodup) : ((insertNew items key value).map Prod.fst).Nodup := by
  unfold insertNew
  split_ifs with hKey
  · exact h
  · rw [List.map_append, List.map_singleton]
    exact List.nodup_append.mpr ⟨h, List.nodup_singleton key,
      fun other hOther last hLast => by
        obtain rfl := List.mem_singleton.mp hLast
        exact fun hSame => hKey (hSame ▸ hOther)⟩

theorem mem_insertNew {items : List (Key × Value)} {key : Key} {value : Value}
    {item : Key × Value} (h : item ∈ insertNew items key value) :
    item ∈ items ∨ item = (key, value) := by
  unfold insertNew at h
  split_ifs at h
  · exact Or.inl h
  · simpa using h

/-- `items.get(key)`. -/
def getItem (items : List (Key × Value)) (key : Key) : Option Value :=
  (items.find? (·.1 = key)).map Prod.snd

/-- `items[key] = value`; a key keeps the place of its first assignment. -/
def setItem (items : List (Key × Value)) (key : Key) (value : Value) : List (Key × Value) :=
  if key ∈ items.map Prod.fst then
    items.map fun item => if item.1 = key then (key, value) else item
  else items ++ [(key, value)]

theorem getItem_eq_none {items : List (Key × Value)} {key : Key} :
    getItem items key = none ↔ key ∉ items.map Prod.fst := by
  rw [getItem, Option.map_eq_none_iff, List.find?_eq_none]
  simp only [decide_eq_true_eq, List.mem_map, not_exists, not_and]

theorem getItem_append (first second : List (Key × Value)) (key : Key) :
    getItem (first ++ second) key = (getItem first key).or (getItem second key) := by
  rw [getItem, List.find?_append, Option.map_or]
  rfl

theorem getItem_map_assign (items : List (Key × Value)) (key other : Key) (value : Value) :
    getItem (items.map fun item => if item.1 = key then (key, value) else item) other =
      if other = key then (getItem items key).map fun _ => value else getItem items other := by
  induction items with
  | nil => simp [getItem]
  | cons item rest ih =>
      unfold getItem at ih ⊢
      by_cases hItem : item.1 = key
      · by_cases hOther : other = key
        · simp [hItem, hOther]
        · simpa [hItem, hOther, Ne.symm hOther] using ih
      · by_cases hOther : other = key
        · simpa [hItem, hOther] using ih
        · by_cases hHere : item.1 = other
          · simp [hOther, hHere]
          · simpa [hItem, hOther, hHere] using ih

theorem getItem_setItem (items : List (Key × Value)) (key other : Key) (value : Value) :
    getItem (setItem items key value) other =
      if other = key then some value else getItem items other := by
  unfold setItem
  split_ifs with hKnown hSame hSame
  · obtain ⟨known, hValue⟩ := Option.ne_none_iff_exists'.mp
      (mt getItem_eq_none.mp (not_not.mpr hKnown))
    rw [getItem_map_assign, if_pos hSame, hValue, Option.map_some]
  · rw [getItem_map_assign, if_neg hSame]
  · rw [getItem_append, hSame, getItem_eq_none.mpr hKnown]
    simp [getItem]
  · rw [getItem_append]
    simp [getItem, Ne.symm hSame]

/-- A later assignment replaces an earlier one in its place. -/
theorem setItem_setItem (items : List (Key × Value)) (key : Key) (value later : Value) :
    setItem (setItem items key value) key later = setItem items key later := by
  have hAssign (list : List (Key × Value)) :
      (list.map fun item => if item.1 = key then (key, value) else item).map
        (fun item => if item.1 = key then (key, later) else item) =
      list.map fun item => if item.1 = key then (key, later) else item := by
    rw [List.map_map]
    apply List.map_congr_left
    intro item _
    by_cases hKey : item.1 = key
    · simp [hKey]
    · simp [hKey]
  have hKnown : key ∈ (setItem items key value).map Prod.fst := by
    by_contra hNot
    rw [← getItem_eq_none, getItem_setItem, if_pos rfl] at hNot
    cases hNot
  rw [setItem, if_pos hKnown, setItem, setItem]
  split_ifs with hOld
  · exact hAssign items
  · have hSame : items.map (fun item => if item.1 = key then (key, later) else item) = items := by
      conv_rhs => rw [← List.map_id items]
      apply List.map_congr_left
      intro item hItem
      have hNe : item.1 ≠ key := by
        rintro rfl
        exact hOld (List.mem_map_of_mem hItem)
      exact if_neg hNe
    rw [List.map_append, hSame]
    simp

/-- A first assignment stands. -/
theorem getItem_insertNew (items : List (Key × Value)) (key other : Key) (value : Value) :
    getItem (insertNew items key value) other =
      (getItem items other).or (if other = key then some value else none) := by
  unfold insertNew
  split_ifs with hKnown hSame hSame
  · obtain ⟨known, hValue⟩ := Option.ne_none_iff_exists'.mp
      (mt getItem_eq_none.mp (not_not.mpr hKnown))
    rw [hSame, hValue, Option.some_or]
  · rw [Option.or_none]
  · rw [getItem_append, hSame]
    simp [getItem]
  · rw [getItem_append]
    simp [getItem, Ne.symm hSame]

end DocInsight.Python
