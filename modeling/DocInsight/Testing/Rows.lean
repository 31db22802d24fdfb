import DocInsight.Library.Table
import DocInsight.Python.Dict

/-! A keyed table as a dictionary that has an item for every row, in the order of the rows. -/
namespace DocInsight.Testing

open DocInsight.Python Table

variable {Row Key Value : Type} [DecidableEq Key] {key : Row → Key} {value changed : Row → Value}
  {rows : List Row}

def items (key : Row → Key) (value : Row → Value) (rows : List Row) : List (Key × Value) :=
  rows.map fun row => (key row, value row)

omit [DecidableEq Key] in
theorem keys_items : (items key value rows).map Prod.fst = rows.map key := by
  rw [items, List.map_map]
  rfl

theorem getItem_items (wanted : Key) :
    getItem (items key value rows) wanted = (select key wanted rows).map value := by
  rw [getItem, items, List.find?_map, Option.map_map]
  rfl

/-- A row that is appended is an assignment to a new key. -/
theorem setItem_append {row : Row} (hAbsent : select key (key row) rows = none)
    (hOld : ∀ other ∈ rows, changed other = value other) :
    setItem (items key value rows) (key row) (changed row) = items key changed (rows ++ [row]) := by
  have hKey : key row ∉ (items key value rows).map Prod.fst := by
    rw [keys_items, List.mem_map]
    rintro ⟨other, hOther, hSame⟩
    exact select_eq_none.mp hAbsent other hOther hSame
  have hItems : items key changed rows = items key value rows := by
    apply List.map_congr_left
    intro other hOther
    rw [hOld other hOther]
  rw [setItem, if_neg hKey, ← hItems, items, items, List.map_append, List.map_singleton]

/-- A row that is changed is an assignment to its key. -/
theorem setItem_updateWhere (keyed : Keyed key rows) {row : Row} (hRow : row ∈ rows)
    {condition : Row → Bool} {change : Row → Row}
    (hOnly : ∀ other ∈ rows, condition other = true ↔ other = row)
    (hKey : key (change row) = key row)
    (hOld : ∀ other ∈ rows, other ≠ row → changed other = value other) :
    setItem (items key value rows) (key row) (changed (change row)) =
      items key changed (updateWhere condition change rows) := by
  have hKnown : key row ∈ (items key value rows).map Prod.fst := by
    rw [keys_items]
    exact List.mem_map_of_mem hRow
  rw [setItem, if_pos hKnown, items, items, updateWhere, List.map_map, List.map_map]
  apply List.map_congr_left
  intro other hOther
  by_cases hSame : other = row
  · have hCondition := (hOnly other hOther).mpr hSame
    subst hSame
    simp [hCondition, hKey]
  · have hCondition : condition other = false := by
      simpa [hSame] using hOnly other hOther
    have hNe : key other ≠ key row := fun h => hSame (keyed.eq_of_key hOther hRow h)
    simp [hCondition, hNe, hOld other hOther hSame]

/-- A row whose value is changed is an assignment to its key as well. -/
theorem setItem_items (keyed : Keyed key rows) {row : Row} (hRow : row ∈ rows)
    (hOld : ∀ other ∈ rows, other ≠ row → changed other = value other) :
    setItem (items key value rows) (key row) (changed row) = items key changed rows := by
  have hOnly : ∀ other ∈ rows, decide (key other = key row) = true ↔ other = row := by
    intro other hOther
    rw [decide_eq_true_eq]
    exact ⟨keyed.eq_of_key hOther hRow, congrArg key⟩
  have hSame : updateWhere (fun other => decide (key other = key row)) id rows = rows := by
    simp [updateWhere]
  have hItems := @setItem_updateWhere _ _ _ _ key value changed _ keyed row hRow _ id hOnly rfl hOld
  rwa [hSame] at hItems

end DocInsight.Testing
