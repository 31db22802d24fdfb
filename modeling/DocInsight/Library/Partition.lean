import DocInsight.Library.Table

/-! Tables whose rows belong to owners. The rows of one owner are a table of their own, and
statements whose conditions ask for that owner are statements about it. -/
namespace Table

universe u v
variable {Row : Type u} {Owner : Type v} [DecidableEq Owner] {owner : Row → Owner}
  {wanted : Owner}

/-- The rows of one owner, in the order of the table. -/
def ofOwner (owner : Row → Owner) (wanted : Owner) (rows : List Row) : List Row :=
  rows.filter fun row => owner row = wanted

theorem mem_ofOwner {rows : List Row} {row : Row} :
    row ∈ ofOwner owner wanted rows ↔ row ∈ rows ∧ owner row = wanted := by
  simp [ofOwner]

@[simp] theorem ofOwner_append (first second : List Row) :
    ofOwner owner wanted (first ++ second) =
      ofOwner owner wanted first ++ ofOwner owner wanted second :=
  List.filter_append ..

theorem ofOwner_of_all {rows : List Row} (h : ∀ row ∈ rows, owner row = wanted) :
    ofOwner owner wanted rows = rows :=
  List.filter_eq_self.mpr fun row hRow => decide_eq_true (h row hRow)

theorem ofOwner_of_none {rows : List Row} (h : ∀ row ∈ rows, owner row ≠ wanted) :
    ofOwner owner wanted rows = [] :=
  List.filter_eq_nil_iff.mpr fun row hRow hOwner => h row hRow (of_decide_eq_true hOwner)

/-- A selection that only the owner's rows pass selects among them. -/
theorem filter_ofOwner {condition : Row → Bool} {rows : List Row}
    (hOwner : ∀ row ∈ rows, condition row = true → owner row = wanted) :
    (ofOwner owner wanted rows).filter condition = rows.filter condition := by
  rw [ofOwner, List.filter_filter]
  apply List.filter_congr
  intro row hRow
  cases hCondition : condition row with
  | false => rfl
  | true => exact decide_eq_true (hOwner row hRow hCondition)

theorem find?_ofOwner {condition : Row → Bool} {rows : List Row}
    (hOwner : ∀ row ∈ rows, condition row = true → owner row = wanted) :
    (ofOwner owner wanted rows).find? condition = rows.find? condition := by
  rw [← List.head?_filter, ← List.head?_filter, filter_ofOwner hOwner]

section Key
variable {Key : Type*} {key : Row → Key} {rows : List Row}

/-- A key that no other owner's row has is looked up among the owner's rows. -/
theorem select_ofOwner [DecidableEq Key] {value : Key}
    (hOwner : ∀ row ∈ rows, key row = value → owner row = wanted) :
    select key value (ofOwner owner wanted rows) = select key value rows :=
  find?_ofOwner fun row hRow hKey => hOwner row hRow (of_decide_eq_true hKey)

theorem Keyed.ofOwner (keyed : Keyed key rows) : Keyed key (ofOwner owner wanted rows) :=
  List.Nodup.sublist (List.Sublist.map key List.filter_sublist) keyed

/-- Rows whose keys no other owner's row has can be added to a table if they can be added
to the owner's rows. -/
theorem keyed_append_ofOwner (keyed : Keyed key rows) {added : List Row}
    (hOther : ∀ row ∈ rows, owner row ≠ wanted → ∀ new ∈ added, key row ≠ key new) :
    Keyed key (Table.ofOwner owner wanted rows ++ added) ↔ Keyed key (rows ++ added) := by
  simp only [Keyed, List.map_append, List.nodup_append, List.mem_map]
  constructor
  · rintro ⟨_, hAdded, hDisjoint⟩
    refine ⟨keyed, hAdded, ?_⟩
    rintro _ ⟨row, hRow, rfl⟩ _ ⟨new, hNew, rfl⟩
    by_cases hOwner : owner row = wanted
    · exact hDisjoint _ ⟨row, mem_ofOwner.mpr ⟨hRow, hOwner⟩, rfl⟩ _ ⟨new, hNew, rfl⟩
    · exact hOther row hRow hOwner new hNew
  · rintro ⟨_, hAdded, hDisjoint⟩
    refine ⟨keyed.ofOwner, hAdded, ?_⟩
    rintro _ ⟨row, hRow, rfl⟩ _ hNew
    exact hDisjoint _ ⟨row, (mem_ofOwner.mp hRow).1, rfl⟩ _ hNew

end Key

/-- Deleting among all rows deletes among those of each owner. -/
theorem ofOwner_filter (condition : Row → Bool) (rows : List Row) :
    ofOwner owner wanted (rows.filter condition) = (ofOwner owner wanted rows).filter condition :=
  List.filter_comm ..

section Update
variable {condition : Row → Bool} {change : Row → Row}
  (hChange : ∀ row, condition row = true → owner (change row) = owner row)

include hChange

/-- An update that leaves rows to their owners updates the rows of each of them. -/
theorem ofOwner_updateWhere (rows : List Row) :
    ofOwner owner wanted (updateWhere condition change rows) =
      updateWhere condition change (ofOwner owner wanted rows) := by
  rw [ofOwner, updateWhere, List.filter_map, ofOwner, updateWhere]
  congr 1
  apply List.filter_congr
  intro row _
  cases hRow : condition row with
  | false => simp [hRow]
  | true => simp [hRow, hChange row hRow]

/-- An update of other owners' rows leaves an owner's rows as they are. -/
theorem ofOwner_updateWhere_other (rows : List Row)
    (hOther : ∀ row, condition row = true → owner row ≠ wanted) :
    ofOwner owner wanted (updateWhere condition change rows) = ofOwner owner wanted rows := by
  rw [ofOwner_updateWhere hChange]
  apply updateWhere_of_none
  intro row hRow
  cases hCondition : condition row with
  | false => rfl
  | true => exact absurd (mem_ofOwner.mp hRow).2 (hOther row hCondition)

end Update

/-- Deleting other owners' rows leaves an owner's rows as they are. -/
theorem ofOwner_filter_other {condition : Row → Bool} (rows : List Row)
    (hOther : ∀ row, owner row = wanted → condition row = true) :
    ofOwner owner wanted (rows.filter condition) = ofOwner owner wanted rows := by
  rw [ofOwner_filter]
  exact List.filter_eq_self.mpr fun row hRow => hOther row (mem_ofOwner.mp hRow).2

end Table
