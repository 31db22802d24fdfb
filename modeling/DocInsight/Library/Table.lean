import Mathlib.Data.List.Nodup
import Mathlib.Algebra.BigOperators.Group.List.Basic
import Mathlib.Algebra.Order.Group.Int
import Mathlib.Algebra.Order.Ring.Int
import Mathlib.Data.List.Sort
import Mathlib.Data.Prod.Lex

/-! Tables as lists of rows under a key, with the three statements used on
them: select by key, update where a condition holds, and sum where one holds. -/
namespace Table

universe u v
variable {Row : Type u} {Key : Type v} (key : Row → Key)

/-- A text column holds any characters but the null character. -/
def textColumn (value : String) : Bool := !value.toList.contains (Char.ofNat 0)

/-- Each key at most once. -/
def Keyed (rows : List Row) : Prop := (rows.map key).Nodup

variable {key} in
theorem Keyed.eq_of_key {rows : List Row} (keyed : Keyed key rows) {first second : Row}
    (hFirst : first ∈ rows) (hSecond : second ∈ rows) (hKey : key first = key second) :
    first = second :=
  List.inj_on_of_nodup_map keyed hFirst hSecond hKey

section Select
variable [DecidableEq Key]

def select (wanted : Key) (rows : List Row) : Option Row :=
  rows.find? (fun row => key row = wanted)

variable {key}

theorem select_mem {wanted : Key} {rows : List Row} {row : Row}
    (h : select key wanted rows = some row) : row ∈ rows ∧ key row = wanted :=
  ⟨List.mem_of_find?_eq_some h, by simpa using List.find?_some h⟩

theorem select_eq_none {wanted : Key} {rows : List Row} :
    select key wanted rows = none ↔ ∀ row ∈ rows, key row ≠ wanted := by
  simp [select]

@[simp] theorem select_cons_self (row : Row) (rows : List Row) :
    select key (key row) (row :: rows) = some row := by
  simp [select]

theorem select_cons_of_ne {wanted : Key} {row : Row} (rows : List Row)
    (h : key row ≠ wanted) : select key wanted (row :: rows) = select key wanted rows := by
  simp [select, h]

/-- A row appended under another key is not found. -/
theorem select_append_of_ne {wanted : Key} {row : Row} (rows : List Row)
    (h : key row ≠ wanted) : select key wanted (rows ++ [row]) = select key wanted rows := by
  simp [select, List.find?_append, h]

/-- In a keyed table, selection answers exactly the row with that key. -/
theorem Keyed.select_eq_some {rows : List Row} (keyed : Keyed key rows) {wanted : Key}
    {row : Row} : select key wanted rows = some row ↔ row ∈ rows ∧ key row = wanted := by
  refine ⟨select_mem, fun ⟨hMem, hKey⟩ => ?_⟩
  cases hSelect : select key wanted rows with
  | none => exact absurd hKey (select_eq_none.mp hSelect row hMem)
  | some found =>
      obtain ⟨hFound, hSame⟩ := select_mem hSelect
      rw [keyed.eq_of_key hFound hMem (hSame.trans hKey.symm)]

/-- Appending a row with a key not yet used keeps the table keyed. -/
theorem Keyed.append {rows : List Row} (keyed : Keyed key rows) {row : Row}
    (hNew : select key (key row) rows = none) : Keyed key (rows ++ [row]) := by
  have hFresh := select_eq_none.mp hNew
  simp only [Keyed, List.map_append, List.map_cons, List.map_nil]
  refine List.nodup_append.mpr ⟨keyed, List.nodup_singleton _, ?_⟩
  rintro _ hOld _ hOne rfl
  obtain ⟨old, hMem, hKey⟩ := List.mem_map.mp hOld
  exact hFresh old hMem (hKey.trans (List.mem_singleton.mp hOne))

end Select

/-- The rows in the order of a key; rows with the same key stay in the order of the table. -/
def orderBy {Order : Type*} [LE Order] [DecidableLE Order] (value : Row → Order)
    (rows : List Row) : List Row :=
  rows.insertionSort fun first second => value first ≤ value second

/-- Rows that are read of others come in their order. -/
theorem orderBy_map {Order Other : Type*} [LE Order] [DecidableLE Order] (value : Other → Order)
    (change : Row → Other) (rows : List Row) :
    orderBy value (rows.map change) = (orderBy (fun row => value (change row)) rows).map change := by
  rw [orderBy, orderBy]
  symm
  apply List.map_insertionSort
  intro first _ second _
  exact Iff.rfl

/-- Rows that two values put in the same order are sorted alike. -/
theorem orderBy_congr {Order Other : Type*} [LE Order] [DecidableLE Order] [LE Other]
    [DecidableLE Other] {value : Row → Order} {other : Row → Other} {rows : List Row}
    (h : ∀ first ∈ rows, ∀ second ∈ rows,
      value first ≤ value second ↔ other first ≤ other second) :
    orderBy value rows = orderBy other rows := by
  have hSame := @List.map_insertionSort _ _ (fun first second => value first ≤ value second)
    (fun first second => other first ≤ other second) _ _ id rows h
  simpa [orderBy] using hSame

section Ordered
variable {Order : Type*} {value : Row → Order} {rows sorted : List Row}

/-- The rows of a table in the order of a value; rows with the same value come in any order. -/
structure Ordered [LE Order] (value : Row → Order) (rows sorted : List Row) : Prop where
  perm : sorted.Perm rows
  pairwise : sorted.Pairwise (value · ≤ value ·)

theorem ordered_orderBy [LinearOrder Order] (value : Row → Order) (rows : List Row) :
    Ordered value rows (orderBy value rows) where
  perm := List.perm_insertionSort _ rows
  pairwise := by
    have hTotal : Std.Total fun first second : Row => value first ≤ value second :=
      ⟨fun first second => le_total (value first) (value second)⟩
    have hTrans : IsTrans Row fun first second => value first ≤ value second :=
      ⟨fun _ _ _ hFirst hSecond => hFirst.trans hSecond⟩
    exact List.pairwise_insertionSort _ rows

/-- Rows that are in strict order already are read as they are. -/
theorem Ordered.eq_of_lt [LinearOrder Order] (ordered : Ordered value rows sorted)
    (h : rows.Pairwise (value · < value ·)) : sorted = rows := by
  have hStrict : sorted.Pairwise (value · < value ·) := by
    have hDiffer : sorted.Pairwise (value · ≠ value ·) :=
      (ordered.perm.pairwise_iff fun hNe => hNe.symm).mpr (h.imp fun hLt => hLt.ne)
    exact (ordered.pairwise.and hDiffer).imp fun hOrder => lt_of_le_of_ne hOrder.1 hOrder.2
  apply ordered.perm.eq_of_pairwise _ hStrict h
  intro first second _ _ hFirst hSecond
  exact absurd (hFirst.trans hSecond) (lt_irrefl _)

/-- Rows that are in order already are read with the same values. -/
theorem Ordered.map_eq [LinearOrder Order] (ordered : Ordered value rows sorted)
    (h : rows.Pairwise (value · ≤ value ·)) : sorted.map value = rows.map value := by
  apply (ordered.perm.map value).eq_of_pairwise _ (List.pairwise_map.mpr ordered.pairwise)
    (List.pairwise_map.mpr h)
  intro first second _ _ hFirst hSecond
  exact le_antisymm hFirst hSecond

end Ordered

/-- Change every row the condition holds of. -/
def updateWhere (condition : Row → Bool) (change : Row → Row) (rows : List Row) : List Row :=
  rows.map fun row => if condition row then change row else row

variable {key}

theorem mem_updateWhere {condition : Row → Bool} {change : Row → Row} {rows : List Row}
    {row : Row} : row ∈ updateWhere condition change rows ↔
      ∃ old ∈ rows, row = if condition old then change old else old := by
  simp only [updateWhere, List.mem_map, eq_comm]

/-- An update that keeps keys keeps the list of keys. -/
theorem map_key_updateWhere {condition : Row → Bool} {change : Row → Row} (rows : List Row)
    (hKey : ∀ row, condition row = true → key (change row) = key row) :
    (updateWhere condition change rows).map key = rows.map key := by
  rw [updateWhere, List.map_map]
  refine List.map_congr_left fun row _ => ?_
  by_cases h : condition row = true
  · simp [h, hKey row h]
  · simp [h]

theorem Keyed.updateWhere {condition : Row → Bool} {change : Row → Row} {rows : List Row}
    (keyed : Keyed key rows)
    (hKey : ∀ row, condition row = true → key (change row) = key row) :
    Keyed key (updateWhere condition change rows) := by
  rw [Keyed, map_key_updateWhere rows hKey]
  exact keyed

theorem select_updateWhere [DecidableEq Key] {condition : Row → Bool} {change : Row → Row}
    (wanted : Key) (rows : List Row)
    (hKey : ∀ row, condition row = true → key (change row) = key row) :
    select key wanted (Table.updateWhere condition change rows) =
      (select key wanted rows).map fun row => if condition row then change row else row := by
  rw [select, Table.updateWhere, List.find?_map]
  congr 1
  refine congrArg (fun p => List.find? p rows) (funext fun row => ?_)
  by_cases h : condition row = true
  · simp [h, hKey row h]
  · simp [h]

/-- An update whose condition holds of no row changes nothing. -/
theorem updateWhere_of_none {condition : Row → Bool} {change : Row → Row} {rows : List Row}
    (h : ∀ row ∈ rows, condition row = false) :
    Table.updateWhere condition change rows = rows := by
  rw [Table.updateWhere]
  conv_rhs => rw [← List.map_id rows]
  exact List.map_congr_left fun row hMem => by simp [h row hMem]

/-- The rows that refer to those of a keyed table are the ones that refer to each of them. -/
theorem Keyed.flatMap_filter {Child : Type*} [DecidableEq Key] {rows : List Row}
    (keyed : Keyed key rows) (reference : Child → Key) (children : List Child) :
    (rows.flatMap fun row => children.filter (reference · = key row)).Perm
      (children.filter (reference · ∈ rows.map key)) := by
  induction rows with
  | nil => simp
  | cons row rest ih =>
      obtain ⟨hNew, hRest⟩ := List.nodup_cons.mp keyed
      have hSplit := List.filter_append_perm (reference · = key row)
        (children.filter (reference · ∈ (row :: rest).map key))
      have hOwn : (children.filter (reference · ∈ (row :: rest).map key)).filter
          (reference · = key row) = children.filter (reference · = key row) := by
        rw [List.filter_filter]
        apply List.filter_congr
        intro child _
        by_cases h : reference child = key row <;> simp [h]
      have hOthers : (children.filter (reference · ∈ (row :: rest).map key)).filter
          (fun child => !decide (reference child = key row)) =
            children.filter (reference · ∈ rest.map key) := by
        rw [List.filter_filter]
        apply List.filter_congr
        intro child _
        by_cases h : reference child = key row
        · rw [h]
          simpa using hNew
        · simp [h]
      rw [hOwn, hOthers] at hSplit
      exact ((ih hRest).append_left _).trans hSplit

/-- Where every child refers to a row, the children of all rows are all children. -/
theorem Keyed.flatMap_children {Child : Type*} [DecidableEq Key] {rows : List Row}
    (keyed : Keyed key rows) {reference : Child → Key} {children : List Child}
    (hReference : ∀ child ∈ children, ∃ row ∈ rows, key row = reference child) :
    (rows.flatMap fun row => children.filter (reference · = key row)).Perm children := by
  apply (keyed.flatMap_filter reference children).trans
  rw [List.filter_eq_self.mpr]
  intro child hChild
  obtain ⟨row, hRow, hKey⟩ := hReference child hChild
  exact decide_eq_true (List.mem_map.mpr ⟨row, hRow, hKey⟩)

/-- The sum of a column over the rows a condition holds of. -/
def sumWhere (condition : Row → Bool) (value : Row → Int) (rows : List Row) : Int :=
  ((rows.filter condition).map value).sum

@[simp] theorem sumWhere_nil (condition : Row → Bool) (value : Row → Int) :
    sumWhere condition value [] = 0 := rfl

theorem sumWhere_cons (condition : Row → Bool) (value : Row → Int) (row : Row)
    (rows : List Row) : sumWhere condition value (row :: rows) =
      (if condition row then value row else 0) + sumWhere condition value rows := by
  by_cases h : condition row = true <;> simp [sumWhere, h]

theorem sumWhere_append (condition : Row → Bool) (value : Row → Int) (first second : List Row) :
    sumWhere condition value (first ++ second) =
      sumWhere condition value first + sumWhere condition value second := by
  simp [sumWhere]

theorem sumWhere_nonneg {condition : Row → Bool} {value : Row → Int} {rows : List Row}
    (h : ∀ row ∈ rows, condition row = true → 0 ≤ value row) :
    0 ≤ sumWhere condition value rows := by
  induction rows with
  | nil => simp
  | cons row rows ih =>
      have hRest := ih fun other hMem => h other (List.mem_cons_of_mem _ hMem)
      have hRow := h row (List.mem_cons_self ..)
      rw [sumWhere_cons]
      split_ifs with hCondition
      · have := hRow hCondition
        omega
      · omega

/-- A sum is at least any one of its nonnegative terms. -/
theorem le_sumWhere {condition : Row → Bool} {value : Row → Int} {rows : List Row}
    (hNonneg : ∀ row ∈ rows, condition row = true → 0 ≤ value row) {row : Row}
    (hMem : row ∈ rows) (hRow : condition row = true) :
    value row ≤ sumWhere condition value rows := by
  induction rows with
  | nil => simp at hMem
  | cons head rows ih =>
      have hTail : ∀ other ∈ rows, condition other = true → 0 ≤ value other :=
        fun other h => hNonneg other (List.mem_cons_of_mem _ h)
      rw [sumWhere_cons]
      rcases List.mem_cons.mp hMem with rfl | hMem
      · have := sumWhere_nonneg hTail
        rw [if_pos hRow]
        omega
      · have := ih hTail hMem
        have hHead := hNonneg head (List.mem_cons_self ..)
        split_ifs with h
        · have := hHead h
          omega
        · omega

theorem sumWhere_congr {condition condition' : Row → Bool} {value value' : Row → Int}
    {rows : List Row} (hCondition : ∀ row ∈ rows, condition row = condition' row)
    (hValue : ∀ row ∈ rows, condition row = true → value row = value' row) :
    sumWhere condition value rows = sumWhere condition' value' rows := by
  induction rows with
  | nil => rfl
  | cons row rows ih =>
      rw [sumWhere_cons, sumWhere_cons, hCondition row (List.mem_cons_self ..),
        ih (fun r h => hCondition r (List.mem_cons_of_mem _ h))
          (fun r h => hValue r (List.mem_cons_of_mem _ h))]
      by_cases h : condition' row = true
      · rw [if_pos h, if_pos h, hValue row (List.mem_cons_self ..)
          ((hCondition row (List.mem_cons_self ..)).trans h)]
      · rw [if_neg h, if_neg h]

/-- Updating a single row replaces its term of the sum. -/
theorem sumWhere_updateWhere_single {selects condition : Row → Bool} {change : Row → Row}
    {value : Row → Int} {rows : List Row} {row : Row} (hNodup : rows.Nodup) (hMem : row ∈ rows)
    (hOnly : ∀ other ∈ rows, selects other = true ↔ other = row) :
    sumWhere condition value (Table.updateWhere selects change rows) =
      sumWhere condition value rows - (if condition row then value row else 0) +
        (if condition (change row) then value (change row) else 0) := by
  induction rows with
  | nil => simp at hMem
  | cons head rows ih =>
      obtain ⟨hFresh, hRest⟩ := List.nodup_cons.mp hNodup
      have hHead := hOnly head (List.mem_cons_self ..)
      simp only [Table.updateWhere, List.map_cons, sumWhere_cons]
      rcases List.mem_cons.mp hMem with rfl | hMem
      · have hSame : Table.updateWhere selects change rows = rows := by
          refine updateWhere_of_none fun other hOther => ?_
          have hNe : other ≠ row := fun h => hFresh (h ▸ hOther)
          simpa [hNe] using hOnly other (List.mem_cons_of_mem _ hOther)
        rw [Table.updateWhere] at hSame
        rw [hSame, if_pos (hHead.mpr rfl)]
        omega
      · have hNe : head ≠ row := fun h => hFresh (h ▸ hMem)
        have hSkip : selects head = false := by simpa [hNe] using hHead
        have := ih hRest hMem fun other h => hOnly other (List.mem_cons_of_mem _ h)
        rw [Table.updateWhere] at this
        rw [this]
        simp only [hSkip, Bool.false_eq_true, ↓reduceIte]
        omega

/-- Rows that go to distinct rows of another table, each of at least their value, sum
to no more than it does. -/
theorem sumWhere_le_of_image {Left Right Image : Type*} {image : Left → Image}
    (target : Right → Image) {condition : Left → Bool} {condition' : Right → Bool}
    {value : Left → Int} {value' : Right → Int} {rows : List Left} {others : List Right}
    (hImage : Keyed image rows)
    (hTarget : ∀ row ∈ rows, condition row = true → ∃ other ∈ others,
      target other = image row ∧ condition' other = true ∧ value row ≤ value' other)
    (hNonneg : ∀ other ∈ others, condition' other = true → 0 ≤ value' other) :
    sumWhere condition value rows ≤ sumWhere condition' value' others := by
  induction rows generalizing others with
  | nil => exact sumWhere_nonneg hNonneg
  | cons row rows ih =>
      obtain ⟨hFresh, hRest⟩ := List.nodup_cons.mp hImage
      rw [sumWhere_cons]
      split_ifs with hRow
      · obtain ⟨other, hOther, hSame, hSelected, hValue⟩ :=
          hTarget row (List.mem_cons_self ..) hRow
        obtain ⟨before, after, rfl⟩ := List.append_of_mem hOther
        -- the other rows go to what is left once this one has its own
        have hLeft : sumWhere condition value rows ≤
            sumWhere condition' value' (before ++ after) := by
          refine ih hRest (fun next hNext hCondition => ?_) fun next hNext => ?_
          · obtain ⟨found, hFound, hFoundSame, hFacts⟩ :=
              hTarget next (List.mem_cons_of_mem _ hNext) hCondition
            refine ⟨found, ?_, hFoundSame, hFacts⟩
            rcases List.mem_append.mp hFound with hBefore | hAfter
            · exact List.mem_append_left _ hBefore
            · rcases List.mem_cons.mp hAfter with rfl | hAfter
              · exact absurd (List.mem_map.mpr ⟨next, hNext, hFoundSame.symm.trans hSame⟩) hFresh
              · exact List.mem_append_right _ hAfter
          · refine hNonneg next ?_
            rcases List.mem_append.mp hNext with hBefore | hAfter
            · exact List.mem_append_left _ hBefore
            · exact List.mem_append_right _ (List.mem_cons_of_mem _ hAfter)
        rw [sumWhere_append, sumWhere_cons, if_pos hSelected]
        rw [sumWhere_append] at hLeft
        omega
      · rw [zero_add]
        exact ih hRest (fun next hNext => hTarget next (List.mem_cons_of_mem _ hNext)) hNonneg

end Table
