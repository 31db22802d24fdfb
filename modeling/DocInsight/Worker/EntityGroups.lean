import DocInsight.Library.Grouping
import DocInsight.Worker.Analysis
import Mathlib.Data.Prod.Lex

/-! Entities are grouped over the whole document: what is kept for a spelling and a label,
that page results can be merged, and that the entities passed in stay as they are. -/
namespace DocInsight.Worker

open DocInsight.Contracts DocInsight.Python StableSort

section Groups
variable (spelling : Text → Text)

/-- Entities by spelling and label, ranked by where they begin. -/
def mentions : Tally Entity (Text × String) (Nat ×ₗ Int) where
  key entity := (spelling entity.text, entity.label)
  rank entity := toLex (entity.page, entity.charStart)
  count := Entity.count
  recount entity count := { entity with count }
  key_recount _ _ := rfl
  rank_recount _ _ := rfl
  count_recount _ _ := rfl
  recount_recount _ _ _ := rfl
  recount_count _ := rfl

theorem addEntity_eq_collect : addEntity spelling = (mentions spelling).collect := rfl

/-- Sorting by page and offset and then collecting is grouping along the rank. -/
theorem deduplicate_eq (entities : List Entity) :
    deduplicate spelling entities = (mentions spelling).deduplicate entities := by
  have hOrder (first second : Entity) :
      (first.page < second.page || (first.page = second.page && first.charStart ≤ second.charStart)) =
        decide ((mentions spelling).rank first ≤ (mentions spelling).rank second) := by
    simp [mentions, Prod.Lex.toLex_le_toLex]
  rw [deduplicate, addEntity_eq_collect, Tally.map_snd_collect, Tally.deduplicate, sortBy]
  simp only [hOrder]

/-- What grouping makes of some entities: one entity for each spelling and label, which is
the earliest of them with the count of all, in the order of the document. -/
structure Grouped (entities kept : List Entity) : Prop where
  once : (kept.map (mentions spelling).key).Nodup
  keys : ∀ key, key ∈ kept.map (mentions spelling).key ↔
    key ∈ entities.map (mentions spelling).key
  earliest : ∀ entity ∈ kept,
    ∃ first, (mentions spelling).Earliest
        ((mentions spelling).group entities ((mentions spelling).key entity)) first ∧
      entity = { first with
        count := (((mentions spelling).group entities ((mentions spelling).key entity)).map
          Entity.count).sum }
  ordered : kept.Pairwise fun first second =>
    first.page < second.page ∨ first.page = second.page ∧ first.charStart ≤ second.charStart
  conserved : (kept.map Entity.count).sum = (entities.map Entity.count).sum

theorem deduplicate_grouped (entities : List Entity) :
    Grouped spelling entities (deduplicate spelling entities) := by
  rw [deduplicate_eq]
  refine ⟨(mentions spelling).nodup_keys_deduplicate entities,
    fun _ => (mentions spelling).mem_keys_deduplicate,
    fun _ => (mentions spelling).earliest_of_mem, ?_,
    (mentions spelling).sum_deduplicate entities⟩
  refine ((mentions spelling).pairwise_deduplicate entities).imp fun hRank => ?_
  exact Prod.Lex.toLex_le_toLex.mp hRank

section Objects

/-- One entity counted among objects: in place, in the copy that is kept for its key. -/
def addObject (heap : List Entity) (unique : List ((Text × String) × Nat)) (object : Nat) :
    List Entity × List ((Text × String) × Nat) :=
  match heap[object]? with
  | none => (heap, unique)
  | some entity =>
      let key := (spelling entity.text, entity.label)
      match unique.find? (·.1 = key) with
      | some (_, copy) =>
          (heap.modify copy fun kept => { kept with count := kept.count + entity.count }, unique)
      | none => (heap ++ [entity], unique ++ [(key, heap.length)])

/-- Grouping as it happens to objects, given and returned by their addresses. -/
def deduplicateObjects (heap : List Entity) (objects : List (Fin heap.length)) :
    List Entity × List Nat :=
  let sorted := objects.mergeSort fun first second =>
    heap[first].page < heap[second].page ||
      (heap[first].page = heap[second].page && heap[first].charStart ≤ heap[second].charStart)
  let (heap, unique) := (sorted.map Fin.val).foldl
    (fun state object => addObject spelling state.1 state.2 object) (heap, [])
  (heap, unique.map Prod.snd)

/-- The addresses of copies that were made one after the other. -/
def addresses : Nat → List ((Text × String) × Entity) → List ((Text × String) × Nat)
  | _, [] => []
  | start, entry :: rest => (entry.1, start) :: addresses (start + 1) rest

variable {spelling}

theorem find_addresses {start : Nat} {unique : List ((Text × String) × Entity)}
    {key : Text × String} :
    ((addresses start unique).find? (·.1 = key)).isSome = unique.any fun entry => entry.1 = key := by
  induction unique generalizing start with
  | nil => rfl
  | cons entry rest ih =>
      by_cases hKey : entry.1 = key
      · simp [addresses, hKey]
      · simpa [addresses, hKey] using ih

theorem modify_after {Value : Type} (first : List Value) (value : Value) (rest : List Value)
    (change : Value → Value) :
    (first ++ value :: rest).modify first.length change = first ++ change value :: rest := by
  induction first with
  | nil => rfl
  | cons other first ih => rw [List.cons_append, List.length_cons, List.modify_succ_cons, ih]; rfl

/-- The address found for a key is that of the copy which is kept for it. -/
theorem modify_found {start copy : Nat} {unique : List ((Text × String) × Entity)}
    {key found : Text × String} {change : Entity → Entity} (hNodup : (unique.map Prod.fst).Nodup)
    (h : (addresses start unique).find? (·.1 = key) = some (found, copy)) {heap : List Entity}
    (hHeap : heap.length = start) :
    (heap ++ unique.map Prod.snd).modify copy change =
      heap ++ (unique.map fun entry =>
        if entry.1 = key then (entry.1, change entry.2) else entry).map Prod.snd := by
  induction unique generalizing start heap with
  | nil => cases h
  | cons entry rest ih =>
      rw [List.map_cons, List.nodup_cons] at hNodup
      by_cases hKey : entry.1 = key
      · have hOthers : ∀ other ∈ rest, other.1 ≠ key := fun other hOther hSame =>
          hNodup.1 (List.mem_map.mpr ⟨other, hOther, hSame.trans hKey.symm⟩)
        have hRest : (rest.map fun other =>
            if other.1 = key then (other.1, change other.2) else other) = rest :=
          (List.map_congr_left fun other hOther => if_neg (hOthers other hOther)).trans
            (List.map_id' rest)
        have hCopy : key = found ∧ start = copy := by simpa [addresses, hKey] using h
        rw [List.map_cons, List.map_cons, hRest, if_pos hKey, ← hCopy.2, ← hHeap, List.map_cons,
          modify_after]
      · have hRest := ih hNodup.2 (by simpa [addresses, hKey] using h)
          (show (heap ++ [entry.2]).length = start + 1 by simp [hHeap])
        simpa [hKey] using hRest

theorem addresses_map {start : Nat} {unique : List ((Text × String) × Entity)}
    {change : (Text × String) × Entity → (Text × String) × Entity}
    (h : ∀ entry, (change entry).1 = entry.1) :
    addresses start (unique.map change) = addresses start unique := by
  induction unique generalizing start with
  | nil => rfl
  | cons entry rest ih => rw [List.map_cons, addresses, addresses, h, ih]

theorem addresses_concat (start : Nat) (unique : List ((Text × String) × Entity))
    (last : (Text × String) × Entity) :
    addresses start (unique ++ [last]) =
      addresses start unique ++ [(last.1, start + unique.length)] := by
  induction unique generalizing start with
  | nil => rfl
  | cons entry rest ih =>
      rw [List.cons_append, addresses, ih, addresses, List.cons_append, List.length_cons,
        Nat.add_right_comm, Nat.add_assoc]

/-- Counting an object changes the copies as counting its entity changes what is kept. -/
theorem addObject_addEntity {heap : List Entity} {unique : List ((Text × String) × Entity)}
    (hNodup : (unique.map Prod.fst).Nodup) (object : Fin heap.length) :
    addObject spelling (heap ++ unique.map Prod.snd) (addresses heap.length unique) object =
      (heap ++ (addEntity spelling unique heap[object]).map Prod.snd,
        addresses heap.length (addEntity spelling unique heap[object])) := by
  have hObject : (heap ++ unique.map Prod.snd)[object.val]? = some heap[object] := by
    rw [List.getElem?_append_left object.isLt]
    exact List.getElem?_eq_getElem object.isLt
  have hKnown := @find_addresses heap.length unique (spelling heap[object].text, heap[object].label)
  simp only [addObject, hObject]
  rw [addEntity, ← hKnown]
  cases hFind : (addresses heap.length unique).find?
      (·.1 = (spelling heap[object].text, heap[object].label)) with
  | some found =>
      obtain ⟨found, copy⟩ := found
      refine Prod.ext (modify_found hNodup hFind rfl) (addresses_map fun entry => ?_).symm
      split_ifs <;> rfl
  | none => simp [addresses_concat]

variable (spelling)

/-- Objects are grouped as their entities are, in copies made after them: the objects
passed in keep what they hold. -/
theorem deduplicateObjects_refines (heap : List Entity) (objects : List (Fin heap.length)) :
    let copies := deduplicate spelling (objects.map fun object => heap[object])
    deduplicateObjects spelling heap objects =
      (heap ++ copies, List.range' heap.length copies.length) := by
  have hFold (sorted : List (Fin heap.length)) :
      (sorted.map Fin.val).foldl (fun state object => addObject spelling state.1 state.2 object)
          (heap, []) =
        (heap ++ ((sorted.map fun object => heap[object]).foldl (addEntity spelling) []).map Prod.snd,
          addresses heap.length
            ((sorted.map fun object => heap[object]).foldl (addEntity spelling) [])) := by
    induction sorted using List.reverseRecOn with
    | nil => simp [addresses]
    | append_singleton sorted last ih =>
        rw [List.map_append, List.foldl_append, ih, List.map_append, List.foldl_append]
        exact addObject_addEntity ((mentions spelling).nodup_collected _) last
  have hAddresses (start : Nat) (unique : List ((Text × String) × Entity)) :
      (addresses start unique).map Prod.snd = List.range' start unique.length := by
    induction unique generalizing start with
    | nil => rfl
    | cons entry rest ih => rw [addresses, List.map_cons, ih]; rfl
  have hSort := @List.map_mergeSort _ _
    (fun first second : Fin heap.length => heap[first].page < heap[second].page ||
      (heap[first].page = heap[second].page && heap[first].charStart ≤ heap[second].charStart))
    (fun first second : Entity => first.page < second.page ||
      (first.page = second.page && first.charStart ≤ second.charStart))
    (fun object => heap[object]) objects fun _ _ _ _ => rfl
  simp only [deduplicateObjects, hFold, hAddresses, hSort, deduplicate, List.length_map]

end Objects

/-- Grouping keeps one entity for each spelling and label, changes none of the objects it is
given, and can be done page by page and then once more over the results. -/
theorem deduplicate_lawful :
    (∀ entities, Grouped spelling entities (deduplicate spelling entities)) ∧
    (∀ (heap : List Entity) (objects : List (Fin heap.length)),
      let copies := deduplicate spelling (objects.map fun object => heap[object])
      deduplicateObjects spelling heap objects =
        (heap ++ copies, List.range' heap.length copies.length)) ∧
    (∀ entities, deduplicate spelling (deduplicate spelling entities) =
      deduplicate spelling entities) ∧
    ∀ first second, deduplicate spelling (first ++ second) =
      deduplicate spelling (deduplicate spelling first ++ deduplicate spelling second) := by
  refine ⟨deduplicate_grouped spelling, deduplicateObjects_refines spelling, fun entities => ?_,
    fun first second => ?_⟩
  · simp only [deduplicate_eq, Tally.deduplicate_deduplicate]
  · simp only [deduplicate_eq, Tally.deduplicate_append]

end Groups

end DocInsight.Worker
