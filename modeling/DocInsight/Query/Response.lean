import DocInsight.Python.Words
import DocInsight.Query.Ranking
import Mathlib.Data.List.Infix

/-! The response that is built from retrieved hits, stored documents and whatever a
generator returned: its citations, its entities, and when it abstains. -/
namespace DocInsight.Query

open DocInsight.Contracts DocInsight.Python

structure CitedEntity where
  text : Text
  label : String
  count : Int
  documentId : UUID
  deriving DecidableEq, Repr

structure Source where
  documentId : UUID
  page : Nat
  chunkOrd : Int
  charStart : Int
  charEnd : Int
  text : Text
  score : ℚ
  deriving DecidableEq, Repr

structure RetrievalInfo where
  topK : Nat
  hits : Nat
  hybrid : Bool := true
  deriving DecidableEq, Repr

/-- A response; one with a confidence out of range does not validate. -/
structure QueryResponse where
  answer : Text
  confidence : ℚ
  abstained : Bool
  sources : List Source
  entities : List CitedEntity
  retrieval : RetrievalInfo
  generation : GenerationInfo
  latencyMs : Int
  confidence_ge : 0 ≤ confidence
  confidence_le : confidence ≤ 1

variable (unicode : Unicode)

namespace Ranking

theorem confidence_range (scores : List ℚ) (supported : Bool) (answer : Text)
    (citedPassages : List Text) :
    0 ≤ confidence unicode scores supported answer citedPassages ∧
      confidence unicode scores supported answer citedPassages ≤ 1 := by
  unfold confidence
  split_ifs
  · exact ⟨le_refl 0, zero_le_one⟩
  · exact ⟨le_min zero_le_one (le_max_left 0 _), min_le_left 1 _⟩

end Ranking

namespace QueryService

/-- Normalize spelling for entity matching without changing returned source text. -/
def normalized (value : Text) : Text :=
  (text " ").intercalate ((words (unicode.casefold (unicode.nfkc value))).map (·.group))

/-- What entities are told apart by. -/
abbrev EntityKey := UUID × Text × String

def entityKey (document : StoredDocument) (entity : Entity) : EntityKey :=
  (document.id, normalized unicode entity.text, entity.label)

def citedEntity (document : StoredDocument) (entity : Entity) : CitedEntity :=
  ⟨entity.text, entity.label, entity.count, document.id⟩

/-- Collect the entities of one document that its passages contain. -/
def collect (document : StoredDocument) (passages : List Text)
    (result : List (EntityKey × CitedEntity)) : List (EntityKey × CitedEntity) :=
  document.entities.foldl (fun result entity =>
    let key := entityKey unicode document entity
    if !key.2.1.isEmpty && passages.any (fun passage => decide (key.2.1 <:+: passage)) then
      insertNew result key (citedEntity document entity)
    else result) result

/-- Keep unique stored entities whose text appears in a cited document passage. -/
def citedEntities (hits : List SearchHit) (documents : List StoredDocument) :
    List CitedEntity :=
  (documents.foldl (fun result document =>
    let passages := (hits.filter (·.documentId = document.id)).map fun hit =>
      normalized unicode hit.chunk.text
    collect unicode document passages result) []).map Prod.snd

/-- Expose the stored passage and offsets without rewriting citation evidence. -/
def source (hit : SearchHit) : Source :=
  { documentId := hit.documentId
    page := hit.chunk.page
    chunkOrd := hit.chunk.ord
    charStart := hit.chunk.charStart
    charEnd := hit.chunk.charEnd
    text := hit.chunk.text
    score := hit.score }

/-- Validate citations and evidence strength before exposing a supported answer. -/
def response (abstainThreshold : ℚ) (queryTopKMax requestTopK : Nat) (hits : List SearchHit)
    (documents : List StoredDocument) (generation : Generation) (provider : GenerationInfo)
    (elapsed : ℚ) : QueryResponse :=
  let assessed := Ranking.assessGeneration unicode generation provider hits abstainThreshold
  let abstained := assessed.2.1
  let cited := assessed.2.2
  -- Abstention preserves retrieved evidence for inspection, without asserting a citation.
  let returned := if abstained then hits else cited
  { answer := if abstained then [] else generation.answer
    confidence := assessed.1
    abstained := abstained
    sources := returned.map source
    entities := if abstained then [] else citedEntities unicode cited documents
    retrieval := { topK := min requestTopK queryTopKMax, hits := hits.length }
    generation := provider
    latencyMs := Int.tdiv (elapsed * 1000).num (elapsed * 1000).den
    confidence_ge := (Ranking.confidence_range unicode _ _ _ _).1
    confidence_le := (Ranking.confidence_range unicode _ _ _ _).2 }

variable {unicode}

/-- A stored entity that a cited passage of its document contains. -/
structure Evidenced (unicode : Unicode) (cited : List SearchHit) (document : StoredDocument)
    (entity : Entity) : Prop where
  stored : entity ∈ document.entities
  named : normalized unicode entity.text ≠ []
  inside : ∃ hit ∈ cited, hit.documentId = document.id ∧
    normalized unicode entity.text <:+: normalized unicode hit.chunk.text

/-- Entities collected so far: evidenced ones, each under its own key and once. -/
structure Collected (unicode : Unicode) (cited : List SearchHit) (documents : List StoredDocument)
    (result : List (EntityKey × CitedEntity)) : Prop where
  nodup : (result.map Prod.fst).Nodup
  evidenced : ∀ item ∈ result, ∃ document ∈ documents, ∃ entity,
    item = (entityKey unicode document entity, citedEntity document entity) ∧
      Evidenced unicode cited document entity

theorem collect_collected {cited : List SearchHit} {documents : List StoredDocument}
    {document : StoredDocument} (hDocument : document ∈ documents)
    {result : List (EntityKey × CitedEntity)} (h : Collected unicode cited documents result) :
    Collected unicode cited documents (collect unicode document
      ((cited.filter (·.documentId = document.id)).map fun hit =>
        normalized unicode hit.chunk.text) result) := by
  refine List.foldlRecOn document.entities _ h ?_
  intro result hResult entity hEntity
  simp only [Bool.and_eq_true, List.any_eq_true, decide_eq_true_eq]
  split_ifs with hFound
  · refine ⟨nodup_insertNew _ _ hResult.nodup, fun item hItem => ?_⟩
    rcases mem_insertNew hItem with hOld | rfl
    · exact hResult.evidenced item hOld
    · obtain ⟨hNamed, passage, hPassage, hInside⟩ := hFound
      obtain ⟨hit, hHit, rfl⟩ := List.mem_map.mp hPassage
      obtain ⟨hCited, hId⟩ := List.mem_filter.mp hHit
      exact ⟨document, hDocument, entity, rfl, hEntity,
        by simpa [entityKey] using hNamed,
        hit, hCited, by simpa using hId, hInside⟩
  · exact hResult

theorem citedEntities_collected (unicode : Unicode) (cited : List SearchHit)
    (documents : List StoredDocument) :
    ∃ result, Collected unicode cited documents result ∧
      citedEntities unicode cited documents = result.map Prod.snd := by
  have hEmpty : Collected unicode cited documents [] := ⟨List.nodup_nil, by simp⟩
  refine ⟨_, List.foldlRecOn documents _ hEmpty ?_, rfl⟩
  intro result hResult document hDocument
  exact collect_collected hDocument hResult

/-- Every key tells its entity apart in what is returned. -/
theorem Collected.keys {cited : List SearchHit} {documents : List StoredDocument}
    {result : List (EntityKey × CitedEntity)} (h : Collected unicode cited documents result) :
    (result.map Prod.snd).map (fun found =>
      (found.documentId, normalized unicode found.text, found.label)) = result.map Prod.fst := by
  rw [List.map_map]
  apply List.map_congr_left
  intro item hItem
  obtain ⟨document, _, entity, rfl, _⟩ := h.evidenced item hItem
  rfl

/-- What an answer that is not withheld rests on. -/
structure Grounded (unicode : Unicode) (hits : List SearchHit) (documents : List StoredDocument)
    (generation : Generation) (response : QueryResponse) : Prop where
  answer : response.answer = generation.answer
  nonblank : strip generation.answer ≠ []
  supported : generation.supported = true
  sources : ∃ places : List Nat, places ≠ [] ∧ places.Nodup ∧
    (∀ index, index ∈ generation.citedPassageIndexes ↔ ∃ place ∈ places, (place : Int) = index) ∧
    (places.Pairwise fun (first second : Nat) => generation.citedPassageIndexes.idxOf (first : Int) <
      generation.citedPassageIndexes.idxOf (second : Int)) ∧
    (∀ place ∈ places, place < hits.length) ∧
    response.sources.map some = places.map fun place => hits[place]?.map source
  entities : ∀ found ∈ response.entities, ∃ document ∈ documents, ∃ entity ∈ document.entities,
    found = citedEntity document entity ∧ normalized unicode found.text ≠ [] ∧
      ∃ cited ∈ response.sources, cited.documentId = found.documentId ∧
        normalized unicode found.text <:+: normalized unicode cited.text
  unique : (response.entities.map fun found =>
    (found.documentId, normalized unicode found.text, found.label)).Nodup

/-- An accepted generation: supported, not blank, and every index a place among the hits. -/
theorem accepted {generation : Generation} {provider : GenerationInfo} {hits : List SearchHit}
    {threshold : ℚ}
    (h : (Ranking.assessGeneration unicode generation provider hits threshold).2.1 = false) :
    generation.supported = true ∧ strip generation.answer ≠ [] ∧
      generation.citedPassageIndexes ≠ [] ∧
      (∀ index ∈ generation.citedPassageIndexes, 0 ≤ index ∧ index < hits.length) ∧
      (Ranking.assessGeneration unicode generation provider hits threshold).2.2 =
        (fromKeys generation.citedPassageIndexes).filterMap (itemAt hits) := by
  simp only [Ranking.assessGeneration, Ranking.shouldAbstain, Bool.or_eq_false_iff,
    Bool.not_eq_false'] at h ⊢
  obtain ⟨hSupported, hValid⟩ := Bool.and_eq_true_iff.mp h.1
  rw [if_pos hValid]
  simp only [Bool.and_eq_true, Bool.not_eq_true', List.isEmpty_eq_false_iff, List.all_eq_true,
    decide_eq_true_eq, mem_fromKeys] at hValid
  obtain ⟨⟨hSome, hBlank⟩, hRange⟩ := hValid
  refine ⟨hSupported, hBlank, ?_, hRange, rfl⟩
  intro hNone
  rw [hNone] at hSome
  exact hSome rfl

/-- Indexes in range read one hit each, in their order. -/
theorem filterMap_itemAt {hits : List SearchHit} {indexes : List Int}
    (h : ∀ index ∈ indexes, 0 ≤ index ∧ index < hits.length) :
    (indexes.filterMap (itemAt hits)).map some = indexes.map fun index => hits[index.toNat]? := by
  induction indexes with
  | nil => rfl
  | cons index rest ih =>
      obtain ⟨hLower, hUpper⟩ := h index (List.mem_cons_self ..)
      have hRest := ih fun other hOther => h other (List.mem_cons_of_mem _ hOther)
      have hBound : index.toNat < hits.length := by omega
      have hItem : itemAt hits index = some hits[index.toNat] := by
        have hPlace := itemAt_natCast hits index.toNat
        rwa [Int.toNat_of_nonneg hLower, List.getElem?_eq_getElem hBound] at hPlace
      rw [List.filterMap_cons_some hItem, List.map_cons, List.map_cons, hRest,
        List.getElem?_eq_getElem hBound]

/-- The distinct cited indexes, as places among the hits. -/
def places (generation : Generation) : List Nat :=
  (fromKeys generation.citedPassageIndexes).map Int.toNat

theorem places_sources {generation : Generation} {hits : List SearchHit}
    (hRange : ∀ index ∈ generation.citedPassageIndexes, 0 ≤ index ∧ index < hits.length) :
    (((fromKeys generation.citedPassageIndexes).filterMap (itemAt hits)).map source).map some =
      (places generation).map fun place => hits[place]?.map source := by
  have hHits : ((fromKeys generation.citedPassageIndexes).filterMap (itemAt hits)).map some =
      (fromKeys generation.citedPassageIndexes).map fun index => hits[index.toNat]? :=
    filterMap_itemAt fun index hIndex => hRange index (mem_fromKeys.mp hIndex)
  have hSources := congrArg (List.map (Option.map source)) hHits
  simpa [places, List.map_map, Function.comp_def] using hSources

theorem mem_places {generation : Generation} {hits : List SearchHit}
    (hRange : ∀ index ∈ generation.citedPassageIndexes, 0 ≤ index ∧ index < hits.length)
    (index : Int) : index ∈ generation.citedPassageIndexes ↔
      ∃ place ∈ places generation, (place : Int) = index := by
  simp only [places, List.mem_map, mem_fromKeys, exists_exists_and_eq_and]
  constructor
  · exact fun h => ⟨index, h, Int.toNat_of_nonneg (hRange index h).1⟩
  · rintro ⟨other, hOther, rfl⟩
    rwa [Int.toNat_of_nonneg (hRange other hOther).1]

theorem places_order {generation : Generation} {hits : List SearchHit}
    (hRange : ∀ index ∈ generation.citedPassageIndexes, 0 ≤ index ∧ index < hits.length) :
    (places generation).Pairwise fun (first second : Nat) =>
      generation.citedPassageIndexes.idxOf (first : Int) <
        generation.citedPassageIndexes.idxOf (second : Int) := by
  refine List.pairwise_map.mpr
    ((fromKeys_order generation.citedPassageIndexes).imp_of_mem ?_)
  intro first second hFirst hSecond hOrder
  rwa [Int.toNat_of_nonneg (hRange first (mem_fromKeys.mp hFirst)).1,
    Int.toNat_of_nonneg (hRange second (mem_fromKeys.mp hSecond)).1]

variable {hits : List SearchHit} {documents : List StoredDocument} {generation : Generation}
  {provider : GenerationInfo} {threshold elapsed : ℚ} {cap depth : Nat}

theorem grounded_of_answered
    (h : (response unicode threshold cap depth hits documents generation provider
      elapsed).abstained = false) :
    Grounded unicode hits documents generation
      (response unicode threshold cap depth hits documents generation provider elapsed) := by
  have hAssessed : (Ranking.assessGeneration unicode generation provider hits
      threshold).2.1 = false := h
  obtain ⟨hSupported, hBlank, hSome, hRange, hCited⟩ := accepted hAssessed
  have hSources : (response unicode threshold cap depth hits documents generation provider
      elapsed).sources =
        ((fromKeys generation.citedPassageIndexes).filterMap (itemAt hits)).map source := by
    simp [response, hAssessed, hCited]
  obtain ⟨result, hCollected, hResult⟩ := citedEntities_collected unicode
    ((fromKeys generation.citedPassageIndexes).filterMap (itemAt hits)) documents
  have hEntities : (response unicode threshold cap depth hits documents generation provider
      elapsed).entities = result.map Prod.snd := by
    simp [response, hAssessed, hCited, hResult]
  constructor
  · simp [response, hAssessed]
  · exact hBlank
  · exact hSupported
  · refine ⟨places generation, ?_, ?_, mem_places hRange, places_order hRange, ?_, ?_⟩
    · intro hNone
      obtain ⟨index, hIndex⟩ := List.exists_mem_of_ne_nil _ hSome
      obtain ⟨place, hPlace, _⟩ := (mem_places hRange index).mp hIndex
      simp [hNone] at hPlace
    · refine (places_order hRange).imp ?_
      intro first second hOrder hSame
      simp [hSame] at hOrder
    · intro place hPlace
      have hIndex := hRange place ((mem_places hRange place).mpr ⟨place, hPlace, rfl⟩)
      omega
    · rw [hSources, places_sources hRange]
  · rw [hEntities, hSources]
    intro found hFound
    obtain ⟨item, hItem, rfl⟩ := List.mem_map.mp hFound
    obtain ⟨document, hDocument, entity, rfl, hEvidenced⟩ := hCollected.evidenced item hItem
    obtain ⟨hit, hHit, hId, hInside⟩ := hEvidenced.inside
    exact ⟨document, hDocument, entity, hEvidenced.stored, rfl, hEvidenced.named,
      source hit, List.mem_map_of_mem hHit, hId, hInside⟩
  · rw [hEntities, hCollected.keys]
    exact hCollected.nodup

/-- Whatever a generator returns, for every retrieved list, stored documents and threshold:
an answer that is not withheld is grounded, a withheld one shows the retrieved evidence
and nothing else, the confidence is in range, and one invalid index withholds the answer. -/
theorem response_grounded (unicode : Unicode) (threshold : ℚ) (cap depth : Nat)
    (hits : List SearchHit) (documents : List StoredDocument) (generation : Generation)
    (provider : GenerationInfo) (elapsed : ℚ) :
    let response := response unicode threshold cap depth hits documents generation provider elapsed
    (response.abstained = false → Grounded unicode hits documents generation response) ∧
    (response.abstained = true →
      response.answer = [] ∧ response.entities = [] ∧ response.sources = hits.map source) ∧
    (0 ≤ response.confidence ∧ response.confidence ≤ 1) ∧
    ((∃ index ∈ generation.citedPassageIndexes, ¬(0 ≤ index ∧ index < hits.length)) →
      response.abstained = true) := by
  intro response
  refine ⟨grounded_of_answered, ?_, ⟨response.confidence_ge, response.confidence_le⟩, ?_⟩
  · intro hAbstained
    have hAssessed : (Ranking.assessGeneration unicode generation provider hits
        threshold).2.1 = true := hAbstained
    simp [response, QueryService.response, hAssessed]
  · rintro ⟨index, hIndex, hInvalid⟩
    by_contra hAnswered
    have hAssessed : (Ranking.assessGeneration unicode generation provider hits
        threshold).2.1 = false := Bool.not_eq_true _ ▸ hAnswered
    obtain ⟨_, _, _, hRange, _⟩ := accepted hAssessed
    exact hInvalid (hRange index hIndex)

end QueryService

end DocInsight.Query
