import DocInsight.Worker.Analysis
import DocInsight.Worker.ChunkEquivalence
import DocInsight.Worker.ChunkWindows

/-! Every chunk is within its token budget, counted on its own text, so the embedder
never refuses one. -/
namespace DocInsight.Worker

open DocInsight.Contracts DocInsight.Python

/-- The exact text, size and ordinal of the chunk at an index. -/
structure WithinBudget (page : Page) (tokenizer : Tokenizer) (settings : ChunkSettings)
    (startOrd : Int) (index : Nat) (chunk : Chunk) : Prop where
  text : chunk.text = slice page.text chunk.charStart chunk.charEnd
  size : chunk.tokenCount = (tokenizer.encode chunk.text).length
  budget : chunk.tokenCount ≤ settings.chunkTokens
  ord : chunk.ord = startOrd + index

/-- Chunks within budget, or an error for a unit that exceeds it alone. -/
structure KeepsBudget (page : Page) (tokenizer : Tokenizer) (settings : ChunkSettings)
    (startOrd : Int) (units : List Span) (result : Except ValueError (List Chunk)) : Prop where
  chunks : ∀ chunks, result = .ok chunks → ∀ index chunk, chunks[index]? = some chunk →
    WithinBudget page tokenizer settings startOrd index chunk
  error : ∀ error, result = .error error → ∃ unit ∈ units,
    settings.chunkTokens < (tokenizer.encode (slice page.text unit.1 unit.2)).length

section Page
variable {page : Page} {tokenizer : Tokenizer} {settings : ChunkSettings} {startOrd : Int}

theorem ChunksExact.withinBudget {units : List Span} {chunks : List Chunk}
    (exact : ChunksExact units (referenceCount page tokenizer) page settings.chunkTokens startOrd
      chunks) {index : Nat} {chunk : Chunk} (hChunk : chunks[index]? = some chunk) :
    WithinBudget page tokenizer settings startOrd index chunk := by
  have hExact := exact.exact chunk (List.mem_of_getElem? hChunk)
  have hOrd := congrArg (·[index]?) exact.ords
  have hIndex : index < chunks.length := (List.getElem?_eq_some_iff.mp hChunk).1
  simp only [List.getElem?_map, hChunk, List.getElem?_range hIndex, Option.map_some,
    Option.some.injEq] at hOrd
  refine ⟨hExact.text, ?_, hExact.budget, hOrd⟩
  rw [hExact.size, hExact.text]
  rfl

/-- Counting every candidate keeps the budget, whatever the tokenizer does. -/
theorem referenceChunkPage_keepsBudget (page : Page) (tokenizer : Tokenizer)
    (settings : ChunkSettings) (startOrd : Int) :
    KeepsBudget page tokenizer settings startOrd
      (Counting.candidates.units page tokenizer settings.chunkTokens)
      (referenceChunkPage page tokenizer settings startOrd) := by
  obtain ⟨hChunks, hError⟩ := chunkWindows_exact
    (referenceUnits page tokenizer settings.chunkTokens) (referenceCount page tokenizer) page
    settings startOrd
  constructor
  · intro chunks hOk index chunk hChunk
    exact (hChunks chunks hOk).withinBudget hChunk
  · intro error hFailed
    obtain ⟨unit, hUnit, hSize⟩ := hError error hFailed
    exact ⟨unit, hUnit, by simpa [referenceCount] using hSize⟩

/-- The tokenizer encodes word by word where the offsets of the page are counted. -/
def CountsWords (page : Page) (tokenizer : Tokenizer) : Prop :=
  Counting.select page tokenizer = .pageOffsets → WordCompositional tokenizer page.text

theorem select_pageOffsets (h : Counting.select page tokenizer = .pageOffsets) :
    (PageTokens.new page.text tokenizer).ordered = true := by
  unfold Counting.select at h
  split_ifs at h with hGuard hUnordered
  simpa using hUnordered

theorem chunkPage_keepsBudget (hTokenizer : CountsWords page tokenizer) (settings : ChunkSettings)
    (startOrd : Int) :
    KeepsBudget page tokenizer settings startOrd
      ((Counting.select page tokenizer).units page tokenizer settings.chunkTokens)
      (chunkPage page tokenizer settings startOrd) := by
  have hReference := referenceChunkPage_keepsBudget page tokenizer settings startOrd
  cases hSelect : Counting.select page tokenizer with
  | candidates =>
      rw [chunkPage_eq, hSelect]
      exact hReference
  | pageOffsets =>
      have hWords := hTokenizer hSelect
      have hUnits := pageUnits_eq hWords (select_pageOffsets hSelect) settings.chunkTokens
      rw [chunkPage_refines page tokenizer settings startOrd hWords]
      show KeepsBudget page tokenizer settings startOrd
        (pageUnits page (PageTokens.new page.text tokenizer) settings.chunkTokens) _
      rw [hUnits]
      exact hReference

end Page

section Document
variable {detector : LanguageDetector} {ner : NerExtractor} {tokenizer : Tokenizer}
  {settings : Settings}

/-- Analysing one page appends its chunks. -/
theorem analyzePage_chunks {analysis later : Analysis} {original : Page}
    (h : analyzePage detector ner tokenizer settings analysis original = .ok later) :
    ∃ chunks, chunkPage (detectLanguage detector settings original) tokenizer
        settings.toChunkSettings analysis.chunks.length = .ok chunks ∧
      later.chunks = analysis.chunks ++ chunks := by
  simp only [analyzePage] at h
  cases hChunks : chunkPage (detectLanguage detector settings original) tokenizer
      settings.toChunkSettings analysis.chunks.length with
  | error error =>
      rw [hChunks] at h
      cases h
  | ok chunks =>
      rw [hChunks] at h
      cases h
      exact ⟨chunks, rfl, rfl⟩

/-- Every chunk of the analysis comes from chunking one of its pages. -/
theorem analyzePages_chunks {pages : List Page} {analysis later : Analysis}
    (h : pages.foldlM (analyzePage detector ner tokenizer settings) analysis = .ok later) :
    ∀ chunk ∈ later.chunks, chunk ∈ analysis.chunks ∨ ∃ original ∈ pages, ∃ startOrd chunks,
      chunkPage (detectLanguage detector settings original) tokenizer settings.toChunkSettings
        startOrd = .ok chunks ∧ chunk ∈ chunks := by
  induction pages generalizing analysis with
  | nil =>
      cases h
      intro chunk hChunk
      exact Or.inl hChunk
  | cons original rest ih =>
      rw [List.foldlM_cons] at h
      cases hPage : analyzePage detector ner tokenizer settings analysis original with
      | error error =>
          rw [hPage] at h
          cases h
      | ok middle =>
          rw [hPage] at h
          intro chunk hChunk
          rcases ih h chunk hChunk with hMiddle | ⟨page, hMem, found⟩
          · obtain ⟨chunks, hChunks, hAppend⟩ := analyzePage_chunks hPage
            rw [hAppend] at hMiddle
            rcases List.mem_append.mp hMiddle with hOld | hNew
            · exact Or.inl hOld
            · exact Or.inr ⟨original, List.mem_cons_self .., _, chunks, hChunks, hNew⟩
          · exact Or.inr ⟨page, List.mem_cons_of_mem _ hMem, found⟩

theorem analyze_chunks {spelling : Text → Text} {document : ExtractedDocument} {result : Document}
    (h : analyze detector ner tokenizer settings spelling document = .ok result) :
    ∀ chunk ∈ result.chunks, ∃ original ∈ document.pages, ∃ startOrd chunks,
      chunkPage (detectLanguage detector settings original) tokenizer settings.toChunkSettings
        startOrd = .ok chunks ∧ chunk ∈ chunks := by
  simp only [analyze] at h
  cases hPages : document.pages.foldlM (analyzePage detector ner tokenizer settings)
      ⟨[], [], [], settings.nerMaxChars⟩ with
  | error error =>
      rw [hPages] at h
      cases h
  | ok analysis =>
      rw [hPages] at h
      cases h
      intro chunk hChunk
      rcases analyzePages_chunks hPages chunk hChunk with hNone | hFound
      · cases hNone
      · exact hFound

/-- Every chunk of an analysed document has at most as many tokens as the window. -/
theorem analyze_budget {spelling : Text → Text} {document : ExtractedDocument} {result : Document}
    (hTokenizer : ∀ page ∈ document.pages, CountsWords page tokenizer)
    (h : analyze detector ner tokenizer settings spelling document = .ok result) :
    ∀ chunk ∈ result.chunks, (tokenizer.encode chunk.text).length ≤ settings.chunkTokens := by
  intro chunk hChunk
  obtain ⟨original, hOriginal, startOrd, chunks, hPage, hMem⟩ := analyze_chunks h chunk hChunk
  -- Detecting the language leaves the text, and so the way it is counted, as it is.
  have hWords : CountsWords (detectLanguage detector settings original) tokenizer :=
    hTokenizer original hOriginal
  obtain ⟨index, hIndex, hChunkAt⟩ := List.mem_iff_getElem.mp hMem
  have hWithin := (chunkPage_keepsBudget hWords settings.toChunkSettings startOrd).chunks chunks
    hPage index chunk (by rw [List.getElem?_eq_getElem hIndex, hChunkAt])
  have hSize := hWithin.size
  have hBudget := hWithin.budget
  omega

/-- A batch of texts within the limit is never refused. -/
theorem embedPassages_accepts {embedder : FastEmbedEmbedder} {texts : List Text}
    (h : ∀ value ∈ texts, (embedder.tokenizer.encode value).length ≤ 126) :
    embedder.embedPassages texts ≠ .error refusal := by
  unfold FastEmbedEmbedder.embedPassages
  split_ifs with hEmpty hLong
  · simp
  · obtain ⟨value, hValue, hMore⟩ := List.any_eq_true.mp hLong
    have hFits := h value hValue
    exact absurd (of_decide_eq_true hMore) (by omega)
  · cases embedder.model texts <;> simp [Except.mapError, refusal]

end Document

/-- The budget of every chunk: on the reference path for every tokenizer, on the fast one
for every tokenizer that encodes word by word. So an embedder with the same tokenizer
refuses no chunks of an analysed document. -/
theorem chunks_keepBudget (tokenizer : Tokenizer) (settings : Settings) :
    (∀ page startOrd, KeepsBudget page tokenizer settings.toChunkSettings startOrd
      (Counting.candidates.units page tokenizer settings.chunkTokens)
      (referenceChunkPage page tokenizer settings.toChunkSettings startOrd)) ∧
    (∀ page startOrd, CountsWords page tokenizer →
      KeepsBudget page tokenizer settings.toChunkSettings startOrd
        ((Counting.select page tokenizer).units page tokenizer settings.chunkTokens)
        (chunkPage page tokenizer settings.toChunkSettings startOrd)) ∧
    ∀ detector ner spelling document result (embedder : FastEmbedEmbedder),
      embedder.tokenizer = tokenizer → (∀ page ∈ document.pages, CountsWords page tokenizer) →
      analyze detector ner tokenizer settings spelling document = .ok result →
      (∀ texts ⊆ result.chunks.map Chunk.text, embedder.embedPassages texts ≠ .error refusal) ∧
        embedDocument result embedder ≠ .error refusal := by
  refine ⟨fun page startOrd => referenceChunkPage_keepsBudget page tokenizer _ startOrd,
    fun page startOrd hWords => chunkPage_keepsBudget hWords _ startOrd, ?_⟩
  rintro detector ner spelling document result embedder rfl hWords hAnalyzed
  have hAccepts : ∀ texts ⊆ result.chunks.map Chunk.text,
      embedder.embedPassages texts ≠ .error refusal := by
    intro texts hTexts
    apply embedPassages_accepts
    intro value hValue
    obtain ⟨chunk, hChunk, rfl⟩ := List.mem_map.mp (hTexts hValue)
    exact le_trans (analyze_budget hWords hAnalyzed chunk hChunk) settings.chunkTokens_le
  refine ⟨hAccepts, ?_⟩
  have hTexts := hAccepts _ (List.Subset.refl _)
  unfold embedDocument
  cases hVectors : embedder.embedPassages (result.chunks.map Chunk.text) with
  | error error =>
      intro hRefused
      cases hRefused
      exact hTexts hVectors
  | ok vectors =>
      simp only [bind, Except.bind]
      split_ifs
      · simp [refusal]
      · simp [pure, Except.pure]

def smallWindows : Settings where
  chunkTokens := 2
  chunkOverlap := 1
  valid_overlap := by decide
  chunkTokens_le := by decide

def cutWordDocument : ExtractedDocument where
  sha256 := "00"
  mediaType := .pdf
  pages := [cutWordPage, cutWordPage]

theorem chunks_keepBudget_cutWord :
    (analyze ⟨fun _ => ⟨"en", 1⟩⟩ ⟨fun _ => []⟩ letters smallWindows id
        cutWordDocument).toOption.map
      (fun document => document.chunks.map fun chunk => (chunk.ord, chunk.tokenCount)) =
        some [(0, 2), (1, 2), (2, 2), (3, 2)] ∧
    ∀ result, analyze ⟨fun _ => ⟨"en", 1⟩⟩ ⟨fun _ => []⟩ letters smallWindows id
        cutWordDocument = .ok result →
      embedDocument result ⟨letters, fun texts => .ok (texts.map fun _ => [.finite 1]), "m", 1⟩ ≠
        .error refusal :=
  ⟨by decide, fun result hAnalyzed =>
    ((chunks_keepBudget letters smallWindows).2.2 _ _ _ cutWordDocument result _ rfl
      (fun page _ _ => letters_compositional page.text) hAnalyzed).2⟩

end DocInsight.Worker
