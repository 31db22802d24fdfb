import DocInsight.Python.Replace
import DocInsight.Worker.AnalysisBookkeeping
import DocInsight.Worker.ChunkBudget
import DocInsight.Worker.Processing

/-! Extraction of the pages of an original, and the one sequential path from its bytes to a
document that can be stored. Pages are read by PDFium, Pillow and Tesseract. -/
namespace DocInsight.Worker

open DocInsight.Contracts DocInsight.Python Interaction

structure ExtractionSettings where
  ocrMinChars : Nat := 20
  ocrDpi : Nat := 200
  ocrLangs : String := "eng+hrv"

/-- What is read of an original's bytes; a page is given by its index, a rendering of it by
its scale, and recognition by its languages. -/
structure ExtractionLibrary where
  pageCount : Bytes → Except Failure Nat
  textLayer : Bytes → Nat → Except Failure Text
  recognizePage : Bytes → Nat → ℚ → String → Except Failure Text
  recognizeImage : Bytes → String → Except Failure Text

def newline : Text := [codePoint '\n']

def carriageReturn : CodePoint := codePoint '\r'

def normalize (value : Text) : Text :=
  strip (replace [carriageReturn] newline (replace (carriageReturn :: newline) newline value))

theorem pageNumber_ge (index : Nat) : 1 ≤ index + 1 := Nat.le_add_left 1 index

section Extract
variable (library : ExtractionLibrary) (settings : ExtractionSettings)

/-- Prefer a sufficient text layer; otherwise OCR the rendered page at configured DPI. -/
def pdfPage (data : Bytes) (index : Nat) : Except Failure Page := do
  let layer ← library.textLayer data index
  let value := normalize layer
  if settings.ocrMinChars ≤ value.length then
    return { number := index + 1, text := value, source := .textLayer
             number_ge := pageNumber_ge index }
  else
    -- PDF coordinates are points (72 per inch); OCR resolution is dots per inch.
    let recognized ← library.recognizePage data index (settings.ocrDpi / 72) settings.ocrLangs
    return { number := index + 1, text := normalize recognized, source := .ocr
             number_ge := pageNumber_ge index }

/-- The pages of a PDF, and the first frame of an image. -/
def extractPages (kind : MediaType) (data : Bytes) : Except Failure (List Page) := do
  if kind = .pdf then
    let count ← library.pageCount data
    (List.range count).mapM (pdfPage library settings data)
  else
    let recognized ← library.recognizeImage data settings.ocrLangs
    return [{ number := 1, text := normalize recognized, source := .ocr
              number_ge := Nat.le_refl 1 }]

/-- Extract ordered pages from one byte snapshot, also used for its digest. -/
def extract (sha256 : Bytes → String) (data : Bytes) : Except Failure ExtractedDocument := do
  let kind ← mediaType data
  let pages ← extractPages library settings kind data
  return { sha256 := sha256 data, mediaType := kind, pages }

end Extract

/-- Shared CLI/consumer pipeline with model providers owned by the caller. -/
structure Pipeline where
  library : ExtractionLibrary
  extraction : ExtractionSettings
  settings : Settings
  detector : LanguageDetector
  ner : NerExtractor
  tokenizer : Tokenizer
  spelling : Text → Text
  embedder : FastEmbedEmbedder

/-- The exception that a failed embedding is. -/
def EmbedError.failure : EmbedError → Failure
  | value _ => .value "ValueError"
  | model error => .other error

namespace Pipeline
variable (pipeline : Pipeline) (sha256 : Bytes → String)

/-- The stages before the repository's atomic write. -/
def document (data : Bytes) : Except Failure Document := do
  let extracted ← extract pipeline.library pipeline.extraction sha256 data
  let analyzed ← (analyze pipeline.detector pipeline.ner pipeline.tokenizer pipeline.settings
    pipeline.spelling extracted).mapError fun _ => .value "ValueError"
  (embedDocument analyzed pipeline.embedder).mapError EmbedError.failure

/-- Run all processing stages before atomically storing the complete result. -/
def index {Call : Type} {Response : Call → Type} (backend : Backend Call Response)
    (path : String) (data : Bytes) (tenantId : String) (filename : Option String) :
    Program Call Response Failure Unit :=
  match pipeline.document sha256 data with
  | .error error => throw error
  | .ok document => backend.upsertDocument tenantId (storedName path filename) document

/-- The derived output alone. -/
def output (data : Bytes) : Except Failure Output :=
  (pipeline.document sha256 data).map fun document =>
    { pages := document.pages, chunks := document.chunks, entities := document.entities
      embedModel := document.embedModel, embedDimension := document.embedDimension }

end Pipeline

theorem carriageReturn_not_mem_normalize (value : Text) : carriageReturn ∉ normalize value := by
  intro hMember
  obtain ⟨leading, trailing, hParts, -, -⟩ :=
    strip_parts (replace [carriageReturn] newline (replace (carriageReturn :: newline) newline value))
  have hNewline : carriageReturn ∉ newline := by decide
  apply not_mem_replace hNewline (replace (carriageReturn :: newline) newline value)
  rw [hParts]
  exact List.mem_append_right _ (List.mem_append_left _ hMember)

/-- What is normalized stays as it is. -/
theorem normalize_normalize (value : Text) : normalize (normalize value) = normalize value := by
  have hClean := carriageReturn_not_mem_normalize value
  have hFirst : replace (carriageReturn :: newline) newline (normalize value) = normalize value :=
    replace_of_not_mem List.mem_cons_self hClean
  have hSecond : replace [carriageReturn] newline (normalize value) = normalize value :=
    replace_of_not_mem List.mem_cons_self hClean
  have hStripped : strip (normalize value) = normalize value := strip_strip _
  rw [normalize, hFirst, hSecond, hStripped]

/-- A page as it is extracted, where a text layer has to be long enough. -/
structure ExtractedPage (settings : ExtractionSettings) (number : Nat) (page : Page) : Prop where
  number : page.number = number
  normalized : normalize page.text = page.text
  sufficient : page.source = .textLayer → settings.ocrMinChars ≤ page.text.length

section Extracted
variable {library : ExtractionLibrary} {settings : ExtractionSettings} {sha256 : Bytes → String}
  {data : Bytes}

theorem pdfPage_extracted {index : Nat} {page : Page}
    (h : pdfPage library settings data index = .ok page) :
    ExtractedPage settings (index + 1) page := by
  obtain ⟨layer, -, h⟩ := Raising.bind_eq_ok.mp h
  simp only at h
  split_ifs at h with hSufficient
  · cases h
    exact ⟨rfl, normalize_normalize layer, fun _ => hSufficient⟩
  · obtain ⟨recognized, -, h⟩ := Raising.bind_eq_ok.mp h
    cases h
    exact ⟨rfl, normalize_normalize recognized, fun hLayer => by cases hLayer⟩

/-- The pages of an original are numbered from one on. -/
theorem extractPages_extracted {kind : MediaType} {pages : List Page}
    (h : extractPages library settings kind data = .ok pages) :
    List.Forall₂ (ExtractedPage settings) (List.range' 1 pages.length) pages := by
  unfold extractPages at h
  split_ifs at h with hPdf
  · obtain ⟨count, -, h⟩ := Raising.bind_eq_ok.mp h
    have hPages := Raising.forall₂_of_mapM h
    have hCount : pages.length = count := by
      rw [← hPages.length_eq, List.length_range]
    have hNumbers : List.range' 1 pages.length = (List.range count).map (· + 1) := by
      rw [hCount, List.range'_eq_map_range]
      apply List.map_congr_left
      intro index _
      exact Nat.add_comm 1 index
    rw [hNumbers, List.forall₂_map_left_iff]
    exact hPages.imp fun index page hPage => pdfPage_extracted hPage
  · obtain ⟨recognized, -, h⟩ := Raising.bind_eq_ok.mp h
    cases h
    have hPage : ExtractedPage settings 1
        { number := 1, text := normalize recognized, source := .ocr, number_ge := Nat.le_refl 1 } :=
      ⟨rfl, normalize_normalize recognized, fun hLayer => by cases hLayer⟩
    exact List.Forall₂.cons hPage List.Forall₂.nil

theorem extract_ok {extracted : ExtractedDocument}
    (h : extract library settings sha256 data = .ok extracted) :
    extracted.sha256 = sha256 data ∧ mediaType data = .ok extracted.mediaType ∧
      List.Forall₂ (ExtractedPage settings) (List.range' 1 extracted.pages.length)
        extracted.pages := by
  obtain ⟨kind, hKind, h⟩ := Raising.bind_eq_ok.mp h
  obtain ⟨pages, hPages, h⟩ := Raising.bind_eq_ok.mp h
  cases h
  exact ⟨rfl, hKind, extractPages_extracted hPages⟩

end Extracted

/-- A passage of a page: the slice of its text between the offsets. -/
def SlicedFrom (page : Page) (chunk : Chunk) : Prop :=
  chunk.page = page.number ∧ chunk.text = slice page.text chunk.charStart chunk.charEnd

theorem chunkPage_sliced {page : Page} {tokenizer : Tokenizer} {settings : ChunkSettings}
    {startOrd : Int} {chunks : List Chunk}
    (h : chunkPage page tokenizer settings startOrd = .ok chunks) :
    ∀ chunk ∈ chunks, SlicedFrom page chunk := by
  intro chunk hChunk
  have hLabelled := (chunkPage_labelled h).1 chunk hChunk
  rw [chunkPage_eq, Counting.chunks] at h
  have hExact := ((chunkWindows_exact _ _ page settings startOrd).1 chunks h).exact chunk hChunk
  exact ⟨hLabelled.1, hExact.text⟩

/-- Each chunk of an analysis is a passage of a page that was extracted. -/
theorem analyze_sliced {detector : LanguageDetector} {ner : NerExtractor} {tokenizer : Tokenizer}
    {settings : Settings} {spelling : Text → Text} {extracted : ExtractedDocument}
    {document : Document}
    (h : analyze detector ner tokenizer settings spelling extracted = .ok document) :
    ∀ chunk ∈ document.chunks, ∃ page ∈ extracted.pages, SlicedFrom page chunk := by
  intro chunk hChunk
  obtain ⟨page, hPage, startOrd, chunks, hChunks, hMember⟩ := analyze_chunks h chunk hChunk
  exact ⟨page, hPage, chunkPage_sliced hChunks chunk hMember⟩

theorem analyze_source {detector : LanguageDetector} {ner : NerExtractor} {tokenizer : Tokenizer}
    {settings : Settings} {spelling : Text → Text} {extracted : ExtractedDocument}
    {document : Document}
    (h : analyze detector ner tokenizer settings spelling extracted = .ok document) :
    document.sha256 = extracted.sha256 ∧ document.mediaType = extracted.mediaType ∧
      document.pages.length = extracted.pages.length := by
  have hLength := (analyze_bookkept h).pages.length_eq
  obtain ⟨analysis, -, rfl⟩ := analyze_ok h
  exact ⟨rfl, rfl, hLength.symm⟩

theorem embedDocument_source {document embedded : Document} {embedder : FastEmbedEmbedder}
    (h : embedDocument document embedder = .ok embedded) :
    embedded.sha256 = document.sha256 ∧ embedded.mediaType = document.mediaType ∧
      embedded.pages = document.pages ∧ embedded.pipelineVersion = pipelineVersion := by
  obtain ⟨vectors, -, h⟩ := Raising.bind_eq_ok.mp h
  split_ifs at h
  cases h
  exact ⟨rfl, rfl, rfl, rfl⟩

namespace Pipeline
variable {pipeline : Pipeline} {sha256 : Bytes → String} {data : Bytes}

/-- What a document is made of. -/
theorem document_ok {document : Document} (h : pipeline.document sha256 data = .ok document) :
    ∃ extracted analyzed, extract pipeline.library pipeline.extraction sha256 data = .ok extracted ∧
      analyze pipeline.detector pipeline.ner pipeline.tokenizer pipeline.settings
        pipeline.spelling extracted = .ok analyzed ∧
      embedDocument analyzed pipeline.embedder = .ok document := by
  obtain ⟨extracted, hExtracted, h⟩ := Raising.bind_eq_ok.mp h
  obtain ⟨analyzed, hAnalyzed, h⟩ := Raising.bind_eq_ok.mp h
  exact ⟨extracted, analyzed, hExtracted, Raising.mapError_eq_ok.mp hAnalyzed,
    Raising.mapError_eq_ok.mp h⟩

/-- A document has the digest and the kind of the bytes it is made from. -/
theorem document_source {document : Document} (h : pipeline.document sha256 data = .ok document) :
    document.sha256 = sha256 data ∧ mediaType data = .ok document.mediaType ∧
      document.pipelineVersion = pipelineVersion := by
  obtain ⟨extracted, analyzed, hExtracted, hAnalyzed, hEmbedded⟩ := document_ok h
  obtain ⟨hDigest, hKind, -⟩ := extract_ok hExtracted
  obtain ⟨hDigest', hKind', -⟩ := analyze_source hAnalyzed
  obtain ⟨hDigest'', hKind'', -, hVersion⟩ := embedDocument_source hEmbedded
  refine ⟨hDigest''.trans (hDigest'.trans hDigest), ?_, hVersion⟩
  rw [hKind'', hKind']
  exact hKind

/-- A worker that runs the pipeline in place of asking for its output indexes as the pipeline
does. -/
theorem index_eq {Call : Type} {Response : Call → Type} {backend : Backend Call Response}
    (hCompute : backend.outside (.compute data) = .done (pipeline.output backend.sha256 data))
    (path tenantId : String) (filename : Option String) :
    Worker.index backend path data tenantId filename =
      pipeline.index backend.sha256 backend path data tenantId filename := by
  simp only [Worker.index, Pipeline.index, hCompute]
  cases hDocument : pipeline.document backend.sha256 data with
  | error error =>
      cases hKind : mediaType data with
      | error refused =>
          have hRefused : pipeline.document backend.sha256 data = .error refused := by
            simp only [document, extract, hKind]
            rfl
          cases hRefused.symm.trans hDocument
          rfl
      | ok kind =>
          simp only [output, hDocument]
          rfl
  | ok made =>
      obtain ⟨hDigest, hKind, hVersion⟩ := document_source hDocument
      simp only [hKind, output, hDocument, ← hDigest]
      rw [← hVersion]
      rfl

/-- So it stores a document that the pipeline makes of the bytes, or nothing. -/
theorem index_stores {Call : Type} {Response : Call → Type} {backend : Backend Call Response}
    (hCompute : backend.outside (.compute data) = .done (pipeline.output backend.sha256 data))
    (path tenantId : String) (filename : Option String) :
    (∃ error, Worker.index backend path data tenantId filename = .done (.error error)) ∨
    ∃ document, pipeline.document backend.sha256 data = .ok document ∧
      Worker.index backend path data tenantId filename =
        backend.upsertDocument tenantId (storedName path filename) document := by
  rw [index_eq hCompute, Pipeline.index]
  cases hDocument : pipeline.document backend.sha256 data with
  | error error => exact Or.inl ⟨error, rfl⟩
  | ok document => exact Or.inr ⟨document, rfl, rfl⟩

end Pipeline

end DocInsight.Worker
