import DocInsight.Contracts.Storage
import DocInsight.Worker.Chunking
import Mathlib.Algebra.Order.Ring.Rat

/-! Page analysis and embedding: every page is chunked, and every chunk text is embedded
after the whole batch was checked against the input limit of the model. -/
namespace DocInsight.Worker

open DocInsight.Contracts DocInsight.Python

/-- The model's sentence input has room for 126 tokens beside its two special ones. -/
structure Settings extends ChunkSettings where
  langSampleChars : Nat := 4000
  langMinConfidence : ℚ := 1 / 2
  nerMaxChars : Nat := 100000
  chunkTokens_le : chunkTokens ≤ 126

section Entities
variable (spelling : Text → Text)

/-- Count an entity with the first one of its spelling and label. -/
def addEntity (unique : List ((Text × String) × Entity)) (entity : Entity) :
    List ((Text × String) × Entity) :=
  let key := (spelling entity.text, entity.label)
  if unique.any fun entry => entry.1 = key then
    unique.map fun entry =>
      if entry.1 = key then (entry.1, { entry.2 with count := entry.2.count + entity.count })
      else entry
  else unique ++ [(key, entity)]

/-- Group normalized spelling/label pairs, keeping first offsets and total count. -/
def deduplicate (entities : List Entity) : List Entity :=
  let sorted := entities.mergeSort fun first second =>
    first.page < second.page || (first.page = second.page && first.charStart ≤ second.charStart)
  (sorted.foldl (addEntity spelling) []).map Prod.snd

end Entities

/-- What was made of the pages so far, with the characters left for entities. -/
structure Analysis where
  pages : List Page
  chunks : List Chunk
  entities : List Entity
  remaining : Int

section Analyze
variable (detector : LanguageDetector) (ner : NerExtractor) (tokenizer : Tokenizer)
  (settings : Settings)

def detectLanguage (original : Page) : Page :=
  let guess := detector.detect (slice original.text 0 settings.langSampleChars)
  let language := if settings.langMinConfidence ≤ guess.confidence then guess.language else "und"
  { original with language, confidence := guess.confidence }

def analyzePage (analysis : Analysis) (original : Page) : Except ValueError Analysis := do
  let page := detectLanguage detector settings original
  let sample := slice page.text 0 analysis.remaining
  let entities :=
    if sample.isEmpty then analysis.entities
    else analysis.entities ++ ner.extract { page with text := sample }
  let chunks ← chunkPage page tokenizer settings.toChunkSettings analysis.chunks.length
  return { pages := analysis.pages ++ [page], chunks := analysis.chunks ++ chunks, entities,
           remaining := analysis.remaining - sample.length }

/-- Detect per-page language; cap document-wide NER while chunking every page. -/
def analyze (spelling : Text → Text) (document : ExtractedDocument) :
    Except ValueError Document := do
  let analysis ← document.pages.foldlM (analyzePage detector ner tokenizer settings)
    ⟨[], [], [], settings.nerMaxChars⟩
  return { document with
           pipelineVersion, pages := analysis.pages, chunks := analysis.chunks,
           entities := deduplicate spelling analysis.entities }

end Analyze

inductive EmbedError where
  | value (error : ValueError)
  | model (error : String)
  deriving DecidableEq, Repr

/-- The embedder with the vectors, of unit length, that its model gives. -/
structure FastEmbedEmbedder where
  tokenizer : Tokenizer
  model : List Text → Except String (List (List Scalar))
  modelId : String
  dimension : Nat := 384

/-- The answer to a text that the model would cut. -/
def refusal : EmbedError :=
  .value ⟨"MiniLM input exceeds 126 content tokens; refusing truncation"⟩

/-- Validate the whole batch, then return unit vectors in input order. -/
def FastEmbedEmbedder.embedPassages (embedder : FastEmbedEmbedder) (texts : List Text) :
    Except EmbedError (List (List Scalar)) :=
  if texts.isEmpty then .ok []
  else if texts.any fun value => 126 < (embedder.tokenizer.encode value).length then
    .error refusal
  else (embedder.model texts).mapError .model

/-- A vector that may be stored: of the right dimension, finite and not zero. -/
def validVector (dimension : Nat) (vector : List Scalar) : Bool :=
  vector.length = dimension && vector.any (· ≠ .finite 0) && vector.all Scalar.isFinite

/-- Copy output with one finite, nonzero vector per chunk and provider metadata. -/
def embedDocument (document : Document) (embedder : FastEmbedEmbedder) :
    Except EmbedError Document := do
  let vectors ← embedder.embedPassages (document.chunks.map Chunk.text)
  if vectors.length ≠ document.chunks.length || !vectors.all (validVector embedder.dimension) then
    .error (.value ⟨"Embedder returned invalid vector count, dimension or values"⟩)
  else
    let chunks := (document.chunks.zip vectors).map fun (chunk, vector) =>
      { chunk with embedding := some vector }
    return { document with
             chunks, embedModel := some embedder.modelId,
             embedDimension := some embedder.dimension, pipelineVersion }

end DocInsight.Worker
