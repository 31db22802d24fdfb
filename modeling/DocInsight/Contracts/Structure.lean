import DocInsight.Python.Text
import Mathlib.Data.Rat.Defs

/-! Pages, chunks and documents as the worker passes them on, and the providers it is
given. A provider is what it answers; its own failures are not part of its contract. -/
namespace DocInsight.Contracts

open DocInsight.Python

inductive PageSource where
  | textLayer
  | ocr
  deriving DecidableEq, Repr

inductive MediaType where
  | pdf
  | png
  | jpeg
  | tiff
  deriving DecidableEq, Repr

structure Page where
  number : Nat
  text : Text
  source : PageSource
  language : String := "und"
  confidence : ℚ := 0
  number_ge : 1 ≤ number

/-- One component of a stored vector; a float need not be finite. -/
inductive Scalar where
  | finite (value : ℚ)
  | nonfinite
  deriving DecidableEq, Repr

structure Chunk where
  text : Text
  language : String := "und"
  page : Nat
  ord : Int
  charStart : Int
  charEnd : Int
  tokenCount : Int
  embedding : Option (List Scalar) := none
  deriving DecidableEq, Repr

structure Entity where
  text : Text
  label : String
  page : Nat
  charStart : Int
  charEnd : Int
  count : Int := 1
  deriving DecidableEq, Repr

def pipelineVersion : String := "6"

structure ExtractedDocument where
  pipelineVersion : String := Contracts.pipelineVersion
  sha256 : String
  mediaType : MediaType
  pages : List Page

structure Document extends ExtractedDocument where
  chunks : List Chunk
  entities : List Entity
  embedModel : Option String := none
  embedDimension : Option Nat := none

structure LanguageGuess where
  language : String
  confidence : ℚ

structure LanguageDetector where
  detect : Text → LanguageGuess

structure NerExtractor where
  extract : Page → List Entity

/-- The half-open character range of one token. -/
abbrev Span := Int × Int

structure Tokenizer where
  encode : Text → List Span

end DocInsight.Contracts
