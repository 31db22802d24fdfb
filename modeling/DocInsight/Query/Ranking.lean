import DocInsight.Contracts.Storage
import DocInsight.Python.Dict
import DocInsight.Query.Generation

/-! Heuristic confidence and the rules by which a generation is accepted. Scores are
exact; of Unicode only what the tokenizer asks for is assumed. -/
namespace DocInsight.Query

open DocInsight.Contracts DocInsight.Python

/-- The character tables of the standard library. -/
structure Unicode where
  /-- `[^\W_]` -/
  isWord : CodePoint → Bool
  isUpper : Text → Bool
  casefold : Text → Text
  nfkc : Text → Text

namespace Ranking

def stopWords : List Text :=
  ["a", "an", "the", "is", "are", "was", "were", "do", "does", "did", "what", "where", "when",
   "why", "how", "which", "who", "in", "on", "at", "to", "of", "for", "and", "or", "it", "this",
   "that", "through", "during", "with", "about", "can", "could", "please", "explain", "tell",
   "me", "gdje", "što", "kako", "kada", "zašto", "je", "su", "se", "u", "na", "i", "od",
   "za"].map text

def operators : List Text := ["and", "or"].map text

variable (unicode : Unicode)

/-- `re.findall(r"[^\W_]+", value)`. -/
def tokens (value : Text) : List Text :=
  (value.splitOnP fun character => !unicode.isWord character).filter (!·.isEmpty)

/-- A content word, or a stop word in capitals that is no search operator. -/
def isContent (token : Text) : Bool :=
  let folded := unicode.casefold token
  let acronym := 1 < token.length && unicode.isUpper token && folded ∉ operators
  folded ∉ stopWords || acronym

/-- Casefold content words, each of them once. -/
def words (value : Text) : List Text :=
  fromKeys (((tokens unicode value).filter (isContent unicode)).map unicode.casefold)

def overlap (value evidence : Text) : ℚ :=
  let found := words unicode value
  if found.isEmpty then 0
  else ((found.filter (· ∈ words unicode evidence)).length : ℚ) / found.length

/-- Score lexical grounding and rank separation, not correctness probability. -/
def confidence (scores : List ℚ) (supported : Bool) (answer : Text) (citedPassages : List Text) :
    ℚ :=
  if !supported || scores.isEmpty || (strip answer).isEmpty || citedPassages.isEmpty then 0
  else
    -- A singleton has no competing observation; never invent a perfect margin.
    let margin :=
      match scores.head?, scores.getLast? with
      | some first, some last =>
          if 1 < scores.length ∧ 0 < first then (first - last) / first else 0
      | _, _ => 0
    let margin := min 1 (max 0 margin)
    let grounding := overlap unicode answer ((text " ").intercalate citedPassages)
    min 1 (max 0 ((7 / 10 + 3 / 10 * margin) * grounding))

/-- Use lexical thresholds for extraction, not for a hosted model's paraphrase. -/
def shouldAbstain (value threshold : ℚ) (supported generated : Bool) : Bool :=
  !supported || (!generated && (value ≤ 0 || value < threshold))

/-- Validate citation structure, then apply the provider-appropriate support rule. -/
def assessGeneration (generation : Generation) (provider : GenerationInfo) (hits : List SearchHit)
    (threshold : ℚ) : ℚ × Bool × List SearchHit :=
  let indexes := fromKeys generation.citedPassageIndexes
  let valid := !indexes.isEmpty && !(strip generation.answer).isEmpty &&
    indexes.all fun index => 0 ≤ index && index < hits.length
  let cited := if valid then indexes.filterMap (itemAt hits) else []
  let value := confidence unicode (hits.map (·.score)) (generation.supported && valid)
    generation.answer (cited.map (·.chunk.text))
  let abstained := shouldAbstain value threshold (generation.supported && valid)
    (provider.provider = "openai")
  (value, abstained, cited)

end Ranking

end DocInsight.Query
