import DocInsight.Library.Quoting
import DocInsight.Query.Retrieval

/-! The query for the full-text search: quoted content words of a question. What a user types
as an operator is a word like any other, or no word at all. -/
namespace DocInsight.Query

open DocInsight.Python Quoting StableSort

/-- The quote of the search grammar. -/
def quotationMark : CodePoint := codePoint (Char.ofNat 34)

/-- Casefolding makes of letters and digits a string without quotes and whitespace. -/
def FoldsToTerms (unicode : Unicode) : Prop :=
  ∀ run, run ≠ [] → (∀ character ∈ run, unicode.isWord character = true) →
    ∀ character ∈ unicode.casefold run, character ≠ quotationMark ∧ isSpace character = false

section Words
variable {unicode : Unicode}

/-- The pieces of a text hold none of the characters at which it is split. -/
theorem not_of_mem_splitOnP {separates : CodePoint → Bool} {value piece : Text}
    (hPiece : piece ∈ value.splitOnP separates) :
    ∀ character ∈ piece, separates character = false := by
  induction value generalizing piece with
  | nil =>
      rw [List.splitOnP_nil, List.mem_singleton] at hPiece
      subst hPiece
      exact fun _ h => absurd h List.not_mem_nil
  | cons character rest ih =>
      rw [List.splitOnP_cons_eq_if_modifyHead] at hPiece
      split_ifs at hPiece with hSeparates
      · rcases List.mem_cons.mp hPiece with rfl | hRest
        · exact fun _ h => absurd h List.not_mem_nil
        · exact ih hRest
      · cases hPieces : rest.splitOnP separates with
        | nil => exact absurd hPieces (List.splitOnP_ne_nil _ _)
        | cons first others =>
            rw [hPieces] at hPiece ih
            rw [List.modifyHead_cons] at hPiece
            rcases List.mem_cons.mp hPiece with rfl | hOthers
            · intro other hOther
              rcases List.mem_cons.mp hOther with rfl | hFirst
              · simpa using hSeparates
              · exact ih (List.mem_cons_self ..) other hFirst
            · exact ih (List.mem_cons_of_mem _ hOthers)

/-- A token is a run of letters and digits. -/
theorem tokens_run {value token : Text} (hToken : token ∈ Ranking.tokens unicode value) :
    token ≠ [] ∧ ∀ character ∈ token, unicode.isWord character = true := by
  obtain ⟨hPiece, hSome⟩ := List.mem_filter.mp hToken
  refine ⟨by simpa using hSome, ?_⟩
  intro character hCharacter
  simpa using not_of_mem_splitOnP hPiece character hCharacter

/-- A content word has neither quotes nor whitespace in it. -/
theorem words_plain (folds : FoldsToTerms unicode) {value term : Text}
    (hTerm : term ∈ Ranking.words unicode value) :
    ∀ character ∈ term, character ≠ quotationMark ∧ isSpace character = false := by
  rw [Ranking.words, mem_fromKeys, List.mem_map] at hTerm
  obtain ⟨token, hToken, rfl⟩ := hTerm
  obtain ⟨hSome, hRun⟩ := tokens_run (List.mem_of_mem_filter hToken)
  exact folds token hSome hRun

end Words

section LexicalQuery
variable {unicode : Unicode}

/-- The content words of a question in order. -/
def sortedWords (unicode : Unicode) (question : Text) : List Text :=
  sortBy id (Ranking.words unicode question)

theorem lexicalQuery_eq (question : Text) :
    lexicalQuery unicode question =
      (text " OR ").intercalate ((sortedWords unicode question).map (quoted quotationMark)) := rfl

theorem mem_sortedWords {question term : Text} :
    term ∈ sortedWords unicode question ↔ term ∈ Ranking.words unicode question :=
  mem_sortBy id

/-- Each content word comes once. -/
theorem sortedWords_pairwise (question : Text) :
    (sortedWords unicode question).Pairwise (· < ·) := by
  have hNodup : (sortedWords unicode question).Nodup :=
    (sortBy_perm id _).nodup_iff.mpr (nodup_fromKeys _)
  have hOrdered : (sortedWords unicode question).Pairwise (· ≤ ·) := pairwise_sortBy id _
  exact (hOrdered.and hNodup).imp fun h => lt_of_le_of_ne h.1 h.2

/-- The same content words come in the same order. -/
theorem sortedWords_congr {question other : Text}
    (h : ∀ term, term ∈ Ranking.words unicode question ↔ term ∈ Ranking.words unicode other) :
    sortedWords unicode question = sortedWords unicode other := by
  have hSame (term : Text) : term ∈ sortedWords unicode question ↔
      term ∈ sortedWords unicode other := by
    rw [mem_sortedWords, mem_sortedWords, h]
  have hPerm : (sortedWords unicode question).Perm (sortedWords unicode other) := by
    apply (List.perm_ext_iff_of_nodup _ _).mpr hSame
    · exact (sortedWords_pairwise question).imp fun h => h.ne
    · exact (sortedWords_pairwise other).imp fun h => h.ne
  apply hPerm.eq_of_pairwise _ (sortedWords_pairwise question) (sortedWords_pairwise other)
  intro first second _ _ hFirst hSecond
  exact absurd (hFirst.trans hSecond) (lt_irrefl _)

/-- The query is empty when there is nothing to search for. -/
theorem lexicalQuery_eq_nil (question : Text) :
    lexicalQuery unicode question = [] ↔ Ranking.words unicode question = [] := by
  have hWords : sortedWords unicode question = [] ↔ Ranking.words unicode question = [] := by
    rw [← List.length_eq_zero_iff, sortedWords, (sortBy_perm id _).length_eq,
      List.length_eq_zero_iff]
  rw [← hWords, lexicalQuery_eq]
  cases sortedWords unicode question with
  | nil => exact iff_of_true rfl rfl
  | cons term rest =>
      have hSome : (text " OR ").intercalate ((term :: rest).map (quoted quotationMark)) ≠ [] := by
        cases rest with
        | nil => simp [List.intercalate, quoted]
        | cons next others =>
            rw [List.map_cons, List.map_cons, List.intercalate_cons_cons, quoted]
            simp
      exact iff_of_false hSome (List.cons_ne_nil _ _)

/-- Splitting a query at its joining word gives its quoted terms. -/
theorem split_lexicalQuery (folds : FoldsToTerms unicode) {question : Text}
    (hSome : lexicalQuery unicode question ≠ []) :
    split (text " OR ") (lexicalQuery unicode question) =
      (sortedWords unicode question).map (quoted quotationMark) := by
  have hJoin : text " OR " = 32 :: text "OR " := by decide
  rw [lexicalQuery_eq, hJoin] at hSome ⊢
  apply split_intercalate
  · intro hNone
    apply hSome
    rw [hNone]
    rfl
  · intro piece hPiece hHead
    obtain ⟨term, hTerm, rfl⟩ := List.mem_map.mp hPiece
    have hQuotes : (32 : CodePoint) ≠ quotationMark := by decide
    have hInside : (32 : CodePoint) ∈ term := by
      simpa [quoted, hQuotes] using hHead
    have hSpace := (words_plain folds (mem_sortedWords.mp hTerm) _ hInside).2
    revert hSpace
    decide

/-- A query is empty where the question has no content word, and otherwise its content words in
order, each of them quoted, with nothing but the joining words outside of the quotes. It
depends on the set of content words only. -/
theorem lexicalQuery_inert (unicode : Unicode) (folds : FoldsToTerms unicode) (question : Text) :
    let query := lexicalQuery unicode question
    let pieces := split (text " OR ") query
    let terms := pieces.map unquote
    (query = [] ↔ Ranking.words unicode question = []) ∧
    (query ≠ [] →
      query = (text " OR ").intercalate pieces ∧ pieces = terms.map (quoted quotationMark) ∧
      terms.Pairwise (· < ·) ∧
      (∀ term, term ∈ terms ↔ term ∈ Ranking.words unicode question) ∧
      (∀ term ∈ terms, ∀ character ∈ term,
        character ≠ quotationMark ∧ isSpace character = false) ∧
      outside quotationMark false query = (text " OR ").intercalate (terms.map fun _ => [])) ∧
    ∀ other, (∀ term, term ∈ Ranking.words unicode question ↔
        term ∈ Ranking.words unicode other) → lexicalQuery unicode other = query := by
  intro query pieces terms
  refine ⟨lexicalQuery_eq_nil question, ?_, ?_⟩
  · intro hSome
    have hPieces : pieces = (sortedWords unicode question).map (quoted quotationMark) :=
      split_lexicalQuery folds hSome
    have hTerms : terms = sortedWords unicode question := by
      show pieces.map unquote = _
      rw [hPieces, List.map_map]
      simp [Function.comp_def]
    have hPlain : ∀ term ∈ sortedWords unicode question, ∀ character ∈ term,
        character ≠ quotationMark ∧ isSpace character = false :=
      fun term hTerm => words_plain folds (mem_sortedWords.mp hTerm)
    rw [hTerms, hPieces]
    refine ⟨rfl, rfl, sortedWords_pairwise question, fun term => mem_sortedWords, hPlain, ?_⟩
    apply outside_intercalate
    · decide
    · intro term hTerm hQuote
      exact (hPlain term hTerm _ hQuote).1 rfl
  · intro other h
    show lexicalQuery unicode other = lexicalQuery unicode question
    rw [lexicalQuery_eq, lexicalQuery_eq, sortedWords_congr h]

end LexicalQuery

/-- The small letter of a letter. -/
def foldLetter (character : CodePoint) : CodePoint :=
  if hCapital : character.val ≤ 90 then ⟨character.val + 32, by omega⟩ else character

def basicLetters : Unicode where
  isWord character :=
    (65 ≤ character.val && character.val ≤ 90) || (97 ≤ character.val && character.val ≤ 122)
  isUpper value := value.all fun character => character.val ≤ 90
  casefold value := value.map foldLetter
  nfkc := id

theorem basicLetters_folds : FoldsToTerms basicLetters := by
  intro run _ hRun character hCharacter
  obtain ⟨letter, hLetter, rfl⟩ := List.mem_map.mp hCharacter
  have hWord := hRun letter hLetter
  simp only [basicLetters, Bool.or_eq_true, Bool.and_eq_true, decide_eq_true_eq] at hWord
  have hSmall : 97 ≤ (foldLetter letter).val ∧ (foldLetter letter).val ≤ 122 := by
    unfold foldLetter
    split_ifs with hCapital
    · simp only
      omega
    · omega
  constructor
  · intro hQuote
    rw [hQuote] at hSmall
    revert hSmall
    decide
  · simp only [isSpace, Bool.or_eq_false_iff, Bool.and_eq_false_iff, decide_eq_false_iff_not]
    omega

/-- Capitals that are no operator are searched for, and an operator is not. -/
theorem lexicalQuery_inert_bus :
    let terms := (split (text " OR ")
      (lexicalQuery basicLetters (text "the CAN OR \"bus\""))).map unquote
    text "can" ∈ terms ∧ text "or" ∉ terms := by
  obtain ⟨hEmpty, hForm, -⟩ := lexicalQuery_inert basicLetters basicLetters_folds
    (text "the CAN OR \"bus\"")
  obtain ⟨-, -, -, hTerms, -⟩ := hForm (mt hEmpty.mp (by decide))
  exact ⟨(hTerms _).mpr (by decide), mt (hTerms _).mp (by decide)⟩

end DocInsight.Query
