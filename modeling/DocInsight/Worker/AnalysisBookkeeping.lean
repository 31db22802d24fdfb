import DocInsight.Library.Raising
import DocInsight.Worker.ChunkBudget
import Mathlib.Data.List.Forall2

/-! What the loop over the pages of a document keeps: chunks numbered through the whole
document, a budget of characters for entities that is used up page by page, and pages that
only gain a language. -/
namespace DocInsight.Worker

open DocInsight.Contracts DocInsight.Python Loop

section Page
variable {page : Page} {tokenizer : Tokenizer} {settings : ChunkSettings} {startOrd : Int}

/-- A chunk names its page and has the page's language. -/
def Labelled (page : Page) (chunk : Chunk) : Prop :=
  chunk.page = page.number ∧ chunk.language = page.language

theorem labelled_appendChunk {units : List Span} {chunks : List Chunk} {first last : Nat}
    {size : Int} (h : ∀ chunk ∈ chunks, Labelled page chunk) :
    ∀ chunk ∈ appendChunk units page startOrd chunks first last size, Labelled page chunk := by
  intro chunk hChunk
  unfold appendChunk at hChunk
  simp only at hChunk
  split_ifs at hChunk
  · rcases List.mem_append.mp hChunk with hOld | hNew
    · exact h chunk hOld
    · obtain rfl := List.mem_singleton.mp hNew
      exact ⟨rfl, rfl⟩
  · exact h chunk hChunk

theorem chunkWindows_labelled {units : List Span} {count : Int → Int → Int} {chunks : List Chunk}
    (h : chunkWindows units count page settings startOrd = .ok chunks) :
    ∀ chunk ∈ chunks, Labelled page chunk := by
  have hWindows : ∀ chunks, chunkWindows units count page settings startOrd = .ok chunks →
      ∀ chunk ∈ chunks, Labelled page chunk := by
    apply repeatUntil_invariant (windowTurn_decreases units count page settings startOrd)
      (fun state => ∀ chunk ∈ state.2, Labelled page chunk)
      (fun result => ∀ chunks, result = .ok chunks → ∀ chunk ∈ chunks, Labelled page chunk)
    · intro state later hState hTurn
      obtain ⟨-, -, -, -, hChunks⟩ := windowTurn_next units count page settings startOrd hTurn
      rw [hChunks]
      exact labelled_appendChunk hState
    · rintro state result hState hTurn chunks rfl
      unfold windowTurn at hTurn
      simp only at hTurn
      split_ifs at hTurn
      · cases hTurn
      · cases hTurn
        exact labelled_appendChunk hState
      · cases hTurn
        exact hState
    · intro chunk hChunk
      cases hChunk
  exact hWindows chunks h

/-- The chunks of a page are labelled with it and numbered from the given ordinal on. -/
theorem chunkPage_labelled {chunks : List Chunk}
    (h : chunkPage page tokenizer settings startOrd = .ok chunks) :
    (∀ chunk ∈ chunks, Labelled page chunk) ∧
      chunks.map Chunk.ord = (List.range chunks.length).map fun index : Nat => startOrd + index := by
  rw [chunkPage_eq, Counting.chunks] at h
  exact ⟨chunkWindows_labelled h, ((chunkWindows_exact _ _ page settings startOrd).1 chunks h).ords⟩

end Page

section Pages
variable {detector : LanguageDetector} {ner : NerExtractor} {tokenizer : Tokenizer}
  {settings : Settings}

/-- The results of chunking pages one after the other, from an ordinal on. -/
inductive Chunked (tokenizer : Tokenizer) (settings : ChunkSettings) :
    Nat → List Page → List (List Chunk) → Prop where
  | nil (start : Nat) : Chunked tokenizer settings start [] []
  | cons {start : Nat} {page : Page} {pages : List Page} {chunks : List Chunk}
      {rest : List (List Chunk)} (first : chunkPage page tokenizer settings start = .ok chunks)
      (others : Chunked tokenizer settings (start + chunks.length) pages rest) :
      Chunked tokenizer settings start (page :: pages) (chunks :: rest)

/-- Ordinals go on from page to page. -/
theorem Chunked.ords {settings : ChunkSettings} {start : Nat} {pages : List Page}
    {results : List (List Chunk)} (h : Chunked tokenizer settings start pages results) :
    results.flatten.map Chunk.ord =
      (List.range results.flatten.length).map fun index : Nat => (start : Int) + index := by
  induction h with
  | nil start => rfl
  | @cons start page pages chunks rest first others ih =>
      rw [List.flatten_cons, List.map_append, (chunkPage_labelled first).2, ih, List.length_append,
        List.range_add, List.map_append, List.map_map]
      congr 1
      apply List.map_congr_left
      intro index _
      simp only [Function.comp_apply, Nat.cast_add]
      omega

theorem Chunked.labelled {settings : ChunkSettings} {start : Nat} {pages : List Page}
    {results : List (List Chunk)} (h : Chunked tokenizer settings start pages results) :
    List.Forall₂ (fun page chunks => ∀ chunk ∈ chunks, Labelled page chunk) pages results := by
  induction h with
  | nil start => exact List.Forall₂.nil
  | cons first others ih => exact List.Forall₂.cons (chunkPage_labelled first).1 ih

/-- The page that the NER provider is given for a page, if it is given any. -/
def sampled (page : Page) (remaining : Int) : Option Page :=
  let sample := slice page.text 0 remaining
  if sample.isEmpty then none else some { page with text := sample }

/-- The pages that the NER provider is given, in order, as the loop goes on. -/
def nerCalls (detector : LanguageDetector) (ner : NerExtractor) (tokenizer : Tokenizer)
    (settings : Settings) : List Page → Analysis → List Page
  | [], _ => []
  | original :: rest, analysis =>
      (sampled (detectLanguage detector settings original) analysis.remaining).toList ++
        match analyzePage detector ner tokenizer settings analysis original with
        | .ok later => nerCalls detector ner tokenizer settings rest later
        | .error _ => []

/-- What one page adds to an analysis; it is an error exactly where chunking is. -/
theorem analyzePage_eq (analysis : Analysis) (original : Page) :
    analyzePage detector ner tokenizer settings analysis original =
      (chunkPage (detectLanguage detector settings original) tokenizer settings.toChunkSettings
        analysis.chunks.length).map fun chunks =>
        { pages := analysis.pages ++ [detectLanguage detector settings original]
          chunks := analysis.chunks ++ chunks
          entities := analysis.entities ++
            (sampled (detectLanguage detector settings original) analysis.remaining).toList.flatMap
              ner.extract
          remaining := analysis.remaining - (slice original.text 0 analysis.remaining).length } := by
  have hEntities : (if (slice original.text 0 analysis.remaining).isEmpty then analysis.entities
      else analysis.entities ++ ner.extract { detectLanguage detector settings original with
        text := slice original.text 0 analysis.remaining }) =
      analysis.entities ++
        (sampled (detectLanguage detector settings original) analysis.remaining).toList.flatMap
          ner.extract := by
    unfold sampled
    simp only [show (detectLanguage detector settings original).text = original.text from rfl]
    split_ifs
    · exact (List.append_nil _).symm
    · simp
  rw [← hEntities]
  simp only [analyzePage]
  cases chunkPage (detectLanguage detector settings original) tokenizer settings.toChunkSettings
    analysis.chunks.length with
  | ok chunks => rfl
  | error error => rfl

/-- The sample of a page is its beginning, up to the characters left. -/
theorem slice_remaining (value : Text) {remaining : Int} (hRemaining : 0 ≤ remaining) :
    slice value 0 remaining = value.take remaining.toNat := by
  have hStop : place value.length remaining = min remaining.toNat value.length := by
    rw [place, if_neg (by omega)]
  have hStart : place value.length 0 = 0 := by simp [place]
  rw [slice, hStop, hStart, List.drop_zero, ← List.take_take, List.take_length]

/-- The budget of characters goes down by what was sampled, and never below zero. -/
theorem analyzePage_remaining {analysis later : Analysis} {original : Page}
    (hRemaining : 0 ≤ analysis.remaining)
    (h : analyzePage detector ner tokenizer settings analysis original = .ok later) :
    later.remaining.toNat = analysis.remaining.toNat - original.text.length ∧
      0 ≤ later.remaining := by
  rw [analyzePage_eq] at h
  cases hChunks : chunkPage (detectLanguage detector settings original) tokenizer
      settings.toChunkSettings analysis.chunks.length with
  | error error =>
      rw [hChunks] at h
      cases h
  | ok chunks =>
      rw [hChunks] at h
      cases h
      simp only [slice_remaining original.text hRemaining, List.length_take]
      omega

/-- What the loop makes of pages, from any analysis on. -/
structure PagesAnalyzed (detector : LanguageDetector) (ner : NerExtractor) (tokenizer : Tokenizer)
    (settings : Settings) (originals : List Page) (analysis later : Analysis) : Prop where
  pages : later.pages = analysis.pages ++ originals.map (detectLanguage detector settings)
  chunks : ∃ results, later.chunks = analysis.chunks ++ results.flatten ∧
    Chunked tokenizer settings.toChunkSettings analysis.chunks.length
      (originals.map (detectLanguage detector settings)) results
  entities : later.entities = analysis.entities ++
    (nerCalls detector ner tokenizer settings originals analysis).flatMap ner.extract
  texts : ((nerCalls detector ner tokenizer settings originals analysis).map Page.text).flatten =
    (originals.flatMap Page.text).take analysis.remaining.toNat
  remaining : 0 ≤ later.remaining

theorem analyzePages_analyzed {pages : List Page} {analysis later : Analysis}
    (hRemaining : 0 ≤ analysis.remaining)
    (h : pages.foldlM (analyzePage detector ner tokenizer settings) analysis = .ok later) :
    PagesAnalyzed detector ner tokenizer settings pages analysis later := by
  induction pages generalizing analysis with
  | nil =>
      cases h
      refine ⟨(List.append_nil _).symm, ⟨[], (List.append_nil _).symm, Chunked.nil _⟩,
        (List.append_nil _).symm, ?_, hRemaining⟩
      rw [List.flatMap_nil, List.take_nil]
      rfl
  | cons original rest ih =>
      rw [List.foldlM_cons] at h
      obtain ⟨middle, hPage, hRest⟩ := Raising.bind_eq_ok.mp h
      obtain ⟨hLeft, hMiddle⟩ := analyzePage_remaining hRemaining hPage
      obtain ⟨hPages, ⟨results, hFlatten, hChunked⟩, hEntities, hTexts, hLater⟩ := ih hMiddle hRest
      have hCalls : nerCalls detector ner tokenizer settings (original :: rest) analysis =
          (sampled (detectLanguage detector settings original) analysis.remaining).toList ++
            nerCalls detector ner tokenizer settings rest middle := by
        rw [nerCalls, hPage]
      have hSample : (((sampled (detectLanguage detector settings original)
          analysis.remaining).toList).map Page.text).flatten =
          original.text.take analysis.remaining.toNat := by
        rw [← slice_remaining original.text hRemaining, sampled]
        simp only [show (detectLanguage detector settings original).text = original.text from rfl]
        split_ifs with hEmpty
        · exact (List.isEmpty_iff.mp hEmpty).symm
        · simp
      rw [analyzePage_eq] at hPage
      cases hChunks : chunkPage (detectLanguage detector settings original) tokenizer
          settings.toChunkSettings analysis.chunks.length with
      | error error =>
          rw [hChunks] at hPage
          cases hPage
      | ok chunks =>
          rw [hChunks] at hPage
          cases hPage
          constructor
          · rw [hPages, List.append_assoc, List.map_cons, List.singleton_append]
          · refine ⟨chunks :: results, ?_, Chunked.cons hChunks ?_⟩
            · rw [hFlatten, List.append_assoc, List.flatten_cons]
            · rwa [List.length_append] at hChunked
          · rw [hEntities, hCalls, List.flatMap_append, List.append_assoc]
          · rw [hCalls, List.map_append, List.flatten_append, hSample, hTexts, hLeft,
              List.flatMap_cons, List.take_append]
          · exact hLater

/-- A call gives the provider the beginning of a page, and never nothing. -/
def Hands (page call : Page) : Prop :=
  call = { page with text := call.text } ∧ call.text <+: page.text ∧ call.text ≠ []

theorem sampled_hands {page call : Page} {remaining : Int} (hRemaining : 0 ≤ remaining)
    (h : sampled page remaining = some call) : Hands page call := by
  unfold sampled at h
  simp only at h
  split_ifs at h with hEmpty
  cases h
  refine ⟨rfl, ?_, fun hNone => hEmpty (List.isEmpty_iff.mpr hNone)⟩
  rw [slice_remaining page.text hRemaining]
  exact List.take_prefix _ _

/-- Each call is for a page of its own, in the order of the pages. -/
theorem nerCalls_hand {pages : List Page} {analysis : Analysis}
    (hRemaining : 0 ≤ analysis.remaining) :
    ∃ owners, owners.Sublist (pages.map (detectLanguage detector settings)) ∧
      List.Forall₂ Hands owners (nerCalls detector ner tokenizer settings pages analysis) := by
  induction pages generalizing analysis with
  | nil => exact ⟨[], List.Sublist.slnil, List.Forall₂.nil⟩
  | cons original rest ih =>
      have hRest : ∃ owners, owners.Sublist (rest.map (detectLanguage detector settings)) ∧
          List.Forall₂ Hands owners
            (match analyzePage detector ner tokenizer settings analysis original with
              | .ok later => nerCalls detector ner tokenizer settings rest later
              | .error _ => []) := by
        cases hPage : analyzePage detector ner tokenizer settings analysis original with
        | ok later => exact ih (analyzePage_remaining hRemaining hPage).2
        | error error => exact ⟨[], List.nil_sublist _, List.Forall₂.nil⟩
      obtain ⟨owners, hOwners, hHanded⟩ := hRest
      rw [nerCalls, List.map_cons]
      cases hSampled : sampled (detectLanguage detector settings original) analysis.remaining with
      | none => exact ⟨owners, hOwners.cons _, hHanded⟩
      | some call =>
          exact ⟨_ :: owners, hOwners.cons_cons _,
            List.Forall₂.cons (sampled_hands hRemaining hSampled) hHanded⟩

end Pages

section Pages
variable {detector : LanguageDetector} {ner : NerExtractor} {tokenizer : Tokenizer}
  {settings : Settings}

/-- The loop raises only what chunking one of the pages raises. -/
theorem analyzePages_error {pages : List Page} {analysis : Analysis} {error : ValueError}
    (h : pages.foldlM (analyzePage detector ner tokenizer settings) analysis = .error error) :
    ∃ original ∈ pages, ∃ startOrd, chunkPage (detectLanguage detector settings original)
      tokenizer settings.toChunkSettings startOrd = .error error := by
  induction pages generalizing analysis with
  | nil => cases h
  | cons original rest ih =>
      rw [List.foldlM_cons] at h
      cases hPage : analyzePage detector ner tokenizer settings analysis original with
      | ok later =>
          rw [hPage] at h
          obtain ⟨page, hPages, hError⟩ := ih h
          exact ⟨page, List.mem_cons_of_mem _ hPages, hError⟩
      | error raised =>
          rw [hPage] at h
          cases h
          refine ⟨original, List.mem_cons_self .., analysis.chunks.length, ?_⟩
          rw [analyzePage_eq] at hPage
          cases hChunks : chunkPage (detectLanguage detector settings original) tokenizer
              settings.toChunkSettings analysis.chunks.length with
          | ok chunks =>
              rw [hChunks] at hPage
              cases hPage
          | error error =>
              rw [hChunks] at hPage
              cases hPage
              rfl

end Pages

section Document
variable (detector : LanguageDetector) (ner : NerExtractor) (tokenizer : Tokenizer)
  (settings : Settings) (spelling : Text → Text)

/-- The analysis of a document before its first page. -/
def Settings.analysis (settings : Settings) : Analysis := ⟨[], [], [], settings.nerMaxChars⟩

/-- The pages that the NER provider is given for a document. -/
def handed (document : ExtractedDocument) : List Page :=
  nerCalls detector ner tokenizer settings document.pages settings.analysis

/-- The bookkeeping of an analysis: pages only gain their language; chunks are those of the
pages, in order, labelled with them and numbered through the document; and the provider of
entities is given the first characters of the document, page by page, within a budget. -/
structure Bookkept (document : ExtractedDocument) (result : Document) : Prop where
  pages : List.Forall₂ (fun original page => page =
      { original with language := page.language, confidence := page.confidence })
    document.pages result.pages
  chunks : ∃ results, result.chunks = results.flatten ∧
    Chunked tokenizer settings.toChunkSettings 0 result.pages results ∧
    List.Forall₂ (fun page chunks => ∀ chunk ∈ chunks, Labelled page chunk) result.pages results
  ords : result.chunks.map Chunk.ord = (List.range result.chunks.length).map Int.ofNat
  texts : ((handed detector ner tokenizer settings document).map Page.text).flatten =
    (document.pages.flatMap Page.text).take settings.nerMaxChars
  samples : ∃ owners, owners.Sublist result.pages ∧
    List.Forall₂ Hands owners (handed detector ner tokenizer settings document)
  entities : result.entities =
    deduplicate spelling ((handed detector ner tokenizer settings document).flatMap ner.extract)
  budget : ∀ taken analysis, taken <+: document.pages →
    taken.foldlM (analyzePage detector ner tokenizer settings) settings.analysis = .ok analysis →
    0 ≤ analysis.remaining

variable {detector ner tokenizer settings spelling}

/-- An analysis is what its loop over the pages has come to. -/
theorem analyze_ok {document : ExtractedDocument} {result : Document}
    (h : analyze detector ner tokenizer settings spelling document = .ok result) :
    ∃ analysis, document.pages.foldlM (analyzePage detector ner tokenizer settings)
        settings.analysis = .ok analysis ∧
      result = { document with
        pipelineVersion, pages := analysis.pages, chunks := analysis.chunks,
        entities := deduplicate spelling analysis.entities } := by
  obtain ⟨analysis, hPages, hResult⟩ := Raising.bind_eq_ok.mp h
  cases hResult
  exact ⟨analysis, hPages, rfl⟩

theorem analyze_bookkept {document : ExtractedDocument} {result : Document}
    (h : analyze detector ner tokenizer settings spelling document = .ok result) :
    Bookkept detector ner tokenizer settings spelling document result := by
  have hStart : 0 ≤ settings.analysis.remaining := Int.natCast_nonneg _
  obtain ⟨analysis, hPages, rfl⟩ := analyze_ok h
  have analyzed := analyzePages_analyzed hStart hPages
  have hDetected : analysis.pages = document.pages.map (detectLanguage detector settings) :=
    analyzed.pages.trans (List.nil_append _)
  obtain ⟨results, hChunks, hChunked⟩ := analyzed.chunks
  have hFlatten : analysis.chunks = results.flatten := hChunks.trans (List.nil_append _)
  rw [← hDetected] at hChunked
  constructor
  · show List.Forall₂ _ document.pages analysis.pages
    rw [hDetected, List.forall₂_map_right_iff]
    exact List.forall₂_same.mpr fun original _ => rfl
  · exact ⟨results, hFlatten, hChunked, hChunked.labelled⟩
  · show analysis.chunks.map Chunk.ord = (List.range analysis.chunks.length).map Int.ofNat
    rw [hFlatten, hChunked.ords]
    apply List.map_congr_left
    intro index _
    exact zero_add _
  · exact analyzed.texts
  · have hHanded := @nerCalls_hand detector ner tokenizer settings document.pages _ hStart
    rw [← hDetected] at hHanded
    exact hHanded
  · show deduplicate spelling analysis.entities = _
    rw [analyzed.entities]
    rfl
  · intro taken reached _ hReached
    exact (analyzePages_analyzed hStart hReached).remaining

/-- Whatever the providers answer, an analysis that no chunking raises in keeps its books,
and an analysis raises only what chunking one of its pages raises. -/
theorem analyze_bookkeeping (detector : LanguageDetector) (ner : NerExtractor)
    (tokenizer : Tokenizer) (settings : Settings) (spelling : Text → Text)
    (document : ExtractedDocument) :
    (∀ result, analyze detector ner tokenizer settings spelling document = .ok result →
      Bookkept detector ner tokenizer settings spelling document result) ∧
    ∀ error, analyze detector ner tokenizer settings spelling document = .error error →
      ∃ original ∈ document.pages, ∃ startOrd, chunkPage (detectLanguage detector settings original)
        tokenizer settings.toChunkSettings startOrd = .error error := by
  refine ⟨fun result h => analyze_bookkept h, fun error h => ?_⟩
  apply analyzePages_error
  cases hPages : document.pages.foldlM (analyzePage detector ner tokenizer settings)
      settings.analysis with
  | ok analysis =>
      have hAnalyzed : analyze detector ner tokenizer settings spelling document = .ok _ :=
        congrArg (· >>= _) hPages
      rw [hAnalyzed] at h
      cases h
  | error raised =>
      have hAnalyzed : analyze detector ner tokenizer settings spelling document = .error raised :=
        congrArg (· >>= _) hPages
      rw [hAnalyzed] at h
      cases h
      rfl

end Document

/-- A budget of eight characters, for pages of five. -/
def sharedBudget : Settings := { smallWindows with nerMaxChars := 8 }

/-- The second page is given what the first one has left. -/
theorem analyze_bookkeeping_shared :
    (handed ⟨fun _ => ⟨"en", 1⟩⟩ ⟨fun _ => []⟩ letters sharedBudget cutWordDocument).map
        (fun page => page.text.length) = [5, 3] ∧
      ∃ result, analyze ⟨fun _ => ⟨"en", 1⟩⟩ ⟨fun _ => []⟩ letters sharedBudget id
          cutWordDocument = .ok result ∧
        Bookkept ⟨fun _ => ⟨"en", 1⟩⟩ ⟨fun _ => []⟩ letters sharedBudget id cutWordDocument
          result := by
  have hReturns : (analyze ⟨fun _ => ⟨"en", 1⟩⟩ ⟨fun _ => []⟩ letters sharedBudget id
      cutWordDocument).toOption.isSome = true := by
    decide
  refine ⟨by decide, ?_⟩
  cases hAnalyzed : analyze ⟨fun _ => ⟨"en", 1⟩⟩ ⟨fun _ => []⟩ letters sharedBudget id
      cutWordDocument with
  | ok result => exact ⟨result, rfl, (analyze_bookkeeping _ _ _ _ _ _).1 result hAnalyzed⟩
  | error error =>
      rw [hAnalyzed] at hReturns
      cases hReturns

end DocInsight.Worker
