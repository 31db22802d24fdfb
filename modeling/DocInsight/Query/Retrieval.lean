import DocInsight.Library.Raising
import DocInsight.Query.Fusion
import DocInsight.Query.Ranking
import DocInsight.Worker.QueryRepository
import Mathlib.Data.List.Lex
import Mathlib.Order.Fin.Basic

/-! Document names are resolved before passages are ranked within one snapshot. How alike
two words are is given by the library. -/
namespace DocInsight.Query

open DocInsight.Contracts DocInsight.Python DocInsight.Worker StableSort

structure QueryRequest where
  question : Text
  topK : Nat := 5
  filter : QueryFilter := {}
  question_ne : question ≠ []
  topK_ge : 1 ≤ topK
  topK_le : topK ≤ 20

/-- What a snapshot answers. -/
structure QueryReader where
  documentNames : String → Except Failure (List (UUID × String))
  nearestChunks : String → List Scalar → Int → QueryFilter → Except Failure (List SearchHit)
  searchText : String → Text → Int → QueryFilter → Except Failure (List SearchHit)

/-- The snapshot of a database. -/
def snapshot (functions : SearchFunctions) (dimension : Nat) (database : Database) :
    QueryReader where
  documentNames tenant := .ok (PostgresQueryReader.documentNames tenant database)
  nearestChunks tenant vector k filter :=
    PostgresQueryReader.nearestChunks functions dimension tenant vector k (some filter) database
  searchText tenant query k filter :=
    PostgresQueryReader.searchText functions tenant query k (some filter) database

variable (unicode : Unicode) (ratio : Text → Text → ℚ)

/-- Search content terms without requiring every word of a question. -/
def lexicalQuery (question : Text) : Text :=
  (text " OR ").intercalate ((sortBy id (Ranking.words unicode question)).map fun term =>
    text "\"" ++ term ++ text "\"")

/-- Recognize distinctive filename words, allowing a small spelling error. -/
def namedScope (question : Text) (names : List (UUID × String)) (requested : QueryFilter) :
    QueryFilter :=
  let terms := (Ranking.words unicode question).filter (5 ≤ ·.length)
  let named := names.filter fun (_, filename) =>
    let title := (Ranking.tokens unicode (unicode.casefold (text filename))).filter (5 ≤ ·.length)
    terms.any fun term => title.any fun word => 43 / 50 ≤ ratio term word
  -- Explicit filters always win; an inferred name can only narrow an all-documents query.
  if requested.documentIds.isSome || named.isEmpty then requested
  else { requested with documentIds := some (named.map Prod.fst) }

/-- Use document names for passage selection, and cut the fused ranking. -/
def retrieve (reader : QueryReader) (tenant : String) (request : QueryRequest)
    (vector : List Scalar) (cap rrfK : Int) : Except Failure (List SearchHit) := do
  let names ← reader.documentNames tenant
  let scope := namedScope unicode ratio request.question names request.filter
  let nearest ← reader.nearestChunks tenant vector cap scope
  let found ← reader.searchText tenant (lexicalQuery unicode request.question) cap scope
  match fuse [nearest, found] rrfK with
  | .error _ => .error (.value "ValueError")
  | .ok hits => .ok (hits.take (place hits.length (min (request.topK : Int) cap)))

theorem place_mono (length : Nat) (cap : Int) {few many : Nat} (hFew : 1 ≤ few) (h : few ≤ many) :
    place length (min (few : Int) cap) ≤ place length (min (many : Int) cap) := by
  unfold place
  split_ifs <;> omega

/-- Asking for fewer hits gives the first of those that asking for more gives. -/
theorem retrieve_fewer {reader : QueryReader} {tenant : String} {fewer more : QueryRequest}
    {vector : List Scalar} {cap rrfK : Int} {hits : List SearchHit}
    (hQuestion : fewer.question = more.question) (hFilter : fewer.filter = more.filter)
    (hTop : fewer.topK ≤ more.topK)
    (h : retrieve unicode ratio reader tenant more vector cap rrfK = .ok hits) :
    ∃ first, retrieve unicode ratio reader tenant fewer vector cap rrfK = .ok first ∧
      first <+: hits := by
  obtain ⟨names, hNames, h⟩ := Raising.bind_eq_ok.mp h
  obtain ⟨nearest, hNearest, h⟩ := Raising.bind_eq_ok.mp h
  obtain ⟨found, hFound, h⟩ := Raising.bind_eq_ok.mp h
  cases hFuse : fuse [nearest, found] rrfK with
  | error error =>
      rw [hFuse] at h
      cases h
  | ok fused =>
      rw [hFuse] at h
      cases h
      refine ⟨fused.take (place fused.length (min (fewer.topK : Int) cap)), ?_,
        List.take_prefix_take_left (place_mono _ cap fewer.topK_ge hTop)⟩
      rw [retrieve, hQuestion, hFilter]
      refine Raising.bind_eq_ok.mpr ⟨names, hNames, Raising.bind_eq_ok.mpr ⟨nearest, hNearest,
        Raising.bind_eq_ok.mpr ⟨found, hFound, ?_⟩⟩⟩
      rw [hFuse]

/-- Fusion scores every key once, by its first ranks alone: the order of the rankings and
repeats do not matter, a key ahead of another everywhere precedes it, and fewer hits are the
first of more. -/
theorem fuse_lawful (rankings : List (List SearchHit)) {k : Int} (hk : 1 ≤ k) :
    (∃ result, fuse rankings k = .ok result ∧ Fused k.toNat rankings result ∧
      (∀ other, rankings.Perm other → Coherent rankings → fuse other k = .ok result) ∧
      (∀ before ranking extra after, rankings = before ++ ranking :: after →
        (∀ hit ∈ extra, chunkKey hit ∈ ranking.map chunkKey) →
        fuse (before ++ (ranking ++ extra) :: after) k = .ok result) ∧
      ∀ ahead behind, behind ∈ result.map chunkKey →
        (∀ ranking ∈ rankings, behind ∈ ranking.map chunkKey → ahead ∈ ranking.map chunkKey ∧
          (ranking.map chunkKey).idxOf ahead < (ranking.map chunkKey).idxOf behind) →
        ahead ∈ result.map chunkKey ∧
          (result.map chunkKey).idxOf ahead < (result.map chunkKey).idxOf behind) ∧
    ∀ (reader : QueryReader) (tenant : String) (fewer more : QueryRequest) (vector : List Scalar)
      (cap : Int) (hits : List SearchHit),
      fewer.question = more.question → fewer.filter = more.filter → fewer.topK ≤ more.topK →
      retrieve unicode ratio reader tenant more vector cap k = .ok hits →
      ∃ first, retrieve unicode ratio reader tenant fewer vector cap k = .ok first ∧
        first <+: hits := by
  have hFused := fused_fusedHits k.toNat rankings
  refine ⟨⟨_, fuse_eq hk, hFused, fun other hPerm hCoherent => ?_,
    fun before ranking extra after hRankings hRepeats => ?_, fun ahead behind hBehind hAhead => ?_⟩,
    fun reader tenant fewer more vector cap hits => retrieve_fewer unicode ratio⟩
  · rw [fuse_eq hk]
    exact congrArg Except.ok (fusedHits_perm hCoherent hPerm).symm
  · rw [fuse_eq hk, hRankings]
    exact congrArg Except.ok (fusedHits_append_repeats k.toNat before after hRepeats)
  · have hRanked := (hFused.complete behind).mp hBehind
    obtain ⟨ranking, hRanking, hMember⟩ := hRanked
    have hKnown := (hFused.complete ahead).mpr
      ⟨ranking, hRanking, (hAhead ranking hRanking hMember).1⟩
    exact ⟨hKnown, idxOf_lt_of_fusedScore_lt hKnown
      (fusedScore_lt ⟨ranking, hRanking, hMember⟩ hAhead)⟩

/-- Three chunks of one document, ranked by vector and by text. -/
def handRankings : List (List SearchHit) :=
  let hit (ord : Int) : SearchHit :=
    { documentId := ⟨7⟩, score := 9 / 20,
      chunk := { text := text "chunk", page := 1, ord, charStart := 0, charEnd := 5,
                 tokenCount := 1 } }
  [[hit 0, hit 1], [hit 1, hit 0, hit 2]]

theorem fuse_lawful_hand :
    fusedScore 60 handRankings (uuidText ⟨7⟩, 0) = 1 / 61 + 1 / 62 ∧
    ∃ result, fuse handRankings 60 = .ok result ∧ fuse handRankings.reverse 60 = .ok result ∧
      (result.map chunkKey).idxOf (uuidText ⟨7⟩, 0) <
        (result.map chunkKey).idxOf (uuidText ⟨7⟩, 2) := by
  refine ⟨by decide +kernel, ?_⟩
  obtain ⟨⟨result, hResult, hFused, hPerm, -, hAhead⟩, -⟩ :=
    fuse_lawful ⟨fun _ => true, fun _ => false, id, id⟩ (fun _ _ => 0) handRankings
      (by decide : (1 : Int) ≤ 60)
  refine ⟨result, hResult, hPerm _ (List.reverse_perm handRankings).symm ?_,
    (hAhead _ _ ((hFused.complete _).mpr ⟨_, List.mem_cons_of_mem _ List.mem_cons_self, ?_⟩) ?_).2⟩
  · unfold Coherent
    decide +kernel
  · decide +kernel
  · decide +kernel

end DocInsight.Query
