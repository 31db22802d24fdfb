import DocInsight.Contracts.Encoding
import DocInsight.Contracts.Storage
import DocInsight.Library.StableSort
import DocInsight.Python.Dict
import Mathlib.Algebra.BigOperators.Group.List.Basic
import Mathlib.Algebra.Order.BigOperators.Group.List
import Mathlib.Algebra.Order.Field.Rat
import Mathlib.Data.Prod.Lex
import Mathlib.Data.String.Basic
import Mathlib.Tactic.Linarith
import Mathlib.Tactic.Positivity

/-! Reciprocal-rank fusion of rankings. Scores are exact. -/
namespace DocInsight.Query

open DocInsight.Contracts DocInsight.Python StableSort

/-- A chunk of a document, as the dictionaries of a fusion know it. -/
abbrev ChunkKey := String × Int

def chunkKey (hit : SearchHit) : ChunkKey := (uuidText hit.documentId, hit.chunk.ord)

/-- What is summed for each key, and the first hit of each. -/
structure Fusion where
  scores : List (ChunkKey × ℚ) := []
  hits : List (ChunkKey × SearchHit) := []

namespace Fusion

variable (k : Nat)

def score (fusion : Fusion) (key : ChunkKey) : ℚ := (getItem fusion.scores key).getD 0

/-- One hit at its rank; a key that the ranking had before is skipped. -/
def addHit (state : Fusion × List ChunkKey) (entry : SearchHit × Nat) : Fusion × List ChunkKey :=
  let (fusion, seen) := state
  let (hit, rank) := entry
  let key := chunkKey hit
  if key ∈ seen then state
  else
    ({ scores := setItem fusion.scores key (fusion.score key + 1 / ((k : ℚ) + rank))
       hits := insertNew fusion.hits key hit }, seen ++ [key])

def addRanking (fusion : Fusion) (ranking : List SearchHit) : Fusion :=
  ((ranking.zipIdx 1).foldl (addHit k) (fusion, [])).1

/-- The best score first; ties by document and ordinal. -/
def order (fusion : Fusion) (key : ChunkKey) : ℚᵒᵈ ×ₗ String ×ₗ Int :=
  toLex (OrderDual.toDual (fusion.score key), toLex key)

def ranked (fusion : Fusion) : List SearchHit :=
  (sortBy fusion.order (fusion.hits.map Prod.fst)).filterMap fun key =>
    (getItem fusion.hits key).map fun hit => { hit with score := fusion.score key }

end Fusion

/-- Sum reciprocal ranks by document and chunk, deduplicating within each ranking. -/
def fuse (rankings : List (List SearchHit)) (k : Int) : Except ValueError (List SearchHit) :=
  if k < 1 then .error ⟨"RRF k must be positive"⟩
  else .ok (rankings.foldl (Fusion.addRanking k.toNat) {}).ranked

/-- What a ranking gives to a key: the reciprocal of its first rank there. -/
def reciprocalRank (k : Nat) (key : ChunkKey) (ranking : List SearchHit) : ℚ :=
  if key ∈ ranking.map chunkKey then 1 / ((k : ℚ) + ((ranking.map chunkKey).idxOf key + 1 : Nat))
  else 0

/-- The sum over the rankings. -/
def fusedScore (k : Nat) (rankings : List (List SearchHit)) (key : ChunkKey) : ℚ :=
  (rankings.map (reciprocalRank k key)).sum

namespace Fusion

variable (k : Nat)

theorem reciprocalRank_concat (key : ChunkKey) (ranking : List SearchHit) (last : SearchHit) :
    reciprocalRank k key (ranking ++ [last]) =
      if key ∈ ranking.map chunkKey then reciprocalRank k key ranking
      else if key = chunkKey last then 1 / ((k : ℚ) + (ranking.length + 1 : Nat))
      else 0 := by
  unfold reciprocalRank
  by_cases hOld : key ∈ ranking.map chunkKey
  · rw [if_pos hOld, if_pos hOld, List.map_append, List.idxOf_append_of_mem hOld]
    rw [if_pos (List.mem_append_left _ hOld)]
  · rw [if_neg hOld, List.map_append, List.map_singleton]
    by_cases hLast : key = chunkKey last
    · rw [if_pos hLast, if_pos (by simp [hLast]), List.idxOf_append_of_notMem hOld, hLast]
      simp
    · rw [if_neg hLast, if_neg (by simpa [hLast] using hOld)]

/-- The first hit of each key, after those that are there. -/
def collectHits (hits : List (ChunkKey × SearchHit)) (ranking : List SearchHit) :
    List (ChunkKey × SearchHit) :=
  ranking.foldl (fun hits hit => insertNew hits (chunkKey hit) hit) hits

theorem collectHits_cons (hits : List (ChunkKey × SearchHit)) (hit : SearchHit)
    (rest : List SearchHit) :
    collectHits hits (hit :: rest) = collectHits (insertNew hits (chunkKey hit) hit) rest := rfl

theorem collectHits_append (hits : List (ChunkKey × SearchHit)) (first second : List SearchHit) :
    collectHits hits (first ++ second) = collectHits (collectHits hits first) second :=
  List.foldl_append

theorem getItem_collectHits (hits : List (ChunkKey × SearchHit)) (ranking : List SearchHit)
    (key : ChunkKey) :
    getItem (collectHits hits ranking) key =
      (getItem hits key).or (ranking.find? (chunkKey · = key)) := by
  induction ranking generalizing hits with
  | nil => simp [collectHits]
  | cons hit rest ih =>
      rw [collectHits_cons, ih, getItem_insertNew, Option.or_assoc, List.find?_cons]
      by_cases hKey : chunkKey hit = key
      · simp [hKey]
      · simp [hKey, Ne.symm hKey]

theorem nodup_collectHits {hits : List (ChunkKey × SearchHit)} (ranking : List SearchHit)
    (h : (hits.map Prod.fst).Nodup) : ((collectHits hits ranking).map Prod.fst).Nodup := by
  induction ranking generalizing hits with
  | nil => exact h
  | cons hit rest ih =>
      rw [collectHits_cons]
      exact ih (nodup_insertNew (chunkKey hit) hit h)

/-- What is known of a fusion inside a ranking. -/
theorem foldl_addHit (fusion : Fusion) (ranking : List SearchHit) :
    let state := (ranking.zipIdx 1).foldl (addHit k) (fusion, [])
    (∀ key, key ∈ state.2 ↔ key ∈ ranking.map chunkKey) ∧
    (∀ key, state.1.score key = fusion.score key + reciprocalRank k key ranking) ∧
    state.1.hits = collectHits fusion.hits ranking := by
  induction ranking using List.reverseRecOn with
  | nil => simp [reciprocalRank, collectHits]
  | append_singleton ranking last ih =>
      obtain ⟨hSeen, hScore, hHits⟩ := ih
      have hCollect : collectHits fusion.hits (ranking ++ [last]) =
          insertNew (collectHits fusion.hits ranking) (chunkKey last) last :=
        collectHits_append fusion.hits ranking [last]
      simp only [List.zipIdx_append, List.foldl_append, List.zipIdx_singleton, List.foldl_cons,
        List.foldl_nil, hCollect]
      generalize (ranking.zipIdx 1).foldl (addHit k) (fusion, []) = state at hSeen hScore hHits
      obtain ⟨current, seen⟩ := state
      simp only [addHit] at hSeen hScore hHits ⊢
      by_cases hLast : chunkKey last ∈ seen
      · rw [if_pos hLast]
        have hRanked := (hSeen _).mp hLast
        refine ⟨fun key => ?_, fun key => ?_, ?_⟩
        · rw [hSeen, List.map_append, List.mem_append, List.map_singleton, List.mem_singleton]
          exact ⟨Or.inl, fun h => h.elim id fun hKey => hKey ▸ hRanked⟩
        · rw [hScore, reciprocalRank_concat]
          split_ifs with hOld hKey
          · rfl
          · exact absurd (hKey ▸ hRanked) hOld
          · rw [reciprocalRank, if_neg hOld]
        · have hKnown : getItem (collectHits fusion.hits ranking) (chunkKey last) ≠ none := by
            obtain ⟨hit, hHit, hKey⟩ := List.mem_map.mp hRanked
            rw [getItem_collectHits]
            simp only [ne_eq, Option.or_eq_none_iff, List.find?_eq_none, not_and, not_forall]
            exact fun _ => ⟨hit, hHit, by simp [hKey]⟩
          rw [hHits, insertNew, if_pos (not_not.mp (mt getItem_eq_none.mpr hKnown))]
      · rw [if_neg hLast]
        have hNew := mt (hSeen _).mpr hLast
        refine ⟨fun key => ?_, fun key => ?_, ?_⟩
        · simp [hSeen]
        · rw [reciprocalRank_concat]
          simp only [score, getItem_setItem] at hScore ⊢
          by_cases hKey : key = chunkKey last
          · have hNone : reciprocalRank k key ranking = 0 := by
              rw [reciprocalRank, if_neg (hKey ▸ hNew)]
            have hOld := hScore (chunkKey last)
            rw [if_pos hKey, if_neg (hKey ▸ hNew), if_pos hKey, Option.getD_some, hOld, ← hKey, hNone,
              add_zero, Nat.add_comm]
          · rw [if_neg hKey, hScore]
            split_ifs with hOld
            · rfl
            · rw [reciprocalRank, if_neg hOld]
        · rw [hHits]

theorem foldl_addRanking (fusion : Fusion) (rankings : List (List SearchHit)) :
    (∀ key, (rankings.foldl (addRanking k) fusion).score key =
      fusion.score key + fusedScore k rankings key) ∧
    (rankings.foldl (addRanking k) fusion).hits = collectHits fusion.hits rankings.flatten := by
  induction rankings generalizing fusion with
  | nil => simp [fusedScore, collectHits]
  | cons ranking rest ih =>
      obtain ⟨-, hScore, hHits⟩ := foldl_addHit k fusion ranking
      obtain ⟨hRest, hCollected⟩ := ih (addRanking k fusion ranking)
      refine ⟨fun key => ?_, ?_⟩
      · rw [List.foldl_cons, hRest, addRanking, hScore, fusedScore, fusedScore, List.map_cons,
          List.sum_cons, add_assoc]
      · rw [List.foldl_cons, hCollected, addRanking, hHits, List.flatten_cons, collectHits_append]

end Fusion

/-- The best fused score first; ties by document and ordinal. -/
def fusedOrder (k : Nat) (rankings : List (List SearchHit)) (key : ChunkKey) :
    ℚᵒᵈ ×ₗ String ×ₗ Int :=
  toLex (OrderDual.toDual (fusedScore k rankings key), toLex key)

/-- The keys of all rankings, in the order of the result. -/
def fusedKeys (k : Nat) (rankings : List (List SearchHit)) : List ChunkKey :=
  sortBy (fusedOrder k rankings) ((Fusion.collectHits [] rankings.flatten).map Prod.fst)

/-- The first hit of a key, with its fused score. -/
def fusedHit (k : Nat) (rankings : List (List SearchHit)) (key : ChunkKey) : Option SearchHit :=
  (rankings.flatten.find? (chunkKey · = key)).map fun hit =>
    { hit with score := fusedScore k rankings key }

/-- What the two dictionaries hold at the end, without them. -/
theorem fuse_eq {rankings : List (List SearchHit)} {k : Int} (hk : 1 ≤ k) :
    fuse rankings k = .ok ((fusedKeys k.toNat rankings).filterMap (fusedHit k.toNat rankings)) := by
  obtain ⟨hScore, hHits⟩ := Fusion.foldl_addRanking k.toNat {} rankings
  have hScores (key : ChunkKey) : (rankings.foldl (Fusion.addRanking k.toNat) {}).score key =
      fusedScore k.toNat rankings key := by
    rw [hScore, Fusion.score, getItem, List.find?_nil, Option.map_none, Option.getD_none, zero_add]
  have hOrder : (rankings.foldl (Fusion.addRanking k.toNat) {}).order =
      fusedOrder k.toNat rankings := by
    funext key
    rw [Fusion.order, hScores, fusedOrder]
  rw [fuse, if_neg (not_lt.mpr hk), Fusion.ranked, hOrder, hHits, fusedKeys]
  congr 1
  refine List.filterMap_congr fun key _ => ?_
  rw [hScores, Fusion.getItem_collectHits, fusedHit]
  rfl

theorem fusedOrder_injective (k : Nat) (rankings : List (List SearchHit)) :
    Function.Injective (fusedOrder k rankings) := fun first second h => by
  have hPair := Prod.mk.inj (toLex.injective h)
  exact toLex.injective hPair.2

theorem nodup_collected (rankings : List (List SearchHit)) :
    ((Fusion.collectHits [] rankings.flatten).map Prod.fst).Nodup :=
  Fusion.nodup_collectHits rankings.flatten List.nodup_nil

theorem mem_collected {rankings : List (List SearchHit)} {key : ChunkKey} :
    key ∈ (Fusion.collectHits [] rankings.flatten).map Prod.fst ↔
      key ∈ rankings.flatten.map chunkKey := by
  have hNone := @getItem_eq_none _ _ _ (Fusion.collectHits [] rankings.flatten) key
  rw [Fusion.getItem_collectHits, getItem, List.find?_nil, Option.map_none, Option.none_or,
    List.find?_eq_none] at hNone
  simp only [decide_eq_true_eq] at hNone
  rw [← not_iff_not, ← hNone, List.mem_map]
  simp only [not_exists, not_and]

theorem nodup_fusedKeys (k : Nat) (rankings : List (List SearchHit)) :
    (fusedKeys k rankings).Nodup :=
  (sortBy_perm _ _).nodup_iff.mpr (nodup_collected rankings)

theorem mem_fusedKeys {k : Nat} {rankings : List (List SearchHit)} {key : ChunkKey} :
    key ∈ fusedKeys k rankings ↔ key ∈ rankings.flatten.map chunkKey := by
  rw [fusedKeys, mem_sortBy, mem_collected]

/-- The keys of the result are in strict order. -/
theorem fusedKeys_ordered (k : Nat) (rankings : List (List SearchHit)) :
    (fusedKeys k rankings).Pairwise fun first second =>
      fusedOrder k rankings first < fusedOrder k rankings second := by
  refine (pairwise_sortBy _ _).imp₂ (fun first second hLe hNe => ?_) (nodup_fusedKeys k rankings)
  exact lt_of_le_of_ne hLe fun hSame => hNe (fusedOrder_injective k rankings hSame)

theorem fusedHit_of_mem {k : Nat} {rankings : List (List SearchHit)} {key : ChunkKey}
    (h : key ∈ rankings.flatten.map chunkKey) :
    ∃ hit, fusedHit k rankings key = some hit ∧ chunkKey hit = key := by
  obtain ⟨member, hMember, hMatch⟩ := List.mem_map.mp h
  obtain ⟨first, hFirst⟩ : ∃ first, rankings.flatten.find? (chunkKey · = key) = some first :=
    Option.isSome_iff_exists.mp (List.find?_isSome.mpr ⟨member, hMember, decide_eq_true hMatch⟩)
  have hKey : chunkKey first = key := by simpa using List.find?_some hFirst
  exact ⟨{ first with score := fusedScore k rankings key }, by rw [fusedHit, hFirst]; rfl, hKey⟩

/-- The hits of the fused keys. -/
def fusedHits (k : Nat) (rankings : List (List SearchHit)) : List SearchHit :=
  (fusedKeys k rankings).filterMap (fusedHit k rankings)

theorem keys_fusedHits (k : Nat) (rankings : List (List SearchHit)) :
    (fusedHits k rankings).map chunkKey = fusedKeys k rankings :=
  map_filterMap_inverse fun _ hKey => fusedHit_of_mem (mem_fusedKeys.mp hKey)

/-- One hit for each key of the rankings, with the sum of its reciprocal ranks, the highest
first and ties by document and ordinal. -/
structure Fused (k : Nat) (rankings : List (List SearchHit)) (result : List SearchHit) : Prop where
  once : (result.map chunkKey).Nodup
  complete : ∀ key, key ∈ result.map chunkKey ↔ ∃ ranking ∈ rankings, key ∈ ranking.map chunkKey
  scored : ∀ hit ∈ result, ∃ first, rankings.flatten.find? (chunkKey · = chunkKey hit) = some first ∧
    hit = { first with score := fusedScore k rankings (chunkKey hit) }
  ordered : result.Pairwise fun first second => second.score < first.score ∨
    first.score = second.score ∧ (uuidText first.documentId < uuidText second.documentId ∨
      uuidText first.documentId = uuidText second.documentId ∧ first.chunk.ord < second.chunk.ord)

theorem fused_fusedHits (k : Nat) (rankings : List (List SearchHit)) :
    Fused k rankings (fusedHits k rankings) := by
  have hScored : ∀ hit ∈ fusedHits k rankings, ∃ first,
      rankings.flatten.find? (chunkKey · = chunkKey hit) = some first ∧
        hit = { first with score := fusedScore k rankings (chunkKey hit) } := by
    intro hit hHit
    obtain ⟨key, hKey, hFused⟩ := List.mem_filterMap.mp hHit
    obtain ⟨same, hSame, rfl⟩ := fusedHit_of_mem (mem_fusedKeys.mp hKey)
    cases hFused.symm.trans hSame
    obtain ⟨first, hFirst, hHit⟩ := Option.map_eq_some_iff.mp hSame
    exact ⟨first, hFirst, hHit.symm⟩
  refine ⟨?_, fun key => ?_, hScored, ?_⟩
  · rw [keys_fusedHits]
    exact nodup_fusedKeys k rankings
  · rw [keys_fusedHits, mem_fusedKeys]
    simp
  · have hKeys := fusedKeys_ordered k rankings
    rw [← keys_fusedHits, List.pairwise_map] at hKeys
    refine hKeys.imp_of_mem fun {first second} hFirst hSecond hOrder => ?_
    have hScore {hit : SearchHit} (hHit : hit ∈ fusedHits k rankings) :
        fusedScore k rankings (chunkKey hit) = hit.score := by
      obtain ⟨_, _, hEq⟩ := hScored hit hHit
      exact (congrArg SearchHit.score hEq).symm
    rw [fusedOrder, fusedOrder, hScore hFirst, hScore hSecond] at hOrder
    simpa only [Prod.Lex.toLex_lt_toLex, OrderDual.toDual_lt_toDual,
      OrderDual.toDual_inj, chunkKey] using hOrder

theorem fusedHit_isSome {k : Nat} {rankings : List (List SearchHit)} {key : ChunkKey} :
    (fusedHit k rankings key).isSome ↔ key ∈ rankings.flatten.map chunkKey := by
  rw [fusedHit, Option.isSome_map, List.find?_isSome]
  simp only [decide_eq_true_eq, List.mem_map]

/-- Rankings with the same scores and, but for scores, the same first hits fuse alike. -/
theorem fusedHits_congr {k : Nat} {first second : List (List SearchHit)}
    (hScore : ∀ key, fusedScore k first key = fusedScore k second key)
    (hHit : ∀ key, fusedHit k first key = fusedHit k second key) :
    fusedHits k first = fusedHits k second := by
  have hOrder : fusedOrder k first = fusedOrder k second := by
    funext key
    rw [fusedOrder, hScore, fusedOrder]
  have hMember (key : ChunkKey) : key ∈ (Fusion.collectHits [] first.flatten).map Prod.fst ↔
      key ∈ (Fusion.collectHits [] second.flatten).map Prod.fst := by
    rw [mem_collected, mem_collected, ← fusedHit_isSome, hHit, fusedHit_isSome]
  have hKeys : fusedKeys k first = fusedKeys k second := by
    rw [fusedKeys, fusedKeys, hOrder]
    exact sortBy_eq_of_perm _ (fusedOrder_injective k second)
      ((List.perm_ext_iff_of_nodup (nodup_collected first) (nodup_collected second)).mpr hMember)
  rw [fusedHits, fusedHits, hKeys]
  exact List.filterMap_congr fun key _ => hHit key

/-- Hits of one key carry one chunk. -/
def Coherent (rankings : List (List SearchHit)) : Prop :=
  ∀ first ∈ rankings.flatten, ∀ second ∈ rankings.flatten,
    chunkKey first = chunkKey second → first.chunk = second.chunk

theorem uuidText_injective : Function.Injective uuidText := fun first second h => by
  have hRead := congrArg parseUUID h
  rw [parseUUID_uuidText, parseUUID_uuidText] at hRead
  exact Option.some.inj hRead

/-- The order of the rankings does not matter. -/
theorem fusedHits_perm {k : Nat} {first second : List (List SearchHit)} (hCoherent : Coherent first)
    (h : first.Perm second) : fusedHits k first = fusedHits k second := by
  have hScore (key : ChunkKey) : fusedScore k first key = fusedScore k second key :=
    (h.map _).sum_eq
  have hMember (hit : SearchHit) : hit ∈ first.flatten ↔ hit ∈ second.flatten :=
    h.flatten.mem_iff
  refine fusedHits_congr hScore fun key => ?_
  rw [fusedHit, fusedHit, hScore]
  cases hFirst : first.flatten.find? (chunkKey · = key) with
  | none =>
      have hNone : second.flatten.find? (chunkKey · = key) = none :=
        List.find?_eq_none.mpr fun hit hHit =>
          List.find?_eq_none.mp hFirst hit ((hMember hit).mpr hHit)
      rw [hNone]
  | some hit =>
      have hKey : chunkKey hit = key := by simpa using List.find?_some hFirst
      have hMem := List.mem_of_find?_eq_some hFirst
      obtain ⟨other, hOther⟩ : ∃ other, second.flatten.find? (chunkKey · = key) = some other :=
        Option.isSome_iff_exists.mp
          (List.find?_isSome.mpr ⟨hit, (hMember hit).mp hMem, decide_eq_true hKey⟩)
      have hOtherKey : chunkKey other = key := by simpa using List.find?_some hOther
      have hSame := hKey.trans hOtherKey.symm
      have hChunk := hCoherent hit hMem other
        ((hMember other).mpr (List.mem_of_find?_eq_some hOther)) hSame
      have hDocument := uuidText_injective (Prod.mk.inj hSame).1
      obtain ⟨documentId, chunk, score⟩ := hit
      simp only at hChunk hDocument
      rw [hOther, Option.map_some, Option.map_some, hChunk, hDocument]

/-- Repeats of keys that a ranking has already add nothing. -/
theorem fusedHits_append_repeats (k : Nat) (before after : List (List SearchHit))
    {ranking extra : List SearchHit} (h : ∀ hit ∈ extra, chunkKey hit ∈ ranking.map chunkKey) :
    fusedHits k (before ++ (ranking ++ extra) :: after) =
      fusedHits k (before ++ ranking :: after) := by
  have hKeys {key : ChunkKey} (hKey : key ∈ extra.map chunkKey) : key ∈ ranking.map chunkKey := by
    obtain ⟨hit, hHit, rfl⟩ := List.mem_map.mp hKey
    exact h hit hHit
  have hRank (key : ChunkKey) :
      reciprocalRank k key (ranking ++ extra) = reciprocalRank k key ranking := by
    unfold reciprocalRank
    by_cases hKey : key ∈ ranking.map chunkKey
    · rw [List.map_append, List.idxOf_append_of_mem hKey, if_pos hKey,
        if_pos (List.mem_append_left _ hKey)]
    · rw [if_neg hKey, List.map_append, if_neg]
      exact fun hAny => (List.mem_append.mp hAny).elim hKey (hKey ∘ hKeys)
  have hFind (key : ChunkKey) : (ranking ++ extra).find? (chunkKey · = key) =
      ranking.find? (chunkKey · = key) := by
    rw [List.find?_append]
    cases hExtra : extra.find? (chunkKey · = key) with
    | none => rw [Option.or_none]
    | some hit =>
        have hKey : chunkKey hit = key := by simpa using List.find?_some hExtra
        obtain ⟨known, hKnown, hSame⟩ :=
          List.mem_map.mp (h hit (List.mem_of_find?_eq_some hExtra))
        rw [Option.or_of_isSome]
        exact List.find?_isSome.mpr ⟨known, hKnown, decide_eq_true (hSame.trans hKey)⟩
  have hScore (key : ChunkKey) : fusedScore k (before ++ (ranking ++ extra) :: after) key =
      fusedScore k (before ++ ranking :: after) key := by
    simp only [fusedScore, List.map_append, List.map_cons, hRank]
  refine fusedHits_congr hScore fun key => ?_
  rw [fusedHit, fusedHit, hScore, List.flatten_append, List.flatten_cons, List.find?_append,
    @List.find?_append _ _ (ranking ++ extra), hFind, List.flatten_append, List.flatten_cons,
    List.find?_append, List.find?_append]

/-- A key that is ahead of another wherever that one is ranked scores higher. -/
theorem fusedScore_lt {k : Nat} {rankings : List (List SearchHit)} {ahead behind : ChunkKey}
    (hRanked : ∃ ranking ∈ rankings, behind ∈ ranking.map chunkKey)
    (h : ∀ ranking ∈ rankings, behind ∈ ranking.map chunkKey → ahead ∈ ranking.map chunkKey ∧
      (ranking.map chunkKey).idxOf ahead < (ranking.map chunkKey).idxOf behind) :
    fusedScore k rankings behind < fusedScore k rankings ahead := by
  have hLess {ranking : List SearchHit} (hRanking : ranking ∈ rankings)
      (hBehind : behind ∈ ranking.map chunkKey) :
      reciprocalRank k behind ranking < reciprocalRank k ahead ranking := by
    obtain ⟨hAhead, hOrder⟩ := h ranking hRanking hBehind
    rw [reciprocalRank, reciprocalRank, if_pos hBehind, if_pos hAhead]
    refine one_div_lt_one_div_of_lt (by positivity) ?_
    have hCast : ((ranking.map chunkKey).idxOf ahead : ℚ) < (ranking.map chunkKey).idxOf behind :=
      Nat.cast_lt.mpr hOrder
    push_cast
    linarith
  refine List.sum_lt_sum _ _ (fun ranking hRanking => ?_) ?_
  · by_cases hBehind : behind ∈ ranking.map chunkKey
    · exact (hLess hRanking hBehind).le
    · rw [reciprocalRank, if_neg hBehind, reciprocalRank]
      split_ifs <;> positivity
  · obtain ⟨ranking, hRanking, hBehind⟩ := hRanked
    exact ⟨ranking, hRanking, hLess hRanking hBehind⟩

/-- And it precedes it in the result. -/
theorem idxOf_lt_of_fusedScore_lt {k : Nat} {rankings : List (List SearchHit)}
    {ahead behind : ChunkKey} (hAhead : ahead ∈ (fusedHits k rankings).map chunkKey)
    (h : fusedScore k rankings behind < fusedScore k rankings ahead) :
    ((fusedHits k rankings).map chunkKey).idxOf ahead <
      ((fusedHits k rankings).map chunkKey).idxOf behind := by
  rw [keys_fusedHits] at hAhead ⊢
  have hBound := List.idxOf_lt_length_of_mem hAhead
  have hOrder : fusedOrder k rankings ahead < fusedOrder k rankings behind :=
    Prod.Lex.toLex_lt_toLex.mpr (Or.inl (OrderDual.toDual_lt_toDual.mpr h))
  by_contra hNot
  obtain hBefore | hSame := lt_or_eq_of_le (not_lt.mp hNot)
  · have hReverse := List.pairwise_iff_getElem.mp (fusedKeys_ordered k rankings) _ _
      (hBefore.trans hBound) hBound hBefore
    rw [List.getElem_idxOf, List.getElem_idxOf] at hReverse
    exact lt_asymm hOrder hReverse
  · have hBehind : behind ∈ fusedKeys k rankings := List.idxOf_lt_length_iff.mp (hSame ▸ hBound)
    rw [List.idxOf_inj hBehind] at hSame
    exact absurd (hSame ▸ h) (lt_irrefl _)

end DocInsight.Query
