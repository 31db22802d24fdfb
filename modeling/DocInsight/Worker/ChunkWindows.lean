import DocInsight.Worker.ChunkUnits
import Mathlib.Data.List.Induction

/-! What the window loop keeps, for any units in order and any way to count: every chunk
is an exact slice with the size it was grown to, and no unit is left behind. -/
namespace DocInsight.Worker

open DocInsight.Contracts DocInsight.Python Loop

section Grow
variable (units : List Span) (count : Int → Int → Int) (first cap : Nat)

/-- A grown window has the size of the whole window, within the cap. -/
theorem growWindow_size (h : first < (growWindow units count first cap).1) :
    (growWindow units count first cap).2 = count (unitAt units first).1
        (unitAt units ((growWindow units count first cap).1 - 1)).2 ∧
      (growWindow units count first cap).2 ≤ cap := by
  have hSize : first < (growWindow units count first cap).1 →
      (growWindow units count first cap).2 = count (unitAt units first).1
          (unitAt units ((growWindow units count first cap).1 - 1)).2 ∧
        (growWindow units count first cap).2 ≤ cap := by
    apply repeatUntil_invariant (growTurn_decreases units count cap (unitAt units first).1)
      (fun state => first < state.1 → state.2 = count (unitAt units first).1
        (unitAt units (state.1 - 1)).2 ∧ state.2 ≤ cap)
      (fun state => first < state.1 → state.2 = count (unitAt units first).1
        (unitAt units (state.1 - 1)).2 ∧ state.2 ≤ cap)
    · intro state later hState hTurn
      unfold growTurn at hTurn
      simp only at hTurn
      split_ifs at hTurn with hInside hCap
      cases hTurn
      intro hLater
      exact ⟨rfl, not_lt.mp hCap⟩
    · intro state result hState hTurn
      unfold growTurn at hTurn
      simp only at hTurn
      split_ifs at hTurn <;> cases hTurn <;> exact hState
    · intro hLess
      exact absurd hLess (lt_irrefl _)
  exact hSize h

/-- A window that takes no unit at all starts at a unit beyond the cap. -/
theorem growWindow_stuck (hFirst : first < units.length)
    (h : (growWindow units count first cap).1 = first) :
    cap < count (unitAt units first).1 (unitAt units first).2 := by
  by_contra hFits
  have hTurn : growTurn units count cap (unitAt units first).1 (first, 0) =
      .next (first + 1, count (unitAt units first).1 (unitAt units first).2) := by
    unfold growTurn
    simp only
    rw [if_pos hFirst, if_neg hFits]
  have hGrown : first + 1 ≤ (growWindow units count first cap).1 := by
    unfold growWindow
    rw [repeatUntil_eq, hTurn]
    apply repeatUntil_invariant (growTurn_decreases units count cap (unitAt units first).1)
      (fun state => first + 1 ≤ state.1) (fun state => first + 1 ≤ state.1)
    · intro state later hState hNext
      unfold growTurn at hNext
      simp only at hNext
      split_ifs at hNext with hInside hCap
      cases hNext
      exact Nat.le_succ_of_le hState
    · intro state result hState hNext
      unfold growTurn at hNext
      simp only at hNext
      split_ifs at hNext <;> cases hNext <;> exact hState
    · exact le_refl _
  omega

end Grow

section Chunks
variable {units : List Span} {count : Int → Int → Int} {page : Page} {settings : ChunkSettings}
  {startOrd : Int}

/-- A chunk is the text between the start of a unit and the end of a later one, with its
count, which is within the cap. -/
structure ChunkExact (units : List Span) (count : Int → Int → Int) (page : Page) (cap : Nat)
    (chunk : Chunk) : Prop where
  text : chunk.text = slice page.text chunk.charStart chunk.charEnd
  edges : ∃ first last, first ≤ last ∧ last < units.length ∧
    chunk.charStart = (unitAt units first).1 ∧ chunk.charEnd = (unitAt units last).2
  size : chunk.tokenCount = count chunk.charStart chunk.charEnd
  budget : chunk.tokenCount ≤ cap

/-- The chunks so far are exact, and numbered from the given ordinal on. -/
structure ChunksExact (units : List Span) (count : Int → Int → Int) (page : Page) (cap : Nat)
    (startOrd : Int) (chunks : List Chunk) : Prop where
  exact : ∀ chunk ∈ chunks, ChunkExact units count page cap chunk
  ords : chunks.map Chunk.ord = (List.range chunks.length).map fun index : Nat => startOrd + index

theorem ChunksExact.append {first cap : Nat} {chunks : List Chunk}
    (exact : ChunksExact units count page cap startOrd chunks)
    (hGrown : first < (growWindow units count first cap).1) (hFirst : first < units.length) :
    ChunksExact units count page cap startOrd
      (appendChunk units page startOrd chunks first (growWindow units count first cap).1
        (growWindow units count first cap).2) := by
  have hBounds := growWindow_bounds units count first cap hFirst
  have hSize := growWindow_size units count first cap hGrown
  unfold appendChunk
  simp only
  split_ifs
  · constructor
    · intro chunk hChunk
      rcases List.mem_append.mp hChunk with hOld | hNew
      · exact exact.exact chunk hOld
      · obtain rfl := List.mem_singleton.mp hNew
        exact ⟨rfl, ⟨first, _, Nat.le_sub_one_of_lt hGrown, by omega, rfl, rfl⟩, hSize.1, hSize.2⟩
    · rw [List.map_append, exact.ords, List.length_append, List.length_singleton,
        List.range_succ, List.map_append]
      rfl
  · exact exact

/-- Chunks that leave nothing behind up to a unit: their ends go up, their starts do not
go down, and every earlier unit is inside one of them. -/
structure Frontier (units : List Span) (first : Nat) (chunks : List Chunk) : Prop where
  ends : chunks.Pairwise fun earlier later => earlier.charEnd < later.charEnd
  starts : chunks.Pairwise fun earlier later => earlier.charStart ≤ later.charStart
  covered : ∀ index < first, ∃ chunk ∈ chunks,
    Covers (chunk.charStart, chunk.charEnd) (unitAt units index)
  behind : first < units.length → ∀ chunk ∈ chunks, chunk.charStart ≤ (unitAt units first).1

/-- A list that only grows past its last value stays below what passes that value. -/
theorem lt_of_last {chunks : List Chunk} {stop : Int}
    (hEnds : chunks.Pairwise fun earlier later => earlier.charEnd < later.charEnd)
    (hLast : (chunks.getLast?.all fun previous => previous.charEnd < stop) = true) :
    ∀ chunk ∈ chunks, chunk.charEnd < stop := by
  induction chunks using List.reverseRecOn with
  | nil =>
      intro chunk hChunk
      cases hChunk
  | append_singleton earlier last ih =>
      rw [List.getLast?_concat, Option.all_some, decide_eq_true_eq] at hLast
      intro chunk hChunk
      rcases List.mem_append.mp hChunk with hOld | hNew
      · have hLess := (List.pairwise_append.mp hEnds).2.2 chunk hOld last (by simp)
        omega
      · obtain rfl := List.mem_singleton.mp hNew
        exact hLast

variable {high : Int}

/-- A window over the next units, appended or not, moves the frontier to its end. A window
that is not appended ends within the last chunk, which starts no later. -/
theorem Frontier.append (ordered : SpansOrdered 0 high units) {first last nextFirst : Nat}
    {chunks : List Chunk} (frontier : Frontier units first chunks) (size : Int)
    (hGrown : first < last) (hLast : last ≤ units.length) (hFirst : first ≤ nextFirst)
    (hNext : nextFirst ≤ last) :
    Frontier units nextFirst (appendChunk units page startOrd chunks first last size) := by
  have hBehind := frontier.behind (by omega)
  have hWithin : ∀ index, first ≤ index → index < last →
      Covers ((unitAt units first).1, (unitAt units (last - 1)).2) (unitAt units index) := by
    intro index hLow hHigh
    exact ⟨(ordered.getD_le hLow (by omega)).1, (ordered.getD_le (by omega) (by omega)).2⟩
  have hStarts : nextFirst < units.length →
      (unitAt units first).1 ≤ (unitAt units nextFirst).1 :=
    fun hInside => (ordered.getD_le hFirst hInside).1
  unfold appendChunk
  simp only
  split_ifs with hNew
  · constructor
    · refine List.pairwise_append.mpr ⟨frontier.ends, List.pairwise_singleton _ _, ?_⟩
      intro chunk hChunk other hOther
      obtain rfl := List.mem_singleton.mp hOther
      exact lt_of_last frontier.ends hNew chunk hChunk
    · refine List.pairwise_append.mpr ⟨frontier.starts, List.pairwise_singleton _ _, ?_⟩
      intro chunk hChunk other hOther
      obtain rfl := List.mem_singleton.mp hOther
      exact hBehind chunk hChunk
    · intro index hIndex
      by_cases hOld : index < first
      · obtain ⟨chunk, hChunk, hCovers⟩ := frontier.covered index hOld
        exact ⟨chunk, List.mem_append_left _ hChunk, hCovers⟩
      · exact ⟨_, List.mem_append_right _ (List.mem_singleton.mpr rfl),
          hWithin index (by omega) (by omega)⟩
    · intro hInside chunk hChunk
      have hStart := hStarts hInside
      rcases List.mem_append.mp hChunk with hOld | hNewChunk
      · exact le_trans (hBehind chunk hOld) hStart
      · obtain rfl := List.mem_singleton.mp hNewChunk
        exact hStart
  · obtain ⟨previous, hPrevious⟩ : ∃ previous, chunks.getLast? = some previous := by
      cases hLastChunk : chunks.getLast? with
      | none => exact absurd (by rw [hLastChunk]; rfl) hNew
      | some previous => exact ⟨previous, rfl⟩
    have hMem := List.mem_of_getLast? hPrevious
    rw [hPrevious, Option.all_some, decide_eq_true_eq, not_lt] at hNew
    constructor
    · exact frontier.ends
    · exact frontier.starts
    · intro index hIndex
      by_cases hOld : index < first
      · exact frontier.covered index hOld
      · have hCovers := hWithin index (by omega) (by omega)
        exact ⟨previous, hMem, le_trans (hBehind previous hMem) hCovers.1,
          le_trans hCovers.2 hNew⟩
    · intro hInside chunk hChunk
      exact le_trans (hBehind chunk hChunk) (hStarts hInside)

/-- Every result of the window loop: exact chunks, or an error for a unit that is beyond
the cap on its own. -/
theorem chunkWindows_exact (units : List Span) (count : Int → Int → Int) (page : Page)
    (settings : ChunkSettings) (startOrd : Int) :
    (∀ chunks, chunkWindows units count page settings startOrd = .ok chunks →
      ChunksExact units count page settings.chunkTokens startOrd chunks) ∧
    ∀ error, chunkWindows units count page settings startOrd = .error error →
      ∃ unit ∈ units, settings.chunkTokens < count unit.1 unit.2 := by
  apply repeatUntil_invariant (windowTurn_decreases units count page settings startOrd)
    (fun state => ChunksExact units count page settings.chunkTokens startOrd state.2)
    (fun result => (∀ chunks, result = .ok chunks →
        ChunksExact units count page settings.chunkTokens startOrd chunks) ∧
      ∀ error, result = .error error → ∃ unit ∈ units, settings.chunkTokens < count unit.1 unit.2)
  · intro state later hExact hTurn
    obtain ⟨hInside, hGrown, -, -, hChunks⟩ :=
      windowTurn_next units count page settings startOrd hTurn
    rw [hChunks]
    exact hExact.append hGrown hInside
  · intro state result hExact hTurn
    unfold windowTurn at hTurn
    simp only at hTurn
    split_ifs at hTurn with hInside hStuck hEnd
    · cases hTurn
      refine ⟨fun chunks h => (by cases h), fun error _ => ⟨unitAt units state.1, ?_, ?_⟩⟩
      · rw [unitAt, List.getD_eq_getElem _ _ hInside]
        exact List.getElem_mem hInside
      · exact growWindow_stuck units count state.1 _ hInside hStuck
    · cases hTurn
      have hBounds := growWindow_bounds units count state.1 settings.chunkTokens hInside
      refine ⟨fun chunks h => ?_, fun error h => (by cases h)⟩
      cases h
      exact hExact.append (by omega) hInside
    · cases hTurn
      refine ⟨fun chunks h => ?_, fun error h => (by cases h)⟩
      cases h
      exact hExact
  · exact ⟨fun chunk hChunk => (by cases hChunk), rfl⟩

/-- Over units in order the window loop leaves none behind. -/
theorem chunkWindows_frontier (ordered : SpansOrdered 0 high units) {chunks : List Chunk}
    (h : chunkWindows units count page settings startOrd = .ok chunks) :
    Frontier units units.length chunks := by
  have hAll : ∀ chunks, chunkWindows units count page settings startOrd = .ok chunks →
      Frontier units units.length chunks := by
    apply repeatUntil_invariant (windowTurn_decreases units count page settings startOrd)
      (fun state => state.1 ≤ units.length ∧ Frontier units state.1 state.2)
      (fun result => ∀ chunks, result = .ok chunks → Frontier units units.length chunks)
    · rintro state later ⟨-, hFrontier⟩ hTurn
      obtain ⟨hInside, hGrown, hShort, hFirst, hChunks⟩ :=
        windowTurn_next units count page settings startOrd hTurn
      have hBounds := overlapStart_bounds units count state.1 _ settings.chunkOverlap hGrown
      rw [hFirst, hChunks]
      exact ⟨by omega, hFrontier.append ordered _ hGrown (by omega) (by omega) hBounds.2⟩
    · rintro state result ⟨hFirst, hFrontier⟩ hTurn chunks rfl
      unfold windowTurn at hTurn
      simp only at hTurn
      split_ifs at hTurn with hInside hStuck hEnd
      · cases hTurn
      · cases hTurn
        have hBounds := growWindow_bounds units count state.1 settings.chunkTokens hInside
        exact hFrontier.append ordered _ (by omega) (by omega) (by omega) (by omega)
      · cases hTurn
        exact (by omega : state.1 = units.length) ▸ hFrontier
    · refine ⟨Nat.zero_le _, List.Pairwise.nil, List.Pairwise.nil, ?_, ?_⟩
      · intro index hIndex
        exact absurd hIndex (Nat.not_lt_zero _)
      · intro _ chunk hChunk
        cases hChunk
  exact hAll chunks h

end Chunks

end DocInsight.Worker
