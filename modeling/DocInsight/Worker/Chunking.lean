import DocInsight.Contracts.Structure
import DocInsight.Library.Bisect
import DocInsight.Python.Words
import Mathlib.Algebra.Order.Group.Int

/-! Overlapping windows of whole words over a page. The reference chunker encodes every
candidate; the fast one counts on the offsets of one page encoding where it can. -/
namespace DocInsight.Worker

open DocInsight.Contracts DocInsight.Python Loop Bisect

/-- An overlap smaller than the window. -/
structure ChunkSettings where
  chunkTokens : Nat
  chunkOverlap : Nat
  valid_overlap : chunkOverlap < chunkTokens

section Split
variable (tokenizer : Tokenizer) (group : Text) (cap : Nat) (offsets : List Span)

/-- Extend a piece of a word by one token, until its own encoding exceeds the cap. -/
def pieceTurn (first last : Nat) : Turn Nat Nat :=
  if last < offsets.length then
    let piece := slice group (offsets.getD first (0, 0)).1 (offsets.getD last (0, 0)).2
    if cap < (tokenizer.encode piece).length then .stop last else .next (last + 1)
  else .stop last

theorem pieceTurn_decreases (first last later : Nat)
    (h : pieceTurn tokenizer group cap offsets first last = .next later) :
    offsets.length - later < offsets.length - last := by
  unfold pieceTurn at h
  simp only at h
  split_ifs at h with hInside
  cases h
  omega

/-- The end of the piece that starts at a token; it has at least that token. -/
def pieceEnd (first : Nat) : Nat :=
  repeatUntil (pieceTurn tokenizer group cap offsets first) (fun last => offsets.length - last)
    (pieceTurn_decreases tokenizer group cap offsets first) (first + 1)

theorem pieceEnd_bounds (first : Nat) (hFirst : first < offsets.length) :
    first < pieceEnd tokenizer group cap offsets first ∧
      pieceEnd tokenizer group cap offsets first ≤ offsets.length := by
  refine repeatUntil_invariant (pieceTurn_decreases tokenizer group cap offsets first)
    (fun last => first < last ∧ last ≤ offsets.length)
    (fun last => first < last ∧ last ≤ offsets.length) ?_ ?_ ⟨by omega, by omega⟩
  · intro last later hLast h
    unfold pieceTurn at h
    simp only at h
    split_ifs at h with hInside
    cases h
    omega
  · intro last result hLast h
    unfold pieceTurn at h
    simp only at h
    split_ifs at h <;> cases h <;> exact hLast

/-- Cut off the next piece of a word. -/
def splitTurn (start : Nat) (state : Nat × List Span) : Turn (Nat × List Span) (List Span) :=
  let (first, units) := state
  if first < offsets.length then
    let last := pieceEnd tokenizer group cap offsets first
    .next (last, units ++ [(start + (offsets.getD first (0, 0)).1,
      start + (offsets.getD (last - 1) (0, 0)).2)])
  else .stop units

theorem splitTurn_decreases (start : Nat) (state later : Nat × List Span)
    (h : splitTurn tokenizer group cap offsets start state = .next later) :
    offsets.length - later.1 < offsets.length - state.1 := by
  unfold splitTurn at h
  simp only at h
  split_ifs at h with hInside
  cases h
  have hBounds := pieceEnd_bounds tokenizer group cap offsets state.1 hInside
  simp only
  omega

/-- The pieces of a word that has no whitespace to cut at. This is the only place a
chunk boundary may fall inside a word. -/
def splitOffsets (start : Nat) : List Span :=
  repeatUntil (splitTurn tokenizer group cap offsets start)
    (fun state => offsets.length - state.1) (splitTurn_decreases tokenizer group cap offsets start)
    (0, [])

end Split

def splitWord (word : Match) (tokenizer : Tokenizer) (cap : Nat) : List Span :=
  splitOffsets tokenizer word.group cap (tokenizer.encode word.group) word.start

section Windows
variable (units : List Span) (count : Int → Int → Int)

def unitAt (index : Nat) : Span := units.getD index (0, 0)

/-- Take one more unit into the window while it stays within the cap. -/
def growTurn (cap : Nat) (start : Int) (state : Nat × Int) : Turn (Nat × Int) (Nat × Int) :=
  let (last, _) := state
  if last < units.length then
    let size := count start (unitAt units last).2
    if cap < size then .stop state else .next (last + 1, size)
  else .stop state

theorem growTurn_decreases (cap : Nat) (start : Int) (state later : Nat × Int)
    (h : growTurn units count cap start state = .next later) :
    units.length - later.1 < units.length - state.1 := by
  unfold growTurn at h
  simp only at h
  split_ifs at h with hInside
  cases h
  simp only
  omega

/-- The end of the window that starts at a unit, with the size of the whole window. -/
def growWindow (first cap : Nat) : Nat × Int :=
  repeatUntil (growTurn units count cap (unitAt units first).1)
    (fun state => units.length - state.1)
    (growTurn_decreases units count cap (unitAt units first).1) (first, 0)

/-- Go back by one more unit while the overlap stays within its budget. -/
def overlapTurn (first budget : Nat) (stop : Int) (nextFirst : Nat) : Turn Nat Nat :=
  if first + 1 < nextFirst then
    if budget < count (unitAt units (nextFirst - 1)).1 stop then .stop nextFirst
    else .next (nextFirst - 1)
  else .stop nextFirst

theorem overlapTurn_decreases (first budget : Nat) (stop : Int) (nextFirst later : Nat)
    (h : overlapTurn units count first budget stop nextFirst = .next later) :
    later < nextFirst := by
  unfold overlapTurn at h
  split_ifs at h with hInside
  cases h
  omega

def overlapStart (first last budget : Nat) : Nat :=
  let stop := (unitAt units (last - 1)).2
  repeatUntil (overlapTurn units count first budget stop) id
    (overlapTurn_decreases units count first budget stop) last

theorem growWindow_bounds (first cap : Nat) (hFirst : first < units.length) :
    first ≤ (growWindow units count first cap).1 ∧
      (growWindow units count first cap).1 ≤ units.length := by
  refine repeatUntil_invariant (growTurn_decreases units count cap (unitAt units first).1)
    (fun state => first ≤ state.1 ∧ state.1 ≤ units.length)
    (fun state => first ≤ state.1 ∧ state.1 ≤ units.length) ?_ ?_ ⟨le_refl _, hFirst.le⟩
  · intro state later hState h
    unfold growTurn at h
    simp only at h
    split_ifs at h with hInside
    cases h
    simp only
    omega
  · intro state result hState h
    unfold growTurn at h
    simp only at h
    split_ifs at h <;> cases h <;> exact hState

/-- The next window starts after this one's first unit and no later than its end. -/
theorem overlapStart_bounds (first last budget : Nat) (hLast : first < last) :
    first < overlapStart units count first last budget ∧
      overlapStart units count first last budget ≤ last := by
  refine repeatUntil_invariant
    (overlapTurn_decreases units count first budget (unitAt units (last - 1)).2)
    (fun nextFirst => first < nextFirst ∧ nextFirst ≤ last)
    (fun nextFirst => first < nextFirst ∧ nextFirst ≤ last) ?_ ?_ ⟨hLast, le_refl _⟩
  · intro nextFirst later hBounds h
    unfold overlapTurn at h
    split_ifs at h with hInside
    cases h
    omega
  · intro nextFirst result hBounds h
    unfold overlapTurn at h
    split_ifs at h <;> cases h <;> exact hBounds

variable (page : Page) (settings : ChunkSettings) (startOrd : Int)

/-- The chunk of the units from first to last, which is appended unless its end was
already reached. -/
def appendChunk (chunks : List Chunk) (first last : Nat) (size : Int) : List Chunk :=
  let start := (unitAt units first).1
  let stop := (unitAt units (last - 1)).2
  if chunks.getLast?.all fun previous => previous.charEnd < stop then
    chunks ++ [{ text := slice page.text start stop, language := page.language,
                 page := page.number, ord := startOrd + chunks.length, charStart := start,
                 charEnd := stop, tokenCount := size }]
  else chunks

/-- Emit the window that starts at a unit, and go on with the next one. -/
def windowTurn (state : Nat × List Chunk) :
    Turn (Nat × List Chunk) (Except ValueError (List Chunk)) :=
  let (first, chunks) := state
  if first < units.length then
    let (last, size) := growWindow units count first settings.chunkTokens
    if last = first then
      .stop (.error ⟨"chunk_tokens too small on page " ++ toString page.number⟩)
    else
      let chunks := appendChunk units page startOrd chunks first last size
      if last = units.length then .stop (.ok chunks)
      else .next (overlapStart units count first last settings.chunkOverlap, chunks)
  else .stop (.ok chunks)

/-- What a turn that goes on has done: it grew a window past its first unit, appended
its chunk, and moved on to a later unit within the window. -/
theorem windowTurn_next {state later : Nat × List Chunk}
    (h : windowTurn units count page settings startOrd state = .next later) :
    state.1 < units.length ∧
      state.1 < (growWindow units count state.1 settings.chunkTokens).1 ∧
      (growWindow units count state.1 settings.chunkTokens).1 < units.length ∧
      later.1 = overlapStart units count state.1
        (growWindow units count state.1 settings.chunkTokens).1 settings.chunkOverlap ∧
      later.2 = appendChunk units page startOrd state.2 state.1
        (growWindow units count state.1 settings.chunkTokens).1
        (growWindow units count state.1 settings.chunkTokens).2 := by
  unfold windowTurn at h
  simp only at h
  split_ifs at h with hInside hGrown hEnd
  cases h
  have hBounds := growWindow_bounds units count state.1 settings.chunkTokens hInside
  exact ⟨hInside, by omega, by omega, rfl, rfl⟩

theorem windowTurn_decreases (state later : Nat × List Chunk)
    (h : windowTurn units count page settings startOrd state = .next later) :
    units.length - later.1 < units.length - state.1 := by
  obtain ⟨hInside, hGrown, -, hFirst, -⟩ := windowTurn_next units count page settings startOrd h
  have hBounds := overlapStart_bounds units count state.1 _ settings.chunkOverlap hGrown
  omega

/-- The windows over the units of a page, counted by the given function. -/
def chunkWindows : Except ValueError (List Chunk) :=
  repeatUntil (windowTurn units count page settings startOrd)
    (fun state => units.length - state.1)
    (windowTurn_decreases units count page settings startOrd) (0, [])

end Windows

section Reference
variable (page : Page) (tokenizer : Tokenizer)

/-- Every candidate is encoded on its own. -/
def referenceCount (start stop : Int) : Int :=
  (tokenizer.encode (slice page.text start stop)).length

/-- Whole words, except that a word longer than the cap is cut between its tokens. -/
def referenceUnits (cap : Nat) : List Span :=
  (words page.text).flatMap fun word =>
    let offsets := if cap < word.group.length then tokenizer.encode word.group else []
    if offsets.length ≤ cap then [((word.start : Int), (word.stop : Int))]
    else splitOffsets tokenizer word.group cap offsets word.start

def referenceChunkPage (settings : ChunkSettings) (startOrd : Int) :
    Except ValueError (List Chunk) :=
  chunkWindows (referenceUnits page tokenizer settings.chunkTokens)
    (referenceCount page tokenizer) page settings startOrd

end Reference

/-- The code points of the categories Cc, Cf, Cs, Co, Zl and Zp. -/
def guardedCategory (character : CodePoint) : Bool :=
  [(0x00, 0x1F), (0x7F, 0x9F), (0xAD, 0xAD), (0x600, 0x605), (0x61C, 0x61C), (0x6DD, 0x6DD),
   (0x70F, 0x70F), (0x890, 0x891), (0x8E2, 0x8E2), (0x180E, 0x180E), (0x200B, 0x200F),
   (0x2028, 0x202E), (0x2060, 0x2064), (0x2066, 0x206F), (0xD800, 0xF8FF), (0xFEFF, 0xFEFF),
   (0xFFF9, 0xFFFB), (0x110BD, 0x110BD), (0x110CD, 0x110CD), (0x13430, 0x1343F),
   (0x1BCA0, 0x1BCA3), (0x1D173, 0x1D17A), (0xE0001, 0xE0001), (0xE0020, 0xE007F),
   (0xF0000, 0xFFFFD), (0x100000, 0x10FFFD)].any
    fun range => range.1 ≤ character.val && character.val ≤ range.2

/-- Normalization can erase separators before tokenization; retain raw-text cuts. -/
def requiresReference (value : Text) : Bool :=
  value.any fun character =>
    !(text "\t\n\r").contains character && guardedCategory character

/-- Each value is at least the one before it. -/
def ascending (values : List Int) : Bool :=
  (values.zip values.tail).all fun pair => pair.1 ≤ pair.2

/-- The offsets of one encoding of a whole page. -/
structure PageTokens where
  text : Text
  tokenizer : Tokenizer
  starts : List Int
  ends : List Int

namespace PageTokens

def new (text : Text) (tokenizer : Tokenizer) : PageTokens :=
  let offsets := tokenizer.encode text
  { text, tokenizer, starts := offsets.map Prod.fst, ends := offsets.map Prod.snd }

def ordered (tokens : PageTokens) : Bool :=
  ascending tokens.starts && ascending tokens.ends

/-- An edge inside a word. An index beyond the text, which no offsets within it lead
to, counts as one. -/
def cutsWord (text : Text) (start stop : Int) : Bool :=
  (0 < start && !(charAt text (start - 1)).any isSpace) ||
    (stop < text.length && !(charAt text stop).any isSpace)

/-- Cuts inside oversized words still need isolated tokenization. -/
def count (tokens : PageTokens) (start stop : Int) : Int :=
  if cutsWord tokens.text start stop then
    (tokens.tokenizer.encode (slice tokens.text start stop)).length
  else (bisectRight tokens.ends stop : Int) - bisectLeft tokens.starts start

end PageTokens

/-- Whole words, except that a word longer than the cap is cut between its tokens. -/
def pageUnits (page : Page) (tokens : PageTokens) (cap : Nat) : List Span :=
  (words page.text).flatMap fun word =>
    if word.group.length ≤ cap || tokens.count word.start word.stop ≤ cap then
      [((word.start : Int), (word.stop : Int))]
    else splitWord word tokens.tokenizer cap

/-- Overlap whole-word windows with half-open offsets and document-wide ordinals. -/
def chunkPage (page : Page) (tokenizer : Tokenizer) (settings : ChunkSettings)
    (startOrd : Int) : Except ValueError (List Chunk) :=
  let tokens := PageTokens.new page.text tokenizer
  if requiresReference page.text then referenceChunkPage page tokenizer settings startOrd
  else if !tokens.ordered then referenceChunkPage page tokenizer settings startOrd
  else chunkWindows (pageUnits page tokens settings.chunkTokens) tokens.count page settings
    startOrd

/-- The two ways to count: on the offsets of the page, or by encoding each candidate. -/
inductive Counting where
  | pageOffsets
  | candidates
  deriving DecidableEq, Repr

namespace Counting
variable (page : Page) (tokenizer : Tokenizer)

def units (cap : Nat) : Counting → List Span
  | pageOffsets => pageUnits page (PageTokens.new page.text tokenizer) cap
  | candidates => referenceUnits page tokenizer cap

def count : Counting → Int → Int → Int
  | pageOffsets => (PageTokens.new page.text tokenizer).count
  | candidates => referenceCount page tokenizer

def chunks (settings : ChunkSettings) (startOrd : Int) (counting : Counting) :
    Except ValueError (List Chunk) :=
  chunkWindows (counting.units page tokenizer settings.chunkTokens) (counting.count page tokenizer)
    page settings startOrd

/-- The way a page is counted. -/
def select : Counting :=
  if requiresReference page.text then candidates
  else if !(PageTokens.new page.text tokenizer).ordered then candidates
  else pageOffsets

end Counting

theorem chunkPage_eq (page : Page) (tokenizer : Tokenizer) (settings : ChunkSettings)
    (startOrd : Int) : chunkPage page tokenizer settings startOrd =
      (Counting.select page tokenizer).chunks page tokenizer settings startOrd := by
  unfold chunkPage Counting.select
  simp only
  split_ifs <;> rfl

theorem referenceChunkPage_eq (page : Page) (tokenizer : Tokenizer) (settings : ChunkSettings)
    (startOrd : Int) : referenceChunkPage page tokenizer settings startOrd =
      Counting.candidates.chunks page tokenizer settings startOrd := rfl

end DocInsight.Worker
