import DocInsight.Contracts.Streams
import Mathlib.Algebra.Ring.Nat
import Mathlib.Data.List.TakeDrop

/-! Texts of identifiers and sizes as the standard library writes them, and a codec made of
them. Of times only the epoch is written as it is there; others are numbered. -/
namespace DocInsight.Contracts

def hexAlphabet : List Char := "0123456789abcdef".toList

/-- The last digits of a value in base sixteen. -/
def hexDigits : Nat → Nat → List Char
  | 0, _ => []
  | width + 1, value => hexDigits width (value / 16) ++ [hexAlphabet.getD (value % 16) '0']

def hexValue (digits : List Char) : Nat :=
  digits.foldl (fun value digit => 16 * value + hexAlphabet.idxOf digit) 0

theorem length_hexDigits (width value : Nat) : (hexDigits width value).length = width := by
  induction width generalizing value with
  | zero => rfl
  | succ width ih => rw [hexDigits, List.length_append, ih, List.length_singleton]

theorem getD_hexAlphabet : ∀ digit < 16, hexAlphabet.getD digit '0' ∈ hexAlphabet ∧
    hexAlphabet.idxOf (hexAlphabet.getD digit '0') = digit := by
  decide

theorem mem_hexDigits {width value : Nat} {digit : Char} (h : digit ∈ hexDigits width value) :
    digit ∈ hexAlphabet := by
  induction width generalizing value with
  | zero => cases h
  | succ width ih =>
      rcases List.mem_append.mp h with hInit | hLast
      · exact ih hInit
      · rw [List.mem_singleton.mp hLast]
        exact (getD_hexAlphabet _ (Nat.mod_lt _ (by decide))).1

theorem hexValue_hexDigits (width value : Nat) :
    hexValue (hexDigits width value) = value % 16 ^ width := by
  induction width generalizing value with
  | zero => simp [hexDigits, hexValue, Nat.mod_one]
  | succ width ih =>
      have hDigit := (getD_hexAlphabet (value % 16) (Nat.mod_lt _ (by decide))).2
      have hInit : (hexDigits width (value / 16)).foldl
          (fun value digit => 16 * value + hexAlphabet.idxOf digit) 0 =
          value / 16 % 16 ^ width := ih (value / 16)
      rw [hexDigits, hexValue, List.foldl_append, hInit, List.foldl_cons, List.foldl_nil, hDigit,
        Nat.pow_succ', Nat.mod_mul]
      omega

/-- `str(uuid)`. -/
def uuidText (id : UUID) : String :=
  let digits := hexDigits 32 id.bits.toNat
  String.ofList (digits.take 8 ++ '-' :: ((digits.drop 8).take 4 ++ '-' :: ((digits.drop 12).take 4 ++
    '-' :: ((digits.drop 16).take 4 ++ '-' :: digits.drop 20))))

def parseUUID (value : String) : Option UUID :=
  let digits := value.toList.filter (· ≠ '-')
  if digits.length = 32 ∧ digits.all (fun digit => digit ∈ hexAlphabet) then
    some ⟨BitVec.ofNat 128 (hexValue digits)⟩
  else none

/-- Dashes between parts of a list without dashes are all that a filter takes away. -/
theorem filter_dashes {digits : List Char} (h : ∀ digit ∈ digits, digit ≠ '-') :
    (digits.take 8 ++ '-' :: ((digits.drop 8).take 4 ++ '-' :: ((digits.drop 12).take 4 ++
      '-' :: ((digits.drop 16).take 4 ++ '-' :: digits.drop 20)))).filter (· ≠ '-') = digits := by
  have hKeep {part : List Char} (hPart : part ⊆ digits) : part.filter (· ≠ '-') = part :=
    List.filter_eq_self.mpr fun digit hDigit => decide_eq_true (h digit (hPart hDigit))
  have hDrop (count : Nat) : digits.drop count ⊆ digits := (List.drop_sublist _ _).subset
  have hJoin (first second : Nat) :
      (digits.drop first).take second ++ digits.drop (first + second) = digits.drop first := by
    rw [← List.drop_drop, List.take_append_drop]
  simp only [List.filter_append, List.filter_cons, ne_eq, not_true_eq_false, decide_false,
    Bool.false_eq_true, ↓reduceIte]
  rw [hKeep (List.take_sublist _ _).subset, hKeep (hDrop 20),
    hKeep (List.Subset.trans (List.take_sublist _ _).subset (hDrop 8)),
    hKeep (List.Subset.trans (List.take_sublist _ _).subset (hDrop 12)),
    hKeep (List.Subset.trans (List.take_sublist _ _).subset (hDrop 16)),
    hJoin 16 4, hJoin 12 4, hJoin 8 4, List.take_append_drop]

theorem parseUUID_uuidText (id : UUID) : parseUUID (uuidText id) = some id := by
  have hHex : ∀ digit ∈ hexDigits 32 id.bits.toNat, digit ∈ hexAlphabet :=
    fun digit hDigit => mem_hexDigits hDigit
  have hNoDash : ∀ digit ∈ hexDigits 32 id.bits.toNat, digit ≠ '-' := by
    intro digit hDigit hDash
    have hMem := hHex digit hDigit
    rw [hDash] at hMem
    exact absurd hMem (by decide)
  have hValue : hexValue (hexDigits 32 id.bits.toNat) = id.bits.toNat := by
    rw [hexValue_hexDigits]
    exact Nat.mod_eq_of_lt id.bits.isLt
  have hAll : (hexDigits 32 id.bits.toNat).all (fun digit => digit ∈ hexAlphabet) = true :=
    List.all_eq_true.mpr fun digit hDigit => decide_eq_true (hHex digit hDigit)
  simp only [parseUUID, uuidText, String.toList_ofList]
  rw [filter_dashes hNoDash, if_pos ⟨length_hexDigits _ _, hAll⟩, hValue, BitVec.ofNat_toNat,
    BitVec.setWidth_eq]

/-- `int(value)` of plain digits. -/
def parseSize (value : String) : Option Nat :=
  if value.toList ≠ [] ∧ value.toList.all Char.isDigit then
    some (Nat.ofDigitChars 10 value.toList 0)
  else none

theorem parseSize_repr (size : Nat) : parseSize (Nat.repr size) = some size := by
  have hDigits : (Nat.toDigits 10 size).all Char.isDigit = true :=
    List.all_eq_true.mpr fun digit hDigit =>
      Nat.isDigit_of_mem_toDigits (by decide) (by decide) hDigit
  rw [parseSize, Nat.toList_repr, if_pos ⟨Nat.toDigits_ne_nil, hDigits⟩,
    Nat.ofDigitChars_toDigits (by decide) (by decide)]

def epochText : String := "1970-01-01T00:00:00Z"

def timeText (time : Timestamp) : String := if time = 0 then epochText else Nat.repr time

def parseTime (value : String) : Option Timestamp :=
  if value = epochText then some 0 else parseSize value

theorem parseSize_epochText : parseSize epochText = none := by decide

theorem parseTime_timeText (time : Timestamp) : parseTime (timeText time) = some time := by
  rw [parseTime, timeText]
  by_cases hEpoch : time = 0
  · rw [if_pos hEpoch, if_pos rfl, hEpoch]
  · have hText : Nat.repr time ≠ epochText := by
      intro hText
      have hParsed := parseSize_repr time
      rw [hText, parseSize_epochText] at hParsed
      cases hParsed
    rw [if_neg hEpoch, if_neg hText, parseSize_repr]

/-- Identifiers and sizes as the standard library writes them. -/
def libraryCodec : Codec where
  writeUUID := uuidText
  readUUID := parseUUID
  writeTime := timeText
  readTime := parseTime
  writeSize := Nat.repr
  readSize := parseSize

theorem libraryCodec_lawful : libraryCodec.Lawful := by
  constructor
  · intro id
    simp only [libraryCodec]
    exact parseUUID_uuidText id
  · intro time
    simp only [libraryCodec]
    exact parseTime_timeText time
  · intro size
    simp only [libraryCodec]
    exact parseSize_repr size

end DocInsight.Contracts
