import DocInsight.Python.Json
import Mathlib.Data.List.Basic

/-! Writing JSON with `ensure_ascii=False`, and how many bytes the text takes in UTF-8. -/
namespace DocInsight.Python

/-- The bytes of a text whose characters all have an encoding. -/
def byteCount (value : Text) : Nat := (value.map utf8Width).sum

@[simp] theorem byteCount_nil : byteCount [] = 0 := rfl

@[simp] theorem byteCount_cons (character : CodePoint) (rest : Text) :
    byteCount (character :: rest) = utf8Width character + byteCount rest := rfl

@[simp] theorem byteCount_append (first second : Text) :
    byteCount (first ++ second) = byteCount first + byteCount second := by
  simp [byteCount]

/-- A separator stands between the parts, not after the last. -/
theorem byteCount_intercalate (separator : Text) (parts : List Text) :
    byteCount (separator.intercalate parts) =
      (parts.map byteCount).sum + (parts.length - 1) * byteCount separator := by
  induction parts with
  | nil => simp [List.intercalate]
  | cons part rest ih =>
      cases rest with
      | nil => simp [List.intercalate]
      | cons next rest =>
          rw [List.intercalate_cons_cons, byteCount_append, byteCount_append, ih]
          simp only [List.map_cons, List.sum_cons, List.length_cons, Nat.add_sub_cancel,
            Nat.succ_mul]
          omega

/-- A text that can be encoded. -/
def Encodable (value : Text) : Prop := ∀ character ∈ value, isSurrogate character = false

theorem encodedLength_eq_some {value : Text} {bytes : Nat} :
    encodedLength value = some bytes ↔ Encodable value ∧ byteCount value = bytes := by
  have hAny : value.any isSurrogate = false ↔ Encodable value := by
    simp [Encodable]
  unfold encodedLength
  split_ifs with hSurrogate
  · have hNot : ¬Encodable value := fun hEncodable => by
      rw [hAny.mpr hEncodable] at hSurrogate
      cases hSurrogate
    simp [hNot]
  · simp [hAny.mp (Bool.not_eq_true _ ▸ hSurrogate), byteCount]

theorem char_range (character : Char) :
    character.toNat < 0xD800 ∨ 0xDFFF < character.toNat ∧ character.toNat < 0x110000 :=
  character.valid

theorem codePoint_val (character : Char) : (codePoint character).val = character.toNat := by
  have hRange := char_range character
  apply Nat.mod_eq_of_lt
  omega

theorem text_append (first second : String) : text (first ++ second) = text first ++ text second := by
  rw [text, String.toList_append, List.map_append, text, text]

/-- How a literal is read: much faster to check than decoding it. -/
theorem text_ofList (characters : List Char) :
    text (String.ofList characters) = characters.map codePoint := by
  rw [text, String.toList_ofList]

/-- Literals differ as texts as they do as strings. -/
@[simp] theorem text_inj {first second : String} : text first = text second ↔ first = second := by
  have hCodePoint : Function.Injective codePoint := by
    intro one other hSame
    have hVal := congrArg Fin.val hSame
    rw [codePoint_val, codePoint_val] at hVal
    exact Char.toNat_inj.mp hVal
  rw [text, text, (List.map_injective_iff.mpr hCodePoint).eq_iff, String.toList_inj]

/-- A character of a literal is no surrogate. -/
@[simp] theorem isSurrogate_codePoint (character : Char) :
    isSurrogate (codePoint character) = false := by
  have hRange := char_range character
  simp only [isSurrogate, codePoint_val, Bool.and_eq_false_iff, decide_eq_false_iff_not]
  omega

@[simp] theorem encodable_text (literal : String) : Encodable (text literal) := by
  simp [Encodable, text]

@[simp] theorem encodable_append {first second : Text} :
    Encodable (first ++ second) ↔ Encodable first ∧ Encodable second :=
  List.forall_mem_append

theorem encodable_intercalate {separator : Text} (hSeparator : Encodable separator)
    {parts : List Text} :
    Encodable (separator.intercalate parts) ↔ ∀ part ∈ parts, Encodable part := by
  induction parts with
  | nil => simp [List.intercalate, Encodable]
  | cons part rest ih =>
      cases rest with
      | nil => simp [List.intercalate]
      | cons next rest =>
          rw [List.intercalate_cons_cons, encodable_append, encodable_append, ih]
          simp [hSeparator]

/-- How a document is written: what stands between items and after keys, and the text of a
float, which is the standard library's. -/
structure JsonFormat where
  item : Text
  key : Text
  float : Option ℚ → Text

namespace Json

mutual

/-- `json.dumps(value, ensure_ascii=False)` with the separators of a format. -/
def dumps (format : JsonFormat) : Json → Text
  | null => text "null"
  | bool value => text (if value then "true" else "false")
  | int value => text (toString value)
  | float value => format.float value
  | str value => jsonString value
  | list items => text "[" ++ format.item.intercalate (dumpsItems format items) ++ text "]"
  | dict fields => text "\x7b" ++ format.item.intercalate (dumpsFields format fields) ++ text "\x7d"

def dumpsItems (format : JsonFormat) : List Json → List Text
  | [] => []
  | item :: rest => dumps format item :: dumpsItems format rest

def dumpsFields (format : JsonFormat) : List (Text × Json) → List Text
  | [] => []
  | (name, value) :: rest =>
      (jsonString name ++ format.key ++ dumps format value) :: dumpsFields format rest

end

@[simp] theorem dumps_str (format : JsonFormat) (value : Text) :
    (str value).dumps format = jsonString value := rfl

theorem dumpsItems_eq (format : JsonFormat) (items : List Json) :
    dumpsItems format items = items.map (dumps format) := by
  induction items with
  | nil => rfl
  | cons item rest ih => rw [dumpsItems, ih, List.map_cons]

theorem dumpsFields_eq (format : JsonFormat) (fields : List (Text × Json)) :
    dumpsFields format fields =
      fields.map fun field => jsonString field.1 ++ format.key ++ dumps format field.2 := by
  induction fields with
  | nil => rfl
  | cons field rest ih => rw [dumpsFields, ih, List.map_cons]

end Json

/-- The separators of `json.dumps` by default. -/
def JsonFormat.standard (float : Option ℚ → Text) : JsonFormat := ⟨text ", ", text ": ", float⟩

/-- The separators of a request body. -/
def JsonFormat.compact (float : Option ℚ → Text) : JsonFormat := ⟨text ",", text ":", float⟩

/-- Separators that can be encoded, in at most two bytes. -/
structure JsonFormat.Narrow (format : JsonFormat) : Prop where
  item_encodes : Encodable format.item
  item_le : byteCount format.item ≤ 2
  key_encodes : Encodable format.key
  key_le : byteCount format.key ≤ 2

theorem JsonFormat.narrow_standard (float : Option ℚ → Text) : (standard float).Narrow where
  item_encodes := encodable_text ", "
  item_le := (by decide : byteCount (text ", ") ≤ 2)
  key_encodes := encodable_text ": "
  key_le := (by decide : byteCount (text ": ") ≤ 2)

theorem JsonFormat.narrow_compact (float : Option ℚ → Text) : (compact float).Narrow where
  item_encodes := encodable_text ","
  item_le := (by decide : byteCount (text ",") ≤ 2)
  key_encodes := encodable_text ":"
  key_le := (by decide : byteCount (text ":") ≤ 2)

section Size
variable (format : JsonFormat)

theorem byteCount_dumps_list (items : List Json) :
    byteCount ((Json.list items).dumps format) =
      2 + (items.map fun item => byteCount (item.dumps format)).sum +
        (items.length - 1) * byteCount format.item := by
  simp only [Json.dumps, byteCount_append, byteCount_intercalate, Json.dumpsItems_eq, List.map_map,
    List.length_map, Function.comp_def]
  have hOpen : byteCount (text "[") = 1 := by decide
  have hClose : byteCount (text "]") = 1 := by decide
  omega

theorem byteCount_dumps_dict (fields : List (Text × Json)) :
    byteCount ((Json.dict fields).dumps format) =
      2 + (fields.map fun field => byteCount (jsonString field.1) + byteCount format.key +
          byteCount (field.2.dumps format)).sum +
        (fields.length - 1) * byteCount format.item := by
  simp only [Json.dumps, byteCount_append, byteCount_intercalate, Json.dumpsFields_eq, List.map_map,
    List.length_map, Function.comp_def]
  have hOpen : byteCount (text "\x7b") = 1 := by decide
  have hClose : byteCount (text "\x7d") = 1 := by decide
  omega

end Size

/-- Escaping takes and gives no surrogate. -/
theorem encodable_jsonEscape (character : CodePoint) :
    Encodable (jsonEscape character) ↔ isSurrogate character = false := by
  unfold jsonEscape
  split
  case h_8 =>
    split_ifs with hControl
    · have hShort : isSurrogate character = false := by
        simp only [isSurrogate, Bool.and_eq_false_iff, decide_eq_false_iff_not]
        omega
      rw [encodable_append, hShort]
      exact iff_of_true ⟨encodable_text _, by simp [Encodable, hexDigit]⟩ rfl
    · simp [Encodable]
  all_goals
    rename_i hCode
    simp [isSurrogate, hCode]

theorem encodable_jsonString (value : Text) : Encodable (jsonString value) ↔ Encodable value := by
  have hEscaped : Encodable (value.flatMap jsonEscape) ↔ Encodable value := by
    induction value with
    | nil => simp
    | cons character rest ih =>
        rw [List.flatMap_cons, encodable_append, ih, encodable_jsonEscape]
        simp [Encodable]
  simp only [jsonString, encodable_append, encodable_text, hEscaped, true_and, and_true]

section Documents
variable {format : JsonFormat}

theorem encodable_dumps_list (narrow : format.Narrow) {items : List Json} :
    Encodable ((Json.list items).dumps format) ↔ ∀ item ∈ items, Encodable (item.dumps format) := by
  simp only [Json.dumps, encodable_append, encodable_intercalate narrow.item_encodes,
    Json.dumpsItems_eq, List.forall_mem_map, encodable_text, true_and, and_true]

theorem encodable_dumps_dict (narrow : format.Narrow) {fields : List (Text × Json)} :
    Encodable ((Json.dict fields).dumps format) ↔
      ∀ field ∈ fields, Encodable field.1 ∧ Encodable (field.2.dumps format) := by
  simp only [Json.dumps, encodable_append, encodable_intercalate narrow.item_encodes,
    Json.dumpsFields_eq, List.forall_mem_map, encodable_jsonString, narrow.key_encodes,
    encodable_text, true_and, and_true]

end Documents

/-- A text of ASCII that needs no escapes takes its quotes and a byte for each character. -/
theorem byteCount_plain {value : Text}
    (h : (value.all fun character => 0x20 ≤ character.val && character.val < 0x80 &&
      character.val != 0x22 && character.val != 0x5C) = true) :
    byteCount (jsonString value) = value.length + 2 := by
  have hQuote : byteCount (text "\"") = 1 := by decide
  have hEscaped : byteCount (value.flatMap jsonEscape) = value.length := by
    induction value with
    | nil => rfl
    | cons character rest ih =>
        rw [List.all_cons, Bool.and_eq_true] at h
        obtain ⟨hCharacter, hRest⟩ := h
        simp only [Bool.and_eq_true, decide_eq_true_eq, bne_iff_ne] at hCharacter
        have hSame : jsonEscape character = [character] := by
          unfold jsonEscape
          split
          case h_8 => rw [if_neg (by omega)]
          all_goals omega
        have hWidth : utf8Width character = 1 := if_pos (by omega)
        rw [List.flatMap_cons, byteCount_append, ih hRest, hSame]
        simp [hWidth, Nat.add_comm]
  rw [jsonString, byteCount_append, byteCount_append, hQuote, hEscaped]
  omega

/-- The bare array that a budget is counted on, as a document. -/
theorem jsonQuestion_eq (float : Option ℚ → Text) (question : Text) (passages : List Text) :
    jsonQuestion question passages =
      (Json.list [.str question, .list (passages.map Json.str)]).dumps (.standard float) := by
  simp only [Json.dumps, Json.dumpsItems_eq, jsonQuestion, JsonFormat.standard, List.map_map,
    List.map_cons, List.map_nil]
  rw [List.intercalate_cons_cons]
  simp [List.intercalate, Function.comp_def, text, Json.dumps]

end DocInsight.Python
