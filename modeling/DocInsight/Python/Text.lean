import Mathlib.Algebra.Ring.Nat
import Mathlib.Data.List.Basic

/-! Python text as the program handles it: strings of code points, lone surrogates
included, with the parts of the standard library that are used on them. -/
namespace DocInsight.Python

/-- A rejected value, with the message of its error. -/
structure ValueError where
  message : String
  deriving DecidableEq, Repr

/-- A code point of a Python string, which may be a lone surrogate. -/
abbrev CodePoint := Fin 0x110000

abbrev Text := List CodePoint

def codePoint (character : Char) : CodePoint :=
  Fin.ofNat 0x110000 character.toNat

/-- The text of a literal. -/
def text (literal : String) : Text := literal.toList.map codePoint

/-- `str.isspace` of one character, which the `\s` of a pattern agrees with. -/
def isSpace (character : CodePoint) : Bool :=
  let code := character.val
  (9 ≤ code && code ≤ 13) || (28 ≤ code && code ≤ 32) || code = 0x85 || code = 0xA0 ||
    code = 0x1680 || (0x2000 ≤ code && code ≤ 0x200A) || code = 0x2028 || code = 0x2029 ||
    code = 0x202F || code = 0x205F || code = 0x3000

def isSurrogate (character : CodePoint) : Bool :=
  0xD800 ≤ character.val && character.val ≤ 0xDFFF

/-- Where an index points in a sequence: a negative one counts from the end, and a slice
stays within the sequence. -/
def place (length : Nat) (index : Int) : Nat :=
  min (if index < 0 then index + length else index).toNat length

/-- `value[start:stop]`. -/
def slice (value : Text) (start stop : Int) : Text :=
  (value.take (place value.length stop)).drop (place value.length start)

/-- `value[index]`, which has no answer out of range. -/
def charAt (value : Text) (index : Int) : Option CodePoint :=
  let place := if index < 0 then index + value.length else index
  if place < 0 then none else value[place.toNat]?

theorem charAt_natCast (value : Text) (index : Nat) : charAt value index = value[index]? := by
  have hPlace : (if (index : Int) < 0 then (index : Int) + value.length else index) = index := by
    omega
  rw [charAt]
  simp only [hPlace]
  rw [if_neg (by omega), Int.toNat_natCast]

/-- The slice between two cuts of a text. -/
theorem slice_append (before middle after : Text) :
    slice (before ++ middle ++ after) before.length (before.length + middle.length : Nat) =
      middle := by
  have hStop : place (before ++ middle ++ after).length (before.length + middle.length : Nat) =
      (before ++ middle).length := by
    simp only [place, List.length_append]
    omega
  have hStart : place (before ++ middle ++ after).length before.length = before.length := by
    simp only [place, List.length_append]
    omega
  rw [slice, hStop, hStart, List.take_left', List.drop_left']
  · rfl
  · rfl

/-- `str.strip` without arguments. -/
def strip (value : Text) : Text :=
  ((value.dropWhile isSpace).reverse.dropWhile isSpace).reverse

/-- The number of bytes of one character in UTF-8. -/
def utf8Width (character : CodePoint) : Nat :=
  if character.val < 0x80 then 1
  else if character.val < 0x800 then 2
  else if character.val < 0x10000 then 3
  else 4

/-- `len(value.encode())`; a lone surrogate has no encoding. -/
def encodedLength (value : Text) : Option Nat :=
  if value.any isSurrogate then none else some (value.map utf8Width).sum

def hexDigit (digit : Nat) : CodePoint :=
  codePoint ("0123456789abcdef".toList.getD digit '0')

/-- One character inside a JSON string written with `ensure_ascii=False`. -/
def jsonEscape (character : CodePoint) : Text :=
  match character.val with
  | 0x22 => text "\\\""
  | 0x5C => text "\\\\"
  | 0x08 => text "\\b"
  | 0x09 => text "\\t"
  | 0x0A => text "\\n"
  | 0x0C => text "\\f"
  | 0x0D => text "\\r"
  | code =>
      if code < 0x20 then text "\\u00" ++ [hexDigit (code / 16), hexDigit (code % 16)]
      else [character]

def jsonString (value : Text) : Text :=
  text "\"" ++ value.flatMap jsonEscape ++ text "\""

/-- `json.dumps([question, passages], ensure_ascii=False)`. -/
def jsonQuestion (question : Text) (passages : List Text) : Text :=
  text "[" ++ jsonString question ++ text ", [" ++
    (text ", ").intercalate (passages.map jsonString) ++ text "]]"

example : encodedLength (jsonQuestion (text "a\"b") [text "c", []]) = some 19 := by decide

end DocInsight.Python
