import Mathlib.Data.List.Basic

/-! Quoted terms that a separator joins. Where no term has the quote or the first item of the
separator in it, splitting undoes joining, and outside of the quotes stand separators only. -/
namespace Quoting

variable {Item : Type} [DecidableEq Item]

/-- Split on from a place, with the piece that was read so far, past so many items of a
separator that was found. -/
def splitFrom (separator : List Item) : Nat → List Item → List Item → List (List Item)
  | _, current, [] => [current]
  | skip + 1, current, _ :: rest => splitFrom separator skip current rest
  | 0, current, item :: rest =>
      if separator.isPrefixOf (item :: rest) then
        current :: splitFrom separator (separator.length - 1) [] rest
      else splitFrom separator 0 (current ++ [item]) rest

/-- The pieces between the separators, which are found from left to right. -/
def split (separator items : List Item) : List (List Item) := splitFrom separator 0 [] items

section Split
variable {head : Item} {tail : List Item}

/-- What has no first item of a separator belongs to the piece that is being read. -/
theorem splitFrom_piece {piece : List Item} (hPiece : head ∉ piece) (current rest : List Item) :
    splitFrom (head :: tail) 0 current (piece ++ rest) =
      splitFrom (head :: tail) 0 (current ++ piece) rest := by
  induction piece generalizing current with
  | nil => rw [List.nil_append, List.append_nil]
  | cons item others ih =>
      obtain ⟨hItem, hOthers⟩ := List.ne_and_not_mem_of_not_mem_cons hPiece
      have hOther : (head :: tail).isPrefixOf (item :: (others ++ rest)) = false := by
        simp [List.isPrefixOf, hItem]
      rw [List.cons_append, splitFrom, hOther, if_neg Bool.false_ne_true, ih hOthers]
      simp

theorem splitFrom_passed (separator passed current rest : List Item) :
    splitFrom separator passed.length current (passed ++ rest) =
      splitFrom separator 0 current rest := by
  induction passed with
  | nil => rfl
  | cons item others ih =>
      rw [List.cons_append, List.length_cons, splitFrom]
      exact ih

/-- A separator ends the piece that is being read. -/
theorem splitFrom_separator (current rest : List Item) :
    splitFrom (head :: tail) 0 current ((head :: tail) ++ rest) =
      current :: splitFrom (head :: tail) 0 [] rest := by
  have hFound : (head :: tail).isPrefixOf (head :: (tail ++ rest)) = true := by
    rw [List.isPrefixOf_iff_prefix]
    exact ⟨rest, rfl⟩
  rw [List.cons_append, splitFrom, hFound, if_pos rfl, List.length_cons, Nat.add_sub_cancel,
    splitFrom_passed]

/-- Splitting undoes joining. -/
theorem split_intercalate {pieces : List (List Item)} (hSome : pieces ≠ [])
    (hPieces : ∀ piece ∈ pieces, head ∉ piece) :
    split (head :: tail) ((head :: tail).intercalate pieces) = pieces := by
  induction pieces with
  | nil => exact absurd rfl hSome
  | cons piece rest ih =>
      obtain ⟨hPiece, hRest⟩ := List.forall_mem_cons.mp hPieces
      cases rest with
      | nil =>
          have hRead := @splitFrom_piece _ _ _ tail _ hPiece [] []
          rw [List.append_nil, List.nil_append] at hRead
          simpa [split, List.intercalate, splitFrom] using hRead
      | cons next others =>
          rw [List.intercalate_cons_cons, List.append_assoc, split, splitFrom_piece hPiece,
            splitFrom_separator, List.nil_append]
          exact congrArg (piece :: ·) (ih (List.cons_ne_nil _ _) hRest)

end Split

section Outside
variable {quote : Item}

/-- A term between quotes. -/
def quoted (quote : Item) (term : List Item) : List Item := quote :: term ++ [quote]

/-- What stands outside of quotes, where each quote opens or closes. -/
def outside (quote : Item) : Bool → List Item → List Item
  | _, [] => []
  | within, item :: rest =>
      if item = quote then outside quote (!within) rest
      else if within then outside quote within rest
      else item :: outside quote within rest

theorem outside_plain {plain : List Item} (hPlain : quote ∉ plain) (rest : List Item) :
    outside quote false (plain ++ rest) = plain ++ outside quote false rest := by
  induction plain with
  | nil => rfl
  | cons item others ih =>
      obtain ⟨hItem, hOthers⟩ := List.ne_and_not_mem_of_not_mem_cons hPlain
      rw [List.cons_append, outside, if_neg (Ne.symm hItem), if_neg Bool.false_ne_true, ih hOthers]
      rfl

theorem outside_within {term : List Item} (hTerm : quote ∉ term) (rest : List Item) :
    outside quote true (term ++ rest) = outside quote true rest := by
  induction term with
  | nil => rfl
  | cons item others ih =>
      obtain ⟨hItem, hOthers⟩ := List.ne_and_not_mem_of_not_mem_cons hTerm
      rw [List.cons_append, outside, if_neg (Ne.symm hItem), if_pos rfl, ih hOthers]

/-- A quoted term leaves nothing outside. -/
theorem outside_quoted {term : List Item} (hTerm : quote ∉ term) (rest : List Item) :
    outside quote false (quoted quote term ++ rest) = outside quote false rest := by
  rw [quoted, List.cons_append, List.cons_append, outside, if_pos rfl, List.append_assoc,
    Bool.not_false, outside_within hTerm, List.singleton_append, outside, if_pos rfl,
    Bool.not_true]

/-- Outside of joined terms there are separators only. -/
theorem outside_intercalate {separator : List Item} (hSeparator : quote ∉ separator)
    {terms : List (List Item)} (hTerms : ∀ term ∈ terms, quote ∉ term) :
    outside quote false (separator.intercalate (terms.map (quoted quote))) =
      separator.intercalate (terms.map fun _ => []) := by
  induction terms with
  | nil => rfl
  | cons term rest ih =>
      obtain ⟨hTerm, hRest⟩ := List.forall_mem_cons.mp hTerms
      cases rest with
      | nil =>
          have hAlone := outside_quoted hTerm []
          rw [List.append_nil] at hAlone
          simpa [List.intercalate, outside] using hAlone
      | cons next others =>
          rw [List.map_cons, List.map_cons, List.intercalate_cons_cons, List.append_assoc,
            outside_quoted hTerm, outside_plain hSeparator, List.map_cons, List.map_cons,
            List.intercalate_cons_cons, List.nil_append]
          exact congrArg (separator ++ ·) (ih hRest)

end Outside

/-- What is between the first and the last item. -/
def unquote (piece : List Item) : List Item := (piece.drop 1).dropLast

omit [DecidableEq Item] in
@[simp] theorem unquote_quoted (quote : Item) (term : List Item) :
    unquote (quoted quote term) = term := by
  simp [unquote, quoted]

end Quoting
