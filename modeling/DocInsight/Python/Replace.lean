import DocInsight.Python.Sentences

/-! `str.replace`, which goes from left to right over occurrences that do not overlap. -/
namespace DocInsight.Python

section Replace
variable (old new : Text)

/-- What is left of a text after some characters that belong to an occurrence. -/
def replaceFrom (skipped : Nat) : Text → Text
  | [] => []
  | character :: rest =>
      match skipped with
      | skipped + 1 => replaceFrom skipped rest
      | 0 =>
          if old.isPrefixOf (character :: rest) then new ++ replaceFrom (old.length - 1) rest
          else character :: replaceFrom 0 rest

/-- `value.replace(old, new)` for an old text that is not empty. -/
def replace (value : Text) : Text := replaceFrom old new 0 value

end Replace

variable {old new : Text}

/-- Nothing is replaced where a character of the old text is missing. -/
theorem replace_of_not_mem {character : CodePoint} {value : Text} (hOld : character ∈ old)
    (h : character ∉ value) : replace old new value = value := by
  induction value with
  | nil => rfl
  | cons first rest ih =>
      have hOther : old.isPrefixOf (first :: rest) = false := by
        apply Bool.eq_false_iff.mpr
        intro hStarts
        exact h ((List.isPrefixOf_iff_prefix.mp hStarts).subset hOld)
      have hRest : replaceFrom old new 0 rest = rest :=
        ih fun hMember => h (List.mem_cons_of_mem first hMember)
      rw [replace, replaceFrom, hOther, if_neg Bool.false_ne_true, hRest]

/-- A character is replaced wherever it stands. -/
theorem replace_character (character : CodePoint) (value : Text) :
    replace [character] new value =
      value.flatMap fun other => if other = character then new else [other] := by
  induction value with
  | nil => rfl
  | cons first rest ih =>
      have hRest : replaceFrom [character] new 0 rest =
          rest.flatMap fun other => if other = character then new else [other] := ih
      rw [replace, replaceFrom, List.flatMap_cons]
      by_cases hSame : first = character
      · subst hSame
        simp [List.isPrefixOf, hRest]
      · have hOther : (character == first) = false := beq_eq_false_iff_ne.mpr (Ne.symm hSame)
        simp [List.isPrefixOf, hOther, hSame, hRest]

/-- A character that is replaced by others is gone. -/
theorem not_mem_replace {character : CodePoint} (h : character ∉ new) (value : Text) :
    character ∉ replace [character] new value := by
  rw [replace_character]
  intro hMember
  obtain ⟨other, -, hOther⟩ := List.mem_flatMap.mp hMember
  split_ifs at hOther with hSame
  · exact h hOther
  · exact hSame (List.mem_singleton.mp hOther).symm

end DocInsight.Python
