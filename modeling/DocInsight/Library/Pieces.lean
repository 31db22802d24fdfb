import DocInsight.Library.Raising

/-! Input that arrives in pieces. Where taking in two runs one after the other is taking in
the run that they make up, it does not matter how a run is cut. -/
namespace Pieces

variable {State Error Item : Type}

/-- What takes in runs of items keeps its state valid, does nothing for an empty run, and
takes in two runs as the one that they make up. -/
structure Additive (feed : List Item → State → Except Error State) (valid : State → Prop) :
    Prop where
  nil : ∀ state, valid state → feed [] state = .ok state
  append : ∀ first second state, valid state →
    feed (first ++ second) state = feed first state >>= feed second
  valid : ∀ items state next, valid state → feed items state = .ok next → valid next

variable {feed : List Item → State → Except Error State} {valid : State → Prop}

theorem Additive.foldlM_pieces (additive : Additive feed valid) (pieces : List (List Item))
    {state : State} (h : valid state) :
    pieces.foldlM (fun state piece => feed piece state) state = feed pieces.flatten state := by
  induction pieces generalizing state with
  | nil => exact (additive.nil state h).symm
  | cons piece rest ih =>
      rw [List.foldlM_cons, List.flatten_cons, additive.append _ _ _ h]
      cases hFirst : feed piece state with
      | error error => rfl
      | ok next => exact ih (additive.valid _ _ _ h hFirst)

end Pieces
