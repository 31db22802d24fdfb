import DocInsight.Frontend.Sessions

/-! What stands beside a rendered list of documents. A refresh asks for the list at the offset of
the page when it is sent, and the page number, the total and the buttons are rendered from the
offset of the page when the list is there. -/
namespace DocInsight.Frontend

open Transition Table

variable {Answer : Type}

/-- The offset of the page is the one of the first document of the list beside it. -/
theorem paging_injective (documents : List ListedDocument) :
    Function.Injective fun offset => paging offset documents := by
  intro first second h
  have hTotal : first + (documents.length : Int) = second + documents.length :=
    congrArg Paging.total h
  omega

/-- A list stands beside the page number, the total and the buttons of the offset that it was
fetched for. -/
def Painted.Labelled (shown : Paging) : Painted Answer → Prop
  | .library task documents _ => shown = paging task.offset documents
  | .answer _ _ => True

instance (shown : Paging) : (painted : Painted Answer) → Decidable (painted.Labelled shown)
  | .library task documents _ =>
      inferInstanceAs (Decidable (shown = paging task.offset documents))
  | .answer _ _ => isTrue trivial

/-- So does every list that the page has just rendered. -/
def Page.Matched (page : Page Answer) : Prop :=
  ∀ painted ∈ page.painted, painted.Labelled page.view.paging

instance (page : Page Answer) : Decidable page.Matched :=
  inferInstanceAs (Decidable (∀ painted ∈ page.painted, painted.Labelled page.view.paging))

/-- A refresh whose responses are both there finds the page at the offset it was sent with,
unless the page discards what it has got. -/
def Refresh.inPlace (result : Except Refusal Refresh) (page : Page Answer) : Prop :=
  match result with
  | .ok arrived =>
      arrived.library ≠ none → arrived.generation = page.generation → page.token ≠ "" →
        arrived.offset = page.offset
  | .error _ => True

/-- Every refresh that is done finds the page where it was. -/
def InPlace (page : Page Answer) : Event Answer → Prop
  | .listing id response =>
      match page.taskAt id with
      | some (.refresh task) =>
          Refresh.inPlace
            ((api response).map fun documents => { task with listing := .arrived documents }) page
      | _ => True
  | .usage id response =>
      match page.taskAt id with
      | some (.refresh task) =>
          Refresh.inPlace ((api response).map fun usage => { task with usage := .arrived usage })
            page
      | _ => True
  | _ => True

namespace Page
variable {page : Page Answer}

theorem matched_of_nothing (h : page.painted = []) : page.Matched := by
  intro painted hMem
  rw [h] at hMem
  exact absurd hMem List.not_mem_nil

@[simp] theorem paging_resume (waiter : Waiter) :
    (page.resume waiter).view.paging = page.view.paging := by
  cases waiter with
  | connect =>
      unfold resume
      split_ifs
      · rfl
      · rfl
  | background | upload | query => rfl

@[simp] theorem paging_paint (task : Refresh) (documents : List ListedDocument) (usage : Usage) :
    (page.paint task documents usage).view.paging = paging page.offset documents := by
  unfold paint
  split_ifs
  · rfl
  · rfl

/-- A rendered list stands beside the labels of the offset that the page has by then. -/
theorem complete_matched (task : Refresh) (documents : List ListedDocument) (usage : Usage)
    (hPainted : page.painted = []) :
    (page.complete task documents usage).Matched ↔
      (task.generation = page.generation → page.token ≠ "" → task.offset = page.offset) := by
  by_cases hStale : task.generation ≠ page.generation ∨ page.token = ""
  · apply iff_of_true
    · apply matched_of_nothing
      rw [painted_complete, if_pos hStale, hPainted]
    · intro hSame hToken
      exact absurd hStale (not_or.mpr ⟨not_not.mpr hSame, hToken⟩)
  · have hComplete : page.complete task documents usage =
        (page.paint task documents usage).resume task.waiter := if_neg hStale
    obtain ⟨hSame, hToken⟩ := not_or.mp hStale
    have hRendered : (page.complete task documents usage).painted =
        [.library task documents usage] := by
      rw [painted_complete, if_neg hStale]
    have hPaging : (page.complete task documents usage).view.paging =
        paging page.offset documents := by
      rw [hComplete, paging_resume, paging_paint]
    rw [Matched, hRendered, hPaging, List.forall_mem_singleton]
    constructor
    · intro hLabelled _ _
      exact (paging_injective documents hLabelled).symm
    · intro hOffset
      have hSent := hOffset (not_not.mp hSame) hToken
      rw [Painted.Labelled, hSent]

/-- So does the list of a refresh that is done, and no other response of it renders one. -/
theorem settle_matched (id : Nat) (task refused : Refresh) (result : Except Refusal Refresh)
    (hPainted : page.painted = []) :
    (page.settle id task result refused).Matched ↔ Refresh.inPlace result page := by
  cases result with
  | ok arrived =>
      cases hLibrary : arrived.library with
      | none =>
          have hSettled : page.settle id task (.ok arrived) refused = page.setTask id arrived := by
            simp only [settle, hLibrary]
          apply iff_of_true
          · rw [hSettled]
            exact matched_of_nothing hPainted
          · intro hDone
            exact absurd hLibrary hDone
      | some library =>
          have hSettled : page.settle id task (.ok arrived) refused =
              (page.setTask id arrived).complete arrived library.1 library.2 := by
            simp only [settle, hLibrary]
          have hMatched := @complete_matched _ (page.setTask id arrived) arrived library.1
            library.2 hPainted
          rw [hSettled, hMatched]
          simp [Refresh.inPlace, hLibrary, setTask]
  | error refusal =>
      apply iff_of_true _ trivial
      apply matched_of_nothing
      simp only [settle]
      split_ifs
      · exact (painted_expire refusal).trans hPainted
      · rw [painted_giveUp]
        exact (painted_expire refusal).trans hPainted

/-- The answer to a query is no list of documents. -/
theorem settleAnswer_matched (id : Nat) (token : String) (generation : Nat)
    (result : Except Refusal Answer) (hPainted : page.painted = []) :
    (page.settleAnswer id token generation result).Matched := by
  cases result with
  | ok answer =>
      simp only [settleAnswer]
      split_ifs
      · exact (List.forall_mem_singleton).mpr trivial
      · exact matched_of_nothing hPainted
  | error refusal => exact matched_of_nothing ((painted_expire refusal).trans hPainted)

theorem settleUpload_matched (id generation : Nat) (result : Except Refusal Unit)
    (hPainted : page.painted = []) : (page.settleUpload id generation result).Matched := by
  apply matched_of_nothing
  cases result with
  | ok accepted =>
      simp only [settleUpload]
      split_ifs
      · exact hPainted
      · exact hPainted
  | error refusal => exact (painted_expire refusal).trans hPainted

end Page

/-- A step renders a list beside its own labels exactly if the page is still where the refresh
that fetched it was sent. -/
theorem step_matched {page next : Page Answer} {event : Event Answer}
    (hStep : step page event = some next) : next.Matched ↔ InPlace page event := by
  unfold step at hStep
  split_ifs at hStep
  cases hStep
  cases event with
  | listing id response =>
      have hClean : Page.taskAt id { page with painted := [] } = page.taskAt id := rfl
      simp only [handle, hClean, InPlace]
      cases page.taskAt id with
      | none => exact iff_of_true (Page.matched_of_nothing rfl) trivial
      | some task =>
          cases task with
          | refresh task =>
              exact @Page.settle_matched _ { page with painted := [] } id task _ _ rfl
          | query | upload => exact iff_of_true (Page.matched_of_nothing rfl) trivial
  | usage id response =>
      have hClean : Page.taskAt id { page with painted := [] } = page.taskAt id := rfl
      simp only [handle, hClean, InPlace]
      cases page.taskAt id with
      | none => exact iff_of_true (Page.matched_of_nothing rfl) trivial
      | some task =>
          cases task with
          | refresh task =>
              exact @Page.settle_matched _ { page with painted := [] } id task _ _ rfl
          | query | upload => exact iff_of_true (Page.matched_of_nothing rfl) trivial
  | answer id response =>
      apply iff_of_true _ trivial
      simp only [handle]
      split
      · exact Page.settleAnswer_matched id _ _ _ rfl
      · exact Page.matched_of_nothing rfl
  | uploaded id response =>
      apply iff_of_true _ trivial
      simp only [handle]
      split
      · exact Page.settleUpload_matched id _ _ rfl
      · exact Page.matched_of_nothing rfl
  | _ => exact iff_of_true (Page.matched_of_nothing (painted_handle _ rfl)) trivial

/-- In every order of what its user does and what arrives, the page renders every list beside the
labels of the offset it was fetched for exactly if no refresh that it renders finds the page at
another offset. -/
theorem pages_matched_iff (events : List (Event Answer)) :
    Every step (fun _ _ after => Page.Matched after) events {} ↔
      Every step (fun page event _ => InPlace page event) events {} := by
  constructor
  · intro h
    exact h.mono _ fun _ _ _ hStep matched => (step_matched hStep).mp matched
  · intro h
    exact h.mono _ fun _ _ _ hStep hPlace => (step_matched hStep).mpr hPlace

/-- A user goes on to the next page while a poll of the first page is waiting, and the responses
of the poll arrive. -/
def turnedPage (documents : List ListedDocument) (usage : Usage) : List (Event Unit) :=
  [.connect "a", .listing 0 (.reply 200 (.ok documents)), .usage 0 (.reply 200 (.ok usage)),
    .tick 0 false, .next, .listing 1 (.reply 200 (.ok documents)),
    .usage 1 (.reply 200 (.ok usage))]

def fullPage : List ListedDocument :=
  List.replicate 20 { id := "d", filename := "a.pdf", sizeBytes := 1024, status := "processed" }

/-- The documents of the first page are rendered beside the number of the second. -/
theorem pages_not_matched :
    ¬∀ events : List (Event Unit), Every step (fun _ _ after => Page.Matched after) events {} := by
  intro h
  have hEvery := h (turnedPage fullPage ⟨0, 1000, 0, 0⟩)
  revert hEvery
  decide +kernel

end DocInsight.Frontend
