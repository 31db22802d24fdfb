import Mathlib.Data.List.Chain
import Mathlib.Data.List.Nodup
import Mathlib.Order.WithBot

/-! Scans of ordered places in pages, each of which starts where the one before it has stopped.
What is at the places may change between the pages. A page takes what is wanted of the places
that it covers, and a scan covers every place once. -/
namespace PagedScan

variable {Place : Type} [LinearOrder Place]

/-- A page: from where and up to where it looked, what was wanted at the time and what it took.
The last page of a scan stops at the end of all places. -/
structure Page (Place : Type) where
  start : Place
  stop : WithTop Place
  wanted : Place → Prop
  taken : List Place

/-- A page looks at its start at least, takes places that it covers, each one once, and leaves
none that is wanted. -/
structure Page.Complete (page : Page Place) : Prop where
  forward : (page.start : WithTop Place) < page.stop
  distinct : page.taken.Nodup
  within : ∀ place ∈ page.taken, page.start ≤ place ∧ (place : WithTop Place) < page.stop
  everything : ∀ place, page.start ≤ place → (place : WithTop Place) < page.stop →
    page.wanted place → place ∈ page.taken

/-- The next page starts where a page has stopped. -/
def Page.Continues (page next : Page Place) : Prop := (next.start : WithTop Place) = page.stop

section Examined
variable {Item : Type} (locate : Item → Place)

/-- A page that has left these items stops at the first of them. -/
def stopBefore : List Item → WithTop Place
  | [] => ⊤
  | item :: _ => locate item

/-- Of items in order, a page examines a beginning and takes those that it keeps; it examines
one at least, if there is any. -/
theorem complete_of_examined {examined rest : List Item} {start : Place}
    {wanted : Place → Prop} {keep : Item → Bool}
    (hOrder : (examined ++ rest).Pairwise fun first second => locate first < locate second)
    (hSome : rest ≠ [] → examined ≠ [])
    (hStart : ∀ item ∈ examined ++ rest, start ≤ locate item)
    (hWanted : ∀ place, start ≤ place → wanted place →
      ∃ item ∈ examined ++ rest, locate item = place ∧ keep item = true) :
    Page.Complete
      { start, stop := stopBefore locate rest, wanted
        taken := (examined.filter keep).map locate } := by
  obtain ⟨hExamined, hRest, hBefore⟩ := List.pairwise_append.mp hOrder
  have hStop {item : Item} (hItem : item ∈ examined) :
      (locate item : WithTop Place) < stopBefore locate rest := by
    cases rest with
    | nil => exact WithTop.coe_lt_top _
    | cons next others => exact WithTop.coe_lt_coe.mpr (hBefore item hItem next List.mem_cons_self)
  constructor
  · cases hFirst : examined with
    | nil =>
        have hNone : rest = [] := by
          by_contra hRest
          exact hSome hRest hFirst
        rw [hNone]
        exact WithTop.coe_lt_top _
    | cons item others =>
        have hItem : item ∈ examined := hFirst ▸ List.mem_cons_self
        have hLow := hStart item (List.mem_append_left rest hItem)
        exact (WithTop.coe_le_coe.mpr hLow).trans_lt (hStop hItem)
  · exact List.pairwise_map.mpr ((hExamined.filter _).imp fun hLess => hLess.ne)
  · intro place hPlace
    obtain ⟨item, hItem, rfl⟩ := List.mem_map.mp hPlace
    have hMember := List.mem_of_mem_filter hItem
    exact ⟨hStart item (List.mem_append_left rest hMember), hStop hMember⟩
  · intro place hLow hHigh hPlace
    obtain ⟨item, hItem, rfl, hKeep⟩ := hWanted place hLow hPlace
    apply List.mem_map_of_mem
    apply List.mem_filter.mpr ⟨_, hKeep⟩
    cases List.mem_append.mp hItem with
    | inl hMember => exact hMember
    | inr hLater =>
        exfalso
        cases rest with
        | nil => cases hLater
        | cons next others =>
            have hNext : locate next ≤ locate item := by
              cases hLater with
              | head => exact le_rfl
              | tail _ hOther => exact (List.rel_of_pairwise_cons hRest hOther).le
            exact absurd hHigh (WithTop.coe_le_coe.mpr hNext).not_gt

end Examined

variable {page : Page Place} {rest : List (Page Place)}

/-- No later page looks at a place that a page has covered. -/
theorem stop_le_of_taken (hChain : (page :: rest).IsChain Page.Continues)
    (hComplete : ∀ later ∈ rest, later.Complete) {place : Place}
    (hTaken : place ∈ rest.flatMap Page.taken) : page.stop ≤ place := by
  induction rest generalizing page with
  | nil => cases hTaken
  | cons next others ih =>
      obtain ⟨hContinues, hRest⟩ := List.isChain_cons_cons.mp hChain
      obtain ⟨complete, hOthers⟩ := List.forall_mem_cons.mp hComplete
      rw [List.flatMap_cons, List.mem_append] at hTaken
      rw [← hContinues]
      cases hTaken with
      | inl hNext => exact WithTop.coe_le_coe.mpr (complete.within place hNext).1
      | inr hLater => exact complete.forward.le.trans (ih hRest hOthers hLater)

/-- No place is taken twice in a scan. -/
theorem count_taken_le_one {pages : List (Page Place)} (hChain : pages.IsChain Page.Continues)
    (hComplete : ∀ page ∈ pages, page.Complete) (place : Place) :
    (pages.flatMap Page.taken).count place ≤ 1 := by
  induction pages with
  | nil => exact Nat.zero_le 1
  | cons page rest ih =>
      obtain ⟨complete, hRest⟩ := List.forall_mem_cons.mp hComplete
      have hOwn := List.nodup_iff_count_le_one.mp complete.distinct place
      have hLater := ih hChain.tail hRest
      rw [List.flatMap_cons, List.count_append]
      by_cases hTaken : place ∈ page.taken
      · have hNone : (rest.flatMap Page.taken).count place = 0 := by
          apply List.count_eq_zero_of_not_mem
          intro hAgain
          have hStop := stop_le_of_taken hChain hRest hAgain
          exact absurd (complete.within place hTaken).2 hStop.not_gt
        omega
      · rw [List.count_eq_zero_of_not_mem hTaken]
        omega

/-- A place from the start of a scan on that is wanted at every page until it is taken has been
taken by the time the scan has come to the end. -/
theorem mem_taken (hChain : (page :: rest).IsChain Page.Continues)
    (hComplete : ∀ each ∈ page :: rest, each.Complete)
    (hEnd : ((page :: rest).getLast (List.cons_ne_nil _ _)).stop = ⊤) {place : Place}
    (hStart : page.start ≤ place)
    (hWanted : ∀ before each after, page :: rest = before ++ each :: after →
      place ∉ before.flatMap Page.taken → each.wanted place) :
    place ∈ (page :: rest).flatMap Page.taken := by
  induction rest generalizing page with
  | nil =>
      rw [List.flatMap_singleton]
      have hStop : page.stop = ⊤ := hEnd
      apply (hComplete page (List.mem_singleton_self page)).everything place hStart
      · rw [hStop]
        exact WithTop.coe_lt_top place
      · exact hWanted [] page [] rfl List.not_mem_nil
  | cons next others ih =>
      obtain ⟨complete, hRest⟩ := List.forall_mem_cons.mp hComplete
      obtain ⟨hContinues, hChainRest⟩ := List.isChain_cons_cons.mp hChain
      rw [List.flatMap_cons, List.mem_append]
      by_cases hTaken : place ∈ page.taken
      · exact Or.inl hTaken
      · right
        have hPast : page.stop ≤ place := by
          by_contra hCovered
          exact hTaken (complete.everything place hStart (not_le.mp hCovered)
            (hWanted [] page (next :: others) rfl List.not_mem_nil))
        apply ih hChainRest hRest
        · rw [List.getLast_cons (List.cons_ne_nil _ _)] at hEnd
          exact hEnd
        · rw [← hContinues] at hPast
          exact WithTop.coe_le_coe.mp hPast
        · intro before each after hSplit hNot
          apply hWanted (page :: before) each after
          · rw [hSplit, List.cons_append]
          · rw [List.flatMap_cons, List.mem_append]
            exact fun h => h.elim hTaken hNot

/-- A scan skips nothing: such a place is taken exactly once. -/
theorem count_taken (hChain : (page :: rest).IsChain Page.Continues)
    (hComplete : ∀ each ∈ page :: rest, each.Complete)
    (hEnd : ((page :: rest).getLast (List.cons_ne_nil _ _)).stop = ⊤) {place : Place}
    (hStart : page.start ≤ place)
    (hWanted : ∀ before each after, page :: rest = before ++ each :: after →
      place ∉ before.flatMap Page.taken → each.wanted place) :
    ((page :: rest).flatMap Page.taken).count place = 1 := by
  have hTaken := mem_taken hChain hComplete hEnd hStart hWanted
  exact Nat.le_antisymm (count_taken_le_one hChain hComplete place)
    (List.one_le_count_iff.mpr hTaken)

end PagedScan
