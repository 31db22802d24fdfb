import DocInsight.Library.OffsetScan
import DocInsight.Storage.StoredOutput
import DocInsight.Worker.QueryRepository

/-! A tenant's documents listed page by page while writers go on: none that was there from
the beginning is missed, and one comes again only behind newer ones. -/
namespace DocInsight.Storage

open DocInsight.Contracts DocInsight.Worker Interaction Interaction.Discipline OffsetScan Table

/-- A tenant's rows, newest first. -/
def listingPlace (row : DocumentRow) : Lex (OrderDual Timestamp × Nat) :=
  toLex (OrderDual.toDual row.createdAt, row.id.bits.toNat)

def listing (tenant : String) (database : Database) : List DocumentRow :=
  orderBy listingPlace (database.documents.filter fun row => row.tenantId = tenant)

/-- What a page of a listing is: metadata of current rows of the tenant, newest first, each
once. -/
structure Listed (tenant : String) (database : Database) (page : List StoredDocument) : Prop where
  own : ∀ document ∈ page, ∃ row ∈ database.documents, row.tenantId = tenant ∧
    document = { row with }
  newest : page.Pairwise fun first second => second.createdAt ≤ first.createdAt
  once : (page.map fun document => document.id).Nodup

section Page
variable {tenant : String} {database : Database}

theorem mem_listing {row : DocumentRow} :
    row ∈ listing tenant database ↔ row ∈ database.documents ∧ row.tenantId = tenant := by
  rw [listing, (ordered_orderBy _ _).perm.mem_iff, List.mem_filter, decide_eq_true_eq]

theorem listingPlace_eq {first second : DocumentRow} :
    listingPlace first = listingPlace second ↔
      first.createdAt = second.createdAt ∧ first.id = second.id := by
  rw [listingPlace, listingPlace, toLex_inj, Prod.mk.injEq, OrderDual.toDual_inj]
  refine and_congr_right fun _ => ⟨fun h => ?_, fun h => by rw [h]⟩
  cases hFirst : first.id
  cases hSecond : second.id
  rw [hFirst, hSecond] at h
  exact congrArg UUID.mk (BitVec.eq_of_toNat_eq h)

theorem createdAt_le {first second : DocumentRow} (h : listingPlace first ≤ listingPlace second) :
    second.createdAt ≤ first.createdAt := by
  cases Prod.Lex.toLex_le_toLex.mp h with
  | inl hBefore => exact (OrderDual.toDual_lt_toDual.mp hBefore).le
  | inr hSame => exact (OrderDual.toDual_inj.mp hSame.1).ge

theorem nodup_listing (unique : database.Unique) :
    ((listing tenant database).map DocumentRow.id).Nodup := by
  rw [listing, ((ordered_orderBy _ _).perm.map _).nodup_iff]
  exact unique.ids.sublist (List.filter_sublist.map _)

/-- Where identifiers are unique, the order of a listing is strict. -/
theorem listing_ascending (unique : database.Unique) :
    ((listing tenant database).map listingPlace).Pairwise (· < ·) := by
  have hOrder : (listing tenant database).Pairwise fun first second =>
      listingPlace first ≤ listingPlace second := (ordered_orderBy _ _).pairwise
  have hDiffer : (listing tenant database).Pairwise fun first second =>
      listingPlace first ≠ listingPlace second :=
    (List.pairwise_map.mp (nodup_listing unique)).imp fun hNe hPlace =>
      hNe (listingPlace_eq.mp hPlace).2
  exact List.pairwise_map.mpr ((hOrder.and hDiffer).imp fun h => lt_of_le_of_ne h.1 h.2)

/-- Within the bounds, the page of an index is read. -/
theorem listDocuments_page {limit : Nat} (hLimit : 1 ≤ limit) (hMost : limit ≤ 100) (index : Nat) :
    listDocuments tenant limit ((index * limit : Nat) : Int) database =
      .ok ((page limit index (listing tenant database)).map fun row => { row with }) := by
  rw [listDocuments, if_neg (by omega)]
  rfl

theorem listed_page (unique : database.Unique) (limit index : Nat) :
    Listed tenant database
      ((page limit index (listing tenant database)).map fun row => { row with }) := by
  have hPage : (page limit index (listing tenant database)).Sublist (listing tenant database) :=
    (List.take_sublist _ _).trans (List.drop_sublist _ _)
  constructor
  · intro document hDocument
    obtain ⟨row, hRow, rfl⟩ := List.mem_map.mp hDocument
    obtain ⟨hStored, hTenant⟩ := mem_listing.mp (hPage.subset hRow)
    exact ⟨row, hStored, hTenant, rfl⟩
  · have hOrder := (listing_ascending unique).sublist (hPage.map listingPlace)
    exact List.pairwise_map.mpr ((List.pairwise_map.mp hOrder).imp fun h => createdAt_le h.le)
  · rw [List.map_map]
    exact (nodup_listing unique).sublist (hPage.map DocumentRow.id)

/-- The places of a page are the page of the places. -/
theorem map_page {Item Other : Type} (change : Item → Other) (limit index : Nat)
    (items : List Item) : (page limit index items).map change = page limit index (items.map change) := by
  rw [page, page, List.map_take, List.map_drop]

end Page

/-- A pool of writers, looked at time and again as it goes on. -/
structure Visits (setting : Setting) (jobs : Nat → Job)
    (visited : Nat → Pool Nat Server Call Response Failure Unit) : Prop where
  first : ∃ moves, Transition.run (Pool.step environment) moves (setting.start jobs) =
    some (visited 0)
  next : ∀ turn, ∃ moves, Transition.run (Pool.step environment) moves (visited turn) =
    some (visited (turn + 1))

section Visits
variable {setting : Setting} {jobs : Nat → Job}
  {visited : Nat → Pool Nat Server Call Response Failure Unit}
  (visits : Visits setting jobs visited)

include visits

theorem Visits.safe (turn : Nat) :
    (serialization setting.policy).PoolSafe Done (visited turn) := by
  induction turn with
  | zero =>
      obtain ⟨moves, hRun⟩ := visits.first
      exact (steady_run Done.undisturbed (start_safe setting jobs) hRun).1
  | succ turn ih =>
      obtain ⟨moves, hRun⟩ := visits.next turn
      exact (steady_run Done.undisturbed ih hRun).1

theorem Visits.unique (turn : Nat) : (visited turn).state.committed.Unique := by
  have serialized : Serialized setting.policy (visited turn).state := (visits.safe turn).1
  rw [serialized.replayed]
  exact serialized.legal.unique

theorem Visits.persists {early late : Nat} (h : early ≤ late) :
    Persists (visited early).state.committed (visited late).state.committed := by
  induction late, h using Nat.le_induction with
  | base => exact Persists.refl _
  | succ late _ ih =>
      obtain ⟨moves, hRun⟩ := visits.next late
      exact ih.trans (steady_run Done.undisturbed (visits.safe late) hRun).2.persists

/-- Places of a listing stay taken. -/
theorem Visits.grows (tenant : String) (turn : Nat) :
    (listing tenant (visited turn).state.committed).map listingPlace ⊆
      (listing tenant (visited (turn + 1)).state.committed).map listingPlace := by
  intro place hPlace
  obtain ⟨row, hRow, rfl⟩ := List.mem_map.mp hPlace
  obtain ⟨hStored, hTenant⟩ := mem_listing.mp hRow
  obtain ⟨later, hLater, same⟩ := visits.persists (Nat.le_succ turn) row hStored
  refine List.mem_map.mpr ⟨later, mem_listing.mpr ⟨hLater, same.tenantId.trans hTenant⟩, ?_⟩
  exact listingPlace_eq.mpr ⟨same.createdAt, same.id⟩

/-- Documents are listed by limit and offset while any writers interleave, fail and crash. Each
page shows current rows of the tenant, newest first. A walk from the first page to one that is
not full misses no document that was there when it began, and a document comes again only
where another one of the tenant, at least as new, was registered in between. -/
theorem listing_walk (tenant : String) {limit : Nat} (hLimit : 1 ≤ limit) (hMost : limit ≤ 100) :
    ∃ pages : Nat → List StoredDocument,
      (∀ turn, listDocuments tenant limit ((turn * limit : Nat) : Int)
          (visited turn).state.committed = .ok (pages turn) ∧
        Listed tenant (visited turn).state.committed (pages turn)) ∧
      (∀ last, (pages last).length < limit →
        ∀ row ∈ (visited 0).state.committed.documents, row.tenantId = tenant →
          ∃ turn ≤ last, ∃ document ∈ pages turn, document.id = row.id) ∧
      ∀ early late, early < late → ∀ document ∈ pages early, ∀ again ∈ pages late,
        again.id = document.id →
          ∃ row ∈ (visited late).state.committed.documents, row.tenantId = tenant ∧
            document.createdAt ≤ row.createdAt ∧
            ∀ known ∈ (visited early).state.committed.documents, known.id ≠ row.id := by
  let rows (turn : Nat) := listing tenant (visited turn).state.committed
  have ascending (turn : Nat) : ((rows turn).map listingPlace).Pairwise (· < ·) :=
    listing_ascending (visits.unique turn)
  have hPlace {turn : Nat} {row : DocumentRow} (h : row ∈ page limit turn (rows turn)) :
      listingPlace row ∈ page limit turn ((rows turn).map listingPlace) := by
    rw [← map_page]
    exact List.mem_map_of_mem h
  refine ⟨fun turn => (page limit turn (rows turn)).map fun row => { row with },
    fun turn => ⟨listDocuments_page hLimit hMost turn, listed_page (visits.unique turn) limit turn⟩,
    fun last hShort row hRow hTenant => ?_, fun early late hTurns document hDocument again hAgain hId => ?_⟩
  · rw [List.length_map] at hShort
    have hShort : (page limit last ((rows last).map listingPlace)).length < limit := by
      rw [← map_page, List.length_map]
      exact hShort
    obtain ⟨turn, hTurn, hShown⟩ := shown ascending (visits.grows tenant) hShort
      (List.mem_map_of_mem (mem_listing.mpr ⟨hRow, hTenant⟩))
    rw [← map_page] at hShown
    obtain ⟨found, hFound, hSame⟩ := List.mem_map.mp hShown
    exact ⟨turn, hTurn, _, List.mem_map_of_mem hFound, (listingPlace_eq.mp hSame).2⟩
  · obtain ⟨first, hFirst, rfl⟩ := List.mem_map.mp hDocument
    obtain ⟨second, hSecond, rfl⟩ := List.mem_map.mp hAgain
    -- Both are rows of one document, so they stand at one place.
    have hOnce : listingPlace second = listingPlace first := by
      obtain ⟨later, hLater, same⟩ := visits.persists hTurns.le first
        (mem_listing.mp (List.mem_of_mem_drop (List.mem_of_mem_take hFirst))).1
      have hRow := (visits.unique late).eq_of_id hLater
        (mem_listing.mp (List.mem_of_mem_drop (List.mem_of_mem_take hSecond))).1
        (same.id.trans hId.symm)
      rw [← hRow]
      exact listingPlace_eq.mpr ⟨same.createdAt, same.id⟩
    obtain ⟨place, hLate, hNew, hBefore⟩ := shown_again ascending (visits.grows tenant) hTurns
      (hPlace hFirst) (hOnce ▸ hPlace hSecond)
    obtain ⟨row, hRow, rfl⟩ := List.mem_map.mp hLate
    obtain ⟨hStored, hTenant⟩ := mem_listing.mp hRow
    refine ⟨row, hStored, hTenant, createdAt_le hBefore.le, fun known hKnown hSame => hNew ?_⟩
    obtain ⟨later, hLater, same⟩ := visits.persists hTurns.le known hKnown
    have hRow := (visits.unique late).eq_of_id hLater hStored (same.id.trans hSame)
    subst hRow
    exact List.mem_map.mpr ⟨known, mem_listing.mpr ⟨hKnown, same.tenantId.symm.trans hTenant⟩,
      listingPlace_eq.mpr ⟨same.createdAt.symm, same.id.symm⟩⟩

end Visits

/-- An upload that is registered, and listed before and after its output is stored. -/
theorem listing_walk_retried : ∃ visited, Visits sampleSetting sampleJobs visited ∧
    ∃ page : List StoredDocument,
      listDocuments "acme" 20 0 (visited 0).state.committed = .ok page ∧ page.length = 1 ∧
      ∀ row ∈ (visited 0).state.committed.documents, row.tenantId = "acme" →
        ∃ document ∈ page, document.id = row.id := by
  have hRuns : (Transition.run (Pool.step environment) failedMoves
      (sampleSetting.start sampleJobs)).bind (fun reached =>
        (Transition.run (Pool.step environment) indexedMoves reached).map fun _ =>
          (listDocuments "acme" 20 0 reached.state.committed).toOption.map List.length) =
      some (some 1) := by decide +kernel
  obtain ⟨reached, hReached, hRest⟩ := Option.bind_eq_some_iff.mp hRuns
  obtain ⟨later, hLater, hLength⟩ := Option.map_eq_some_iff.mp hRest
  let visited (turn : Nat) := if turn = 0 then reached else later
  have visits : Visits sampleSetting sampleJobs visited := by
    refine ⟨⟨failedMoves, hReached⟩, fun turn => ?_⟩
    cases turn with
    | zero => exact ⟨indexedMoves, hLater⟩
    | succ turn => exact ⟨[], rfl⟩
  have hLimit : 1 ≤ 20 := by decide
  have hMost : 20 ≤ 100 := by decide
  obtain ⟨pages, hPages, hShown, -⟩ := listing_walk visits "acme" hLimit hMost
  have hFirst : listDocuments "acme" 20 0 reached.state.committed = .ok (pages 0) := (hPages 0).1
  rw [hFirst] at hLength
  have hOne : (pages 0).length = 1 := Option.some.inj hLength
  refine ⟨visited, visits, pages 0, hFirst, hOne, fun row hRow hTenant => ?_⟩
  obtain ⟨turn, hTurn, document, hDocument, hId⟩ := hShown 0 (by omega) row hRow hTenant
  rw [Nat.le_zero.mp hTurn] at hDocument
  exact ⟨document, hDocument, hId⟩

end DocInsight.Storage
