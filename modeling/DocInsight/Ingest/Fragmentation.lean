import DocInsight.Ingest.Upload
import DocInsight.Library.Pieces
import DocInsight.Library.Raising
import Mathlib.Data.List.Induction

/-! The multipart parser announces names and values of headers and the data of a file in
fragments of its own choice. What becomes of an upload depends on the bytes of each run
only, and no more of a file is written than the limit. -/
namespace DocInsight.Ingest

open DocInsight.Contracts DocInsight.Worker Pieces

/-- What the parser reads, with every run of bytes as a whole. -/
inductive Event where
  | partBegin
  | headerField (bytes : Bytes)
  | headerValue (bytes : Bytes)
  | headerEnd
  | headersFinished
  | partData (bytes : Bytes)
  | finish

def Event.begins : Event → Bool
  | .partBegin => true
  | _ => false

/-- Bytes between two positions of a block. -/
structure Fragment where
  data : Bytes
  start : Nat
  stop : Nat
  start_le : start ≤ stop
  stop_le : stop ≤ data.length

def Fragment.bytes (fragment : Fragment) : Bytes := slice fragment.data fragment.start fragment.stop

/-- The bytes of fragments, one after the other. -/
def joined (fragments : List Fragment) : Bytes := (fragments.map Fragment.bytes).flatten

/-- The callbacks for an event: one, or one for each fragment of its run. -/
inductive Split : Event → List Callback → Prop where
  | partBegin : Split .partBegin [.partBegin]
  | headerField (fragments : List Fragment) : Split (.headerField (joined fragments))
      (fragments.map fun fragment => .headerField fragment.data fragment.start fragment.stop)
  | headerValue (fragments : List Fragment) : Split (.headerValue (joined fragments))
      (fragments.map fun fragment => .headerValue fragment.data fragment.start fragment.stop)
  | headerEnd : Split .headerEnd [.headerEnd]
  | headersFinished : Split .headersFinished [.headersFinished]
  | partData (fragments : List Fragment) : Split (.partData (joined fragments))
      (fragments.map fun fragment => .partData fragment.data fragment.start fragment.stop)
  | finish : Split .finish [.finish]

/-- Callbacks for events, with every run of bytes split in some way. -/
inductive Splits : List Event → List Callback → Prop where
  | nil : Splits [] []
  | cons {event : Event} {events : List Event} {calls rest : List Callback}
      (first : Split event calls) (others : Splits events rest) :
      Splits (event :: events) (calls ++ rest)

theorem Splits.inRange {events : List Event} {calls : List Callback} (splits : Splits events calls) :
    ∀ call ∈ calls, call.InRange := by
  induction splits with
  | nil => exact fun _ h => absurd h List.not_mem_nil
  | @cons event events calls rest first others ih =>
      intro call hCall
      rcases List.mem_append.mp hCall with hFirst | hRest
      · cases first with
        | headerField fragments | headerValue fragments =>
            obtain ⟨fragment, -, rfl⟩ := List.mem_map.mp hFirst
            exact trivial
        | partData fragments =>
            obtain ⟨fragment, -, rfl⟩ := List.mem_map.mp hFirst
            exact ⟨fragment.start_le, fragment.stop_le⟩
        | partBegin | headerEnd | headersFinished | finish =>
            rw [List.mem_singleton.mp hFirst]
            exact trivial
      · exact ih call hRest

/-- A part of a message: the names and values of its headers, and its data. -/
structure Part where
  headers : List (Bytes × Bytes)
  data : Bytes

def headerEvents (header : Bytes × Bytes) : List Event :=
  [.headerField header.1, .headerValue header.2, .headerEnd]

def Part.events (part : Part) : List Event :=
  .partBegin :: (part.headers.flatMap headerEvents ++ [.headersFinished, .partData part.data])

/-- The events of a message with its closing boundary. -/
def messageEvents (parts : List Part) : List Event := parts.flatMap Part.events ++ [.finish]

/-- The last value given to a header; its name is in lower case. -/
def lastValue (name : Bytes) (headers : List (Bytes × Bytes)) : Option Bytes :=
  (headers.reverse.find? fun header => header.1.map lowerByte = name).map Prod.snd

/-- The disposition names the field of the file, and gives a filename. -/
def NamesFile (library : MultipartLibrary) (headers : List (Bytes × Bytes)) : Prop :=
  let disposition := (lastValue (ascii "content-disposition") headers).getD []
  let options := (library.parseOptions disposition).2
  options.lookup (ascii "name") = some (ascii "file") ∧
    (options.lookup (ascii "filename")).isSome = true

/-- A part that is taken for an upload: its headers and its data are within bounds, and it
is a file field. -/
structure Acceptable (library : MultipartLibrary) (limit : Nat) (part : Part) : Prop where
  headers : ∀ header ∈ part.headers, header.1.length + header.2.length ≤ 8192
  count : part.headers.length ≤ 16
  namesFile : NamesFile library part.headers
  data : part.data.length ≤ limit

namespace UploadBody

/-- The callbacks that the blocks of a stream and its end make the parser call. -/
def announced (library : MultipartLibrary) : List Bytes → library.Parser → List Callback
  | [], parser => (library.finalize parser).1
  | block :: rest, parser =>
      (library.write parser block).1 ++
        match (library.write parser block).2 with
        | none => []
        | some next => announced library rest next

/-- What an upload has become after all callbacks; the stream may also have ended early. -/
def parse (library : MultipartLibrary) (limit : Nat) (calls : List Callback) :
    Except UploadError UploadBody := do
  let body ← calls.foldlM (callback library) { limit }
  if !body.complete || body.parts ≠ 1 then .error (.http 400 "Incomplete multipart upload")
  else .ok body

/-- What has been written when the callbacks end or one of them rejects the upload; a
callback that rejects writes nothing. -/
def written (library : MultipartLibrary) : List Callback → UploadBody → Bytes
  | [], body => body.target
  | call :: rest, body =>
      match body.callback library call with
      | .ok next => written library rest next
      | .error _ => body.target

def fieldRun (bytes : Bytes) (body : UploadBody) : Except UploadError UploadBody :=
  boundHeaders { body with field := body.field ++ bytes.map lowerByte }

def valueRun (bytes : Bytes) (body : UploadBody) : Except UploadError UploadBody :=
  boundHeaders { body with value := body.value ++ bytes }

def dataRun (bytes : Bytes) (body : UploadBody) : Except UploadError UploadBody :=
  if body.limit < body.size + bytes.length then
    .error (.http 413 "Upload exceeds the configured limit")
  else
    .ok { body with
          size := body.size + bytes.length
          leading := (body.leading ++ bytes.take 8).take 8
          digest := body.digest ++ bytes
          target := body.target ++ bytes }

/-- What an event makes of an upload. -/
def event (library : MultipartLibrary) (body : UploadBody) : Event → Except UploadError UploadBody
  | .partBegin => body.partBegin
  | .headerField bytes => body.fieldRun bytes
  | .headerValue bytes => body.valueRun bytes
  | .headerEnd => body.headerEnd
  | .headersFinished => body.headersFinished library
  | .partData bytes => body.dataRun bytes
  | .finish => .ok { body with complete := true }

/-- An upload that no limit has rejected yet. -/
structure Bounded (body : UploadBody) : Prop where
  headers : body.field.length + body.value.length ≤ 8192
  size : body.size ≤ body.limit
  leading : body.leading.length ≤ 8

section Runs
variable {library : MultipartLibrary} {body next : UploadBody}

theorem bounded_new (limit : Nat) : Bounded { limit } := ⟨Nat.zero_le _, Nat.zero_le _, Nat.zero_le _⟩

theorem boundHeaders_eq (h : body.field.length + body.value.length ≤ 8192) :
    body.boundHeaders = .ok body :=
  if_neg (Nat.not_lt.mpr h)

theorem boundHeaders_bind (rest : UploadBody → Except UploadError UploadBody) :
    (body.boundHeaders >>= rest) = if 8192 < body.field.length + body.value.length then
      .error (.http 400 "Multipart headers too large") else rest body := by
  unfold boundHeaders
  split_ifs
  · rfl
  · rfl

theorem boundHeaders_ok (h : body.boundHeaders = .ok next) :
    next = body ∧ body.field.length + body.value.length ≤ 8192 := by
  unfold boundHeaders at h
  split_ifs at h with hBound
  cases h
  exact ⟨rfl, Nat.not_lt.mp hBound⟩

theorem dataRun_ok {bytes : Bytes} (h : body.dataRun bytes = .ok next) :
    body.size + bytes.length ≤ body.limit ∧
      next = { body with
               size := body.size + bytes.length
               leading := (body.leading ++ bytes.take 8).take 8
               digest := body.digest ++ bytes
               target := body.target ++ bytes } := by
  unfold dataRun at h
  split_ifs at h with hLimit
  cases h
  exact ⟨Nat.not_lt.mp hLimit, rfl⟩

/-- A run of a header name is rejected where it gets too long, however it is cut. -/
theorem additive_fieldRun : Additive fieldRun Bounded where
  nil body bounded := by
    rw [fieldRun, List.map_nil, List.append_nil]
    exact boundHeaders_eq bounded.headers
  append first second body _ := by
    rw [fieldRun, fieldRun, boundHeaders_bind]
    split_ifs with hFirst
    · apply if_pos
      simp only [List.length_append, List.length_map] at hFirst ⊢
      omega
    · simp only [fieldRun, List.map_append, List.append_assoc]
  valid bytes body next bounded h := by
    obtain ⟨rfl, hBound⟩ := boundHeaders_ok h
    exact ⟨hBound, bounded.size, bounded.leading⟩

theorem additive_valueRun : Additive valueRun Bounded where
  nil body bounded := by
    rw [valueRun, List.append_nil]
    exact boundHeaders_eq bounded.headers
  append first second body _ := by
    rw [valueRun, valueRun, boundHeaders_bind]
    split_ifs with hFirst
    · apply if_pos
      simp only [List.length_append] at hFirst ⊢
      omega
    · simp only [valueRun, List.append_assoc]
  valid bytes body next bounded h := by
    obtain ⟨rfl, hBound⟩ := boundHeaders_ok h
    exact ⟨hBound, bounded.size, bounded.leading⟩

/-- The first bytes of a run are enough for those of a file. -/
theorem take_append_leading (first second : Bytes) :
    (first ++ second.take 8).take 8 = (first ++ second).take 8 := by
  rw [← take_append_take, List.take_take, Nat.min_self, take_append_take]

/-- A run of file data is rejected where it exceeds the limit, however it is cut. -/
theorem additive_dataRun : Additive dataRun Bounded where
  nil body bounded := by
    have hLeading : (body.leading ++ ([] : Bytes).take 8).take 8 = body.leading := by
      rw [List.take_nil, List.append_nil, List.take_of_length_le bounded.leading]
    simp only [dataRun, hLeading, List.append_nil, List.length_nil, Nat.add_zero]
    exact if_neg (Nat.not_lt.mpr bounded.size)
  append first second body _ := by
    have hLeading : ((body.leading ++ first.take 8).take 8 ++ second.take 8).take 8 =
        (body.leading ++ (first ++ second).take 8).take 8 := by
      rw [take_append_leading, take_append_leading, take_append_leading, ← take_append_take,
        List.take_take, Nat.min_self, take_append_take, List.append_assoc]
    cases hFirst : body.dataRun first with
    | error error =>
        unfold dataRun at hFirst ⊢
        split_ifs at hFirst with hLimit
        cases hFirst
        apply if_pos
        rw [List.length_append]
        omega
    | ok next =>
        obtain ⟨-, rfl⟩ := dataRun_ok hFirst
        show _ = dataRun second _
        simp only [dataRun, hLeading, List.length_append, Nat.add_assoc, List.append_assoc]
  valid bytes body next bounded h := by
    obtain ⟨hLimit, rfl⟩ := dataRun_ok h
    exact ⟨bounded.headers, hLimit, List.length_take_le _ _⟩

theorem event_bounded {next : UploadBody} {event : Event} (bounded : Bounded body)
    (h : body.event library event = .ok next) : Bounded next := by
  cases event with
  | headerField bytes => exact additive_fieldRun.valid bytes body next bounded h
  | headerValue bytes => exact additive_valueRun.valid bytes body next bounded h
  | partData bytes => exact additive_dataRun.valid bytes body next bounded h
  | finish =>
      cases h
      exact ⟨bounded.headers, bounded.size, bounded.leading⟩
  | partBegin =>
      simp only [UploadBody.event, partBegin] at h
      split_ifs at h
      cases h
      exact ⟨bounded.headers, bounded.size, bounded.leading⟩
  | headerEnd =>
      simp only [UploadBody.event, headerEnd] at h
      split_ifs at h
      cases h
      exact ⟨Nat.zero_le _, bounded.size, bounded.leading⟩
  | headersFinished =>
      simp only [UploadBody.event, headersFinished] at h
      split at h
      · cases h
        exact ⟨bounded.headers, bounded.size, bounded.leading⟩
      · cases h

/-- A callback for data between positions takes in the bytes of that fragment. -/
theorem partData_eq (fragment : Fragment) (body : UploadBody) :
    body.partData fragment.data fragment.start fragment.stop = body.dataRun fragment.bytes := by
  have hSize : body.size + fragment.stop - fragment.start = body.size + fragment.bytes.length := by
    rw [Fragment.bytes, length_slice fragment.stop_le]
    have := fragment.start_le
    omega
  rw [partData, dataRun, hSize]
  rfl

/-- However the run of an event is split, the callbacks do what the event does. -/
theorem callbacks_eq_event {event : Event} {calls : List Callback} (split : Split event calls)
    (bounded : Bounded body) : calls.foldlM (callback library) body = body.event library event := by
  cases split with
  | headerField fragments =>
      rw [List.foldlM_map]
      have hRun := additive_fieldRun.foldlM_pieces (fragments.map Fragment.bytes) bounded
      rw [List.foldlM_map] at hRun
      exact hRun
  | headerValue fragments =>
      rw [List.foldlM_map]
      have hRun := additive_valueRun.foldlM_pieces (fragments.map Fragment.bytes) bounded
      rw [List.foldlM_map] at hRun
      exact hRun
  | partData fragments =>
      rw [List.foldlM_map]
      have hRun := additive_dataRun.foldlM_pieces (fragments.map Fragment.bytes) bounded
      rw [List.foldlM_map] at hRun
      simp only [callback, partData_eq]
      exact hRun
  | partBegin | headerEnd | headersFinished | finish =>
      rw [List.foldlM_cons]
      simp only [List.foldlM_nil, bind_pure]
      rfl

/-- Callbacks for events do what the events do. -/
theorem callbacks_eq_events {events : List Event} {calls : List Callback}
    (splits : Splits events calls) (bounded : Bounded body) :
    calls.foldlM (callback library) body = events.foldlM (UploadBody.event library) body := by
  induction splits generalizing body with
  | nil => rfl
  | @cons event events calls rest first others ih =>
      rw [List.foldlM_append, callbacks_eq_event first bounded, List.foldlM_cons]
      cases hEvent : body.event library event with
      | error error => rfl
      | ok next => exact ih (event_bounded bounded hEvent)

theorem callback_limit {call : Callback} (h : body.callback library call = .ok next) :
    next.limit = body.limit := by
  cases call with
  | headerField data start stop =>
      rw [(boundHeaders_ok h).1]
  | headerValue data start stop =>
      rw [(boundHeaders_ok h).1]
  | partBegin | headerEnd | partData =>
      simp only [callback, partBegin, headerEnd, partData] at h
      split_ifs at h
      cases h
      rfl
  | headersFinished =>
      simp only [callback, headersFinished] at h
      split at h
      · cases h
        rfl
      · cases h
  | finish =>
      cases h
      rfl

/-- What is written of a file is never more than the limit. -/
theorem written_length_le {calls : List Callback} (hRange : ∀ call ∈ calls, call.InRange)
    (hSize : body.target.length = body.size) (hLimit : body.size ≤ body.limit) :
    (written library calls body).length ≤ body.limit := by
  induction calls generalizing body with
  | nil => exact hSize.trans_le hLimit
  | cons call rest ih =>
      rw [written]
      cases hCall : body.callback library call with
      | error error => exact hSize.trans_le hLimit
      | ok next =>
          have hRest : ∀ call ∈ rest, call.InRange :=
            fun other hOther => hRange other (List.mem_cons_of_mem _ hOther)
          rcases callback_cases hCall with ⟨data, start, stop, rfl, hData⟩ | ⟨hTarget, -, -, hSame⟩
          · obtain ⟨hStart, hStop⟩ := hRange _ (List.mem_cons_self ..)
            unfold partData at hData
            simp only at hData
            split_ifs at hData with hExceeds
            cases hData
            apply ih hRest
            · simp only [List.length_append, length_slice hStop, hSize]
              omega
            · exact Nat.not_lt.mp hExceeds
          · have hKept : next.limit = body.limit := callback_limit hCall
            rw [← hKept]
            apply ih hRest
            · rw [hTarget, hSize, hSame]
            · rw [hSame, hKept]
              exact hLimit

/-- The file data of an event. -/
def fileBytes : Event → Bytes
  | .partData bytes => bytes
  | _ => []

/-- What has been spooled, hashed, sniffed and counted are these bytes. -/
structure Spooled (bytes : Bytes) (body : UploadBody) : Prop where
  target : body.target = bytes
  digest : body.digest = bytes
  leading : body.leading = bytes.take 8
  size : body.size = bytes.length

/-- What an event changes: file data is added by a run of it, a part is counted where it
begins, and only the end completes an upload. -/
structure Advances (event : Event) (body next : UploadBody) : Prop where
  spooled : ∀ bytes, Spooled bytes body → Spooled (bytes ++ fileBytes event) next
  parts : next.parts = body.parts + if event.begins then 1 else 0
  complete : event = .finish ∨ next.complete = body.complete

theorem event_advances {event : Event} (h : body.event library event = .ok next) :
    Advances event body next := by
  have hKept : next.target = body.target → next.digest = body.digest →
      next.leading = body.leading → next.size = body.size → ∀ bytes, Spooled bytes body →
        Spooled (bytes ++ []) next := by
    intro hTarget hDigest hLeading hSize bytes spooled
    rw [List.append_nil]
    exact ⟨hTarget.trans spooled.target, hDigest.trans spooled.digest,
      hLeading.trans spooled.leading, hSize.trans spooled.size⟩
  cases event with
  | headerField bytes =>
      rw [(boundHeaders_ok h).1] at hKept ⊢
      exact ⟨hKept rfl rfl rfl rfl, rfl, Or.inr rfl⟩
  | headerValue bytes =>
      rw [(boundHeaders_ok h).1] at hKept ⊢
      exact ⟨hKept rfl rfl rfl rfl, rfl, Or.inr rfl⟩
  | partBegin | headerEnd =>
      simp only [UploadBody.event, partBegin, headerEnd] at h
      split_ifs at h
      cases h
      exact ⟨hKept rfl rfl rfl rfl, rfl, Or.inr rfl⟩
  | headersFinished =>
      simp only [UploadBody.event, headersFinished] at h
      split at h
      · cases h
        exact ⟨hKept rfl rfl rfl rfl, rfl, Or.inr rfl⟩
      · cases h
  | finish =>
      cases h
      exact ⟨hKept rfl rfl rfl rfl, rfl, Or.inl rfl⟩
  | partData bytes =>
      obtain ⟨-, rfl⟩ := dataRun_ok h
      refine ⟨?_, rfl, Or.inr rfl⟩
      intro before spooled
      constructor
      · simp only [spooled.target, fileBytes]
      · simp only [spooled.digest, fileBytes]
      · simp only [spooled.leading, fileBytes, take_append_take]
      · simp only [spooled.size, fileBytes, List.length_append]

/-- An upload that went through events has spooled their file data. -/
theorem events_spooled {events : List Event} {bytes : Bytes} (spooled : Spooled bytes body)
    (h : events.foldlM (UploadBody.event library) body = .ok next) :
    Spooled (bytes ++ events.flatMap fileBytes) next := by
  induction events generalizing body bytes with
  | nil =>
      cases h
      rw [List.flatMap_nil, List.append_nil]
      exact spooled
  | cons event rest ih =>
      rw [List.foldlM_cons] at h
      obtain ⟨middle, hFirst, hRest⟩ := Raising.bind_eq_ok.mp h
      rw [List.flatMap_cons, ← List.append_assoc]
      exact ih ((event_advances hFirst).spooled bytes spooled) hRest

/-- An upload that went through events has counted their parts. -/
theorem events_parts {events : List Event}
    (h : events.foldlM (UploadBody.event library) body = .ok next) :
    next.parts = body.parts + events.countP Event.begins := by
  induction events generalizing body with
  | nil =>
      cases h
      rfl
  | cons event rest ih =>
      rw [List.foldlM_cons] at h
      obtain ⟨middle, hFirst, hRest⟩ := Raising.bind_eq_ok.mp h
      rw [ih hRest, (event_advances hFirst).parts, List.countP_cons]
      omega

theorem parse_ok {limit : Nat} {calls : List Callback} :
    parse library limit calls = .ok body ↔
      calls.foldlM (callback library) { limit } = .ok body ∧ body.complete = true ∧
        body.parts = 1 := by
  unfold parse
  constructor
  · intro h
    obtain ⟨ran, hRan, hEnd⟩ := Raising.bind_eq_ok.mp h
    split_ifs at hEnd with hMissing
    cases hEnd
    refine ⟨hRan, ?_⟩
    simpa using hMissing
  · rintro ⟨hRan, hComplete, hParts⟩
    rw [hRan]
    apply if_neg
    simp [hComplete, hParts]

theorem readBlocks_announced {blocks : List Bytes} {total : Nat} {parser last : library.Parser}
    (h : readBlocks library blocks total parser body = .ok (last, next)) :
    ∃ calls, announced library blocks parser = calls ++ (library.finalize last).1 ∧
      calls.foldlM (callback library) body = .ok next := by
  induction blocks generalizing total parser body with
  | nil =>
      cases h
      exact ⟨[], rfl, rfl⟩
  | cons block rest ih =>
      simp only [readBlocks] at h
      split_ifs at h
      · cases h
      · obtain ⟨middle, hCalls, hNext⟩ := ok_of_bind h
        cases hParser : (library.write parser block).2 with
        | none =>
            rw [hParser] at hNext
            cases hNext
        | some later =>
            rw [hParser] at hNext
            obtain ⟨calls, hAnnounced, hRest⟩ := ih hNext
            refine ⟨(library.write parser block).1 ++ calls, ?_, ?_⟩
            · rw [announced, hParser, List.append_assoc]
              exact congrArg _ hAnnounced
            · rw [List.foldlM_append, hCalls]
              exact hRest

/-- An upload that was read is what the callbacks of its parser have made of it. -/
theorem read_announced {limit : Nat} {contentType : Bytes} {blocks : List Bytes}
    (h : read library limit contentType blocks = .ok body) :
    let boundary := ((library.parseOptions contentType).2.lookup (ascii "boundary")).getD []
    parse library limit (announced library blocks (library.new boundary)) = .ok body := by
  simp only [read] at h
  split_ifs at h
  · cases h
  · obtain ⟨⟨parser, middle⟩, hBlocks, hRest⟩ := ok_of_bind h
    obtain ⟨ended, hCalls, hEnd⟩ := ok_of_bind hRest
    obtain ⟨calls, hAnnounced, hRead⟩ := readBlocks_announced hBlocks
    have hEnded : ended = body ∧ body.complete = true ∧ body.parts = 1 := by
      split_ifs at hEnd with hFinished hMissing hEarly
      all_goals cases hEnd
      exact ⟨rfl, by simpa using hEarly⟩
    obtain ⟨rfl, hComplete⟩ := hEnded
    apply parse_ok.mpr
    refine ⟨?_, hComplete⟩
    rw [hAnnounced, List.foldlM_append, hRead]
    exact hCalls

end Runs

section Acceptance
variable {library : MultipartLibrary} {body next : UploadBody}

/-- What an upload knows after headers. -/
def withHeaders (headers : List (Bytes × Bytes)) (body : UploadBody) : UploadBody :=
  { body with
    headerCount := body.headerCount + headers.length
    headers := headers.foldl (fun known header =>
      (header.1.map lowerByte, header.2) :: known.filter (·.1 ≠ header.1.map lowerByte))
      body.headers }

theorem withHeaders_cons (header : Bytes × Bytes) (rest : List (Bytes × Bytes))
    (body : UploadBody) :
    (body.withHeaders [header]).withHeaders rest = body.withHeaders (header :: rest) := by
  simp only [withHeaders, List.foldl_cons, List.foldl_nil, List.length_cons, List.length_nil]
  congr 1
  omega

theorem header_ok {header : Bytes × Bytes} (hField : body.field = []) (hValue : body.value = []) :
    (headerEvents header).foldlM (UploadBody.event library) body = .ok next ↔
      header.1.length + header.2.length ≤ 8192 ∧ body.headerCount + 1 ≤ 16 ∧
        next = body.withHeaders [header] := by
  simp only [headerEvents, List.foldlM_cons, List.foldlM_nil, Raising.bind_eq_ok]
  constructor
  · rintro ⟨first, hFirst, second, hSecond, third, hEnd, hNext⟩
    cases hNext
    obtain ⟨rfl, -⟩ := boundHeaders_ok hFirst
    obtain ⟨rfl, hBound⟩ := boundHeaders_ok hSecond
    simp only [UploadBody.event, headerEnd] at hEnd
    split_ifs at hEnd with hCount
    cases hEnd
    simp only [hField, hValue, List.nil_append, List.length_map] at hBound
    refine ⟨hBound, Nat.not_lt.mp hCount, ?_⟩
    simp only [withHeaders, hField, hValue, List.nil_append, List.foldl_cons, List.foldl_nil,
      List.length_singleton]
  · rintro ⟨hBound, hCount, rfl⟩
    refine ⟨_, boundHeaders_eq ?_, _, boundHeaders_eq ?_, _, if_neg (Nat.not_lt.mpr hCount), ?_⟩
    · simp only [hField, hValue, List.nil_append, List.length_map, List.length_nil]
      omega
    · simp only [hField, hValue, List.nil_append, List.length_map]
      exact hBound
    · simp only [withHeaders, hField, hValue, List.nil_append, List.foldl_cons, List.foldl_nil,
        List.length_singleton]
      rfl

/-- Headers go through exactly if each of them is short enough and they are few enough. -/
theorem headers_ok {headers : List (Bytes × Bytes)} (hField : body.field = [])
    (hValue : body.value = []) (hCount : body.headerCount ≤ 16) :
    (headers.flatMap headerEvents).foldlM (UploadBody.event library) body = .ok next ↔
      (∀ header ∈ headers, header.1.length + header.2.length ≤ 8192) ∧
        body.headerCount + headers.length ≤ 16 ∧ next = body.withHeaders headers := by
  induction headers generalizing body with
  | nil =>
      simp only [List.flatMap_nil, List.foldlM_nil, List.length_nil, Nat.add_zero, hCount,
        true_and, List.not_mem_nil, false_implies, implies_true]
      exact ⟨fun h => (Except.ok.inj h).symm, fun h => congrArg Except.ok h.symm⟩
  | cons header rest ih =>
      have hRest := @ih (body.withHeaders [header]) hField hValue
      rw [withHeaders_cons, show (body.withHeaders [header]).headerCount = body.headerCount + 1
        from rfl, Nat.add_assoc, Nat.add_comm 1] at hRest
      rw [List.flatMap_cons, List.foldlM_append, Raising.bind_eq_ok, List.forall_mem_cons,
        List.length_cons]
      constructor
      · rintro ⟨middle, hFirst, hOthers⟩
        obtain ⟨hBound, hOne, rfl⟩ := (header_ok hField hValue).mp hFirst
        obtain ⟨hBounds, hAll, hNext⟩ := (hRest hOne).mp hOthers
        exact ⟨⟨hBound, hBounds⟩, hAll, hNext⟩
      · rintro ⟨⟨hBound, hBounds⟩, hAll, hNext⟩
        have hOne : body.headerCount + 1 ≤ 16 := by omega
        exact ⟨_, (header_ok hField hValue).mpr ⟨hBound, hOne, rfl⟩,
          (hRest hOne).mpr ⟨hBounds, hAll, hNext⟩⟩

theorem lookup_filter_of_ne {name field : Bytes} (known : List (Bytes × Bytes)) (h : name ≠ field) :
    (known.filter (·.1 ≠ field)).lookup name = known.lookup name := by
  induction known with
  | nil => rfl
  | cons entry rest ih =>
      by_cases hEntry : entry.1 = field
      · have hOther : (name == entry.1) = false := beq_false_of_ne (hEntry ▸ h)
        rw [List.filter_cons_of_neg (by simpa using hEntry), ih, List.lookup_cons, hOther]
      · rw [List.filter_cons_of_pos (by simpa using hEntry), List.lookup_cons, List.lookup_cons, ih]

/-- The last value that is given to a name is the one that is known. -/
theorem lookup_withHeaders (name : Bytes) (headers : List (Bytes × Bytes)) (body : UploadBody) :
    (body.withHeaders headers).headers.lookup name =
      (lastValue name headers).or (body.headers.lookup name) := by
  induction headers using List.reverseRecOn with
  | nil => rfl
  | append_singleton headers header ih =>
      simp only [withHeaders, List.foldl_append, List.foldl_cons, List.foldl_nil] at ih ⊢
      rw [lastValue, List.reverse_append, List.reverse_singleton, List.singleton_append,
        List.find?_cons, List.lookup_cons]
      by_cases hName : header.1.map lowerByte = name
      · simp [hName]
      · have hOther : (name == header.1.map lowerByte) = false := beq_false_of_ne (Ne.symm hName)
        rw [lookup_filter_of_ne _ (Ne.symm hName), ih, hOther]
        simp [hName, lastValue]

/-- The disposition is checked in the headers of the part. -/
theorem headersFinished_ok {headers : List (Bytes × Bytes)} (hNone : body.headers = []) :
    (∃ next, (body.withHeaders headers).headersFinished library = .ok next) ↔
      NamesFile library headers := by
  unfold headersFinished NamesFile
  rw [lookup_withHeaders, hNone, List.lookup_nil, Option.or_none]
  simp only
  constructor
  · rintro ⟨next, h⟩
    split at h
    · rename_i filename hName hFilename
      exact ⟨eq_of_beq hName, by rw [hFilename]; rfl⟩
    · cases h
  · rintro ⟨hName, hFilename⟩
    obtain ⟨filename, hFilename⟩ := Option.isSome_iff_exists.mp hFilename
    rw [hName, hFilename, beq_self_eq_true]
    exact ⟨_, rfl⟩

theorem headersFinished_filename (h : body.headersFinished library = .ok next) :
    ∃ filename, next = { body with filename } := by
  unfold headersFinished at h
  simp only at h
  split at h
  · cases h
    exact ⟨_, rfl⟩
  · cases h

/-- A single part goes through exactly if it is acceptable. -/
theorem part_ok {limit : Nat} {part : Part} :
    (∃ next, part.events.foldlM (UploadBody.event library) { limit } = .ok next) ↔
      Acceptable library limit part := by
  have hBegin : partBegin { limit } = .ok { limit, parts := 1 } := rfl
  have hHeaders {next : UploadBody} :=
    @headers_ok library { limit, parts := 1 } next part.headers rfl rfl (Nat.zero_le _)
  simp only [Part.events, List.foldlM_cons, List.foldlM_append, List.foldlM_nil, bind_pure,
    UploadBody.event, hBegin, Raising.bind_eq_ok]
  constructor
  · rintro ⟨last, begun, hBegun, known, hKnown, named, hNamed, hLast⟩
    cases hBegun
    obtain ⟨hBounds, hCount, rfl⟩ := hHeaders.mp hKnown
    obtain ⟨filename, rfl⟩ := headersFinished_filename hNamed
    obtain ⟨hLimit, -⟩ := dataRun_ok hLast
    constructor
    · exact hBounds
    · exact (Nat.zero_add _).symm.trans_le hCount
    · exact (headersFinished_ok rfl).mp ⟨_, hNamed⟩
    · exact (Nat.zero_add _).symm.trans_le hLimit
  · rintro ⟨hBounds, hCount, hNames, hData⟩
    obtain ⟨named, hNamed⟩ :=
      (@headersFinished_ok library { limit, parts := 1 } part.headers rfl).mpr hNames
    obtain ⟨filename, rfl⟩ := headersFinished_filename hNamed
    refine ⟨_, _, rfl, _, hHeaders.mpr ⟨hBounds, ?_, rfl⟩, _, hNamed, if_neg ?_⟩
    · exact (Nat.zero_add _).trans_le hCount
    · exact Nat.not_lt.mpr ((Nat.zero_add _).trans_le hData)

theorem countP_messageEvents (parts : List Part) :
    (messageEvents parts).countP Event.begins = parts.length := by
  have hHeaders (headers : List (Bytes × Bytes)) :
      (headers.flatMap headerEvents).countP Event.begins = 0 := by
    rw [List.countP_eq_zero]
    intro event hEvent
    obtain ⟨header, -, hMem⟩ := List.mem_flatMap.mp hEvent
    simp only [headerEvents, List.mem_cons, List.not_mem_nil, or_false] at hMem
    rcases hMem with rfl | rfl | rfl
    all_goals exact Bool.false_ne_true
  have hPart (part : Part) : part.events.countP Event.begins = 1 := by
    rw [Part.events, List.countP_cons, List.countP_append, hHeaders]
    rfl
  rw [messageEvents, List.countP_append, List.countP_flatMap]
  simp [Function.comp_def, hPart, Event.begins]

/-- A message is taken exactly if it is one acceptable part. -/
theorem message_ok {limit : Nat} {parts : List Part} {calls : List Callback}
    (splits : Splits (messageEvents parts) calls) :
    (∃ body, parse library limit calls = .ok body) ↔
      ∃ part, parts = [part] ∧ Acceptable library limit part := by
  simp only [parse_ok, callbacks_eq_events splits (bounded_new limit)]
  constructor
  · rintro ⟨body, hEvents, -, hParts⟩
    have hCount := events_parts hEvents
    rw [countP_messageEvents, hParts, Nat.zero_add] at hCount
    obtain ⟨part, rfl⟩ := List.length_eq_one_iff.mp hCount.symm
    refine ⟨part, rfl, part_ok.mp ?_⟩
    rw [messageEvents, List.foldlM_append, List.flatMap_singleton] at hEvents
    obtain ⟨next, hPart, -⟩ := Raising.bind_eq_ok.mp hEvents
    exact ⟨next, hPart⟩
  · rintro ⟨part, rfl, acceptable⟩
    obtain ⟨next, hPart⟩ := part_ok.mpr acceptable
    have hEvents : (messageEvents [part]).foldlM (UploadBody.event library) { limit } =
        .ok { next with complete := true } := by
      rw [messageEvents, List.foldlM_append, List.flatMap_singleton, hPart]
      rfl
    refine ⟨_, hEvents, rfl, ?_⟩
    rw [events_parts hEvents, countP_messageEvents]
    rfl

end Acceptance

/-- Whatever fragments the parser announces, an upload comes to the same state or the same
rejection; what is taken is one acceptable part, with its data spooled and hashed as it is;
and never more than the limit is written. An upload that was read from a request is what the
callbacks of its parser make of it. -/
theorem upload_ignoresFragments (library : MultipartLibrary) (limit : Nat) :
    (∀ events calls calls', Splits events calls → Splits events calls' →
      parse library limit calls = parse library limit calls') ∧
    (∀ events calls body, Splits events calls → parse library limit calls = .ok body →
      Spooled (events.flatMap fileBytes) body) ∧
    (∀ parts calls, Splits (messageEvents parts) calls →
      ((∃ body, parse library limit calls = .ok body) ↔
        ∃ part, parts = [part] ∧ Acceptable library limit part)) ∧
    (∀ events calls, Splits events calls →
      (written library calls { limit }).length ≤ limit) ∧
    ∀ contentType blocks body, read library limit contentType blocks = .ok body →
      parse library limit (announced library blocks (library.new
        (((library.parseOptions contentType).2.lookup (ascii "boundary")).getD []))) =
          .ok body := by
  refine ⟨?_, ?_, ?_, ?_, fun contentType blocks body => read_announced⟩
  · intro events calls calls' splits splits'
    unfold parse
    rw [callbacks_eq_events splits (bounded_new limit),
      callbacks_eq_events splits' (bounded_new limit)]
  · intro events calls body splits h
    obtain ⟨hCalls, -, -⟩ := parse_ok.mp h
    rw [callbacks_eq_events splits (bounded_new limit)] at hCalls
    exact @events_spooled library { limit } body events [] ⟨rfl, rfl, rfl, rfl⟩ hCalls
  · intro parts calls splits
    exact message_ok splits
  · intro events calls splits
    exact @written_length_le library { limit } calls splits.inRange rfl (Nat.zero_le _)

/-- A header and two bytes of a file, where the name comes in two fragments and the data in
an empty one and the rest. -/
def splitNote : List Callback :=
  [.partBegin, .headerField (ascii "Content-") 0 8, .headerField (ascii "x Disposition") 2 13,
    .headerValue [7] 0 1, .headerEnd, .headersFinished, .partData [65, 66] 0 0,
    .partData [65, 66] 0 2, .finish]

def noteLibrary : MultipartLibrary where
  parseOptions value := (value, if value = [7] then
    [(ascii "name", ascii "file"), (ascii "filename", ascii "a")] else [])
  decode _ := "a"
  Parser := Unit
  new _ := ()
  write _ _ := ([], some ())
  finalize _ := ([], true)

/-- A note in fragments is taken whole. -/
theorem upload_ignoresFragments_note :
    (∃ body, parse noteLibrary 2 splitNote = .ok body ∧ body.target = [65, 66]) ∧
      (written noteLibrary splitNote { limit := 2 }).length ≤ 2 := by
  have splits : Splits (messageEvents [⟨[(ascii "Content-Disposition", [7])], [65, 66]⟩])
      splitNote :=
    .cons .partBegin (.cons (.headerField [⟨ascii "Content-", 0, 8, by decide, by decide⟩,
        ⟨ascii "x Disposition", 2, 13, by decide, by decide⟩])
      (.cons (.headerValue [⟨[7], 0, 1, by decide, by decide⟩]) (.cons .headerEnd
        (.cons .headersFinished (.cons (.partData [⟨[65, 66], 0, 0, by decide, by decide⟩,
          ⟨[65, 66], 0, 2, by decide, by decide⟩]) (.cons .finish .nil))))))
  obtain ⟨-, hSpooled, hAccepts, hWritten, -⟩ := upload_ignoresFragments noteLibrary 2
  obtain ⟨body, hBody⟩ := (hAccepts _ _ splits).mpr
    ⟨_, rfl, by decide, by decide, ⟨by decide, by decide⟩, by decide⟩
  exact ⟨⟨body, hBody, (hSpooled _ _ _ splits hBody).target⟩, hWritten _ _ splits⟩

end UploadBody

end DocInsight.Ingest
