import DocInsight.Delivery.RelaySafety
import DocInsight.Contracts.Encoding

/-! An acknowledgement comes after a durable outcome, whatever fails, crashes or is taken
over in between. -/
namespace DocInsight.Delivery

open DocInsight.Contracts DocInsight.Worker Interaction

/-- Whenever an entry is acknowledged, the history before it has completed output of its
document or its dead letter; and there, if its worker had found that the event describes
the document, the document was stored as failed with the same error first. -/
theorem acknowledged_durable {setting : Setting} {processes : Nat → Process} {moves : List Move}
    {reached : Deployment}
    (hRun : Transition.run (step setting) moves (start setting processes) = some reached)
    {agent : Nat} {entry : StreamMessage} {earlier : List Logged}
    (hAcknowledged : .acknowledged agent entry :: earlier <:+ reached.state.history) :
    Durable setting.codec entry.fields earlier :=
  (run_sound hRun).acknowledged agent entry earlier hAcknowledged

/-! A deployment to run by hand: a relay and two workers, and one upload. -/

def originalBytes : Bytes := [0x25, 0x50, 0x44, 0x46, 0x2D]

/-- The digest of the original. -/
def originalDigest : String := "38523c087796e5d5dd1cf9bad1fb026781a838dd9dd2cf8af58b9f6502a46778"

def sampleAnswer (block : Bytes) : (query : Outside) → query.Answer
  | .stopping => false
  | .clock => (0 : ℚ)
  | .wait => ()
  | .makeDirectory => ()
  | .removeDirectory => ()
  | .openObject _ => ()
  | .readObject => block
  | .compute _ =>
      { pages := [], chunks := [], entities := [], embedModel := some "e5",
        embedDimension := some 1 }
  | .traceparent => none

def calm : Choice := { answer := sampleAnswer [] }

/-- The object answers a read with all of its bytes. -/
def reading : Choice := { answer := sampleAnswer originalBytes }

/-- The first entry has been idle for long enough to be claimed. -/
def claiming : Choice := { calm with claimed := [0] }

def sampleSetting : Setting where
  codec := libraryCodec
  sha256 _ := originalDigest
  uuid5 id _ := id
  batch := 1
  raises _ _ := false

def sampleUpload : Upload where
  tenantId := "acme"
  filename := "report.pdf"
  sha256 := originalDigest
  mediaType := .pdf
  sizeBytes := 5
  documentId := ⟨1⟩
  eventId := ⟨2⟩
  createdAt := 0
  valid_tenant := by decide
  valid_digest := by decide

def sampleProcesses : Nat → Process
  | 0 => .relay ["acme"] 10 1
  | _ => .worker {} 1 {}

/-- The upload is registered and relayed, and the first worker looks its document up. -/
def lookupMoves : List Move :=
  .event (.register sampleUpload) :: List.replicate 7 (.advance 0 calm) ++
    List.replicate 12 (.advance 1 calm)

/-- The second worker claims the entry, processes it and acknowledges it. -/
def takeoverMoves : List Move :=
  List.replicate 5 (.advance 2 calm) ++ .advance 2 claiming ::
    List.replicate 8 (.advance 2 calm) ++ .advance 2 reading ::
    List.replicate 6 (.advance 2 calm)

/-- The first worker reads nothing of the original, marks the document as failed and puts its
entry aside. -/
def failedMoves : List Move := List.replicate 8 (.advance 1 calm)

def sampleEntry : StreamMessage := ⟨0, sampleUpload.event.streamFields libraryCodec⟩

/-- The last step of a run, with the dead letters it has led to. -/
theorem reached_of_head {setting : Setting} {moves : List Move} {deployment : Deployment}
    {last : Logged} {letters : List Fields}
    (h : (Transition.run (step setting) moves deployment).map (fun reached =>
      (reached.state.history.head?, reached.state.deadLetters)) = some (some last, letters)) :
    ∃ reached earlier, Transition.run (step setting) moves deployment = some reached ∧
      reached.state.history = last :: earlier ∧ reached.state.deadLetters = letters := by
  obtain ⟨reached, hRun, hReached⟩ := Option.map_eq_some_iff.mp h
  obtain ⟨hHead, hLetters⟩ := Prod.mk.inj hReached
  obtain ⟨earlier, hHistory⟩ := List.head?_eq_some_iff.mp hHead
  exact ⟨reached, earlier, hRun, hHistory, hLetters⟩

/-- The document is completed before its entry is acknowledged, or stored as failed with a dead
letter. -/
theorem acknowledged_durable_takeover :
    (∃ reached earlier, Transition.run (step sampleSetting) (lookupMoves ++ takeoverMoves)
        (start sampleSetting sampleProcesses) = some reached ∧
      reached.state.history = .acknowledged 2 sampleEntry :: earlier ∧
      reached.state.deadLetters = [] ∧ Durable libraryCodec sampleEntry.fields earlier) ∧
    ∃ reached earlier, Transition.run (step sampleSetting) (lookupMoves ++ failedMoves)
        (start sampleSetting sampleProcesses) = some reached ∧
      reached.state.history = .acknowledged 1 sampleEntry :: earlier ∧
      reached.state.deadLetters =
        [deadLetterFields sampleEntry.fields "ValueError: processing failed" 1] ∧
      Durable libraryCodec sampleEntry.fields earlier := by
  have hTakeover : (Transition.run (step sampleSetting) (lookupMoves ++ takeoverMoves)
      (start sampleSetting sampleProcesses)).map (fun reached =>
        (reached.state.history.head?, reached.state.deadLetters)) =
      some (some (.acknowledged 2 sampleEntry), []) := by decide +kernel
  have hFailed : (Transition.run (step sampleSetting) (lookupMoves ++ failedMoves)
      (start sampleSetting sampleProcesses)).map (fun reached =>
        (reached.state.history.head?, reached.state.deadLetters)) =
      some (some (.acknowledged 1 sampleEntry),
        [deadLetterFields sampleEntry.fields "ValueError: processing failed" 1]) := by
    decide +kernel
  constructor
  · obtain ⟨reached, earlier, hRun, hHistory, hLetters⟩ := reached_of_head hTakeover
    exact ⟨reached, earlier, hRun, hHistory, hLetters, acknowledged_durable hRun ⟨[], hHistory.symm⟩⟩
  · obtain ⟨reached, earlier, hRun, hHistory, hLetters⟩ := reached_of_head hFailed
    exact ⟨reached, earlier, hRun, hHistory, hLetters, acknowledged_durable hRun ⟨[], hHistory.symm⟩⟩

end DocInsight.Delivery
