import Hearth.Broker.Frame

/-!
# The two frame readers

`BufferedBrokerFrameReader` is the keeping reader of the frame decoder, and
`receive_frame` reads the whole connection with it.  So they agree, outcome by outcome,
until a frame is refused.  After that they differ: `receive_frame` has consumed the
refused header, the buffered reader keeps it and refuses it again.
-/

namespace Hearth.Broker

open Hearth.Library

/-! ## One pass over the buffer -/

namespace BufferedBrokerFrameReader

/-- The bytes that a reader has received and not handed over: an unpacked header
stands for five of them. -/
def Holds (reader : BufferedBrokerFrameReader) (kept : Bytes) : Prop :=
  match reader.header with
  | none => kept = reader.buffer
  | some header =>
      ∃ raw, kept = raw ++ reader.buffer ∧ raw.length = brokerFrameHeaderSize ∧
        admitHeader (unpackHeader raw).1 (unpackHeader raw).2 = .ok header

theorem holds_new : ({} : BufferedBrokerFrameReader).Holds [] := rfl

/-- Received bytes go to the end of what is held. -/
theorem Holds.extend {reader : BufferedBrokerFrameReader} {kept : Bytes} (h : reader.Holds kept)
    (piece : Bytes) :
    ({ reader with buffer := reader.buffer ++ piece } : BufferedBrokerFrameReader).Holds
      (kept ++ piece) := by
  unfold Holds at h ⊢
  cases hheader : reader.header with
  | none =>
      rw [hheader] at h
      show kept ++ piece = reader.buffer ++ piece
      rw [h]
  | some header =>
      rw [hheader] at h
      obtain ⟨raw, rfl, hraw, hadmitted⟩ := h
      exact ⟨raw, List.append_assoc _ _ _, hraw, hadmitted⟩

/-- Reading the header changes how the bytes are held, not which. -/
theorem readHeader_spec {reader : BufferedBrokerFrameReader} {kept : Bytes} (h : reader.Holds kept) :
    match reader.readHeader with
    | .error error => nextFrame kept = .failed error
    | .ok reader => reader.Holds kept ∧
        (reader.header = none → kept.length < brokerFrameHeaderSize) := by
  unfold readHeader
  cases hheader : reader.header with
  | some header =>
      refine ⟨h, ?_⟩
      intro hnone
      rw [hheader] at hnone
      cases hnone
  | none =>
      unfold Holds at h
      rw [hheader] at h
      subst h
      dsimp only
      by_cases hlength : brokerFrameHeaderSize ≤ reader.buffer.length
      · rw [if_pos hlength]
        have hraw : (reader.buffer.take brokerFrameHeaderSize).length = brokerFrameHeaderSize := by
          rw [List.length_take]
          omega
        have hsplit := List.take_append_drop brokerFrameHeaderSize reader.buffer
        cases hadmitted : admitHeader (unpackHeader (reader.buffer.take brokerFrameHeaderSize)).1
            (unpackHeader (reader.buffer.take brokerFrameHeaderSize)).2 with
        | error error => exact nextFrame_eq_failed.mpr ⟨_, _, hsplit.symm, hraw, hadmitted⟩
        | ok header =>
            refine ⟨⟨_, hsplit.symm, hraw, hadmitted⟩, ?_⟩
            intro hnone
            cases hnone
      · rw [if_neg hlength]
        refine ⟨?_, fun _ => by omega⟩
        unfold Holds
        rw [hheader]

/-- A frame is handed over when it is complete. -/
theorem takeFrame_spec {reader : BufferedBrokerFrameReader} {kept : Bytes} (h : reader.Holds kept)
    (hshort : reader.header = none → kept.length < brokerFrameHeaderSize) :
    match reader.takeFrame with
    | some (frame, reader) => nextFrame kept = .done frame reader.buffer ∧ reader.header = none
    | none => nextFrame kept = .more := by
  unfold takeFrame
  cases hheader : reader.header with
  | none =>
      have hlength : kept.length < brokerFrameHeaderSize := hshort hheader
      show nextFrame kept = .more
      unfold nextFrame
      rw [if_pos hlength]
  | some header =>
      unfold Holds at h
      rw [hheader] at h
      obtain ⟨raw, rfl, hraw, hadmitted⟩ := h
      dsimp only
      by_cases hsize : header.payloadSize ≤ reader.buffer.length
      · rw [if_pos hsize]
        refine ⟨?_, rfl⟩
        apply nextFrame_eq_done.mpr
        refine ⟨raw, reader.buffer.take header.payloadSize, header, ?_, hraw, hadmitted, ?_, rfl⟩
        · rw [List.take_append_drop]
        · rw [List.length_take]
          omega
      · rw [if_neg hsize]
        have hlength : ¬ (raw ++ reader.buffer).length < brokerFrameHeaderSize := by
          rw [List.length_append]
          omega
        show nextFrame (raw ++ reader.buffer) = .more
        unfold nextFrame
        rw [if_neg hlength]
        dsimp only
        rw [List.take_left' hraw, List.drop_left' hraw]
        simp only [hadmitted]
        rw [if_pos (by omega)]

/-- Both blocks of the loop, in terms of the bytes that are held. -/
theorem attempt_spec {reader : BufferedBrokerFrameReader} {kept : Bytes} (h : reader.Holds kept) :
    match reader.attempt with
    | .refused error => nextFrame kept = .failed error
    | .complete frame reader => nextFrame kept = .done frame reader.buffer ∧ reader.header = none
    | .partly reader => nextFrame kept = .more ∧ reader.Holds kept := by
  have hread := readHeader_spec h
  unfold attempt
  cases hheader : reader.readHeader with
  | error error =>
      rw [hheader] at hread
      exact hread
  | ok read =>
      rw [hheader] at hread
      have htake := takeFrame_spec hread.1 hread.2
      dsimp only
      cases hframe : read.takeFrame with
      | none =>
          rw [hframe] at htake
          exact ⟨htake, hread.1⟩
      | some taken =>
          rw [hframe] at htake
          exact htake

/-! ## One call -/

/-- `receive` is one call of the keeping reader: the same outcome, the same answers
left, and the bytes that are kept are held. -/
theorem receive_spec {reader : BufferedBrokerFrameReader} {kept : Bytes} (h : reader.Holds kept)
    (answers : List (Recv UInt8)) :
    (reader.receive answers).1 = (frameDecoder.poll kept answers).1 ∧
      (reader.receive answers).2.2 = (frameDecoder.poll kept answers).2.2 ∧
      (reader.receive answers).2.1.Holds (frameDecoder.poll kept answers).2.1 := by
  induction answers generalizing reader kept with
  | nil =>
      have hspec := attempt_spec h
      have hnext : frameDecoder.next kept = nextFrame kept := rfl
      unfold receive Decoder.poll
      cases hattempt : reader.attempt with
      | refused error =>
          rw [hattempt] at hspec
          simp only [hnext, hspec]
          exact ⟨trivial, trivial, h⟩
      | complete frame reader =>
          rw [hattempt] at hspec
          simp only [hnext, hspec.1]
          refine ⟨trivial, trivial, ?_⟩
          unfold Holds
          rw [hspec.2]
      | partly reader =>
          rw [hattempt] at hspec
          simp only [hnext, hspec.1]
          exact ⟨trivial, trivial, hspec.2⟩
  | cons answer answers ih =>
      have hspec := attempt_spec h
      have hnext : frameDecoder.next kept = nextFrame kept := rfl
      unfold receive Decoder.poll
      cases hattempt : reader.attempt with
      | refused error =>
          rw [hattempt] at hspec
          simp only [hnext, hspec]
          exact ⟨trivial, trivial, h⟩
      | complete frame reader =>
          rw [hattempt] at hspec
          simp only [hnext, hspec.1]
          refine ⟨trivial, trivial, ?_⟩
          unfold Holds
          rw [hspec.2]
      | partly reader =>
          rw [hattempt] at hspec
          simp only [hnext, hspec.1]
          cases answer with
          | timeout => exact ⟨rfl, rfl, hspec.2⟩
          | chunk head tail => exact ih (hspec.2.extend (head :: tail))

end BufferedBrokerFrameReader

/-! ## All calls -/

/-- Until a frame is refused, the buffered reader gives the polls of the decoder. -/
theorem untilProtocolError_buffered (calls : ℕ) {reader : BufferedBrokerFrameReader} {kept : Bytes}
    (h : reader.Holds kept) (answers : List (Recv UInt8)) :
    untilProtocolError (bufferedResults calls reader answers) =
      frameDecoder.polls calls kept answers := by
  induction calls generalizing reader kept answers with
  | zero => rfl
  | succ calls ih =>
      obtain ⟨houtcome, hleft, hholds⟩ := BufferedBrokerFrameReader.receive_spec h answers
      have hrest := ih hholds (frameDecoder.poll kept answers).2.2
      unfold bufferedResults Decoder.polls
      dsimp only
      rw [houtcome, hleft]
      generalize frameDecoder.poll kept answers = polled at hrest ⊢
      rcases polled with ⟨outcome, held, left⟩
      cases outcome with
      | none => exact hrest
      | some outcome =>
          cases outcome with
          | failed error => rfl
          | value frame => exact congrArg (List.cons (.value frame)) hrest
          | ended => exact congrArg (List.cons .ended) hrest

/-- `receive_frame` answers as the decoder does on the whole connection. -/
theorem receiveFrame_spec (connection : Bytes) :
    match nextFrame connection with
    | .done frame rest => receiveFrame connection = (.value frame, rest)
    | .failed error => (receiveFrame connection).1 = .failed error
    | .more => receiveFrame connection = (.ended, []) := by
  unfold nextFrame receiveFrame recvExact
  by_cases hlength : connection.length < brokerFrameHeaderSize
  · rw [if_pos hlength, if_pos hlength]
  · rw [if_neg hlength, if_neg hlength]
    dsimp only
    cases hadmitted : admitHeader (unpackHeader (connection.take brokerFrameHeaderSize)).1
        (unpackHeader (connection.take brokerFrameHeaderSize)).2 with
    | error error => rfl
    | ok header =>
        dsimp only
        by_cases hsize : (connection.drop brokerFrameHeaderSize).length < header.payloadSize
        · rw [if_pos hsize, if_pos hsize]
        · rw [if_neg hsize, if_neg hsize]

/-- A connection that has ended has ended for every later call. -/
theorem calls_ended (calls : ℕ) {units : Bytes} (h : nextFrame units = .more) :
    frameDecoder.calls calls units = List.replicate calls .ended := by
  have hnext : frameDecoder.next units = .more := h
  induction calls with
  | zero => rfl
  | succ calls ih =>
      unfold Decoder.calls
      rw [hnext, List.replicate_succ]
      exact congrArg _ ih

/-- Until a frame is refused, `receive_frame` gives the calls of the decoder. -/
theorem untilProtocolError_blocking (calls : ℕ) (connection : Bytes) :
    untilProtocolError (blockingResults calls connection) = frameDecoder.calls calls connection := by
  induction calls generalizing connection with
  | zero => rfl
  | succ calls ih =>
      have hspec := receiveFrame_spec connection
      have hnext : frameDecoder.next connection = nextFrame connection := rfl
      unfold blockingResults Decoder.calls
      rw [hnext]
      cases hparse : nextFrame connection with
      | done frame rest =>
          rw [hparse] at hspec
          dsimp only at hspec ⊢
          rw [hspec]
          exact congrArg (List.cons (.value frame)) (ih rest)
      | failed error =>
          rw [hparse] at hspec
          dsimp only at hspec ⊢
          rw [hspec]
          rfl
      | more =>
          rw [hparse] at hspec
          dsimp only at hspec ⊢
          rw [hspec, calls_ended calls hparse]
          have hnil := ih []
          rw [calls_ended calls rfl] at hnil
          exact congrArg (List.cons .ended) hnil

theorem untilProtocolError_eq_self {outcomes : List (Outcome Frame BrokerProtocolError)}
    (h : ∀ error, .failed error ∉ outcomes) : untilProtocolError outcomes = outcomes := by
  induction outcomes with
  | nil => rfl
  | cons outcome outcomes ih =>
      have hrest := ih fun error hmem => h error (List.mem_cons_of_mem _ hmem)
      cases outcome with
      | failed error => exact absurd List.mem_cons_self (h error)
      | value frame => exact congrArg (List.cons (.value frame)) hrest
      | ended => exact congrArg (List.cons .ended) hrest

/-! ## Timeouts -/

/-- A call uses up a timeout only when it returns `None`. -/
theorem BufferedBrokerFrameReader.receive_timeouts (reader : BufferedBrokerFrameReader)
    (answers : List (Recv UInt8)) :
    Recv.timeouts (reader.receive answers).2.2 + 1 ≤
      (reader.receive answers).1.toList.length + Recv.timeouts answers := by
  induction answers generalizing reader with
  | nil =>
      unfold receive
      cases reader.attempt with
      | refused error => simp
      | complete frame reader => simp
      | partly reader => simp
  | cons answer answers ih =>
      unfold receive
      cases reader.attempt with
      | refused error =>
          show Recv.timeouts (answer :: answers) + 1 ≤ 1 + Recv.timeouts (answer :: answers)
          omega
      | complete frame reader =>
          show Recv.timeouts (answer :: answers) + 1 ≤ 1 + Recv.timeouts (answer :: answers)
          omega
      | partly reader =>
          cases answer with
          | timeout =>
              simp only [Option.toList_none, List.length_nil, Recv.timeouts_timeout]
              omega
          | chunk head tail =>
              rw [Recv.timeouts_chunk]
              exact ih _

/-- Every call gives an outcome or uses up a timeout. -/
theorem calls_le_results (calls : ℕ) (reader : BufferedBrokerFrameReader)
    (answers : List (Recv UInt8)) :
    calls ≤ (bufferedResults calls reader answers).length + Recv.timeouts answers := by
  induction calls generalizing reader answers with
  | zero => exact Nat.zero_le _
  | succ calls ih =>
      have hone := reader.receive_timeouts answers
      have hrest := ih (reader.receive answers).2.1 (reader.receive answers).2.2
      unfold bufferedResults
      rw [List.length_append]
      omega

theorem untilProtocolError_length_le (outcomes : List (Outcome Frame BrokerProtocolError)) :
    (untilProtocolError outcomes).length ≤ outcomes.length := by
  induction outcomes with
  | nil => exact Nat.le_refl 0
  | cons outcome outcomes ih =>
      cases outcome with
      | failed error => simp [untilProtocolError]
      | value frame =>
          show _ + 1 ≤ _ + 1
          omega
      | ended =>
          show _ + 1 ≤ _ + 1
          omega

/-! ## Sent frames -/

theorem admitHeader_eq_ok {frameType payloadSize : ℕ} {header : Header}
    (h : admitHeader frameType payloadSize = .ok header) :
    header.frameType = frameType ∧ header.payloadSize = payloadSize := by
  unfold admitHeader at h
  split at h
  · split at h
    · cases h
      exact ⟨rfl, rfl⟩
    · cases h
  · cases h

/-- What is packed is unpacked: the type fits one byte and the size four. -/
theorem unpackHeader_packHeader (header : Header) :
    unpackHeader (packHeader header.frameType header.payloadSize) =
      (header.frameType, header.payloadSize) := by
  have htype : header.frameType < 256 := by
    rcases header.known with h | h
    · rw [h]
      decide
    · rw [h]
      decide
  have hsize : header.payloadSize < 4294967296 := by
    have hmaximum : maximumBytes header.frameType ≤ 4194304 := by
      unfold maximumBytes
      split
      · decide
      · decide
    have hbounded := header.bounded
    omega
  unfold unpackHeader packHeader
  simp only [List.headD_cons, List.tail_cons, List.foldl_cons, List.foldl_nil, UInt8.toNat_ofNat']
  apply Prod.ext
  · show header.frameType % 256 = header.frameType
    omega
  · show _ = header.payloadSize
    omega

/-- A sent frame is the first one on the connection. -/
theorem nextFrame_sendFrame {frame : Frame} {sent : Bytes} (h : sendFrame frame = .ok sent)
    (later : Bytes) : nextFrame (sent ++ later) = .done frame later := by
  obtain ⟨header, hadmitted, hsent⟩ := bind_eq_ok.mp h
  obtain ⟨htype, hsize⟩ := admitHeader_eq_ok hadmitted
  cases hsent
  apply nextFrame_eq_done.mpr
  refine ⟨_, frame.payload, header, List.append_assoc _ _ _, rfl, ?_, hsize.symm, ?_⟩
  · rw [unpackHeader_packHeader, htype, hsize]
    exact hadmitted
  · rw [htype]

/-- The first outcomes on a connection that carries these frames and is closed then. -/
def framesThenEnd (messages : List Frame) (count : ℕ) : List (Outcome Frame BrokerProtocolError) :=
  (messages.map Outcome.value ++ List.replicate count Outcome.ended).take count

theorem failed_not_mem_framesThenEnd (messages : List Frame) (count : ℕ)
    (error : BrokerProtocolError) : .failed error ∉ framesThenEnd messages count := by
  intro hmem
  have h := List.mem_of_mem_take hmem
  simp at h

/-- On a connection of sent frames the calls give the frames, and then its end. -/
theorem calls_sendFrame {messages : List Frame} {sent : List Bytes}
    (h : messages.mapM sendFrame = .ok sent) (calls : ℕ) :
    frameDecoder.calls calls sent.flatten = framesThenEnd messages calls := by
  have hsent := mapM_eq_ok.mp h
  clear h
  unfold framesThenEnd
  induction hsent generalizing calls with
  | nil =>
      rw [List.flatten_nil, calls_ended calls rfl, List.map_nil, List.nil_append,
        List.take_of_length_le (by rw [List.length_replicate])]
  | @cons frame bytes messages sent hframe _ ih =>
      cases calls with
      | zero => rfl
      | succ calls =>
          have hnext : frameDecoder.next (bytes ++ sent.flatten) = .done frame sent.flatten :=
            nextFrame_sendFrame hframe _
          rw [List.flatten_cons]
          unfold Decoder.calls
          rw [hnext]
          show Outcome.value frame :: frameDecoder.calls calls sent.flatten = _
          rw [ih calls, List.map_cons, List.cons_append, List.take_succ_cons]
          congr 1
          -- One more `ended` behind the ones that are taken makes no difference.
          have hlength : calls ≤
              (messages.map Outcome.value ++
                List.replicate calls (Outcome.ended : Outcome Frame BrokerProtocolError)).length := by
            rw [List.length_append, List.length_replicate]
            omega
          rw [List.replicate_succ', ← List.append_assoc, List.take_append_of_le_length hlength]

/-- A refusal among the outcomes is still there when they are cut at the first one. -/
theorem exists_failed_of_mem {outcomes : List (Outcome Frame BrokerProtocolError)}
    {error : BrokerProtocolError} (h : .failed error ∈ outcomes) :
    ∃ first, .failed first ∈ untilProtocolError outcomes := by
  induction outcomes with
  | nil => cases h
  | cons outcome outcomes ih =>
      cases outcome with
      | failed first => exact ⟨first, List.mem_cons_self⟩
      | value frame =>
          obtain ⟨first, hfirst⟩ := ih (by simpa using h)
          exact ⟨first, List.mem_cons_of_mem _ hfirst⟩
      | ended =>
          obtain ⟨first, hfirst⟩ := ih (by simpa using h)
          exact ⟨first, List.mem_cons_of_mem _ hfirst⟩

/-- Outcomes that show no refusal when cut at the first one are not cut. -/
theorem eq_of_untilProtocolError {outcomes cut : List (Outcome Frame BrokerProtocolError)}
    (h : untilProtocolError outcomes = cut) (hclean : ∀ error, .failed error ∉ cut) :
    outcomes = cut := by
  rw [← h]
  symm
  apply untilProtocolError_eq_self
  intro error hmem
  obtain ⟨first, hfirst⟩ := exists_failed_of_mem hmem
  exact hclean first (h ▸ hfirst)

/-- The outcomes of the buffered reader, cut at the first refusal, are those of as many
calls of the decoder on the unsplit connection. -/
theorem untilProtocolError_bufferedResults (answers : List (Recv UInt8)) (calls : ℕ) :
    untilProtocolError (bufferedResults calls {} answers) =
      frameDecoder.calls (bufferedResults calls {} answers).length (Recv.stream answers) := by
  have hpolls := untilProtocolError_buffered calls BufferedBrokerFrameReader.holds_new answers
  obtain ⟨n, -, heq, hlength⟩ := frameDecoder.polls_eq_calls calls [] answers
  rw [List.nil_append] at heq
  by_cases hclean : ∀ error, .failed error ∉ frameDecoder.polls calls [] answers
  · -- Nothing is refused: every call that did not time out counts.
    have hsame := eq_of_untilProtocolError hpolls hclean
    rw [hpolls, heq, hsame, (hlength hclean).1]
  · -- Something is refused: calls after the first refusal do not matter.
    push Not at hclean
    obtain ⟨error, hfailed⟩ := hclean
    rw [hpolls, heq]
    rw [heq] at hfailed
    symm
    apply frameDecoder.calls_of_failed hfailed
    rw [← heq, ← hpolls]
    exact untilProtocolError_length_le _

/-- **The buffered reader is `receive_frame` on the unsplit connection.**  However the
bytes are cut and whatever timeouts come between, the outcomes of any number of calls
are those of as many calls of `receive_frame`, up to and including the first
`BrokerProtocolError`; only a timeout makes a call return nothing.  Where the bytes are
those of sent messages, both give the messages, each once and in order, and then the end
of the connection. -/
theorem buffered_reader_equivalent (answers : List (Recv UInt8)) (calls : ℕ) :
    calls ≤ (bufferedResults calls {} answers).length + Recv.timeouts answers ∧
      untilProtocolError (bufferedResults calls {} answers) =
        untilProtocolError (blockingResults (bufferedResults calls {} answers).length
          (Recv.stream answers)) ∧
      ∀ (messages : List Frame) (sent : List Bytes), messages.mapM sendFrame = .ok sent →
        Recv.stream answers = sent.flatten →
          ∀ count, count = (bufferedResults calls {} answers).length →
            bufferedResults calls {} answers = framesThenEnd messages count ∧
              blockingResults count sent.flatten = framesThenEnd messages count := by
  refine ⟨calls_le_results calls {} answers, ?_, ?_⟩
  · rw [untilProtocolError_bufferedResults, untilProtocolError_blocking]
  · rintro messages sent hsent hstream count rfl
    have hcalls := calls_sendFrame hsent (bufferedResults calls {} answers).length
    have hclean := failed_not_mem_framesThenEnd messages (bufferedResults calls {} answers).length
    constructor
    · apply eq_of_untilProtocolError _ hclean
      rw [untilProtocolError_bufferedResults, hstream, hcalls]
    · apply eq_of_untilProtocolError _ hclean
      rw [untilProtocolError_blocking, hcalls]

/-- An output frame that arrives in two pieces around a timeout. -/
def cutOutput : List (Recv UInt8) :=
  [.chunk 2 [0], .timeout, .chunk 0 [0, 2, 7, 8]]

theorem buffered_reader_equivalent_cut :
    bufferedResults 3 {} cutOutput = framesThenEnd [⟨brokerFrameRawOutput, [7, 8]⟩] 2 := by
  have hequivalent := buffered_reader_equivalent cutOutput 3
  have hcount : 2 = (bufferedResults 3 {} cutOutput).length := by decide +kernel
  exact (hequivalent.2.2 [⟨brokerFrameRawOutput, [7, 8]⟩] [[2, 0, 0, 0, 2, 7, 8]] rfl rfl 2
    hcount).1

/-- A refused header in front of an empty control frame. -/
def refusedThenControl : List (Recv UInt8) :=
  [.chunk 9 [0, 0, 0, 0, 1, 0, 0, 0, 0]]

/-- After the first refusal the readers differ: `receive_frame` goes on behind the header,
the buffered reader refuses it again. -/
theorem readers_differ_after_refusal :
    bufferedResults 2 {} refusedThenControl =
        [.failed (.unknownFrameType 9), .failed (.unknownFrameType 9)] ∧
      blockingResults 2 (Recv.stream refusedThenControl) =
        [.failed (.unknownFrameType 9), .value ⟨brokerFrameControl, []⟩] := by
  decide +kernel

end Hearth.Broker
