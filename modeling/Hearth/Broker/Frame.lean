import Hearth.Library.Incremental
import Hearth.Library.Outcome
import Hearth.Replay.Text

/-!
# Broker frames

The frames of `fork_broker_protocol.py`: one byte of type, four bytes of size and the
payload.  `receive_frame` reads one frame from a connection and waits for it;
`BufferedBrokerFrameReader` takes what the connection has, keeps it over the timeouts
of its caller and returns a frame once it is complete.

A connection is the bytes the peer has sent before it closed.  `_recv_exact` raises
`EOFError` at the end of them, which is the outcome `ended`.
-/

namespace Hearth.Broker

open Hearth.Library

def brokerFrameControl : ℕ := 1
def brokerFrameRawOutput : ℕ := 2
def brokerFrameHeaderSize : ℕ := 5
def brokerMaxControlBytes : ℕ := 1024 * 1024
def brokerMaxRawBytes : ℕ := 4 * 1024 * 1024

/-- `BrokerProtocolError`, as far as frames raise it. -/
inductive BrokerProtocolError
  | unknownFrameType (frameType : ℕ)
  | frameExceeds (maximum : ℕ)
  deriving DecidableEq, Repr

/-- The text of the exception. -/
def BrokerProtocolError.message : BrokerProtocolError → String
  | .unknownFrameType frameType => "unknown broker frame type: " ++ toString frameType
  | .frameExceeds maximum => "broker frame exceeds " ++ toString maximum ++ " bytes"

/-- The bound on the payload of a frame. -/
def maximumBytes (frameType : ℕ) : ℕ :=
  if frameType = brokerFrameControl then brokerMaxControlBytes else brokerMaxRawBytes

/-- A type and a size that a frame may have. -/
structure Header where
  frameType : ℕ
  payloadSize : ℕ
  known : frameType = brokerFrameControl ∨ frameType = brokerFrameRawOutput
  bounded : payloadSize ≤ maximumBytes frameType

/-- A frame as it is handed over. -/
structure Frame where
  frameType : ℕ
  payload : Bytes
  deriving DecidableEq, Repr

/-- The two checks that sender and receivers make on a frame. -/
def admitHeader (frameType payloadSize : ℕ) : Except BrokerProtocolError Header :=
  if known : frameType = brokerFrameControl ∨ frameType = brokerFrameRawOutput then
    if bounded : payloadSize ≤ maximumBytes frameType then
      .ok ⟨frameType, payloadSize, known, bounded⟩
    else .error (.frameExceeds (maximumBytes frameType))
  else .error (.unknownFrameType frameType)

/-- `BROKER_FRAME_HEADER.pack`, big-endian. -/
def packHeader (frameType payloadSize : ℕ) : Bytes :=
  [UInt8.ofNat frameType, UInt8.ofNat (payloadSize / 16777216), UInt8.ofNat (payloadSize / 65536),
    UInt8.ofNat (payloadSize / 256), UInt8.ofNat payloadSize]

/-- `BROKER_FRAME_HEADER.unpack` of five bytes. -/
def unpackHeader (raw : Bytes) : ℕ × ℕ :=
  ((raw.headD 0).toNat, raw.tail.foldl (fun size byte => size * 256 + byte.toNat) 0)

/-- `send_frame`: the bytes that are sent. -/
def sendFrame (frame : Frame) : Except BrokerProtocolError Bytes := do
  let header ← admitHeader frame.frameType frame.payload.length
  return packHeader header.frameType header.payloadSize ++ frame.payload

/-! ## The blocking reader -/

/-- `_recv_exact`: the bytes and the rest of the connection, unless the peer closed
before it sent so many. -/
def recvExact (connection : Bytes) (size : ℕ) : Option (Bytes × Bytes) :=
  if connection.length < size then none else some (connection.take size, connection.drop size)

/-- `receive_frame`: its outcome and the rest of the connection. -/
def receiveFrame (connection : Bytes) : Outcome Frame BrokerProtocolError × Bytes :=
  match recvExact connection brokerFrameHeaderSize with
  | none => (.ended, [])
  | some (raw, connection) =>
      match admitHeader (unpackHeader raw).1 (unpackHeader raw).2 with
      | .error error => (.failed error, connection)
      | .ok header =>
          match recvExact connection header.payloadSize with
          | none => (.ended, [])
          | some (payload, connection) => (.value ⟨header.frameType, payload⟩, connection)

/-- The outcomes of that many calls of `receive_frame`. -/
def blockingResults : ℕ → Bytes → List (Outcome Frame BrokerProtocolError)
  | 0, _ => []
  | calls + 1, connection =>
      (receiveFrame connection).1 :: blockingResults calls (receiveFrame connection).2

/-! ## The buffered reader -/

/-- `BufferedBrokerFrameReader`.  `_frame_type` and `_payload_size` are set and cleared
together, after the checks; `header` is the pair. -/
structure BufferedBrokerFrameReader where
  buffer : Bytes := []
  header : Option Header := none

namespace BufferedBrokerFrameReader

/-- The first block of the loop of `receive`. -/
def readHeader (reader : BufferedBrokerFrameReader) :
    Except BrokerProtocolError BufferedBrokerFrameReader :=
  match reader.header with
  | some _ => .ok reader
  | none =>
      if brokerFrameHeaderSize ≤ reader.buffer.length then
        let raw := unpackHeader (reader.buffer.take brokerFrameHeaderSize)
        match admitHeader raw.1 raw.2 with
        | .error error => .error error
        | .ok header => .ok ⟨reader.buffer.drop brokerFrameHeaderSize, some header⟩
      else .ok reader

/-- The second block of the loop: the frame, if it is complete. -/
def takeFrame (reader : BufferedBrokerFrameReader) : Option (Frame × BufferedBrokerFrameReader) :=
  match reader.header with
  | none => none
  | some header =>
      if header.payloadSize ≤ reader.buffer.length then
        some (⟨header.frameType, reader.buffer.take header.payloadSize⟩,
          ⟨reader.buffer.drop header.payloadSize, none⟩)
      else none

/-- Both blocks; the reader is as it was where the header is refused. -/
inductive Attempt
  | refused (error : BrokerProtocolError)
  | complete (frame : Frame) (reader : BufferedBrokerFrameReader)
  | partly (reader : BufferedBrokerFrameReader)

def attempt (reader : BufferedBrokerFrameReader) : Attempt :=
  match reader.readHeader with
  | .error error => .refused error
  | .ok reader =>
      match reader.takeFrame with
      | some (frame, reader) => .complete frame reader
      | none => .partly reader

/-- `receive`, with what the socket answers to `recv` from now on; once the answers are
used up the peer has closed.  No outcome is the returned `None`. -/
def receive (reader : BufferedBrokerFrameReader) : List (Recv UInt8) →
    Option (Outcome Frame BrokerProtocolError) × BufferedBrokerFrameReader × List (Recv UInt8)
  | [] =>
      match reader.attempt with
      | .refused error => (some (.failed error), reader, [])
      | .complete frame reader => (some (.value frame), reader, [])
      | .partly reader => (some .ended, reader, [])
  | answer :: answers =>
      match reader.attempt with
      | .refused error => (some (.failed error), reader, answer :: answers)
      | .complete frame reader => (some (.value frame), reader, answer :: answers)
      | .partly reader =>
          match answer with
          | .timeout => (none, reader, answers)
          | .chunk head tail =>
              receive { reader with buffer := reader.buffer ++ head :: tail } answers

end BufferedBrokerFrameReader

/-- The outcomes of that many calls of `receive`, without the timeouts. -/
def bufferedResults : ℕ → BufferedBrokerFrameReader → List (Recv UInt8) →
    List (Outcome Frame BrokerProtocolError)
  | 0, _, _ => []
  | calls + 1, reader, answers =>
      let received := reader.receive answers
      received.1.toList ++ bufferedResults calls received.2.1 received.2.2

/-- The outcomes up to and including the first `BrokerProtocolError`. -/
def untilProtocolError : List (Outcome Frame BrokerProtocolError) →
    List (Outcome Frame BrokerProtocolError)
  | [] => []
  | .failed error :: _ => [.failed error]
  | outcome :: outcomes => outcome :: untilProtocolError outcomes

/-! ## The frame decoder -/

/-- What the bytes of a connection begin with. -/
def nextFrame (bytes : Bytes) : Parse UInt8 Frame BrokerProtocolError :=
  if bytes.length < brokerFrameHeaderSize then .more
  else
    let raw := unpackHeader (bytes.take brokerFrameHeaderSize)
    match admitHeader raw.1 raw.2 with
    | .error error => .failed error
    | .ok header =>
        let rest := bytes.drop brokerFrameHeaderSize
        if rest.length < header.payloadSize then .more
        else .done ⟨header.frameType, rest.take header.payloadSize⟩ (rest.drop header.payloadSize)

section

variable {bytes later rest : Bytes} {frame : Frame} {error : BrokerProtocolError}

theorem nextFrame_eq_done : nextFrame bytes = .done frame rest ↔
    ∃ raw payload header, bytes = raw ++ (payload ++ rest) ∧ raw.length = brokerFrameHeaderSize ∧
      admitHeader (unpackHeader raw).1 (unpackHeader raw).2 = .ok header ∧
      payload.length = header.payloadSize ∧ frame = ⟨header.frameType, payload⟩ := by
  constructor
  · intro h
    unfold nextFrame at h
    split at h
    · cases h
    · rename_i hlength
      dsimp only at h
      split at h
      · cases h
      · rename_i header hadmitted
        split at h
        · cases h
        · rename_i hsize
          cases h
          refine ⟨bytes.take brokerFrameHeaderSize,
            (bytes.drop brokerFrameHeaderSize).take header.payloadSize, header, ?_, ?_, hadmitted, ?_, rfl⟩
          · rw [List.take_append_drop, List.take_append_drop]
          · rw [List.length_take]
            omega
          · rw [List.length_take]
            omega
  · rintro ⟨raw, payload, header, rfl, hraw, hadmitted, hpayload, rfl⟩
    have hlength : ¬ (raw ++ (payload ++ rest)).length < brokerFrameHeaderSize := by
      rw [List.length_append]
      omega
    have hsize : ¬ (payload ++ rest).length < header.payloadSize := by
      rw [List.length_append]
      omega
    unfold nextFrame
    rw [if_neg hlength]
    dsimp only
    rw [List.take_left' hraw, List.drop_left' hraw]
    simp only [hadmitted]
    rw [if_neg hsize, List.take_left' hpayload, List.drop_left' hpayload]

theorem nextFrame_eq_failed : nextFrame bytes = .failed error ↔
    ∃ raw body, bytes = raw ++ body ∧ raw.length = brokerFrameHeaderSize ∧
      admitHeader (unpackHeader raw).1 (unpackHeader raw).2 = .error error := by
  constructor
  · intro h
    unfold nextFrame at h
    split at h
    · cases h
    · rename_i hlength
      dsimp only at h
      split at h
      · rename_i hadmitted
        cases h
        refine ⟨_, _, (List.take_append_drop brokerFrameHeaderSize bytes).symm, ?_, hadmitted⟩
        rw [List.length_take]
        omega
      · split at h
        · cases h
        · cases h
  · rintro ⟨raw, body, rfl, hraw, hadmitted⟩
    have hlength : ¬ (raw ++ body).length < brokerFrameHeaderSize := by
      rw [List.length_append]
      omega
    unfold nextFrame
    rw [if_neg hlength]
    dsimp only
    rw [List.take_left' hraw]
    simp only [hadmitted]

/-- The frame decoder: five bytes decide the size, and the size decides the frame. -/
def frameDecoder : Decoder UInt8 Frame BrokerProtocolError where
  next := nextFrame
  next_nil := rfl
  done_append := by
    intro units value rest later h
    obtain ⟨raw, payload, header, rfl, hraw, hadmitted, hpayload, rfl⟩ := nextFrame_eq_done.mp h
    apply nextFrame_eq_done.mpr
    exact ⟨raw, payload, header, by simp only [List.append_assoc], hraw, hadmitted, hpayload, rfl⟩
  failed_append := by
    intro units error later h
    obtain ⟨raw, body, rfl, hraw, hadmitted⟩ := nextFrame_eq_failed.mp h
    apply nextFrame_eq_failed.mpr
    exact ⟨raw, body ++ later, by simp only [List.append_assoc], hraw, hadmitted⟩

end

end Hearth.Broker
