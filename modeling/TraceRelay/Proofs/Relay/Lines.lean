import TraceRelay.Text.Line
import TraceRelay.Transport.ByteBuffer

/-! A buffer that grows holds each line that is written to it behind what it held. -/

namespace TraceRelay

variable {β : Type} [ByteBuffer β] [PatientSink β]

/-- Buffers that grow: of the bytes that one is given it takes some, unless it interrupts, and it
holds them behind those that it held. A cleared one is empty. -/
structure Growing (β : Type) [ByteBuffer β] [PatientSink β] : Prop where
  clear : ∀ buffer : β, ByteBuffer.contents (Clearable.clear buffer) = []
  write : ∀ (bytes : List UInt8) (buffer : β), bytes ≠ [] →
    ((ByteSink.write bytes buffer).1 = .interrupted ∧
      ByteBuffer.contents (ByteSink.write bytes buffer).2 = ByteBuffer.contents buffer) ∨
    ∃ count < bytes.length, (ByteSink.write bytes buffer).1 = .accepted (count + 1) ∧
      ByteBuffer.contents (ByteSink.write bytes buffer).2 =
        ByteBuffer.contents buffer ++ bytes.take (count + 1)

theorem growing_growingBuffer : Growing GrowingBuffer where
  clear _ := rfl
  write bytes buffer some_bytes := by
    obtain ⟨first, rest, rfl⟩ := List.exists_cons_of_ne_nil some_bytes
    refine .inr ⟨rest.length, Nat.lt_succ_self _, rfl, ?_⟩
    rw [← List.length_cons, List.take_length]
    rfl

/-- A growing buffer takes the first ones of the bytes that it is given. -/
theorem Growing.push (growing : Growing β) {bytes : List UInt8} (some_bytes : bytes ≠ [])
    (buffer : β) : ∃ left after portion, ByteSink.push bytes buffer = (.continues left, after) ∧
      portion ++ left = bytes ∧
      ByteBuffer.contents after = ByteBuffer.contents buffer ++ portion := by
  have answers := growing.write bytes buffer some_bytes
  rw [ByteSink.push]
  generalize ByteSink.write bytes buffer = answered at answers ⊢
  obtain ⟨answer, after⟩ := answered
  rcases answers with ⟨rfl, kept⟩ | ⟨count, -, rfl, grown⟩
  · exact ⟨bytes, after, [], rfl, rfl, kept.trans (List.append_nil _).symm⟩
  · exact ⟨bytes.drop (count + 1), after, bytes.take (count + 1), rfl, List.take_append_drop _ _,
      grown⟩

theorem Growing.writeAll (growing : Growing β) (bytes : List UInt8) (buffer : β) :
    ∃ after, TraceRelay.writeAll bytes buffer = (.returned (), after) ∧
      ByteBuffer.contents after = ByteBuffer.contents buffer ++ bytes := by
  induction bytes, buffer using TraceRelay.writeAll.induct with
  | case1 buffer =>
    exact ⟨buffer, by rw [TraceRelay.writeAll, dif_pos rfl], (List.append_nil _).symm⟩
  | case2 bytes buffer some_bytes left after pushed ih =>
    obtain ⟨left', after', portion, pushed', whole, grown⟩ := growing.push some_bytes buffer
    cases pushed.symm.trans pushed'
    obtain ⟨last, written, contents⟩ := ih
    refine ⟨last, ?_, by rw [contents, grown, List.append_assoc, whole]⟩
    rw [TraceRelay.writeAll, dif_neg some_bytes]
    split <;> simp_all
  | case3 bytes buffer some_bytes outcome after pushed =>
    obtain ⟨left, after', portion, pushed', -, -⟩ := growing.push some_bytes buffer
    cases pushed.symm.trans pushed'

theorem Growing.writePieces (growing : Growing β) (pieces : List (List UInt8)) (buffer : β) :
    ∃ after, TraceRelay.writePieces pieces buffer = (.returned (), after) ∧
      ByteBuffer.contents after = ByteBuffer.contents buffer ++ pieces.flatten := by
  induction pieces generalizing buffer with
  | nil => exact ⟨buffer, rfl, (List.append_nil _).symm⟩
  | cons piece pieces ih =>
    obtain ⟨next, first, grown⟩ := growing.writeAll piece buffer
    obtain ⟨after, rest, contents⟩ := ih next
    refine ⟨after, ?_, ?_⟩
    · rw [TraceRelay.writePieces, first]
      exact rest
    · rw [contents, grown, List.flatten_cons, List.append_assoc]

theorem textBytes_append (text more : String) :
    textBytes (text ++ more) = textBytes text ++ textBytes more := by
  simp [textBytes, String.toByteArray_append, ByteArray.data_append]

/-- The bytes of a text that is joined from pieces are those of the pieces. -/
theorem textBytes_join (pieces : List String) :
    textBytes (String.join pieces) = (pieces.map textBytes).flatten := by
  induction pieces with
  | nil => rfl
  | cons piece pieces ih =>
    rw [String.join_cons, textBytes_append, ih, List.map_cons, List.flatten_cons]

/-- An event is written into a growing buffer as its whole line. -/
theorem Growing.encode (growing : Growing β) (event : Event) (encoder : LineEncoder) (buffer : β) :
    (EventEncoder.encode event encoder buffer).outcome = .returned () ∧
      ByteBuffer.contents (EventEncoder.encode event encoder buffer).buffer =
        ByteBuffer.contents buffer ++ textBytes event.line := by
  obtain ⟨after, written, contents⟩ :=
    growing.writePieces ((event.pieces ++ ["\n"]).map textBytes) buffer
  have encoded : (EventEncoder.encode event encoder buffer) =
      { outcome := .returned (), encoder, buffer := after } := by
    simp only [EventEncoder.encode, written]
  rw [encoded, Event.line, textBytes_join]
  exact ⟨rfl, contents⟩

/-- The encoder of lines puts a whole line into a growing buffer and never fails. -/
theorem encoder_growingBuffer :
    (instEventEncoderLineEncoderOfPatientSink : EventEncoder LineEncoder GrowingBuffer) =
      { encode event encoder buffer :=
          { outcome := .returned (), encoder
            buffer := { bytes := buffer.bytes ++ textBytes event.line } } } := by
  refine congrArg EventEncoder.mk ?_
  funext event encoder buffer
  obtain ⟨succeeds, contents⟩ := growing_growingBuffer.encode event encoder buffer
  have kept : (EventEncoder.encode event encoder buffer).encoder = encoder := rfl
  have filled : (EventEncoder.encode event encoder buffer).buffer =
      { bytes := buffer.bytes ++ textBytes event.line } := congrArg GrowingBuffer.mk contents
  change EventEncoder.encode event encoder buffer = _
  generalize EventEncoder.encode event encoder buffer = attempt at succeeds kept filled ⊢
  obtain ⟨outcome, left, full⟩ := attempt
  cases succeeds
  cases kept
  cases filled
  rfl

end TraceRelay
