import TraceRelay.Transport.Supply
import TraceRelay.Transport.Sink

/-! Buffers of bytes. No write to them is ever interrupted. -/

namespace TraceRelay

/-- A buffer whose contents are bytes. -/
class ByteBuffer (β : Type) extends Clearable β where
  contents : β → List UInt8

/-- The buffer grows with what is written to it. -/
structure GrowingBuffer where
  bytes : List UInt8 := []
deriving DecidableEq, Repr, Inhabited

instance : ByteBuffer GrowingBuffer where
  clear _ := {}
  contents buffer := buffer.bytes

instance : PatientSink GrowingBuffer where
  write bytes buffer := (.accepted bytes.length, { bytes := buffer.bytes ++ bytes })
  flush buffer := (.returned (), buffer)
  patience _ := 0
  patience_lt _ _ interrupted := by cases interrupted

/-- The buffer holds at most `capacity` bytes. -/
structure BoundedBuffer where
  capacity : Nat
  bytes : List UInt8 := []
deriving DecidableEq, Repr, Inhabited

namespace BoundedBuffer

/-- A write takes the bytes that still fit. Only when none fits does it fail. -/
def write (bytes : List UInt8) (buffer : BoundedBuffer) : SinkAnswer × BoundedBuffer :=
  let fitting := bytes.take (buffer.capacity - buffer.bytes.length)
  if fitting = [] ∧ bytes ≠ [] then (.failed { message := "buffer full" }, buffer)
  else (.accepted fitting.length, { buffer with bytes := buffer.bytes ++ fitting })

end BoundedBuffer

instance : ByteBuffer BoundedBuffer where
  clear buffer := { buffer with bytes := [] }
  contents buffer := buffer.bytes

instance : PatientSink BoundedBuffer where
  write := BoundedBuffer.write
  flush buffer := (.returned (), buffer)
  patience _ := 0
  patience_lt bytes buffer interrupted := by
    change (BoundedBuffer.write bytes buffer).1 = _ at interrupted
    unfold BoundedBuffer.write at interrupted
    dsimp only at interrupted
    split at interrupted <;> cases interrupted

end TraceRelay
