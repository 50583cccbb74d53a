import TraceRelay.Event
import TraceRelay.Log
import TraceRelay.Outcome

/-! The collaborators of a reporter: buffers, supplies of buffers, and encoders of events. -/

namespace TraceRelay

/-- A buffer can be emptied. -/
class Clearable (β : Type) where
  /-- The buffer without what was written to it. -/
  clear : β → β

/-- A supply of type `π` lends buffers and ships them. -/
class BufferSupply (π : Type) (β : outParam Type) where
  /-- The supply lends a buffer, has none to spare, or fails. -/
  lend : π → Transition π (Except TransportFailure (Option β))
  /-- The supply takes a buffer back and ships its contents. -/
  ship : β → π → Transition π (Except TransportFailure Unit)

/-- The end of an attempt to write an event: what became of it, the encoder and the buffer. -/
structure Attempt (ε β : Type) where
  outcome : Outcome IoFailure Unit
  encoder : ε
  buffer : β
deriving DecidableEq, Repr

/-- An encoder of type `ε` writes events into buffers. A write that fails may leave a part of the
event behind. -/
class EventEncoder (ε β : Type) where
  encode : Event → ε → β → Attempt ε β

end TraceRelay
