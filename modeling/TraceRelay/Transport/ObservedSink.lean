import TraceRelay.Transport.Sink

/-! A sink with a record of its calls, and what it means that a sink never fails. -/

namespace TraceRelay

/-- A call of a sink, with its answer. -/
inductive SinkCall where
  | write (bytes : List UInt8) (answer : SinkAnswer)
  | flush (outcome : Outcome IoFailure Unit)
deriving DecidableEq, Repr

/-- The bytes that the sink took with a call. -/
def SinkCall.taken : SinkCall → List UInt8
  | .write bytes (.accepted count) => bytes.take count
  | _ => []

/-- What a write comes to with a call that fails. -/
def SinkCall.failure? : SinkCall → Option (Outcome IoFailure Unit)
  | .write _ (.accepted 0) => some (.failed .writeZero)
  | .write _ (.failed error) => some (.failed error)
  | .write _ (.panicked message) => some (.panicked message)
  | _ => none

/-- A sink with the calls that it was given. -/
structure ObservedSink (σ : Type) where
  sink : σ
  /-- The calls in order. -/
  calls : List SinkCall := []
deriving DecidableEq, Repr

namespace ObservedSink

variable {σ : Type}

/-- All bytes that the sink has taken. -/
def received (observed : ObservedSink σ) : List UInt8 := observed.calls.flatMap SinkCall.taken

/-- One write call. -/
def write [ByteSink σ] (bytes : List UInt8) (observed : ObservedSink σ) :
    SinkAnswer × ObservedSink σ :=
  let (answer, sink) := ByteSink.write bytes observed.sink
  (answer, { sink, calls := observed.calls ++ [.write bytes answer] })

/-- One flush call. -/
def flush [ByteSink σ] (observed : ObservedSink σ) : Outcome IoFailure Unit × ObservedSink σ :=
  let (outcome, sink) := ByteSink.flush observed.sink
  (outcome, { sink, calls := observed.calls ++ [.flush outcome] })

instance (priority := low) [ByteSink σ] : ByteSink (ObservedSink σ) where
  write := write
  flush := flush

instance [PatientSink σ] : PatientSink (ObservedSink σ) where
  write := write
  flush := flush
  patience observed := PatientSink.patience observed.sink
  patience_lt bytes observed := PatientSink.patience_lt bytes observed.sink

end ObservedSink

/-- Sinks for which `fine` holds never fail: of the bytes that they are given they take some, unless
they are interrupted, and they stay as fine as they are. -/
structure Obliging {σ : Type} [ByteSink σ] (fine : σ → Prop) : Prop where
  write : ∀ bytes sink, fine sink → bytes ≠ [] →
    fine (ByteSink.write bytes sink).2 ∧
      ((ByteSink.write bytes sink).1 = .interrupted ∨
        ∃ count < bytes.length, (ByteSink.write bytes sink).1 = .accepted (count + 1))
  flush : ∀ sink, fine sink →
    fine (ByteSink.flush sink).2 ∧ (ByteSink.flush sink).1 = .returned ()

end TraceRelay
