import TraceRelay.Transport.Consumer

/-! The guard of a consumer that works on a thread of its own. -/

namespace TraceRelay

/-- The guard holds a sending end of the pool's channel and its consumer: at work in some phase, or
ended. -/
structure Guard (β σ : Type) where
  consumer : Consumer β ⊕ Outcome IoFailure Unit := .inl .starting
  sink : σ
  /-- What has been logged on the consumer's thread. -/
  log : List LogEntry := []
deriving DecidableEq, Repr

namespace Guard

variable {β σ : Type}

/-- A consumer is spawned on the pool. -/
def spawn (sink : σ) (pool : CirculatingPool β) : Guard β σ × CirculatingPool β :=
  ({ sink }, pool.addSender)

/-- The consumer makes one step. One that waits or has ended does nothing. -/
def turn [ByteBuffer β] [ByteSink σ] (guard : Guard β σ) (pool : CirculatingPool β) :
    Guard β σ × CirculatingPool β :=
  match guard.consumer with
  | .inr _ => (guard, pool)
  | .inl phase =>
    let moved := phase.step { pool, sink := guard.sink }
    let consumer := match moved.result with
      | .continues next => .inl next
      | .waits => .inl phase
      | .ends outcome => .inr outcome
    ({ consumer, sink := moved.state.sink, log := guard.log ++ moved.log }, moved.state.pool)

variable [ByteBuffer β] [PatientSink σ]

/-- The consumer works until it has nothing to do for the moment. -/
def settle (guard : Guard β σ) (pool : CirculatingPool β) : Guard β σ × CirculatingPool β :=
  match guard.consumer with
  | .inr _ => (guard, pool)
  | .inl phase =>
    let moved := phase.run { pool, sink := guard.sink }
    ({ consumer := moved.result, sink := moved.state.sink, log := guard.log ++ moved.log },
      moved.state.pool)

/-- The guard is let go: the consumer is told to stop, works to its end, and a failure of it is
logged. It does not matter if the consumer has ended already. -/
def release (guard : Guard β σ) (pool : CirculatingPool β) :
    Transition (CirculatingPool β) (Guard β σ) :=
  let (guard, pool) := guard.settle (pool.enqueue .stop).state
  { result := guard
    state := pool.dropSender
    log := match guard.consumer with
      | .inl _ => []
      | .inr outcome => Consumer.stopLog outcome }

end Guard

end TraceRelay
