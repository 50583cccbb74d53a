import TraceRelay.Transport.CirculatingPool
import TraceRelay.Transport.ByteBuffer

/-! The consumer that writes every filled buffer of a pool to a sink and puts it back. -/

namespace TraceRelay

/-- The phases of a consumer, which knows whether it has been told to stop and how many bytes it has
handled. The 64-bit counter of these is taken to be large enough. -/
inductive Consumer (β : Type) where
  | starting
  | receiving (stopping : Bool) (handled : Nat)
  /-- The consumer has still to write the bytes `left` of `buffer`. -/
  | writing (stopping : Bool) (handled : Nat) (buffer : β) (left : List UInt8)
  | flushing (handled : Nat)
  | closing (outcome : Outcome IoFailure Unit)
deriving DecidableEq, Repr

/-- What one step of a consumer leads to. -/
inductive ConsumerTurn (β : Type) where
  | continues (phase : Consumer β)
  /-- The consumer waits for a message, and nothing has changed. -/
  | waits
  | ends (outcome : Outcome IoFailure Unit)
deriving DecidableEq, Repr

/-- A pool together with the sink to which a consumer writes its buffers. -/
structure Drain (β σ : Type) where
  pool : CirculatingPool β
  sink : σ
deriving DecidableEq, Repr

namespace Consumer

variable {β σ : Type}

/-- One access of the pool or of the sink. -/
def step [ByteBuffer β] [ByteSink σ] :
    Consumer β → Drain β σ → Transition (Drain β σ) (ConsumerTurn β)
  | .starting, drain =>
    { result := .continues (.receiving false 0), state := drain, log := [.consumerStarted] }
  | .receiving stopping handled, drain =>
    match drain.pool.receive with
    | (.message (.buffer buffer), pool) =>
      { result := .continues (.writing stopping handled buffer (ByteBuffer.contents buffer))
        state := { drain with pool } }
    | (.message .stop, pool) =>
      { result := .continues (.receiving true handled), state := { drain with pool } }
    | (.nothingYet, _) =>
      { result := if stopping then .continues (.flushing handled) else .waits, state := drain }
    | (.disconnected, _) => { result := .continues (.flushing handled), state := drain }
  | .writing stopping handled buffer [], drain =>
    { result := .continues
        (.receiving stopping (handled + (ByteBuffer.contents buffer).length))
      state := { drain with pool := drain.pool.putBack buffer } }
  | .writing stopping handled buffer (byte :: rest), drain =>
    match ByteSink.push (byte :: rest) drain.sink with
    | (.continues left, sink) =>
      { result := .continues (.writing stopping handled buffer left), state := { drain with sink } }
    | (.finished outcome, sink) =>
      { result := .continues (.closing outcome), state := { drain with sink } }
  | .flushing handled, drain =>
    let (outcome, sink) := ByteSink.flush drain.sink
    { result := .continues (.closing outcome)
      state := { drain with sink }
      log := if outcome = .returned () then [.consumerFinished handled] else [] }
  | .closing outcome, drain =>
    { result := .ends outcome, state := { drain with pool := drain.pool.dropReceiver } }

/-- The phases come in this order, from the last one up, while the channel and the bytes left stay
as they are. -/
def rank : Consumer β → Nat
  | .closing _ => 0
  | .flushing _ => 1
  | .receiving _ _ => 2
  | .writing _ _ _ _ => 3
  | .starting => 4

/-- The bytes that are still to be written from the buffer in hand. -/
def left : Consumer β → List UInt8
  | .writing _ _ _ left => left
  | _ => []

/-- A step that goes on has taken a message from the channel, or reached a later phase, or written a
byte, or used up patience of the sink. -/
theorem step_decreases [ByteBuffer β] [PatientSink σ] {consumer next : Consumer β}
    {drain : Drain β σ} (moved : (consumer.step drain).result = .continues next) :
    let after := (consumer.step drain).state
    after.pool.queued.length < drain.pool.queued.length ∨
      after.pool.queued = drain.pool.queued ∧
        (next.rank < consumer.rank ∨
          next.rank = consumer.rank ∧
            (next.left.length < consumer.left.length ∨
              next.left = consumer.left ∧
                PatientSink.patience after.sink < PatientSink.patience drain.sink)) := by
  intro after
  cases consumer with
  | starting => cases moved; exact Or.inr ⟨rfl, Or.inl (show 2 < 4 by decide)⟩
  | receiving stopping handled =>
    simp only [after]
    unfold step at moved ⊢
    dsimp only at moved ⊢
    split
    · rename_i received
      exact Or.inl (by simp [CirculatingPool.queued_of_receive received])
    · rename_i received
      exact Or.inl (by simp [CirculatingPool.queued_of_receive received])
    · rename_i received
      simp only [received] at moved
      cases stopping <;> cases moved
      exact Or.inr ⟨rfl, Or.inl (Nat.lt_succ_self 1)⟩
    · rename_i received
      simp only [received] at moved
      cases moved
      exact Or.inr ⟨rfl, Or.inl (Nat.lt_succ_self 1)⟩
  | writing stopping handled buffer left =>
    cases left with
    | nil =>
      cases moved
      refine Or.inr ⟨?_, Or.inl (Nat.lt_succ_self 2)⟩
      simp only [after, step, CirculatingPool.putBack]
      split <;> rfl
    | cons byte rest =>
      simp only [after]
      unfold step at moved ⊢
      dsimp only at moved ⊢
      split at moved
      · rename_i pushed
        cases moved
        have some_bytes : byte :: rest ≠ [] := by simp
        exact Or.inr ⟨rfl, Or.inr ⟨rfl, PatientSink.push_decreases some_bytes pushed⟩⟩
      · cases moved
        exact Or.inr ⟨rfl, Or.inl (Nat.succ_pos 2)⟩
  | flushing handled => cases moved; exact Or.inr ⟨rfl, Or.inl (Nat.lt_succ_self 0)⟩
  | closing outcome => cases moved

/-- The consumer runs until it waits for a message or has ended. -/
def run [ByteBuffer β] [PatientSink σ] (consumer : Consumer β) (drain : Drain β σ) :
    Transition (Drain β σ) (Consumer β ⊕ Outcome IoFailure Unit) :=
  match _ : (consumer.step drain).result with
  | .continues next =>
    let later := next.run (consumer.step drain).state
    { later with log := (consumer.step drain).log ++ later.log }
  | .waits => { consumer.step drain with result := .inl consumer }
  | .ends outcome => { consumer.step drain with result := .inr outcome }
termination_by (drain.pool.queued.length, consumer.rank, consumer.left.length,
  PatientSink.patience drain.sink)
decreasing_by
  rcases step_decreases ‹_› with fewer | ⟨same, later | ⟨phase, shorter | ⟨bytes, patience⟩⟩⟩
  · exact Prod.Lex.left _ _ fewer
  · rw [same]
    exact Prod.Lex.right _ (Prod.Lex.left _ _ later)
  · rw [same, phase]
    exact Prod.Lex.right _ (Prod.Lex.right _ (Prod.Lex.left _ _ shorter))
  · rw [same, phase, bytes]
    exact Prod.Lex.right _ (Prod.Lex.right _ (Prod.Lex.right _ patience))

/-- What is logged by the one who stops a consumer, once it has ended. -/
def stopLog : Outcome IoFailure Unit → List LogEntry
  | .returned () => []
  | .failed error => [.consumerFailed error]
  | .panicked _ => [.consumerPanicked]

end Consumer

end TraceRelay
