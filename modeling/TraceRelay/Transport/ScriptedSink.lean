import TraceRelay.Transport.Sink

/-! A sink that keeps what it takes and misbehaves as told. -/

namespace TraceRelay

/-- What a full sink does: it takes no byte, or it fails. -/
inductive SinkFullness where
  | takesNothing
  | fails
deriving DecidableEq, Repr, Inhabited

/-- The sink with its instructions, what it has taken, and how often it was called. -/
structure ScriptedSink where
  /-- The number of bytes that the sink still takes in all. -/
  capacity : Option Nat := none
  /-- What it does when it is full. -/
  fullness : SinkFullness := .fails
  /-- The error with which it fails. -/
  error : IoFailure := { message := "sink full" }
  /-- The number of bytes that one write call takes at most. -/
  chunk : Option Nat := none
  /-- Every write call whose number is a multiple of this one is interrupted. A multiple comes after
  another only if it is not 1, so 1 interrupts nothing. -/
  interruptEvery : Option Nat := none
  /-- Flushing fails. -/
  flushFails : Bool := false
  /-- The number of the write call that panics. -/
  panicAt : Option Nat := none
  /-- What each write call has put into the sink, the latest first. -/
  portions : List (List UInt8) := []
  writes : Nat := 0
  flushes : Nat := 0
deriving DecidableEq, Repr, Inhabited

namespace ScriptedSink

/-- The bytes that the sink has taken. -/
def taken (sink : ScriptedSink) : List UInt8 := sink.portions.reverse.flatten

/-- The write call with the given number is one to be interrupted. -/
def interrupts (sink : ScriptedSink) (call : Nat) : Bool :=
  match sink.interruptEvery with
  | none => false
  | some period => 2 ≤ period ∧ call % period = 0

/-- The number of bytes of a write call of `length` bytes that the sink takes. -/
def room (sink : ScriptedSink) (length : Nat) : Nat :=
  let chunked := match sink.chunk with
    | none => length
    | some chunk => min chunk length
  match sink.capacity with
  | none => chunked
  | some capacity => min chunked capacity

/-- The sink is full when its capacity is used up. -/
def isFull (sink : ScriptedSink) : Bool := sink.capacity = some 0

/-- One write call. -/
def write (bytes : List UInt8) (sink : ScriptedSink) : SinkAnswer × ScriptedSink :=
  let call := sink.writes + 1
  let called := { sink with writes := call }
  if sink.panicAt = some call then (.panicked "injected panic in sink", called)
  else if sink.interrupts call then (.interrupted, called)
  else if sink.isFull ∧ bytes ≠ [] then
    match sink.fullness with
    | .takesNothing => (.accepted 0, called)
    | .fails => (.failed sink.error, called)
  else
    let count := sink.room bytes.length
    (.accepted count,
      { called with
        capacity := sink.capacity.map (· - count)
        portions := bytes.take count :: sink.portions })

/-- One flush call. -/
def flush (sink : ScriptedSink) : Outcome IoFailure Unit × ScriptedSink :=
  (if sink.flushFails then .failed sink.error else .returned (),
    { sink with flushes := sink.flushes + 1 })

/-- Only the next call can be interrupted in a row, if any. -/
def patience (sink : ScriptedSink) : Nat := if sink.interrupts (sink.writes + 1) then 1 else 0

theorem not_interrupts_succ (sink : ScriptedSink) (call : Nat)
    (interrupted : sink.interrupts call = true) : sink.interrupts (call + 1) = false := by
  unfold interrupts at *
  cases period : sink.interruptEvery with
  | none => rfl
  | some count =>
    simp only [period, decide_eq_true_eq] at interrupted
    have next : (call + 1) % count = 1 := by
      rw [Nat.add_mod, interrupted.2, Nat.zero_add, Nat.mod_mod]
      exact Nat.mod_eq_of_lt interrupted.1
    simp [next]

theorem patience_write_lt (bytes : List UInt8) (sink : ScriptedSink)
    (interrupted : (sink.write bytes).1 = .interrupted) :
    (sink.write bytes).2.patience < sink.patience := by
  unfold write at interrupted ⊢
  dsimp only at interrupted ⊢
  split at interrupted
  · cases interrupted
  · rename_i calm
    split at interrupted
    · rename_i hit
      have after :
          interrupts { sink with writes := sink.writes + 1 } (sink.writes + 1 + 1) = false :=
        not_interrupts_succ sink (sink.writes + 1) hit
      simp [calm, hit, patience, after]
    · split at interrupted
      · split at interrupted <;> cases interrupted
      · cases interrupted

end ScriptedSink

instance : PatientSink ScriptedSink where
  write bytes sink := sink.write bytes
  flush sink := sink.flush
  patience sink := sink.patience
  patience_lt := ScriptedSink.patience_write_lt

end TraceRelay
