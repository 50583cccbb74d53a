import TraceRelay.Failure
import TraceRelay.Outcome

/-! Sinks that take bytes, and may take only some of those that one call offers. -/

namespace TraceRelay

/-- What a sink answers to one write call. -/
inductive SinkAnswer where
  | accepted (count : Nat)
  | interrupted
  | failed (error : IoFailure)
  | panicked (message : String)
deriving DecidableEq, Repr

/-- A sink takes bytes and can be flushed. -/
class ByteSink (σ : Type) where
  write : List UInt8 → σ → SinkAnswer × σ
  flush : σ → Outcome IoFailure Unit × σ

/-- A patient sink bounds by a number how many write calls in a row it can still interrupt. -/
class PatientSink (σ : Type) extends ByteSink σ where
  patience : σ → Nat
  patience_lt : ∀ (bytes : List UInt8) (sink : σ),
    (ByteSink.write bytes sink).1 = .interrupted →
      patience (ByteSink.write bytes sink).2 < patience sink

variable {σ : Type}

/-- One write call for `bytes`. It leads to the bytes that are left: all of them after an
interruption, the ones not taken otherwise. A sink that takes no byte has failed. -/
def ByteSink.push [ByteSink σ] (bytes : List UInt8) (sink : σ) :
    Progress (List UInt8) (Outcome IoFailure Unit) × σ :=
  match ByteSink.write bytes sink with
  | (.accepted 0, sink) => (.finished (.failed .writeZero), sink)
  | (.accepted (count + 1), sink) => (.continues (bytes.drop (count + 1)), sink)
  | (.interrupted, sink) => (.continues bytes, sink)
  | (.failed error, sink) => (.finished (.failed error), sink)
  | (.panicked message, sink) => (.finished (.panicked message), sink)

/-- A call that leaves work to do took a byte or used up patience. -/
theorem PatientSink.push_decreases [PatientSink σ] {bytes left : List UInt8} {sink after : σ}
    (some_bytes : bytes ≠ []) (pushed : ByteSink.push bytes sink = (.continues left, after)) :
    left.length < bytes.length ∨ left = bytes ∧ patience after < patience sink := by
  have interruption := patience_lt bytes sink
  have length_pos := List.length_pos_iff.2 some_bytes
  unfold ByteSink.push at pushed
  split at pushed
  · simp at pushed
  · obtain ⟨left_eq, rfl⟩ := Prod.mk.inj pushed
    cases left_eq
    left
    simp only [List.length_drop]
    omega
  · rename_i answered
    obtain ⟨left_eq, rfl⟩ := Prod.mk.inj pushed
    cases left_eq
    rw [answered] at interruption
    exact Or.inr ⟨rfl, interruption rfl⟩
  · simp at pushed
  · simp at pushed

/-- All of `bytes` are written, in as many calls as it takes, or the first call that fails ends the
write. -/
def writeAll [PatientSink σ] (bytes : List UInt8) (sink : σ) : Outcome IoFailure Unit × σ :=
  if _ : bytes = [] then (.returned (), sink)
  else
    match _ : ByteSink.push bytes sink with
    | (.continues left, after) => writeAll left after
    | (.finished outcome, after) => (outcome, after)
termination_by (bytes.length, PatientSink.patience sink)
decreasing_by
  rcases PatientSink.push_decreases ‹_› ‹_› with shorter | ⟨same, fewer⟩
  · exact Prod.Lex.left _ _ shorter
  · exact same ▸ Prod.Lex.right _ fewer

/-- The pieces are written one after the other, up to the first failure. -/
def writePieces [PatientSink σ] : List (List UInt8) → σ → Outcome IoFailure Unit × σ
  | [], sink => (.returned (), sink)
  | piece :: rest, sink =>
    match writeAll piece sink with
    | (.returned (), sink) => writePieces rest sink
    | stopped => stopped

end TraceRelay
