/-! How computations end, and what a single access does to one that is still going on. -/

namespace TraceRelay

/-- A computation returns a value, reports an error, or panics and unwinds its caller. -/
inductive Outcome (ε α : Type) where
  | returned (value : α)
  | failed (error : ε)
  | panicked (message : String)
deriving DecidableEq, Repr, Inhabited

/-- One access either leads to the next phase or ends the computation. -/
inductive Progress (φ ρ : Type) where
  | continues (phase : φ)
  | finished (result : ρ)
deriving DecidableEq, Repr

/-- The move with its phase and its result rewritten. -/
def Progress.map {φ ψ ρ τ : Type} (phase : φ → ψ) (result : ρ → τ) : Progress φ ρ → Progress ψ τ
  | .continues next => .continues (phase next)
  | .finished value => .finished (result value)

/-- One access made while an id is looked up either leads to the next phase, or finds that something
has to be announced before the lookup goes on, or returns the id. -/
inductive Lookup (φ α ι : Type) where
  | continues (phase : φ)
  | announces (announcement : α)
  | returns (id : ι)
deriving DecidableEq, Repr

end TraceRelay
