import TraceRelay.Outcome

/-! Several strands of work that take turns, in any order, on one shared state. -/

namespace TraceRelay

/-- How a job of type `κ` is carried out on a shared state of type `σ`. -/
structure Procedure (σ κ φ ρ : Type) where
  start : κ → φ
  step : κ → φ → σ → Progress φ ρ × σ

/-- The procedure with a record beside the shared state, to which every access adds what `note`
finds in its phase. -/
def Procedure.noting {σ κ φ ρ α : Type} (procedure : Procedure σ κ φ ρ) (note : κ → φ → Option α) :
    Procedure (σ × List α) κ φ ρ where
  start := procedure.start
  step job phase state :=
    let (moved, shared) := procedure.step job phase state.1
    (moved, shared, state.2 ++ (note job phase).toList)

/-- A strand of work: the jobs still to do, the one going on, and those that have ended. -/
structure Strand (κ φ ρ : Type) where
  jobs : List κ
  going : Option (κ × φ) := none
  /-- The jobs that have ended, with their results, the latest first. -/
  ended : List (κ × ρ) := []
deriving DecidableEq, Repr

namespace Strand

variable {σ κ φ ρ : Type}

/-- The strand has nothing left to do. -/
def isDone (strand : Strand κ φ ρ) : Bool := strand.jobs.isEmpty && strand.going.isNone

/-- The results so far, in the order in which they came. -/
def results (strand : Strand κ φ ρ) : List (κ × ρ) := strand.ended.reverse

/-- One access by the job that is going on, or the start of the next job. -/
def advance (procedure : Procedure σ κ φ ρ) (strand : Strand κ φ ρ) (shared : σ) :
    Strand κ φ ρ × σ :=
  match strand.going, strand.jobs with
  | some (job, phase), _ =>
    match procedure.step job phase shared with
    | (.continues phase, shared) => ({ strand with going := some (job, phase) }, shared)
    | (.finished result, shared) =>
      ({ strand with going := none, ended := (job, result) :: strand.ended }, shared)
  | none, job :: jobs =>
    ({ strand with going := some (job, procedure.start job), jobs }, shared)
  | none, [] => (strand, shared)

end Strand

/-- The strands and the state that they share. -/
structure Interleaving (σ κ φ ρ : Type) where
  shared : σ
  strands : List (Strand κ φ ρ)
deriving Repr

namespace Interleaving

variable {σ κ φ ρ : Type}

/-- No strand has anything left to do. -/
def isDone (interleaving : Interleaving σ κ φ ρ) : Bool := interleaving.strands.all Strand.isDone

/-- The strand with the given number makes the next access. Nothing happens if there is no such
strand. -/
def advance (procedure : Procedure σ κ φ ρ) (interleaving : Interleaving σ κ φ ρ)
    (number : Nat) : Interleaving σ κ φ ρ :=
  match interleaving.strands[number]? with
  | none => interleaving
  | some strand =>
    let (strand, shared) := strand.advance procedure interleaving.shared
    { shared, strands := interleaving.strands.set number strand }

/-- The strands make accesses in the order of the schedule. -/
def run (procedure : Procedure σ κ φ ρ) (interleaving : Interleaving σ κ φ ρ)
    (schedule : List Nat) : Interleaving σ κ φ ρ :=
  schedule.foldl (advance procedure) interleaving

/-- The results of all strands, strand by strand. -/
def results (interleaving : Interleaving σ κ φ ρ) : List (κ × ρ) :=
  interleaving.strands.flatMap (·.results)

end Interleaving

end TraceRelay
