import TraceRelay.Recording.Scribe
import TraceRelay.Session

/-! A scribe at a desk full of transcripts. -/

namespace TraceRelay

/-- The fault spoils a write of the kind. -/
def FaultPoint.hits : FaultPoint → EventKind → Bool
  | .panic, _ => true
  | .write kind, written => kind = written

/-- A scribe, and the transcripts that lie at the places of its desk. -/
structure Desk (ι : Type) where
  scribe : Scribe := {}
  transcripts : ι → Transcript

namespace Desk

variable {ι : Type}

/-- What can be done at a desk. -/
inductive Act (ι : Type) where
  | arm (point : FaultPoint)
  | write (place : ι) (event : Event)
deriving DecidableEq, Repr

/-- What an act leads to. -/
inductive Answer where
  | told
  | wrote (outcome : Outcome IoFailure Unit)
deriving DecidableEq, Repr

/-- One act. A write changes the transcript at its place. -/
def perform [DecidableEq ι] : Act ι → Desk ι → Answer × Desk ι
  | .arm point, desk => (.told, { desk with scribe := desk.scribe.arm point })
  | .write place event, desk =>
    let attempt := desk.scribe.encode event (desk.transcripts place)
    (.wrote attempt.outcome,
      { scribe := attempt.encoder
        transcripts := fun other =>
          if other = place then attempt.buffer else desk.transcripts other })

/-- The fault that the scribe is told to make. -/
def Act.point? : Act ι → Option FaultPoint
  | .arm point => some point
  | .write _ _ => none

@[simp] theorem Act.point?_arm (point : FaultPoint) :
    (Act.arm point : Act ι).point? = some point := rfl

@[simp] theorem Act.point?_write (place : ι) (event : Event) :
    (Act.write place event).point? = none := rfl

/-- The act is a write that the fault spoils. -/
def Act.isHitBy (point : FaultPoint) : Act ι → Bool
  | .arm _ => false
  | .write _ event => point.hits event.kind

@[simp] theorem Act.isHitBy_write (point : FaultPoint) (place : ι) (event : Event) :
    (Act.write place event).isHitBy point = point.hits event.kind := rfl

/-- The entry of a write that has failed or panicked. -/
def isSpoilt : Act ι × Answer → Bool
  | (.write _ _, .wrote outcome) => outcome ≠ .returned ()
  | _ => false

/-- The fault of the latest order, if no write since has been hit by it. -/
def pending? (past : List (Act ι × Answer)) : Option FaultPoint :=
  match Session.latest? (fun entry => entry.1.point?) past with
  | some (point, since) =>
    if since.any fun entry => entry.1.isHitBy point then none else some point
  | none => none

/-- The number of orders to spoil a write. -/
def orders (past : List (Act ι × Answer)) : Nat :=
  past.countP fun entry => entry.1.point?.isSome

/-- The number of orders that came while the fault of an earlier one was pending. -/
def replacements (past : List (Act ι × Answer)) : Nat :=
  (Session.moments past).countP fun (earlier, entry) =>
    entry.1.point?.isSome && (pending? earlier).isSome

/-- What the writes have left in the transcript at a place. -/
def written [DecidableEq ι] (place : ι) (past : List (Act ι × Answer)) : List TranscriptEntry :=
  past.filterMap fun
    | (.write own event, .wrote outcome) =>
      if own = place then
        some (if outcome = .returned () then .complete event else .torn event.kind)
      else none
    | _ => none

end Desk

end TraceRelay
