import TraceRelay.Recording.Archive
import TraceRelay.Recording.Scribe

/-! The orders to an archive and to the scribe that writes into its transcripts. -/

namespace TraceRelay

/-- What an archive or its scribe can be told while calls are going on. -/
inductive Directive where
  /-- The archive turns down the next `count` requests. -/
  | turnDown (count : Nat)
  | failLending (fails : Bool)
  | failShipping (fails : Bool)
  | spoil (point : FaultPoint)
deriving DecidableEq, Repr

namespace Directive

/-- The archive and the scribe after they have been told. -/
def obeyed (directive : Directive) (collaborators : Archive × Scribe) : Archive × Scribe :=
  let (archive, scribe) := collaborators
  match directive with
  | .turnDown count => (archive.turnDown count, scribe)
  | .failLending fails => (archive.setLending fails, scribe)
  | .failShipping fails => (archive.setShipping fails, scribe)
  | .spoil point => (archive, scribe.arm point)

/-- No order takes away what an archive has delivered. -/
@[simp] theorem delivered_obeyed (directive : Directive) (archive : Archive) (scribe : Scribe) :
    (directive.obeyed (archive, scribe)).1.delivered = archive.delivered := by
  cases directive <;> rfl

end Directive

end TraceRelay
