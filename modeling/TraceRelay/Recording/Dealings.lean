import TraceRelay.Recording.Archive
import TraceRelay.Session

/-! Dealings with an archive, one after the other. -/

namespace TraceRelay.Archive

/-- What can be done to an archive. -/
inductive Act where
  | turnDown (count : Nat)
  | setLending (fails : Bool)
  | setShipping (fails : Bool)
  | lend
  | ship (transcript : Transcript)
deriving DecidableEq, Repr

/-- What an act leads to. -/
inductive Answer where
  | told
  | lent (result : Except TransportFailure (Option Transcript))
  | shipped (result : Except TransportFailure Unit)
deriving Repr

/-- One act. -/
def perform : Act → Archive → Answer × Archive
  | .turnDown count, archive => (.told, archive.turnDown count)
  | .setLending fails, archive => (.told, archive.setLending fails)
  | .setShipping fails, archive => (.told, archive.setShipping fails)
  | .lend, archive => (.lent archive.lend.result, archive.lend.state)
  | .ship transcript, archive =>
    (.shipped (archive.ship transcript).result, (archive.ship transcript).state)

namespace Act

/-- The number of requests that the archive is told to turn down. -/
def refusals? : Act → Option Nat
  | .turnDown count => some count
  | _ => none

/-- What the archive is told about failing requests. -/
def lending? : Act → Option Bool
  | .setLending fails => some fails
  | _ => none

/-- What the archive is told about swallowing transcripts. -/
def shipping? : Act → Option Bool
  | .setShipping fails => some fails
  | _ => none

end Act

/-- A switch stands as it was set last, and it is off before it is set for the first time. -/
def isOn (switch : Act → Option Bool) (past : List (Act × Answer)) : Bool :=
  (Session.latest? (fun entry => switch entry.1) past).elim false Prod.fst

/-- The number in the latest order to turn requests down, and the dealings since that order. Before
the first order the number is zero. -/
def standingOrder (past : List (Act × Answer)) : Nat × List (Act × Answer) :=
  (Session.latest? (fun entry => entry.1.refusals?) past).getD (0, past)

/-- The archive has answered a request without failing. -/
def serves : Act × Answer → Bool
  | (.lend, .lent (.ok _)) => true
  | _ => false

/-- The archive has lent a transcript. -/
def lends : Act × Answer → Bool
  | (.lend, .lent (.ok (some _))) => true
  | _ => false

/-- The archive has been given a transcript. -/
def receives : Act × Answer → Bool
  | (.ship _, _) => true
  | _ => false

/-- The transcripts that the archive has been given while it was not told to swallow them, in
order. -/
def kept (past : List (Act × Answer)) : List Transcript :=
  (Session.moments past).filterMap fun
    | (earlier, .ship transcript, _) =>
      if isOn Act.shipping? earlier then none else some transcript
    | _ => none

end TraceRelay.Archive
