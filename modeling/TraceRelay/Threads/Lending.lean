import TraceRelay.Threads.Tracker

/-! Calls of one tracker that have the memos of their threads on loan. -/

namespace TraceRelay

/-- A call works on the memos of its thread when it consults its memo and when it brings the memo up
to date. -/
def Recognition.handlesMemos : Recognition → Bool
  | .identifying (.consult _) => true
  | .identifying (.settle _) => true
  | _ => false

/-- A tracker on its host, and the threads whose memos are on loan. -/
structure LendingHost where
  tracked : TrackedHost
  lent : List Thread := []
deriving DecidableEq, Repr

/-- A request of a thread for its own id, or what else can happen on the host. -/
inductive ThreadJob (ε : Type) where
  | request (request : ThreadRequest ε)
  /-- A thread is started, with a name or without. -/
  | start (name : Option String)
  | change (change : Host.Change)
deriving DecidableEq, Repr

/-- The host in another state, with the same tracker and the same memos on loan. -/
def LendingHost.onHost (lending : LendingHost) (host : Host) : LendingHost :=
  { lending with tracked := { lending.tracked with host } }

/-- How far a call has come, and whether it has the memos of its thread on loan. -/
structure Visit where
  phase : Recognition
  holds : Bool := false
deriving DecidableEq, Repr

namespace Visit

variable {ε : Type}

/-- One access of a call: it borrows the memos that it is going to work on, or it makes its next
move and gives back what it has borrowed. -/
def step (request : ThreadRequest ε) (visit : Visit) (host : LendingHost) :
    Progress Visit (Outcome ε ThreadId) × LendingHost :=
  if visit.phase.handlesMemos = true ∧ visit.holds = false then
    if request.thread ∈ host.lent then (.finished (.panicked "already borrowed"), host)
    else
      (.continues { visit with holds := true }, { host with lent := request.thread :: host.lent })
  else
    let (moved, tracked) := visit.phase.step request host.tracked
    let lent :=
      if visit.holds then host.lent.filter fun thread => thread ≠ request.thread else host.lent
    (moved.map (fun phase => { phase }) id, { tracked, lent })

/-- The calls of one tracker, and what else happens on its host. -/
def procedure : Procedure LendingHost (ThreadJob ε) Visit (Option (Outcome ε ThreadId)) where
  start _ := { phase := .identifying .readName }
  step
    | .request request, visit, host =>
      let (moved, host) := visit.step request host
      (moved.map id some, host)
    | .start name, _, host => (.finished none, host.onHost (host.tracked.host.startThread name).2)
    | .change change, _, host => (.finished none, host.onHost (host.tracked.host.apply change))

end Visit

end TraceRelay
