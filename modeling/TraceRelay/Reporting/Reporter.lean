import TraceRelay.IdTable
import TraceRelay.Threads.Tracker
import TraceRelay.Transport.Supply

/-! The reporter: the state that all calls reporting to it share. -/

namespace TraceRelay

/-- The reporter writes events by `encoder` into buffers of `supply`, counts them, and holds the ids
of the methods, exceptions and threads that they name. -/
structure Reporter (π ε : Type) where
  supply : π
  encoder : ε
  /-- The clock, in nanoseconds, when the reporter was created. -/
  createdAt : Nat
  numbering : Numbering := {}
  methods : IdTable String := {}
  exceptions : IdTable String := {}
  tracker : Tracker
deriving DecidableEq, Repr

namespace Reporter

variable {π ε : Type}

/-- The time since the reporter was created, when the clock shows `now` nanoseconds. -/
def elapsed (reporter : Reporter π ε) (now : Nat) : Timestamp :=
  Timestamp.ofNanoseconds (now - reporter.createdAt)

/-- The number that the next sequenced event gets. -/
def upcomingNumber (reporter : Reporter π ε) : UInt32 := reporter.numbering.upcoming

/-- A new reporter has a tracker of its own. -/
def create (supply : π) (encoder : ε) (names : NameSource) (host : Host) : Reporter π ε × Host :=
  let (tracker, host) := host.newTracker names
  ({ supply, encoder, createdAt := host.clock, tracker }, host)

/-- A reporter that a thread drops takes along its memo of that thread. -/
def drop (reporter : Reporter π ε) (thread : Thread) (host : Host) : Host :=
  { host with memos := host.memos.dropTracker thread reporter.tracker.key }

end Reporter

end TraceRelay
