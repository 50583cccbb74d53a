import TraceRelay.Host
import TraceRelay.Interleaving

/-! The tracker that gives each thread a stable id and announces it under each new name. -/

namespace TraceRelay

/-- The tracker holds its key, the source of the names of threads, and the id that the next new
thread gets. -/
structure Tracker where
  key : TrackerKey
  names : NameSource := .given
  upcoming : ThreadId := 0
deriving DecidableEq, Repr, Inhabited

/-- A new tracker has a key of its own, so no memo of another tracker is ever its own. -/
def Host.newTracker (names : NameSource) (host : Host) : Tracker × Host :=
  let key := host.memos.upcoming
  ({ key, names }, { host with memos := { host.memos with upcoming := key + 1 } })

/-- The announcement of a thread: its id and its name. -/
structure ThreadAnnouncement where
  id : ThreadId
  name : String
deriving DecidableEq, Repr, Inhabited

/-- A tracker on its host. -/
structure TrackedHost where
  tracker : Tracker
  host : Host
deriving DecidableEq, Repr

namespace TrackedHost

/-- What the tracker remembers about a thread. -/
def memo? (tracked : TrackedHost) (thread : Thread) : Option ThreadMemo :=
  tracked.host.memos.find? thread tracked.tracker.key

/-- The tracker remembers a thread in a new way. -/
def remember (tracked : TrackedHost) (thread : Thread) (memo : ThreadMemo) : TrackedHost :=
  { tracked with
    host := { tracked.host with
      memos := tracked.host.memos.put thread tracked.tracker.key memo } }

end TrackedHost

/-- The access that a lookup of the calling thread's id makes next. -/
inductive Identification where
  /-- The lookup asks for the current name of the thread. -/
  | readName
  /-- The lookup consults the memo of the thread, and makes one for a new thread. -/
  | consult (name : String)
  /-- The lookup notes the announcement that has just succeeded. -/
  | settle (announcement : ThreadAnnouncement)
deriving DecidableEq, Repr

namespace Identification

/-- One access on behalf of the calling thread. A thread is announced when it has no successful
announcement under its current name, which is the empty one if it has none. -/
def step (thread : Thread) :
    Identification → TrackedHost →
      Lookup Identification ThreadAnnouncement ThreadId × TrackedHost
  | .readName, tracked =>
    let name := tracked.host.nameOf tracked.tracker.names thread
    (.continues (.consult (name.getD "")), tracked)
  | .consult name, tracked =>
    match tracked.memo? thread with
    | some memo =>
      if memo.announced = some name then (.returns memo.id, tracked)
      else (.announces { id := memo.id, name }, tracked)
    | none =>
      let id := tracked.tracker.upcoming
      let tracked := tracked.remember thread { id }
      (.announces { id, name },
        { tracked with tracker := { tracked.tracker with upcoming := id + 1 } })
  | .settle announcement, tracked =>
    match tracked.memo? thread with
    | some memo =>
      (.returns announcement.id,
        tracked.remember thread { memo with announced := some announcement.name })
    | none => (.returns announcement.id, tracked)

end Identification

/-- A request of a thread for its own id. Its announcement, if it has to make one, ends as told. -/
structure ThreadRequest (ε : Type) where
  thread : Thread
  announcement : Outcome ε Unit
deriving DecidableEq, Repr

/-- A lookup of the calling thread's id together with its announcement. -/
inductive Recognition where
  | identifying (phase : Identification)
  | announcing (announcement : ThreadAnnouncement)
deriving DecidableEq, Repr

namespace Recognition

variable {ε : Type}

/-- One access, or the end of the announcement. An announcement that does not succeed ends the
request and leaves the memo as it was. -/
def step (request : ThreadRequest ε) :
    Recognition → TrackedHost → Progress Recognition (Outcome ε ThreadId) × TrackedHost
  | .identifying phase, tracked =>
    match phase.step request.thread tracked with
    | (.continues phase, tracked) => (.continues (.identifying phase), tracked)
    | (.announces announcement, tracked) => (.continues (.announcing announcement), tracked)
    | (.returns id, tracked) => (.finished (.returned id), tracked)
  | .announcing announcement, tracked =>
    match request.announcement with
    | .returned () => (.continues (.identifying (.settle announcement)), tracked)
    | .failed error => (.finished (.failed error), tracked)
    | .panicked message => (.finished (.panicked message), tracked)

/-- The announcement that a request makes in a phase. -/
def announcement? (_request : ThreadRequest ε) : Recognition → Option ThreadAnnouncement
  | .identifying _ => none
  | .announcing announcement => some announcement

/-- Requests of threads for their ids as jobs on one tracker. -/
def procedure :
    Procedure TrackedHost (ThreadRequest ε) Recognition (Outcome ε ThreadId) where
  start _ := .identifying .readName
  step := step

end Recognition

end TraceRelay
