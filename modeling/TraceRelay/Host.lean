import TraceRelay.Threads.Memo

/-! The host of reporters and trackers: its clock, its threads with their names, and the memos. -/

namespace TraceRelay

/-- Where the name of a thread is looked up. -/
inductive NameSource where
  /-- A thread has the name that it was started with. -/
  | given
  /-- A thread has the name that it has taken on last. -/
  | scripted
deriving DecidableEq, Repr, Inhabited

/-- The host, at first with its main thread only. -/
structure Host where
  /-- The clock, in nanoseconds. -/
  clock : Nat := 0
  /-- The number of the thread that is started next. -/
  upcoming : Nat := 1
  givenNames : NamesByThread := ({} : NamesByThread).insert ⟨0⟩ "main"
  scriptedNames : NamesByThread := {}
  memos : ThreadMemos := {}
deriving DecidableEq, Repr

namespace Host

/-- The thread that runs first. -/
def mainThread : Thread := ⟨0⟩

/-- The current name of a thread, if it has one. -/
def nameOf (source : NameSource) (thread : Thread) (host : Host) : Option String :=
  match source with
  | .given => host.givenNames.find? thread
  | .scripted => host.scriptedNames.find? thread

/-- A thread is started, with a name or without. -/
def startThread (name : Option String) (host : Host) : Thread × Host :=
  let thread : Thread := ⟨host.upcoming⟩
  (thread,
    { host with
      upcoming := host.upcoming + 1
      givenNames := match name with
        | some name => host.givenNames.insert thread name
        | none => host.givenNames })

/-- What can happen to a host besides the work of its trackers and the start of threads. -/
inductive Change where
  /-- The clock goes on. -/
  | advance (nanoseconds : Nat)
  /-- A thread takes on a name. -/
  | rename (thread : Thread) (name : String)
  /-- A thread ends, and its memos with it. -/
  | endThread (thread : Thread)
deriving DecidableEq, Repr

/-- The host after a change. -/
def apply (host : Host) : Change → Host
  | .advance nanoseconds => { host with clock := host.clock + nanoseconds }
  | .rename thread name =>
    { host with scriptedNames := host.scriptedNames.insert thread name }
  | .endThread thread => { host with memos := host.memos.endThread thread }

end Host

end TraceRelay
