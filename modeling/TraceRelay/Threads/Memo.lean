import TraceRelay.Event
import TraceRelay.Table

/-! Threads, their names, and what each tracker remembers about each of them. -/

namespace TraceRelay

/-- The identity of a thread. A thread that is started anew is another thread. -/
structure Thread where
  number : Nat
deriving DecidableEq, Repr, Inhabited

/-- The current names of the threads that have one. -/
abbrev NamesByThread := Table Thread String

/-- The key that tells a tracker from all others, earlier ones included. The 64-bit counter of these
is taken to be large enough. -/
abbrev TrackerKey := Nat

/-- What one tracker remembers about one thread. -/
structure ThreadMemo where
  id : ThreadId
  /-- The name that the last successful announcement gave, if there was one. -/
  announced : Option String := none
deriving DecidableEq, Repr, Inhabited

/-- A memo is kept under its thread and the key of its tracker. -/
abbrev MemoKey := Thread × TrackerKey

/-- The memos about all threads of the process. -/
structure ThreadMemos where
  entries : Table MemoKey ThreadMemo := {}
  upcoming : TrackerKey := 0
deriving DecidableEq, Repr, Inhabited

namespace ThreadMemos

/-- What the tracker with the given key remembers about the thread. -/
def find? (memos : ThreadMemos) (thread : Thread) (tracker : TrackerKey) :
    Option ThreadMemo :=
  memos.entries.find? (thread, tracker)

/-- The memos with a new one for the thread and the tracker. -/
def put (memos : ThreadMemos) (thread : Thread) (tracker : TrackerKey)
    (memo : ThreadMemo) : ThreadMemos :=
  { memos with entries := memos.entries.insert (thread, tracker) memo }

/-- The end of a thread takes its memos away, whatever their tracker. -/
def endThread (memos : ThreadMemos) (thread : Thread) : ThreadMemos :=
  { memos with entries := memos.entries.keep fun key => key.1 ≠ thread }

/-- A tracker that is dropped loses its memo of the dropping thread only. -/
def dropTracker (memos : ThreadMemos) (thread : Thread) (tracker : TrackerKey) :
    ThreadMemos :=
  { memos with entries := memos.entries.erase (thread, tracker) }

theorem find?_put (memos : ThreadMemos) (thread other : Thread)
    (tracker otherTracker : TrackerKey) (memo : ThreadMemo) :
    (memos.put thread tracker memo).find? other otherTracker =
      if other = thread ∧ otherTracker = tracker then some memo
      else memos.find? other otherTracker := by
  simp [find?, put, Table.find?_insert]

theorem find?_endThread (memos : ThreadMemos) (thread other : Thread)
    (tracker : TrackerKey) :
    (memos.endThread thread).find? other tracker =
      if other = thread then none else memos.find? other tracker := by
  by_cases same : other = thread <;> simp [find?, endThread, Table.find?_keep, same]

theorem find?_dropTracker (memos : ThreadMemos) (thread other : Thread)
    (tracker otherTracker : TrackerKey) :
    (memos.dropTracker thread tracker).find? other otherTracker =
      if other = thread ∧ otherTracker = tracker then none
      else memos.find? other otherTracker := by
  simp [find?, dropTracker, Table.find?_erase]

end ThreadMemos

end TraceRelay
