import Mathlib.Algebra.GroupWithZero.Nat
import TraceRelay.Threads.Tracker

/-! The threads that a tracker remembers. -/

namespace TraceRelay

/-- The memos of a tracker after `enrolled` threads have got an id, and what a reader knows about
these ids. What the reader knows about the exempt thread need not be in its memo yet. -/
structure Roster (tracked : TrackedHost) (known : Table ThreadId String) (enrolled : Nat)
    (exempt : Option Thread) : Prop where
  upcoming : tracked.tracker.upcoming = UInt32.ofNat enrolled
  below : ∀ thread memo, tracked.memo? thread = some memo → memo.id.toNat < enrolled
  distinct : ∀ thread other memo otherMemo, tracked.memo? thread = some memo →
    tracked.memo? other = some otherMemo → memo.id = otherMemo.id → thread = other
  told : ∀ thread memo name, exempt ≠ some thread → tracked.memo? thread = some memo →
    memo.announced = some name → known.find? memo.id = some name

/-- The number of threads that get an id when a lookup of the thread's id makes an access. -/
def Identification.enrols (tracked : TrackedHost) (thread : Thread) : Identification → Nat
  | .consult _ => if (tracked.memo? thread).isNone then 1 else 0
  | _ => 0

theorem TrackedHost.memo?_remember (tracked : TrackedHost) (thread other : Thread)
    (memo : ThreadMemo) : (tracked.remember thread memo).memo? other =
      if other = thread then some memo else tracked.memo? other := by
  simp [memo?, remember, ThreadMemos.find?_put]

namespace Roster

variable {tracked after : TrackedHost} {known : Table ThreadId String} {enrolled : Nat}
  {exempt : Option Thread}

/-- A tracker without memos. -/
theorem empty (new : tracked.tracker.upcoming = 0)
    (without : ∀ thread, tracked.memo? thread = none) : Roster tracked {} 0 none := by
  constructor
  · exact new
  · intro thread memo found
    rw [without] at found
    cases found
  · intro thread other memo otherMemo found
    rw [without] at found
    cases found
  · intro thread memo name _ found
    rw [without] at found
    cases found

/-- Memos may get lost. -/
theorem forget (roster : Roster tracked known enrolled exempt)
    (tracker : after.tracker.upcoming = tracked.tracker.upcoming)
    (kept : ∀ thread memo, after.memo? thread = some memo → tracked.memo? thread = some memo) :
    Roster after known enrolled exempt := by
  constructor
  · rw [tracker]
    exact roster.upcoming
  · intro thread memo found
    exact roster.below thread memo (kept thread memo found)
  · intro thread other memo otherMemo found foundOther
    exact roster.distinct thread other memo otherMemo (kept thread memo found)
      (kept other otherMemo foundOther)
  · intro thread memo name free found
    exact roster.told thread memo name free (kept thread memo found)

/-- A new thread gets the next id. -/
theorem enroll (roster : Roster tracked known enrolled none) (room : enrolled < 2 ^ 32)
    (thread : Thread) : Roster { tracked.remember thread { id := tracked.tracker.upcoming } with
      tracker := { tracked.tracker with upcoming := tracked.tracker.upcoming + 1 } }
      known (enrolled + 1) none := by
  have number : tracked.tracker.upcoming.toNat = enrolled := by
    rw [roster.upcoming]
    exact UInt32.toNat_ofNat_of_lt' room
  have memos (other : Thread) : ({ tracked.remember thread { id := tracked.tracker.upcoming } with
      tracker := { tracked.tracker with upcoming := tracked.tracker.upcoming + 1 } } :
      TrackedHost).memo? other =
        if other = thread then some { id := tracked.tracker.upcoming } else tracked.memo? other :=
    tracked.memo?_remember thread other { id := tracked.tracker.upcoming }
  -- as long as there is room, the number of the next id has not wrapped
  have fresh (other : Thread) (memo : ThreadMemo) (found : tracked.memo? other = some memo) :
      memo.id ≠ tracked.tracker.upcoming := by
    intro same
    have bound := roster.below other memo found
    rw [same] at bound
    omega
  constructor
  · change tracked.tracker.upcoming + 1 = UInt32.ofNat (enrolled + 1)
    rw [roster.upcoming]
    exact (UInt32.ofNat_add enrolled 1).symm
  · intro other memo found
    rw [memos] at found
    split at found
    · cases found
      show tracked.tracker.upcoming.toNat < enrolled + 1
      omega
    · have bound := roster.below other memo found
      omega
  · intro one other memo otherMemo found foundOther same
    rw [memos] at found foundOther
    split at found <;> split at foundOther
    · rename_i first second
      rw [first, second]
    · cases found
      exact absurd same.symm (fresh other otherMemo foundOther)
    · cases foundOther
      exact absurd same (fresh one memo found)
    · exact roster.distinct one other memo otherMemo found foundOther same
  · intro other memo name free found announced
    rw [memos] at found
    split at found
    · cases found
      cases announced
    · exact roster.told other memo name free found announced

/-- A reader learns the name of a thread before its memo is brought up to date. -/
theorem learn {thread : Thread} {memo : ThreadMemo} (roster : Roster tracked known enrolled none)
    (found : tracked.memo? thread = some memo) (name : String) :
    Roster tracked (known.insert memo.id name) enrolled (some thread) := by
  constructor
  · exact roster.upcoming
  · exact roster.below
  · exact roster.distinct
  · intro other otherMemo otherName free foundOther announced
    have different : otherMemo.id ≠ memo.id := by
      intro same
      have own := roster.distinct other thread otherMemo memo foundOther found same
      exact free (congrArg some own.symm)
    rw [Table.find?_insert, if_neg different]
    exact roster.told other otherMemo otherName (by simp) foundOther announced

/-- The memo of a thread is brought up to date with what a reader knows. -/
theorem settle {thread : Thread} {memo : ThreadMemo} {name : String}
    (roster : Roster tracked known enrolled (some thread))
    (found : tracked.memo? thread = some memo) (told : known.find? memo.id = some name) :
    Roster (tracked.remember thread { memo with announced := some name }) known enrolled none := by
  have memos (other : Thread) :
      (tracked.remember thread { memo with announced := some name }).memo? other =
        if other = thread then some { memo with announced := some name }
        else tracked.memo? other :=
    tracked.memo?_remember thread other { memo with announced := some name }
  constructor
  · exact roster.upcoming
  · intro other otherMemo foundOther
    rw [memos] at foundOther
    split at foundOther
    · cases foundOther
      exact roster.below thread memo found
    · exact roster.below other otherMemo foundOther
  · intro one other oneMemo otherMemo foundOne foundOther same
    rw [memos] at foundOne foundOther
    split at foundOne <;> split at foundOther
    · rename_i first second
      rw [first, second]
    · rename_i first second
      cases foundOne
      rw [first]
      exact roster.distinct thread other memo otherMemo found foundOther same
    · rename_i first second
      cases foundOther
      rw [second]
      exact roster.distinct one thread oneMemo memo foundOne found same
    · exact roster.distinct one other oneMemo otherMemo foundOne foundOther same
  · intro other otherMemo otherName _ foundOther announced
    rw [memos] at foundOther
    split at foundOther
    · cases foundOther
      cases announced
      exact told
    · rename_i different
      have free : some thread ≠ some other := by
        intro same
        exact different (Option.some.inj same).symm
      exact roster.told other otherMemo otherName free foundOther announced

end Roster

end TraceRelay
