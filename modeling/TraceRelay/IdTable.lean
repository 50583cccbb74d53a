import TraceRelay.Interleaving
import TraceRelay.Table

/-! The table that gives each distinct key a small positive id for good. -/

namespace TraceRelay

/-- The table holds the ids of the keys seen so far and the id that is drawn next. -/
structure IdTable (κ : Type) where
  ids : Table κ UInt32 := {}
  upcoming : UInt32 := 1
deriving DecidableEq, Repr

namespace IdTable

variable {κ : Type} [DecidableEq κ]

/-- The mark of a key whose registration is in progress. It is never handed out as an id. -/
def pending : UInt32 := 0

/-- The id of `key`, without registering it. A key that is still being registered has none. -/
def find? (table : IdTable κ) (key : κ) : Option UInt32 :=
  (table.ids.find? key).filter (· ≠ pending)

/-- The number of keys registered or claimed so far. -/
def size (table : IdTable κ) : Nat := table.ids.size

/-- The table holds no key yet. -/
def isEmpty (table : IdTable κ) : Bool := table.size = 0

end IdTable

/-- The access of the table that a lookup makes next. -/
inductive Resolution where
  /-- The lookup asks for the id of a key that is already registered. -/
  | lookup
  /-- The lookup claims the key by the mark of a pending registration, unless the key is there
  already. -/
  | claim
  /-- The lookup draws a fresh id for a key that has none. -/
  | draw
  /-- The lookup puts the drawn id in the place of that mark, if it still stands there. -/
  | replace (drawn : UInt32)
  /-- The lookup reads the id of a key that had one already when it was to be claimed. -/
  | reuse (found : UInt32)
  /-- The lookup reads the id that the key has got, its own or another caller's. -/
  | conclude (drawn : UInt32)
deriving DecidableEq, Repr

namespace Resolution

variable {κ : Type} [DecidableEq κ]

/-- One access of the table on behalf of `key`. What has to be announced is the id that this access
has put into the table; after the announcement the lookup goes on with `conclude`. -/
def step (key : κ) :
    Resolution → IdTable κ → Lookup Resolution UInt32 UInt32 × IdTable κ
  | .lookup, table =>
    match table.find? key with
    | some id => (.returns id, table)
    | none => (.continues .claim, table)
  | .claim, table =>
    match table.ids.find? key with
    | none =>
      (.continues .draw, { table with ids := table.ids.insert key IdTable.pending })
    | some id =>
      if id = IdTable.pending then (.continues .draw, table)
      else (.continues (.reuse id), table)
  | .draw, table =>
    (.continues (.replace table.upcoming), { table with upcoming := table.upcoming + 1 })
  | .replace drawn, table =>
    if table.ids.find? key = some IdTable.pending then
      (.announces drawn, { table with ids := table.ids.insert key drawn })
    else (.continues (.conclude drawn), table)
  | .reuse found, table => (.returns ((table.ids.find? key).getD found), table)
  | .conclude drawn, table => (.returns ((table.ids.find? key).getD drawn), table)

end Resolution

/-- A request for the id of `key` by a caller whose announcement, if it has to make one, ends as
told. -/
structure KeyRequest (κ ε : Type) where
  key : κ
  announcement : Outcome ε Unit
deriving DecidableEq, Repr

/-- A lookup together with its announcement. Other accesses can come between any two phases, and so
can calls that the announcement itself makes. -/
inductive Registration where
  | resolving (phase : Resolution)
  | announcing (id : UInt32)
deriving DecidableEq, Repr

namespace Registration

variable {κ ε : Type} [DecidableEq κ]

/-- One access of the table, or the end of the announcement. An announcement that does not succeed
ends the request, but the id stays in the table. -/
def step (request : KeyRequest κ ε) :
    Registration → IdTable κ → Progress Registration (Outcome ε UInt32) × IdTable κ
  | .resolving phase, table =>
    match phase.step request.key table with
    | (.continues phase, table) => (.continues (.resolving phase), table)
    | (.announces id, table) => (.continues (.announcing id), table)
    | (.returns id, table) => (.finished (.returned id), table)
  | .announcing id, table =>
    match request.announcement with
    | .returned () => (.continues (.resolving (.conclude id)), table)
    | .failed error => (.finished (.failed error), table)
    | .panicked message => (.finished (.panicked message), table)

/-- The announcement that a request makes in a phase: its key and the id. -/
def announcement? (request : KeyRequest κ ε) : Registration → Option (κ × UInt32)
  | .resolving _ => none
  | .announcing id => some (request.key, id)

/-- Requests for ids as jobs on a shared table. -/
def procedure :
    Procedure (IdTable κ) (KeyRequest κ ε) Registration (Outcome ε UInt32) where
  start _ := .resolving .lookup
  step := step

end Registration

end TraceRelay
