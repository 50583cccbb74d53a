import TraceRelay.IdTable

/-! A program on one thread that asks a table for ids, also while it announces other ids. -/

namespace TraceRelay

/-- A call of the table. The calls that a request comes with are those that its announcement makes,
if there is one. A program that decides by what its calls return is known by the calls that it does
make. -/
inductive Consultation (κ ε : Type) where
  | request (request : KeyRequest κ ε) (meanwhile : List (Consultation κ ε))
  | find (key : κ)
  | size

/-- What happens in a program, as it is noted down. -/
inductive Note (κ ε : Type) where
  | requested (request : KeyRequest κ ε)
  | announces (key : κ) (id : UInt32)
  /-- The request that began when there were `begun` notes ends. -/
  | answered (begun : Nat) (outcome : Outcome ε UInt32)
  | found (key : κ) (id : Option UInt32)
  | sized (count : Nat)
deriving DecidableEq, Repr

/-- A request that has begun and has not ended. -/
structure OpenRequest (κ ε : Type) where
  /-- The number of notes when the request began. -/
  begun : Nat
  request : KeyRequest κ ε
  /-- The calls that its announcement still has to make. -/
  meanwhile : List (Consultation κ ε)
  phase : Registration

/-- A program with the table that it asks, the calls that it still has to make, its open requests,
the innermost first, and the notes about all that has happened. -/
structure Dialogue (κ ε : Type) where
  table : IdTable κ := {}
  calls : List (Consultation κ ε)
  stack : List (OpenRequest κ ε) := []
  notes : List (Note κ ε) := []

namespace Dialogue

variable {κ ε : Type}

/-- The call that comes next, with the program as it is without it. Only an announcement makes calls
while a request is open. -/
def next? (dialogue : Dialogue κ ε) : Option (Consultation κ ε × Dialogue κ ε) :=
  match dialogue.stack with
  | [] =>
    match dialogue.calls with
    | [] => none
    | call :: calls => some (call, { dialogue with calls })
  | innermost :: outer =>
    match innermost.phase, innermost.meanwhile with
    | .announcing _, call :: meanwhile =>
      some (call, { dialogue with stack := { innermost with meanwhile } :: outer })
    | _, _ => none

/-- The program has made all its calls. -/
def isOver (dialogue : Dialogue κ ε) : Bool :=
  dialogue.calls.isEmpty && dialogue.stack.isEmpty

/-- The note about the announcement that a request makes in a phase, if there is one. -/
def announcementNotes (request : KeyRequest κ ε) (phase : Registration) : List (Note κ ε) :=
  (phase.announcement? request).toList.map fun (key, id) => .announces key id

variable [DecidableEq κ]

/-- A request becomes the innermost one. The other calls access the table once and are over. -/
def begin (dialogue : Dialogue κ ε) : Consultation κ ε → Dialogue κ ε
  | .request request meanwhile =>
    { dialogue with
      stack := ⟨dialogue.notes.length, request, meanwhile, Registration.procedure.start request⟩ ::
        dialogue.stack
      notes := dialogue.notes ++ [.requested request] }
  | .find key =>
    { dialogue with notes := dialogue.notes ++ [.found key (dialogue.table.find? key)] }
  | .size => { dialogue with notes := dialogue.notes ++ [.sized dialogue.table.size] }

/-- The next call begins, or the innermost request makes its next access of the table. -/
def step (dialogue : Dialogue κ ε) : Dialogue κ ε :=
  match dialogue.next?, dialogue.stack with
  | some (call, rest), _ => rest.begin call
  | none, [] => dialogue
  | none, innermost :: outer =>
    match Registration.step innermost.request innermost.phase dialogue.table with
    | (.continues phase, table) =>
      { dialogue with
        table
        stack := { innermost with phase } :: outer
        notes := dialogue.notes ++ announcementNotes innermost.request phase }
    | (.finished outcome, table) =>
      { dialogue with
        table
        stack := outer
        notes := dialogue.notes ++ [.answered innermost.begun outcome] }

/-- The program after a number of steps. -/
def run (calls : List (Consultation κ ε)) : Nat → Dialogue κ ε
  | 0 => { calls }
  | steps + 1 => (run calls steps).step

end Dialogue

end TraceRelay
