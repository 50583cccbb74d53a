import TraceRelay.Consultation
import TraceRelay.Proofs.IdTable.Accounting
import TraceRelay.Proofs.IdTable.Announcement

/-! On one thread a table numbers the keys in the order in which they are first requested. -/

namespace TraceRelay

variable {κ ε : Type} [DecidableEq κ]

namespace Note

/-- The key that a request begins with. -/
def requestedKey? : Note κ ε → Option κ
  | .requested request => some request.key
  | _ => none

/-- The key and the id that are announced. -/
def announced? : Note κ ε → Option (κ × UInt32)
  | .announces key id => some (key, id)
  | _ => none

/-- The keys that have been requested, in the order of their first requests. -/
def firstRequests (notes : List (Note κ ε)) : List κ := (notes.filterMap requestedKey?).eraseDups

/-- The announcements, in order. -/
def announced (notes : List (Note κ ε)) : List (κ × UInt32) := notes.filterMap announced?

/-- The place of a key in a list, counted from one. -/
def number (keys : List κ) (key : κ) : UInt32 := UInt32.ofNat (keys.idxOf key + 1)

/-- All keys of a list with their numbers. -/
def numbered (keys : List κ) : List (κ × UInt32) := keys.map fun key => (key, number keys key)

/-- The places of the requests among the notes. -/
def begins (notes : List (Note κ ε)) : List Nat :=
  (List.range notes.length).filter fun place => (notes[place]?.bind requestedKey?).isSome

/-- The place of the request that is answered. -/
def ends? : Note κ ε → Option Nat
  | .answered begun _ => some begun
  | _ => none

/-- The places of the requests that have been answered, in the order of their answers. -/
def ends (notes : List (Note κ ε)) : List Nat := notes.filterMap ends?

/-- What a note has to say after the notes that come before it. -/
def Due (earlier : List (Note κ ε)) : Note κ ε → Prop
  | .requested _ => True
  | .announces key id => announced earlier ++ [(key, id)] = numbered (firstRequests earlier)
  | .answered begun outcome =>
    ∃ request, earlier[begun]? = some (.requested request) ∧
      outcome =
        if request.key ∈ firstRequests (earlier.take begun) then
          .returned (number (firstRequests earlier) request.key)
        else Registration.answer request (number (firstRequests earlier) request.key)
  | .found key id =>
    id = if key ∈ firstRequests earlier then some (number (firstRequests earlier) key) else none
  | .sized count => count = (firstRequests earlier).length

omit [DecidableEq κ] in
theorem announced_concat (notes : List (Note κ ε)) (note : Note κ ε) :
    announced (notes ++ [note]) = announced notes ++ note.announced?.toList := by
  rw [announced, List.filterMap_append, filterMap_singleton]
  rfl

omit [DecidableEq κ] in
theorem begins_concat (notes : List (Note κ ε)) (note : Note κ ε) :
    begins (notes ++ [note]) =
      begins notes ++ if note.requestedKey?.isSome then [notes.length] else [] := by
  have old : (List.range notes.length).filter
      (fun place => ((notes ++ [note])[place]?.bind requestedKey?).isSome) = begins notes :=
    List.filter_congr fun place inside => by
      rw [List.getElem?_append_left (List.mem_range.mp inside)]
  rw [begins, List.length_append, List.length_singleton, List.range_succ, List.filter_append, old]
  simp [List.filter_cons]

omit [DecidableEq κ] in
theorem nodup_begins (notes : List (Note κ ε)) : (begins notes).Nodup :=
  List.nodup_range.filter _

omit [DecidableEq κ] in
theorem ends_concat (notes : List (Note κ ε)) (note : Note κ ε) :
    ends (notes ++ [note]) = ends notes ++ note.ends?.toList := by
  rw [ends, List.filterMap_append, filterMap_singleton]
  rfl

theorem firstRequests_requested (notes : List (Note κ ε)) (request : KeyRequest κ ε) :
    firstRequests (notes ++ [.requested request]) =
      if request.key ∈ firstRequests notes then firstRequests notes
      else firstRequests notes ++ [request.key] := by
  rw [firstRequests, List.filterMap_append, filterMap_singleton]
  exact (eraseDups_concat _ _).trans (by simp only [firstRequests, List.mem_eraseDups])

theorem firstRequests_silent (notes : List (Note κ ε)) {note : Note κ ε}
    (silent : note.requestedKey? = none) :
    firstRequests (notes ++ [note]) = firstRequests notes := by
  rw [firstRequests, List.filterMap_append, filterMap_singleton, silent]
  exact congrArg List.eraseDups (List.append_nil _)

theorem firstRequests_concat (notes : List (Note κ ε)) (note : Note κ ε) :
    firstRequests notes <+: firstRequests (notes ++ [note]) := by
  cases note with
  | requested request =>
    rw [firstRequests_requested]
    split
    · exact List.prefix_rfl
    · exact List.prefix_append _ _
  | announces | answered | found | sized =>
    exact ⟨[], (List.append_nil _).trans (Eq.symm (firstRequests_silent notes rfl))⟩

theorem number_mono {keys more : List κ} {key : κ} (grown : keys <+: more)
    (member : key ∈ keys) : number more key = number keys key := by
  obtain ⟨rest, rfl⟩ := grown
  rw [number, List.idxOf_append_of_mem member]
  rfl

theorem toNat_number {keys : List κ} {key : κ} (few : keys.length < 2 ^ 32 - 1)
    (member : key ∈ keys) : (number keys key).toNat = keys.idxOf key + 1 := by
  have place := List.idxOf_lt_length_of_mem member
  exact UInt32.toNat_ofNat_of_lt' (by change _ < 2 ^ 32; omega)

theorem number_ne_pending {keys : List κ} {key : κ} (few : keys.length < 2 ^ 32 - 1)
    (member : key ∈ keys) : number keys key ≠ IdTable.pending := by
  intro zero
  have positive := toNat_number few member
  rw [zero] at positive
  exact absurd positive (Nat.succ_ne_zero _).symm

theorem number_concat {keys : List κ} {key : κ} (new : key ∉ keys) :
    number (keys ++ [key]) key = UInt32.ofNat (keys.length + 1) := by
  rw [number, List.idxOf_append_of_notMem new, List.idxOf_cons_self, Nat.add_zero]

theorem numbered_concat {keys : List κ} {key : κ} (new : key ∉ keys) :
    numbered (keys ++ [key]) = numbered keys ++ [(key, UInt32.ofNat (keys.length + 1))] := by
  have kept : keys.map (fun old => (old, number (keys ++ [key]) old)) = numbered keys :=
    List.map_congr_left fun old member => by
      rw [number_mono (List.prefix_append keys [key]) member]
  rw [numbered, List.map_append, kept, List.map_singleton, number_concat new]

end Note

open Note

/-- The table has given their numbers to the keys of a list, and nothing else has happened to it. -/
structure IdTable.Numbers (table : IdTable κ) (listed : List κ) : Prop where
  keys : table.ids.keys = listed
  found : ∀ key ∈ listed, table.ids.find? key = some (number listed key)
  upcoming : table.upcoming = UInt32.ofNat (listed.length + 1)

namespace IdTable.Numbers

variable {table : IdTable κ} {keys : List κ} {key : κ}

theorem find?_of_mem (numbers : table.Numbers keys) (few : keys.length < 2 ^ 32 - 1)
    (member : key ∈ keys) : table.find? key = some (number keys key) :=
  IdTable.find?_eq_some.mpr ⟨numbers.found key member, number_ne_pending few member⟩

theorem absent (numbers : table.Numbers keys) (new : key ∉ keys) : table.ids.find? key = none := by
  rw [← Option.not_isSome_iff_eq_none, Table.isSome_find?, numbers.keys]
  exact new

theorem find?_eq (numbers : table.Numbers keys) (few : keys.length < 2 ^ 32 - 1) (key : κ) :
    table.find? key = if key ∈ keys then some (number keys key) else none := by
  split
  · rename_i member
    exact numbers.find?_of_mem few member
  · rename_i new
    exact IdTable.find?_eq_none.mpr (.inl (numbers.absent new))

/-- A new key gets the next number. -/
theorem insert (numbers : table.Numbers keys) (new : key ∉ keys) :
    IdTable.Numbers
      { ids := (table.ids.insert key IdTable.pending).insert key table.upcoming
        upcoming := table.upcoming + 1 } (keys ++ [key]) where
  keys := by
    have absent : key ∉ table.ids.keys := numbers.keys ▸ new
    have claimed : (table.ids.insert key IdTable.pending).keys = keys ++ [key] := by
      rw [Table.keys_insert, if_neg absent, numbers.keys]
    rw [Table.keys_insert, claimed, if_pos (List.mem_append_right _ (List.mem_singleton.mpr rfl))]
  found other member := by
    rw [Table.find?_insert, Table.find?_insert]
    by_cases own : other = key
    · rw [if_pos own, own, number_concat new, numbers.upcoming]
    · have old : other ∈ keys := by simpa [own] using member
      rw [if_neg own, if_neg own, numbers.found other old,
        number_mono (List.prefix_append keys [key]) old]
  upcoming := by
    rw [List.length_append, List.length_singleton, UInt32.ofNat_add, ← numbers.upcoming]
    rfl

end IdTable.Numbers

/-- The keys that have been requested have their numbers, and all of them have been announced. -/
structure IdTable.Settled (table : IdTable κ) (notes : List (Note κ ε)) : Prop where
  numbers : table.Numbers (firstRequests notes)
  announced : announced notes = numbered (firstRequests notes)

/-- A note that is neither a request nor an announcement leaves the table settled. -/
theorem IdTable.Settled.silent {table : IdTable κ} {notes : List (Note κ ε)}
    (settled : table.Settled notes) {note : Note κ ε} (unrequested : note.requestedKey? = none)
    (unannounced : note.announced? = none) : table.Settled (notes ++ [note]) where
  numbers := by
    rw [firstRequests_silent notes unrequested]
    exact settled.numbers
  announced := by
    rw [announced_concat, unannounced, firstRequests_silent notes unrequested]
    exact (List.append_nil _).trans settled.announced

namespace OpenRequest

/-- The request was the first one for its key and has given it its number. -/
structure Registers (notes : List (Note κ ε)) (frame : OpenRequest κ ε) (id : UInt32) : Prop where
  opened : notes[frame.begun]? = some (.requested frame.request)
  first : frame.request.key ∉ firstRequests (notes.take frame.begun)
  registered : frame.request.key ∈ firstRequests notes
  id : id = number (firstRequests notes) frame.request.key

theorem Registers.mono {notes : List (Note κ ε)} {frame : OpenRequest κ ε} {id : UInt32}
    (registers : frame.Registers notes id) (note : Note κ ε) :
    frame.Registers (notes ++ [note]) id := by
  have place := (List.getElem?_eq_some_iff.mp registers.opened).1
  have grown := firstRequests_concat notes note
  refine ⟨?_, ?_, grown.subset registers.registered, ?_⟩
  · rw [List.getElem?_append_left place, registers.opened]
  · rw [List.take_append_of_le_length (Nat.le_of_lt place)]
    exact registers.first
  · rw [number_mono grown registers.registered]
    exact registers.id

/-- What the phase of the innermost request says about the table and the notes. -/
inductive Stands : IdTable κ → List (Note κ ε) → OpenRequest κ ε → Prop
  | lookup {table : IdTable κ} {earlier : List (Note κ ε)} {request : KeyRequest κ ε}
      {meanwhile : List (Consultation κ ε)} (settled : table.Settled earlier) :
      Stands table (earlier ++ [.requested request])
        ⟨earlier.length, request, meanwhile, .resolving .lookup⟩
  | claim {table : IdTable κ} {earlier : List (Note κ ε)} {request : KeyRequest κ ε}
      {meanwhile : List (Consultation κ ε)} (settled : table.Settled earlier)
      (new : request.key ∉ firstRequests earlier) :
      Stands table (earlier ++ [.requested request])
        ⟨earlier.length, request, meanwhile, .resolving .claim⟩
  | draw {table : IdTable κ} {earlier : List (Note κ ε)} {request : KeyRequest κ ε}
      {meanwhile : List (Consultation κ ε)} (settled : table.Settled earlier)
      (new : request.key ∉ firstRequests earlier) :
      Stands { table with ids := table.ids.insert request.key IdTable.pending }
        (earlier ++ [.requested request])
        ⟨earlier.length, request, meanwhile, .resolving .draw⟩
  | replace {table : IdTable κ} {earlier : List (Note κ ε)} {request : KeyRequest κ ε}
      {meanwhile : List (Consultation κ ε)} (settled : table.Settled earlier)
      (new : request.key ∉ firstRequests earlier) :
      Stands
        { ids := table.ids.insert request.key IdTable.pending, upcoming := table.upcoming + 1 }
        (earlier ++ [.requested request])
        ⟨earlier.length, request, meanwhile, .resolving (.replace table.upcoming)⟩
  | announcing {table : IdTable κ} {notes : List (Note κ ε)} {begun : Nat}
      {request : KeyRequest κ ε} {meanwhile : List (Consultation κ ε)} {id : UInt32}
      (settled : table.Settled notes)
      (registers : Registers notes ⟨begun, request, meanwhile, .announcing id⟩ id) :
      Stands table notes ⟨begun, request, meanwhile, .announcing id⟩
  | conclude {table : IdTable κ} {notes : List (Note κ ε)} {begun : Nat}
      {request : KeyRequest κ ε} {meanwhile : List (Consultation κ ε)} {id : UInt32}
      (settled : table.Settled notes)
      (registers : Registers notes ⟨begun, request, meanwhile, .resolving (.conclude id)⟩ id)
      (succeeded : request.announcement = .returned ()) :
      Stands table notes ⟨begun, request, meanwhile, .resolving (.conclude id)⟩

end OpenRequest

namespace Dialogue

/-- The requests of a stack are all in the middle of their announcements. -/
def Waits (notes : List (Note κ ε)) (stack : List (OpenRequest κ ε)) : Prop :=
  ∀ frame ∈ stack, ∃ id, frame.phase = .announcing id ∧ frame.Registers notes id

/-- Only the innermost request can have left the table unsettled. -/
def Standing (table : IdTable κ) (notes : List (Note κ ε)) : List (OpenRequest κ ε) → Prop
  | [] => table.Settled notes
  | innermost :: outer => innermost.Stands table notes ∧ Waits notes outer

/-- The table is settled while no request accesses it. -/
theorem Standing.settled {table : IdTable κ} {notes : List (Note κ ε)}
    {stack : List (OpenRequest κ ε)} (standing : Standing table notes stack)
    (resting : ∀ frame ∈ stack.head?, ∃ id, frame.phase = .announcing id) :
    table.Settled notes := by
  cases stack with
  | nil => exact standing
  | cons innermost outer =>
    obtain ⟨id, announcing⟩ := resting innermost rfl
    cases standing.1 with
    | announcing settled => exact settled
    | lookup | claim | draw | replace | conclude => cases announcing

/-- What holds of a program after every step. -/
structure Sound (dialogue : Dialogue κ ε) : Prop where
  standing : Standing dialogue.table dialogue.notes dialogue.stack
  due : ∀ place note, dialogue.notes[place]? = some note → Due (dialogue.notes.take place) note

variable {table : IdTable κ} {notes : List (Note κ ε)} {stack : List (OpenRequest κ ε)}

theorem Waits.mono (waits : Waits notes stack) (note : Note κ ε) : Waits (notes ++ [note]) stack :=
  fun frame member =>
    let ⟨id, announcing, registers⟩ := waits frame member
    ⟨id, announcing, registers.mono note⟩

/-- Requests that all wait leave the table settled. -/
theorem Waits.standing (waits : Waits notes stack) (settled : table.Settled notes) :
    Standing table notes stack := by
  cases stack with
  | nil => exact settled
  | cons innermost outer =>
    obtain ⟨id, announcing, registers⟩ := waits innermost List.mem_cons_self
    obtain ⟨begun, request, meanwhile, phase⟩ := innermost
    cases announcing
    exact ⟨.announcing settled registers, fun frame member =>
      waits frame (List.mem_cons_of_mem _ member)⟩

/-- A note that is due can be added. -/
theorem due_concat {note : Note κ ε} (dueNext : Due notes note)
    (due : ∀ place other, notes[place]? = some other → Due (notes.take place) other)
    (place : Nat) (other : Note κ ε) (found : (notes ++ [note])[place]? = some other) :
    Due ((notes ++ [note]).take place) other := by
  rw [List.getElem?_append] at found
  split at found
  · rename_i inside
    rw [List.take_append_of_le_length (Nat.le_of_lt inside)]
    exact due place other found
  · rename_i outside
    simp only [List.getElem?_singleton, Option.ite_none_right_eq_some, Option.some.injEq] at found
    obtain ⟨atEnd, rfl⟩ := found
    have last : place = notes.length := by omega
    rw [last, List.take_left' rfl]
    exact dueNext

end Dialogue

namespace OpenRequest

variable {table after : IdTable κ} {notes : List (Note κ ε)} {frame : OpenRequest κ ε}

/-- A key that has been requested before leaves the table settled when it is requested again. -/
theorem settled_again {request : KeyRequest κ ε} (settled : table.Settled notes)
    (known : request.key ∈ firstRequests notes) :
    table.Settled (notes ++ [.requested request]) where
  numbers := by
    rw [firstRequests_requested, if_pos known]
    exact settled.numbers
  announced := by
    rw [announced_concat, firstRequests_requested, if_pos known]
    exact (List.append_nil _).trans settled.announced

/-- The id that goes into the table is the next number. -/
theorem settled_announced {request : KeyRequest κ ε} (settled : table.Settled notes)
    (new : request.key ∉ firstRequests notes) :
    IdTable.Settled
      { ids := (table.ids.insert request.key IdTable.pending).insert request.key table.upcoming
        upcoming := table.upcoming + 1 }
      (notes ++ [.requested request] ++ [.announces request.key table.upcoming]) where
  numbers := by
    rw [firstRequests_silent _ rfl, firstRequests_requested, if_neg new]
    exact settled.numbers.insert new
  announced := by
    rw [firstRequests_silent _ rfl, firstRequests_requested, if_neg new, numbered_concat new,
      announced_concat, announced_concat, settled.announced, settled.numbers.upcoming]
    exact congrArg (· ++ _) (List.append_nil _)

/-- The first request for a key gives it the next number. -/
theorem registers_first {request : KeyRequest κ ε} {meanwhile : List (Consultation κ ε)}
    {phase : Registration} (settled : table.Settled notes)
    (new : request.key ∉ firstRequests notes) :
    Registers (notes ++ [.requested request] ++ [.announces request.key table.upcoming])
      ⟨notes.length, request, meanwhile, phase⟩ table.upcoming where
  opened := by
    rw [List.append_assoc, List.getElem?_append_right (Nat.le_refl _), Nat.sub_self]
    rfl
  first := by
    rw [List.append_assoc, List.take_left' rfl]
    exact new
  registered := by
    rw [firstRequests_silent _ rfl, firstRequests_requested, if_neg new]
    exact List.mem_append_right _ (List.mem_singleton.mpr rfl)
  id := by
    rw [firstRequests_silent _ rfl, firstRequests_requested, if_neg new, number_concat new]
    exact settled.numbers.upcoming

/-- The innermost request goes on. -/
theorem Stands.continues (stands : frame.Stands table notes)
    (few : (firstRequests notes).length < 2 ^ 32 - 1) {next : Registration}
    (made : Registration.step frame.request frame.phase table = (.continues next, after)) :
    Stands after (notes ++ Dialogue.announcementNotes frame.request next)
        { frame with phase := next } ∧
      ∀ note ∈ Dialogue.announcementNotes frame.request next, Due notes note := by
  cases stands with
  | @lookup table earlier request meanwhile settled =>
    by_cases known : request.key ∈ firstRequests earlier
    · have same := firstRequests_requested earlier request
      rw [if_pos known] at same
      rw [same] at few
      simp [Registration.step, Resolution.step, settled.numbers.find?_of_mem few known] at made
    · have absent := settled.numbers.absent known
      simp only [Registration.step, Resolution.step,
        IdTable.find?_eq_none.mpr (.inl absent)] at made
      cases made
      simpa [Dialogue.announcementNotes, Registration.announcement?] using
        Stands.claim settled known
  | @claim table earlier request meanwhile settled new =>
    simp only [Registration.step, Resolution.step, settled.numbers.absent new] at made
    cases made
    simpa [Dialogue.announcementNotes, Registration.announcement?] using Stands.draw settled new
  | @draw table earlier request meanwhile settled new =>
    cases made
    simpa [Dialogue.announcementNotes, Registration.announcement?] using Stands.replace settled new
  | @replace table earlier request meanwhile settled new =>
    have marked : (table.ids.insert request.key IdTable.pending).find? request.key =
        some IdTable.pending := by
      rw [Table.find?_insert, if_pos rfl]
    simp only [Registration.step, Resolution.step, if_pos marked] at made
    cases made
    have settledThen := settled_announced settled new
    refine ⟨.announcing settledThen (registers_first settled new), ?_⟩
    intro note member
    cases List.mem_singleton.mp member
    have all := settledThen.announced
    rw [announced_concat, firstRequests_silent _ rfl] at all
    exact all
  | @announcing table notes begun request meanwhile id settled registers =>
    simp only [Registration.step] at made
    split at made <;> rename_i succeeded <;> cases made
    have kept : Registers notes ⟨begun, request, meanwhile, .resolving (.conclude id)⟩ id :=
      ⟨registers.opened, registers.first, registers.registered, registers.id⟩
    simpa [Dialogue.announcementNotes, Registration.announcement?] using
      Stands.conclude settled kept succeeded
  | conclude settled registers succeeded => cases made

/-- The innermost request ends. -/
theorem Stands.finishes (stands : frame.Stands table notes)
    (few : (firstRequests notes).length < 2 ^ 32 - 1) {outcome : Outcome ε UInt32}
    (made : Registration.step frame.request frame.phase table = (.finished outcome, after)) :
    after.Settled notes ∧ Due notes (.answered frame.begun outcome) := by
  cases stands with
  | @lookup table earlier request meanwhile settled =>
    have same := firstRequests_requested earlier request
    by_cases known : request.key ∈ firstRequests earlier
    · rw [if_pos known] at same
      rw [same] at few
      simp only [Registration.step, Resolution.step, settled.numbers.find?_of_mem few known] at made
      cases made
      refine ⟨settled_again settled known, request, ?_, ?_⟩
      · rw [List.getElem?_append_right (Nat.le_refl _), Nat.sub_self]
        rfl
      · rw [List.take_left' rfl, if_pos known, same]
    · have absent := settled.numbers.absent known
      simp only [Registration.step, Resolution.step,
        IdTable.find?_eq_none.mpr (.inl absent)] at made
      cases made
  | claim settled new =>
    simp only [Registration.step, Resolution.step, settled.numbers.absent new] at made
    cases made
  | draw settled new => cases made
  | @replace table earlier request meanwhile settled new =>
    have marked : (table.ids.insert request.key IdTable.pending).find? request.key =
        some IdTable.pending := by
      rw [Table.find?_insert, if_pos rfl]
    simp only [Registration.step, Resolution.step, if_pos marked] at made
    cases made
  | @announcing table notes begun request meanwhile id settled registers =>
    obtain ⟨opened, first, -, same⟩ := registers
    have ended : after = table ∧ outcome = Registration.answer request id := by
      simp only [Registration.step] at made
      split at made <;> rename_i announcement <;> cases made <;>
        simp [Registration.answer, announcement]
    obtain ⟨rfl, rfl⟩ := ended
    refine ⟨settled, request, opened, ?_⟩
    rw [if_neg first, same]
  | @conclude table notes begun request meanwhile id settled registers succeeded =>
    obtain ⟨opened, first, registered, same⟩ := registers
    simp only [Registration.step, Resolution.step, settled.numbers.found _ registered] at made
    cases made
    refine ⟨settled, request, opened, ?_⟩
    rw [if_neg first, Registration.answer, succeeded]
    rfl

end OpenRequest

namespace Dialogue

/-- What a step can do: it begins a call, lets the innermost request access the table, or does
nothing because the program is over. -/
inductive Moves (dialogue : Dialogue κ ε) : Dialogue κ ε → Prop
  | calls {call : Consultation κ ε} {rest : Dialogue κ ε}
      (next : dialogue.next? = some (call, rest)) : Moves dialogue (rest.begin call)
  | continues {innermost : OpenRequest κ ε} {outer : List (OpenRequest κ ε)}
      {phase : Registration} {table : IdTable κ} (inside : dialogue.stack = innermost :: outer)
      (made : Registration.step innermost.request innermost.phase dialogue.table =
        (.continues phase, table)) :
      Moves dialogue
        { dialogue with
          table
          stack := { innermost with phase } :: outer
          notes := dialogue.notes ++ announcementNotes innermost.request phase }
  | finishes {innermost : OpenRequest κ ε} {outer : List (OpenRequest κ ε)}
      {outcome : Outcome ε UInt32} {table : IdTable κ}
      (inside : dialogue.stack = innermost :: outer)
      (made : Registration.step innermost.request innermost.phase dialogue.table =
        (.finished outcome, table)) :
      Moves dialogue
        { dialogue with
          table
          stack := outer
          notes := dialogue.notes ++ [.answered innermost.begun outcome] }
  | rests (ended : dialogue.isOver) : Moves dialogue dialogue

theorem moves_step (dialogue : Dialogue κ ε) : Moves dialogue dialogue.step := by
  unfold step
  split
  · rename_i next
    exact .calls next
  · rename_i next idle
    refine .rests ?_
    unfold next? at next
    rw [idle] at next
    cases calls : dialogue.calls with
    | nil => simp [isOver, calls, idle]
    | cons call others => simp [calls] at next
  · rename_i inside
    split
    · rename_i made
      exact .continues inside made
    · rename_i made
      exact .finishes inside made

mutual

/-- The accesses that a call makes at most, with all that its announcement does, and one more for
its begin. -/
def cost : Consultation κ ε → Nat
  | .request _ meanwhile => 7 + costs meanwhile
  | .find _ => 1
  | .size => 1

/-- The accesses that calls make at most, one after the other. -/
def costs : List (Consultation κ ε) → Nat
  | [] => 0
  | call :: calls => cost call + costs calls

end

/-- The accesses that are left at most. -/
def weight (dialogue : Dialogue κ ε) : Nat :=
  costs dialogue.calls +
    (dialogue.stack.map fun frame => costs frame.meanwhile + frame.phase.rank + 1).sum

/-- To take the next call out of its place changes nothing else. -/
structure TakenOut (dialogue : Dialogue κ ε) (call : Consultation κ ε) (rest : Dialogue κ ε) :
    Prop where
  table : rest.table = dialogue.table
  notes : rest.notes = dialogue.notes
  begun : rest.stack.map OpenRequest.begun = dialogue.stack.map OpenRequest.begun
  waits : ∀ {notes : List (Note κ ε)}, Standing dialogue.table notes dialogue.stack →
    dialogue.table.Settled notes ∧ Waits notes rest.stack
  weight : rest.weight + cost call = dialogue.weight

theorem takenOut_of_next {dialogue rest : Dialogue κ ε} {call : Consultation κ ε}
    (next : dialogue.next? = some (call, rest)) : TakenOut dialogue call rest := by
  obtain ⟨table, calls, stack, notes⟩ := dialogue
  cases stack with
  | nil =>
    cases calls with
    | nil => cases next
    | cons first others =>
      cases next
      refine ⟨rfl, rfl, rfl, fun settled => ⟨settled, fun frame member => ?_⟩, ?_⟩
      · exact absurd member List.not_mem_nil
      · simp only [weight, costs, List.map_nil, List.sum_nil]
        omega
  | cons innermost outer =>
    obtain ⟨begun, request, meanwhile, phase⟩ := innermost
    cases phase with
    | resolving phase => cases next
    | announcing id =>
      cases meanwhile with
      | nil => cases next
      | cons first others =>
        cases next
        refine ⟨rfl, rfl, rfl, ?_, ?_⟩
        · rintro notes ⟨stands, waits⟩
          cases stands with
          | announcing settled registers =>
            refine ⟨settled, fun frame member => ?_⟩
            obtain rfl | outside := List.mem_cons.mp member
            · exact ⟨id, rfl, registers.opened, registers.first, registers.registered,
                registers.id⟩
            · exact waits frame outside
        · simp only [weight, costs, List.map_cons, List.sum_cons]
          omega

variable {dialogue after : Dialogue κ ε}

/-- A call begins with a settled table. -/
theorem sound_begin (call : Consultation κ ε) (settled : dialogue.table.Settled dialogue.notes)
    (waits : Waits dialogue.notes dialogue.stack)
    (few : (firstRequests dialogue.notes).length < 2 ^ 32 - 1)
    (due : ∀ place note, dialogue.notes[place]? = some note →
      Due (dialogue.notes.take place) note) : (dialogue.begin call).Sound := by
  cases call with
  | request request meanwhile =>
    exact ⟨⟨.lookup settled, waits.mono _⟩, due_concat trivial due⟩
  | find key =>
    exact ⟨(waits.mono _).standing (settled.silent rfl rfl),
      due_concat (settled.numbers.find?_eq few key) due⟩
  | size =>
    have counted : dialogue.table.size = (firstRequests dialogue.notes).length := by
      rw [IdTable.size, ← Table.length_keys, settled.numbers.keys]
    exact ⟨(waits.mono _).standing (settled.silent rfl rfl), due_concat counted due⟩

/-- Every step keeps the program sound. -/
theorem Sound.after_move (sound : dialogue.Sound)
    (few : (firstRequests dialogue.notes).length < 2 ^ 32 - 1) (moves : Moves dialogue after) :
    after.Sound := by
  obtain ⟨standing, due⟩ := sound
  cases moves with
  | @calls call rest next =>
    obtain ⟨sameTable, sameNotes, -, waits, -⟩ := takenOut_of_next next
    obtain ⟨settled, waits⟩ := waits standing
    rw [← sameTable, ← sameNotes] at settled
    rw [← sameNotes] at few waits due
    exact sound_begin call settled waits few due
  | @continues innermost outer phase table inside made =>
    rw [inside] at standing
    obtain ⟨stood, dueLast⟩ := standing.1.continues few made
    cases phase with
    | announcing id =>
      exact ⟨⟨stood, standing.2.mono _⟩, due_concat (dueLast _ (List.mem_singleton.mpr rfl)) due⟩
    | resolving phase =>
      have silent : announcementNotes innermost.request (.resolving phase) = [] := rfl
      rw [silent, List.append_nil] at stood ⊢
      exact ⟨⟨stood, standing.2⟩, due⟩
  | finishes inside made =>
    rw [inside] at standing
    obtain ⟨settled, dueLast⟩ := standing.1.finishes few made
    exact ⟨(standing.2.mono _).standing (settled.silent rfl rfl), due_concat dueLast due⟩
  | rests ended => exact ⟨standing, due⟩

/-- No step takes a first request back. -/
theorem Moves.firstRequests (moves : Moves dialogue after) :
    firstRequests dialogue.notes <+: firstRequests after.notes := by
  cases moves with
  | @calls call rest next =>
    rw [← (takenOut_of_next next).notes]
    cases call with
    | request | find | size => exact firstRequests_concat _ _
  | @continues innermost outer phase table inside made =>
    cases phase with
    | announcing id => exact firstRequests_concat _ _
    | resolving phase => exact (List.append_nil dialogue.notes).symm ▸ List.prefix_rfl
  | finishes => exact firstRequests_concat _ _
  | rests => exact List.prefix_rfl

theorem sound_run (calls : List (Consultation κ ε)) (steps : Nat)
    (few : (firstRequests (run calls steps).notes).length < 2 ^ 32 - 1) :
    (run calls steps).Sound := by
  induction steps with
  | zero =>
    refine ⟨⟨⟨rfl, ?_, rfl⟩, rfl⟩, ?_⟩
    · intro key member
      cases member
    · intro place note found
      cases found
  | succ steps ih =>
    have moves := moves_step (run calls steps)
    have before := Nat.lt_of_le_of_lt moves.firstRequests.length_le few
    exact (ih before).after_move before moves

/-- Every request is open or has been answered once. -/
def Answers (dialogue : Dialogue κ ε) : Prop :=
  (dialogue.stack.map OpenRequest.begun ++ ends dialogue.notes).Perm (begins dialogue.notes)

/-- Every step keeps the account of the requests. -/
theorem Answers.after_move (answers : dialogue.Answers) (moves : Moves dialogue after) :
    after.Answers := by
  unfold Answers at answers ⊢
  cases moves with
  | @calls call rest next =>
    obtain ⟨-, sameNotes, sameStack, -, -⟩ := takenOut_of_next next
    rw [← sameNotes, ← sameStack] at answers
    cases call with
    | request request meanwhile =>
      simp only [begin, begins_concat, ends_concat, ends?, requestedKey?, Option.toList_none,
        Option.isSome_some, if_true, List.append_nil, List.map_cons, List.cons_append]
      exact (answers.cons _).trans (List.perm_append_singleton _ _).symm
    | find | size =>
      simpa [begin, begins_concat, ends_concat, requestedKey?, ends?] using answers
  | @continues innermost outer phase table inside made =>
    rw [inside] at answers
    cases phase with
    | announcing id =>
      simpa [announcementNotes, Registration.announcement?, begins_concat, ends_concat,
        requestedKey?, ends?] using answers
    | resolving phase =>
      exact (List.append_nil dialogue.notes).symm ▸ answers
  | finishes inside made =>
    rw [inside] at answers
    rw [begins_concat, ends_concat, ← List.append_assoc]
    exact ((List.perm_append_singleton _ _).trans answers).trans (.of_eq (List.append_nil _).symm)
  | rests => exact answers

/-- A program that is not over comes nearer to its end. -/
theorem Moves.weight_lt (moves : Moves dialogue after) (going : dialogue.isOver = false) :
    after.weight < dialogue.weight := by
  cases moves with
  | @calls call rest next =>
    have spent := (takenOut_of_next next).weight
    cases call with
    | request request meanwhile =>
      have atStart : (Registration.procedure.start request).rank = 5 := rfl
      simp only [cost, weight] at spent
      simp only [begin, weight, List.map_cons, List.sum_cons, atStart]
      omega
    | find | size =>
      simp only [cost, weight] at spent
      simp only [begin, weight]
      omega
  | continues inside made =>
    have lower := Registration.rank_lt_of_step made
    simp only [weight, inside, List.map_cons, List.sum_cons]
    omega
  | finishes inside made =>
    simp only [weight, inside, List.map_cons, List.sum_cons]
    omega
  | rests ended => exact absurd ended (Bool.eq_false_iff.mp going)

/-- Every program comes to its end. -/
theorem exists_over (calls : List (Consultation κ ε)) : ∃ steps, (run calls steps).isOver := by
  by_contra endless
  have going (steps : Nat) : (run calls steps).isOver = false :=
    Bool.eq_false_iff.mpr fun ended => endless ⟨steps, ended⟩
  have spent (steps : Nat) : (run calls steps).weight + steps ≤ (run calls 0).weight := by
    induction steps with
    | zero => exact Nat.le_refl _
    | succ steps ih =>
      have less := (moves_step (run calls steps)).weight_lt (going steps)
      exact Nat.le_trans (by simp only [run]; omega) ih
  have tooMany := spent ((run calls 0).weight + 1)
  omega

theorem answers_run (calls : List (Consultation κ ε)) (steps : Nat) :
    (run calls steps).Answers := by
  induction steps with
  | zero => exact .refl _
  | succ steps ih => exact ih.after_move (moves_step _)

/-- The numbers of the keys of a list run from one to its length. -/
theorem toNat_numbers {keys : List κ} (once : keys.Nodup) (few : keys.length < 2 ^ 32 - 1) :
    keys.map (fun key => (number keys key).toNat) = List.range' 1 keys.length := by
  refine List.ext_getElem (by simp) fun place inside _ => ?_
  have short : place < keys.length := by simpa using inside
  rw [List.getElem_map, toNat_number few (List.getElem_mem short), once.idxOf_getElem place short,
    List.getElem_range']
  omega

/-- A program whose requests overlap only because announcements make calls comes to its end, and the
table holds the keys in the order of their first requests, with the ids from one up. -/
theorem keys_numbered (calls : List (Consultation κ ε)) :
    (∃ steps, (run calls steps).isOver) ∧
    ∀ steps,
      let dialogue := run calls steps
      let keys := firstRequests dialogue.notes
      keys.length < 2 ^ 32 - 1 →
        (∀ place note, dialogue.notes[place]? = some note →
          Due (dialogue.notes.take place) note) ∧
        (dialogue.stack.map OpenRequest.begun ++ ends dialogue.notes).Perm
          (begins dialogue.notes) ∧
        (begins dialogue.notes).Nodup ∧
        ((∀ frame ∈ dialogue.stack.head?, ∃ id, frame.phase = .announcing id) →
          announced dialogue.notes = numbered keys ∧
          dialogue.table.ids.keys = keys ∧
          dialogue.table.size = keys.length ∧
          (∀ key, dialogue.table.find? key =
            if key ∈ keys then some (number keys key) else none) ∧
          keys.map (fun key => (number keys key).toNat) = List.range' 1 keys.length) := by
  refine ⟨exists_over calls, fun steps => ?_⟩
  intro dialogue keys few
  have sound := sound_run calls steps few
  have once : keys.Nodup := nodup_eraseDups _
  refine ⟨sound.due, answers_run calls steps, nodup_begins _, fun resting => ?_⟩
  have settled := sound.standing.settled resting
  refine ⟨settled.announced, settled.numbers.keys, ?_, settled.numbers.find?_eq few,
    toNat_numbers once few⟩
  rw [IdTable.size, ← Table.length_keys, settled.numbers.keys]

/-- An announcement that is going to fail asks for its own key again and for another one, whose
announcement panics. -/
theorem keys_numbered_nested :
    let calls : List (Consultation Nat String) :=
      [.request ⟨7, .failed "refused"⟩
        [.request ⟨7, .returned ()⟩ [], .request ⟨8, .panicked "lost"⟩ [.find 8, .find 9, .size]],
        .request ⟨9, .returned ()⟩ [.find 9], .request ⟨7, .returned ()⟩ []]
    (run calls 40).isOver ∧
      (firstRequests (run calls 40).notes).length < 2 ^ 32 - 1 ∧
      (run calls 40).notes[9]? = some (.answered 4 (.panicked "lost")) ∧
      Due ((run calls 40).notes.take 9) (.answered 4 (.panicked "lost")) ∧
      (run calls 40).notes[10]? = some (.answered 0 (.failed "refused")) ∧
      announced (run calls 40).notes = [(7, 1), (8, 2), (9, 3)] := by
  intro calls
  have ended : (run calls 40).isOver := by decide
  have few : (firstRequests (run calls 40).notes).length < 2 ^ 32 - 1 := by decide
  have panics : (run calls 40).notes[9]? = some (.answered 4 (.panicked "lost")) := by decide
  have fails : (run calls 40).notes[10]? = some (.answered 0 (.failed "refused")) := by decide
  obtain ⟨due, -, -, atRest⟩ := (keys_numbered calls).2 40 few
  have idle : (run calls 40).stack = [] :=
    List.isEmpty_iff.mp (Bool.and_eq_true _ _ ▸ ended).2
  obtain ⟨all, -⟩ := atRest (by simp [idle])
  have listed : numbered (firstRequests (run calls 40).notes) = [(7, 1), (8, 2), (9, 3)] := by
    decide
  exact ⟨ended, few, panics, due 9 _ panics, fails, all.trans listed⟩

end Dialogue

end TraceRelay
