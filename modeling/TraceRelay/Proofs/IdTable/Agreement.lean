import TraceRelay.Proofs.IdTable.Consistency

/-! Requests for ids agree on the id of every key, in whatever order they make their accesses. -/

namespace TraceRelay

variable {κ ε : Type} [DecidableEq κ]

/-- An access on behalf of a request for an id. -/
abbrev TableAccess (κ ε : Type) :=
  Access (IdTable κ) (KeyRequest κ ε) Registration (Outcome ε UInt32)

namespace Registration

/-- Strands of requests for ids. -/
abbrev Requests (κ ε : Type) :=
  Interleaving (IdTable κ) (KeyRequest κ ε) Registration (Outcome ε UInt32)

/-- The number of ids that an access draws. -/
def draws (access : TableAccess κ ε) : Nat :=
  match access.phase with
  | .resolving phase => phase.draws
  | .announcing _ => 0

/-- The announcement that an access starts: the key and its id. -/
def opened? (access : TableAccess κ ε) : Option (κ × UInt32) :=
  match access.moved with
  | .continues phase => phase.announcement? access.job
  | .finished _ => none

/-- The number of ids that the accesses have drawn. -/
def drawn (accesses : List (TableAccess κ ε)) : Nat := (accesses.map draws).sum

/-- The announcements that the accesses have started, in order. -/
def announcements (accesses : List (TableAccess κ ε)) : List (κ × UInt32) :=
  accesses.filterMap opened?

/-- The lookup of a request in progress. -/
def inquiry (engagement : Engagement (KeyRequest κ ε) Registration) : Inquiry κ :=
  (engagement.job.key, engagement.phase)

/-- What an access on behalf of a request can do. -/
inductive Moves (request : KeyRequest κ ε) (before : IdTable κ) :
    Registration → Progress Registration (Outcome ε UInt32) → IdTable κ → Prop where
  | continues {phase next : Resolution} {after : IdTable κ}
    (resolved : phase.step request.key before = (.continues next, after)) :
    Moves request before (.resolving phase) (.continues (.resolving next)) after
  | announces {phase : Resolution} {id : UInt32} {after : IdTable κ}
    (resolved : phase.step request.key before = (.announces id, after)) :
    Moves request before (.resolving phase) (.continues (.announcing id)) after
  | returns {phase : Resolution} {id : UInt32} {after : IdTable κ}
    (resolved : phase.step request.key before = (.returns id, after)) :
    Moves request before (.resolving phase) (.finished (.returned id)) after
  | announced {id : UInt32} (succeeds : request.announcement = .returned ()) :
    Moves request before (.announcing id) (.continues (.resolving (.conclude id))) before
  | fails {id : UInt32} {error : ε} (fails : request.announcement = .failed error) :
    Moves request before (.announcing id) (.finished (.failed error)) before
  | panics {id : UInt32} {message : String} (panics : request.announcement = .panicked message) :
    Moves request before (.announcing id) (.finished (.panicked message)) before

theorem moves_of_step {request : KeyRequest κ ε} {phase : Registration} {before after : IdTable κ}
    {moved : Progress Registration (Outcome ε UInt32)}
    (made : step request phase before = (moved, after)) :
    Moves request before phase moved after := by
  cases phase with
  | resolving phase =>
    simp only [step] at made
    split at made <;> rename_i resolved <;> cases made
    · exact .continues resolved
    · exact .announces resolved
    · exact .returns resolved
  | announcing id =>
    simp only [step] at made
    split at made <;> rename_i ends <;> cases made
    · exact .announced ends
    · exact .fails ends
    · exact .panics ends

omit [DecidableEq κ] in
theorem drawn_concat (accesses : List (TableAccess κ ε)) (access : TableAccess κ ε) :
    drawn (accesses ++ [access]) = drawn accesses + draws access := by
  simp [drawn]

omit [DecidableEq κ] in
theorem announcements_concat (accesses : List (TableAccess κ ε)) (access : TableAccess κ ε) :
    announcements (accesses ++ [access]) = announcements accesses ++ (opened? access).toList := by
  rw [announcements, List.filterMap_append, filterMap_singleton]
  rfl

/-- An access on behalf of a request uses the table for the lookup of the request. -/
theorem uses_of_step {access : TableAccess κ ε}
    (made : step access.job access.phase access.before = (access.moved, access.after)) :
    Inquiry.Uses access.before (some (inquiry access.engagement)) (access.next?.map inquiry)
      access.after ∧
      draws access = Inquiry.draws (some (inquiry access.engagement)) ∧
      opened? access =
        Inquiry.opens? (some (inquiry access.engagement)) (access.next?.map inquiry) := by
  obtain ⟨turn, request, phase, before, moved, after⟩ := access
  cases moves_of_step made with
  | continues resolved => exact ⟨.continues resolved, rfl, rfl⟩
  | announces resolved => exact ⟨.announces resolved, rfl, rfl⟩
  | returns resolved => exact ⟨.returns resolved, rfl, rfl⟩
  | announced succeeds => exact ⟨.announced _ _, rfl, rfl⟩
  | fails | panics => exact ⟨.fails _ _, rfl, rfl⟩

/-- Each access keeps the table and the lookups in progress fitting. -/
theorem consistent_access {access : TableAccess κ ε} {earlier later : List (Inquiry κ)}
    {stored : List (κ × UInt32)} {count : Nat}
    (made : step access.job access.phase access.before = (access.moved, access.after))
    (few : count + draws access < 2 ^ 32)
    (consistent : access.before.Consistent (earlier ++ [inquiry access.engagement] ++ later)
      stored count) :
    access.after.Consistent (earlier ++ (access.next?.map inquiry).toList ++ later)
      (stored ++ (opened? access).toList) (count + draws access) := by
  obtain ⟨uses, drawing, opening⟩ := uses_of_step made
  rw [drawing] at few ⊢
  rw [opening]
  exact uses.consistent few consistent

/-- The table and the lookups in progress fit each other in every run that draws each id at most
once. -/
theorem consistent_run (work : List (List (KeyRequest κ ε))) (schedule : List Nat)
    (few : drawn ((Interleaving.fresh {} work).accesses procedure schedule) < 2 ^ 32) :
    ((Interleaving.fresh {} work).run procedure schedule).shared.Consistent
      (((Interleaving.fresh {} work).run procedure schedule).underway.map inquiry)
      (announcements ((Interleaving.fresh {} work).accesses procedure schedule))
      (drawn ((Interleaving.fresh {} work).accesses procedure schedule)) := by
  revert few
  refine Interleaving.run_induction (motive := fun requests past => drawn past < 2 ^ 32 →
    requests.shared.Consistent (requests.underway.map inquiry) (announcements past) (drawn past))
    procedure (Interleaving.fresh {} work) ?_ ?_ ?_ schedule
  · intro _
    rw [Interleaving.underway_fresh]
    exact IdTable.Consistent.empty
  · intro requests past number strand request rest kept found idle next few
    obtain ⟨earlier, later, before, after⟩ :=
      Interleaving.underway_afterStart procedure request rest found idle
    have consistent := kept few
    rw [before] at consistent
    rw [after]
    simp only [List.map_append, List.map_cons, List.map_nil] at consistent ⊢
    refine consistent.move ?_ rfl (by simp)
    simp [inquiry, procedure, Inquiry.Fits]
  · intro requests past strand access kept makes few
    obtain ⟨earlier, later, before, after⟩ := makes.underway
    rw [drawn_concat] at few ⊢
    have consistent := kept (by omega)
    rw [before, ← makes.before] at consistent
    rw [after, announcements_concat]
    simp only [List.map_append, List.map_cons, List.map_nil, ← Option.toList_map]
      at consistent ⊢
    exact consistent_access makes.made few consistent

/-- The table and the lookups in progress fit each other whenever an access is made. -/
theorem consistent_before (work : List (List (KeyRequest κ ε))) (schedule : List Nat)
    (few : drawn ((Interleaving.fresh {} work).accesses procedure schedule) < 2 ^ 32)
    {earlier later : List (TableAccess κ ε)} {access : TableAccess κ ε}
    (same : (Interleaving.fresh {} work).accesses procedure schedule =
      earlier ++ access :: later) :
    drawn earlier + draws access < 2 ^ 32 ∧ ∃ front back,
      access.before.Consistent (front ++ [inquiry access.engagement] ++ back)
        (announcements earlier) (drawn earlier) := by
  obtain ⟨first, number, rest, strand, rfl, past, makes, -, -⟩ :=
    Interleaving.exists_makes procedure _ schedule earlier later access same
  have room : drawn earlier + draws access < 2 ^ 32 := by
    rw [same] at few
    simp only [drawn, List.map_append, List.map_cons, List.sum_append, List.sum_cons] at few ⊢
    omega
  have consistent := consistent_run work first (by rw [past]; omega)
  obtain ⟨front, back, before, -⟩ := makes.underway
  rw [past, before, ← makes.before] at consistent
  simp only [List.map_append, List.map_cons, List.map_nil] at consistent
  exact ⟨room, _, _, consistent⟩

/-- A request that succeeds returns the id that the table holds for its key. -/
theorem found_of_returned {access : TableAccess κ ε} {front back : List (Inquiry κ)}
    {stored : List (κ × UInt32)} {count : Nat} {id : UInt32}
    (made : step access.job access.phase access.before = (access.moved, access.after))
    (few : count + draws access < 2 ^ 32)
    (consistent : access.before.Consistent (front ++ [inquiry access.engagement] ++ back)
      stored count) (returned : access.moved = .finished (.returned id)) :
    access.before.find? access.job.key = some id := by
  obtain ⟨turn, request, phase, before, moved, after⟩ := access
  simp only [inquiry, Access.engagement] at consistent
  simp only at returned made
  subst returned
  cases moves_of_step made with
  | returns resolved => exact Inquiry.found_of_returns resolved few consistent

/-- No run loses a key or an id. -/
theorem extends_run (requests : Requests κ ε) (schedule : List Nat) :
    (requests.run procedure schedule).shared.Extends requests.shared := by
  refine Interleaving.run_induction (motive := fun later _ => later.shared.Extends requests.shared)
    procedure requests (.refl _) ?_ ?_ schedule
  · intro later past number strand request rest grown found idle next
    exact grown
  · intro later past strand access grown makes
    have own := (uses_of_step makes.made).1.extends
    rw [makes.before] at own
    exact own.trans grown

/-- Nothing that an access leaves in the table is lost before a later access or the end of the
run. -/
theorem extends_later (requests : Requests κ ε) (schedule : List Nat)
    {earlier later : List (TableAccess κ ε)} {access : TableAccess κ ε}
    (same : requests.accesses procedure schedule = earlier ++ access :: later) :
    (∀ other ∈ later, other.before.Extends access.after) ∧
      (requests.run procedure schedule).shared.Extends access.after := by
  obtain ⟨first, number, rest, strand, rfl, -, -, moved, rfl⟩ :=
    Interleaving.exists_makes procedure requests schedule earlier later access same
  have left : (requests.run procedure (first ++ [number])).shared = access.after := by
    rw [moved]
    rfl
  rw [← left]
  constructor
  · intro other member
    obtain ⟨between, behind, split⟩ := List.append_of_mem member
    obtain ⟨next, _, _, _, rfl, -, makes, -, -⟩ :=
      Interleaving.exists_makes procedure _ rest between behind other split
    rw [makes.before]
    exact extends_run _ next
  · rw [List.append_cons first, Interleaving.run_append]
    exact extends_run _ rest

/-- A request that has succeeded has returned the id that the table holds for its key. -/
theorem found_of_result (work : List (List (KeyRequest κ ε))) (schedule : List Nat)
    (few : drawn ((Interleaving.fresh {} work).accesses procedure schedule) < 2 ^ 32)
    {request : KeyRequest κ ε} {id : UInt32}
    (member : (request, .returned id) ∈
      ((Interleaving.fresh {} work).run procedure schedule).results) :
    ((Interleaving.fresh {} work).run procedure schedule).shared.find? request.key = some id := by
  obtain ⟨access, inside, rfl, returned⟩ :=
    Interleaving.exists_access_of_mem_results procedure _ work schedule member
  obtain ⟨earlier, later, split⟩ := List.append_of_mem inside
  obtain ⟨room, front, back, consistent⟩ := consistent_before work schedule few split
  obtain ⟨first, number, rest, strand, rfl, -, makes, -, -⟩ :=
    Interleaving.exists_makes procedure _ schedule earlier later access split
  have found := found_of_returned makes.made room consistent returned
  rw [makes.before] at found
  rw [Interleaving.run_append]
  exact (extends_run _ (number :: rest)).finds _ _ found

/-- Whatever the order in which requests access the table, no two keys share an id, no key and no
id is lost, and all requests that succeed return the ids that the table holds for their keys from
then on. -/
theorem requests_agree (work : List (List (KeyRequest κ ε))) (first later : List Nat)
    (few : drawn ((Interleaving.fresh {} work).accesses procedure (first ++ later)) < 2 ^ 32) :
    let state := (Interleaving.fresh {} work).run procedure first
    let final := (Interleaving.fresh {} work).run procedure (first ++ later)
    (∀ key other id, state.shared.ids.find? key = some id → id ≠ IdTable.pending →
      state.shared.ids.find? other = some id → key = other) ∧
    (∀ key ∈ state.shared.ids.keys, key ∈ final.shared.ids.keys) ∧
    (∀ key id, state.shared.ids.find? key = some id → id ≠ IdTable.pending →
      final.shared.ids.find? key = some id) ∧
    (∀ request id, (request, .returned id) ∈ state.results →
      id ≠ IdTable.pending ∧ final.shared.ids.find? request.key = some id ∧
        final.shared.find? request.key = some id) ∧
    ∀ request id other otherId, (request, .returned id) ∈ final.results →
      (other, .returned otherId) ∈ final.results → (id = otherId ↔ request.key = other.key) := by
  intro state final
  have fewAtFirst :
      drawn ((Interleaving.fresh {} work).accesses procedure first) < 2 ^ 32 := by
    rw [Interleaving.accesses_append] at few
    simp only [drawn, List.map_append, List.sum_append] at few ⊢
    omega
  have grown : final.shared.Extends state.shared := by
    simp only [final, state, Interleaving.run_append]
    exact extends_run _ later
  have atFirst := consistent_run work first fewAtFirst
  have atLast := consistent_run work (first ++ later) few
  refine ⟨?_, fun key member => grown.keys member, ?_, ?_, ?_⟩
  · intro key other id found registered foundOther
    exact atFirst.key_unique (IdTable.find?_eq_some.mpr ⟨found, registered⟩)
      (IdTable.find?_eq_some.mpr ⟨foundOther, registered⟩)
  · intro key id found registered
    have kept := grown.finds key id (IdTable.find?_eq_some.mpr ⟨found, registered⟩)
    exact (IdTable.find?_eq_some.mp kept).1
  · intro request id member
    have kept := grown.finds _ _ (found_of_result work first fewAtFirst member)
    obtain ⟨found, registered⟩ := IdTable.find?_eq_some.mp kept
    exact ⟨registered, found, kept⟩
  · intro request id other otherId member memberOther
    have found := found_of_result work (first ++ later) few member
    have foundOther := found_of_result work (first ++ later) few memberOther
    constructor
    · rintro rfl
      exact atLast.key_unique found foundOther
    · intro same
      rw [same, foundOther] at found
      exact (Option.some.inj found).symm

/-- Of two requests that both find the key pending, the one that comes first with its id decides. -/
theorem requests_agree_race :
    let work : List (List (KeyRequest Nat String)) :=
      [[⟨7, .returned ()⟩], [⟨7, .failed "refused"⟩, ⟨8, .returned ()⟩]]
    let first := [0, 0, 0, 1, 1, 1, 0, 1, 1, 0, 0]
    let later := [1, 1, 1, 1, 1, 1, 1, 1]
    drawn ((Interleaving.fresh {} work).accesses procedure (first ++ later)) < 2 ^ 32 ∧
      (⟨7, .returned ()⟩, .returned 2) ∈
        ((Interleaving.fresh {} work).run procedure first).results ∧
      ((Interleaving.fresh {} work).run procedure (first ++ later)).shared.ids.find? 7 =
        some 2 := by
  intro work first later
  have few : drawn ((Interleaving.fresh {} work).accesses procedure (first ++ later)) < 2 ^ 32 := by
    decide
  have agree := requests_agree work first later few
  have returned : (⟨7, .returned ()⟩, .returned 2) ∈
      ((Interleaving.fresh {} work).run procedure first).results := by
    decide
  exact ⟨few, returned, (agree.2.2.2.1 _ _ returned).2.1⟩

end Registration

end TraceRelay
