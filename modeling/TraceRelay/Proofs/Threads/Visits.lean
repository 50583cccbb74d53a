import TraceRelay.Proofs.Interleaving.Accesses
import TraceRelay.Proofs.Threads.Roster
import TraceRelay.Threads.Lending

/-! Every access of a call on a tracker is one of a few moves. -/

namespace TraceRelay

/-- The announcement of the request, if it has to make one, ends with success. -/
def ThreadRequest.succeeds {ε : Type} (request : ThreadRequest ε) : Bool :=
  match request.announcement with
  | .returned () => true
  | _ => false

/-- Everything that a call can do to the tracker and its host with one access. -/
inductive Recognition.Moves {ε : Type} (request : ThreadRequest ε) (tracked : TrackedHost) :
    Recognition → Progress Recognition (Outcome ε ThreadId) → TrackedHost → Prop
  | reads : Moves request tracked (.identifying .readName) (.continues (.identifying (.consult
      ((tracked.host.nameOf tracked.tracker.names request.thread).getD "")))) tracked
  | enrols (name : String) (new : tracked.memo? request.thread = none) :
    Moves request tracked (.identifying (.consult name))
      (.continues (.announcing { id := tracked.tracker.upcoming, name }))
      { tracked.remember request.thread { id := tracked.tracker.upcoming } with
        tracker := { tracked.tracker with upcoming := tracked.tracker.upcoming + 1 } }
  | presents (name : String) (memo : ThreadMemo) (found : tracked.memo? request.thread = some memo)
    (differs : memo.announced ≠ some name) : Moves request tracked (.identifying (.consult name))
      (.continues (.announcing { id := memo.id, name })) tracked
  | knows (name : String) (memo : ThreadMemo) (found : tracked.memo? request.thread = some memo)
    (same : memo.announced = some name) : Moves request tracked (.identifying (.consult name))
      (.finished (.returned memo.id)) tracked
  | succeeds (announcement : ThreadAnnouncement) (ends : request.succeeds = true) :
    Moves request tracked (.announcing announcement)
      (.continues (.identifying (.settle announcement))) tracked
  | fails (announcement : ThreadAnnouncement) (result : Outcome ε ThreadId)
    (ends : request.succeeds = false) (unsuccessful : ∀ id, result ≠ .returned id) :
    Moves request tracked (.announcing announcement) (.finished result) tracked
  | notes (announcement : ThreadAnnouncement) (memo : ThreadMemo)
    (found : tracked.memo? request.thread = some memo) :
    Moves request tracked (.identifying (.settle announcement))
      (.finished (.returned announcement.id))
      (tracked.remember request.thread { memo with announced := some announcement.name })
  | forgets (announcement : ThreadAnnouncement) (lost : tracked.memo? request.thread = none) :
    Moves request tracked (.identifying (.settle announcement))
      (.finished (.returned announcement.id)) tracked

theorem Recognition.moves_step {ε : Type} (request : ThreadRequest ε) (phase : Recognition)
    (tracked : TrackedHost) :
    Moves request tracked phase (phase.step request tracked).1
      (phase.step request tracked).2 := by
  cases phase with
  | announcing announcement =>
    rw [step]
    cases ends : request.announcement with
    | returned => exact .succeeds announcement (by simp [ThreadRequest.succeeds, ends])
    | failed error =>
      exact .fails announcement _ (by simp [ThreadRequest.succeeds, ends]) (by simp)
    | panicked message =>
      exact .fails announcement _ (by simp [ThreadRequest.succeeds, ends]) (by simp)
  | identifying own =>
    rw [step]
    cases own with
    | readName => exact .reads
    | consult name =>
      rw [Identification.step]
      cases found : tracked.memo? request.thread with
      | none => exact .enrols name found
      | some memo =>
        by_cases same : memo.announced = some name
        · simp only [if_pos same]
          exact .knows name memo found same
        · simp only [if_neg same]
          exact .presents name memo found same
    | settle announcement =>
      rw [Identification.step]
      cases found : tracked.memo? request.thread with
      | none => exact .forgets announcement found
      | some memo => exact .notes announcement memo found

/-- The thread that makes a request. -/
def ThreadJob.caller? {ε : Type} : ThreadJob ε → Option Thread
  | .request asked => some asked.thread
  | _ => none

/-- The thread that ends. -/
def ThreadJob.departs? {ε : Type} : ThreadJob ε → Option Thread
  | .change (.endThread thread) => some thread
  | _ => none

/-- The calls of one tracker, and what else happens on its host. -/
abbrev Visits (ε : Type) :=
  Interleaving LendingHost (ThreadJob ε) Visit (Option (Outcome ε ThreadId))

/-- An access of a call, or another thing that happens on the host. -/
abbrev VisitAccess (ε : Type) :=
  Access LendingHost (ThreadJob ε) Visit (Option (Outcome ε ThreadId))

namespace Visit

variable {ε : Type}

/-- The name that a call reads, with a missing one as the empty one. -/
def reads? (access : VisitAccess ε) : Option String :=
  match access.job, access.phase.phase with
  | .request request, .identifying .readName =>
    let tracked := access.before.tracked
    some ((tracked.host.nameOf tracked.tracker.names request.thread).getD "")
  | _, _ => none

/-- The thread that looks for its memo, which it has on loan, and the name that the call has
read. -/
def consults? (access : VisitAccess ε) : Option (Thread × String) :=
  match access.job, access.phase with
  | .request request, { phase := .identifying (.consult name), holds := true } =>
    some (request.thread, name)
  | _, _ => none

/-- The thread whose announcement starts, and the announcement. -/
def announces? (access : VisitAccess ε) : Option (Thread × ThreadAnnouncement) :=
  match access.job, access.moved with
  | .request request, .continues { phase := .announcing announcement, .. } =>
    some (request.thread, announcement)
  | _, _ => none

/-- The name of the given thread of which an announcement ends with success. -/
def tells? (thread : Thread) (access : VisitAccess ε) : Option String :=
  match access.job, access.phase.phase with
  | .request request, .announcing announcement =>
    if thread = request.thread ∧ request.succeeds = true then some announcement.name else none
  | _, _ => none

/-- The thread that gets its id from a call, and the id. -/
def returns? (access : VisitAccess ε) : Option (Thread × ThreadId) :=
  match access.job, access.moved with
  | .request request, .finished (some (.returned id)) => some (request.thread, id)
  | _, _ => none

/-- An announcement ends with an error or a panic. -/
def Fails (access : VisitAccess ε) : Prop :=
  ∃ request announcement, access.job = .request request ∧
    access.phase.phase = .announcing announcement ∧ request.succeeds = false

/-- The name that the last successful announcement of a thread gave. -/
def announcedName? (thread : Thread) (past : List (VisitAccess ε)) : Option String :=
  (past.filterMap (tells? thread)).getLast?

/-- The threads that have ended. -/
def departed (past : List (VisitAccess ε)) : List Thread :=
  past.filterMap fun access => access.job.departs?

theorem consults?_eq_some {access : VisitAccess ε} {thread : Thread} {name : String} :
    consults? access = some (thread, name) ↔
      ∃ request : ThreadRequest ε, access.job = .request request ∧ request.thread = thread ∧
        access.phase = { phase := .identifying (.consult name), holds := true } := by
  obtain ⟨turn, job, ⟨phase, holds⟩, before, moved, after⟩ := access
  constructor
  · intro consults
    cases job with
    | start | change => cases consults
    | request request =>
      rcases phase with (_ | _ | _) | _ <;> cases holds <;> cases consults
      exact ⟨request, rfl, rfl, rfl⟩
  · rintro ⟨request, ⟨⟩, rfl, ⟨⟩⟩
    rfl

theorem announcedName?_concat (thread : Thread) (past : List (VisitAccess ε))
    (access : VisitAccess ε) :
    announcedName? thread (past ++ [access]) =
      (tells? thread access).or (announcedName? thread past) := by
  rw [announcedName?, List.filterMap_append, filterMap_singleton]
  cases tells? thread access <;> simp [announcedName?]

theorem announcedName?_silent {thread : Thread} (past : List (VisitAccess ε))
    {access : VisitAccess ε} (silent : tells? thread access = none) :
    announcedName? thread (past ++ [access]) = announcedName? thread past := by
  rw [announcedName?_concat, silent, Option.none_or]

theorem departed_concat (past : List (VisitAccess ε)) (access : VisitAccess ε) :
    departed (past ++ [access]) = departed past ++ access.job.departs?.toList := by
  rw [departed, List.filterMap_append, filterMap_singleton]
  rfl

/-- No thread that has ended has a call in progress. -/
def Lives (visits : Visits ε) (past : List (VisitAccess ε)) : Prop :=
  ∀ engagement ∈ visits.underway, ∀ thread ∈ engagement.job.caller?, thread ∉ departed past

/-- The thread of a call that is not in its announcement. -/
def acts? (engagement : Engagement (ThreadJob ε) Visit) : Option Thread :=
  match engagement.job, engagement.phase.phase with
  | .request request, .identifying _ => some request.thread
  | _, _ => none

/-- A thread does one thing at a time: it calls again only from the announcement of a call. -/
def Nested (visits : Visits ε) : Prop := (visits.underway.filterMap acts?).Nodup

/-- Everything that an access can be. -/
inductive Does : VisitAccess ε → Prop
  /-- A call takes the memos of its thread on loan. -/
  | borrows (turn : Turn) (request : ThreadRequest ε) (phase : Recognition) (host : LendingHost)
    (handles : phase.handlesMemos = true) (there : request.thread ∉ host.lent) :
    Does ⟨turn, .request request, { phase }, host, .continues { phase, holds := true },
      { host with lent := request.thread :: host.lent }⟩
  /-- A call asks for memos that are on loan. -/
  | collides (turn : Turn) (request : ThreadRequest ε) (phase : Recognition) (host : LendingHost)
    (handles : phase.handlesMemos = true) (gone : request.thread ∈ host.lent) :
    Does ⟨turn, .request request, { phase }, host,
      .finished (some (.panicked "already borrowed")), host⟩
  /-- A call makes its next move, with the memos in hand if it works on them. -/
  | moves (turn : Turn) (request : ThreadRequest ε) (phase : Recognition) (holds : Bool)
    (host : LendingHost) (moved : Progress Recognition (Outcome ε ThreadId))
    (tracked : TrackedHost) (held : phase.handlesMemos = true → holds = true)
    (made : phase.Moves request host.tracked moved tracked) :
    Does ⟨turn, .request request, { phase, holds }, host,
      moved.map (fun phase => { phase }) some,
      { tracked
        lent := if holds then host.lent.filter fun thread => thread ≠ request.thread
          else host.lent }⟩
  /-- Something else happens on the host. -/
  | happens (turn : Turn) (job : ThreadJob ε) (visit : Visit) (host : LendingHost) (after : Host)
    (uncalled : job.caller? = none)
    (memos : ∀ thread, (host.onHost after).tracked.memo? thread = host.tracked.memo? thread ∨
      (host.onHost after).tracked.memo? thread = none ∧ job.departs? = some thread) :
    Does ⟨turn, job, visit, host, .finished none, host.onHost after⟩

theorem does_of_step {access : VisitAccess ε}
    (made : procedure.step access.job access.phase access.before =
      (access.moved, access.after)) : Does access := by
  obtain ⟨turn, job, visit, host, moved, after⟩ := access
  simp only at made
  cases job with
  | request request =>
    obtain ⟨phase, holds⟩ := visit
    simp only [procedure, step] at made
    split at made
    · rename_i asks
      obtain ⟨handles, rfl⟩ := asks
      split at made
      · rename_i gone
        cases made
        exact .collides turn request phase host handles gone
      · rename_i there
        cases made
        exact .borrows turn request phase host handles there
    · rename_i works
      have does := Does.moves turn request phase holds host _ _ (by simpa using works)
        (phase.moves_step request host.tracked)
      cases made
      convert does using 2
      cases (phase.step request host.tracked).1 <;> rfl
  | start name =>
    obtain ⟨rfl, rfl⟩ := Prod.mk.inj made
    exact .happens turn _ visit host _ rfl fun thread => .inl rfl
  | change change =>
    obtain ⟨rfl, rfl⟩ := Prod.mk.inj made
    refine .happens turn _ visit host _ rfl fun thread => ?_
    cases change with
    | advance | rename => exact .inl rfl
    | endThread ended =>
      by_cases own : thread = ended
      · subst own
        exact .inr ⟨by simp [LendingHost.onHost, TrackedHost.memo?, Host.apply,
          ThreadMemos.find?_endThread], rfl⟩
      · exact .inl (by simp [LendingHost.onHost, TrackedHost.memo?, Host.apply,
          ThreadMemos.find?_endThread, own])

/-- An announcement that fails leaves the tracker and its host as they were, and the call ends. -/
theorem unchanged_of_fails {access : VisitAccess ε}
    (stepped : procedure.step access.job access.phase access.before =
      (access.moved, access.after))
    (fails : Fails access) : access.after.tracked = access.before.tracked ∧
      ∃ result, access.moved = .finished (some result) ∧ ∀ id, result ≠ .returned id := by
  obtain ⟨request, announcement, own, announcing, ends⟩ := fails
  cases does_of_step stepped with
  | borrows turn request phase host handles there =>
    cases announcing
    cases handles
  | collides turn request phase host handles gone =>
    cases announcing
    cases handles
  | happens turn job visit host after uncalled memos =>
    cases own
    cases uncalled
  | moves turn request phase holds host moved tracked held made =>
    cases announcing
    cases own
    cases made with
    | succeeds _ succeeds => cases ends.symm.trans succeeds
    | fails _ result _ unsuccessful => exact ⟨rfl, result, rfl, unsuccessful⟩

end Visit

end TraceRelay
