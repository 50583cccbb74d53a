import TraceRelay.Proofs.Community.Neighbours
import TraceRelay.Proofs.Community.Newcomers

/-! Members of one name show the same whatever their neighbours in a community do. -/

namespace TraceRelay

namespace Community

variable {π ε β ω δ : Type}

/-- The job is about the member of the given name, or a change of the host. -/
def Job.concerns (name : String) : Job π ε ω δ → Bool
  | .task other _ => other = name
  | .change _ => true

/-- What a member shows of its work. -/
inductive Sight (β ω : Type) where
  /-- A tracker announces a thread. -/
  | announces (announcement : ThreadAnnouncement)
  /-- A reporter asks for a buffer for an event. -/
  | asks (draft : Draft)
  /-- A reporter has an event written. -/
  | writes (event : Event)
  /-- A reporter gives a buffer back, after a write that ended as told. -/
  | ships (written : Outcome IoFailure Unit) (buffer : β)
  /-- A job ends. -/
  | replies (reply : Reply ω)
deriving DecidableEq, Repr

/-- What is shown by the access that is made in a phase. -/
def Sight.ofPhase? : Service.Phase β → Option (Sight β ω)
  | .recognizing (.announcing announcement) => some (.announces announcement)
  | .calling (.delivering _ (.obtaining draft)) => some (.asks draft)
  | .calling (.delivering _ (.writing event _)) => some (.writes event)
  | .calling (.delivering _ (.returning written buffer)) => some (.ships written buffer)
  | _ => none

/-- What is shown by an access that leads a job to its end. -/
def Sight.ofMove? : Progress (Service.Phase β) (Reply ω) → Option (Sight β ω)
  | .continues _ => none
  | .finished reply => some (.replies reply)

/-- What an access shows, with the strand and the job that it is made for. -/
def sights (access : Access (Community π ε) (Job π ε ω δ) (Service.Phase β) (Reply ω)) :
    List (Nat × Job π ε ω δ × Sight β ω) :=
  ((Sight.ofPhase? access.phase).toList ++ (Sight.ofMove? access.moved).toList).map
    fun sight => (access.turn.strand, access.job, sight)

/-- What is shown of the jobs that concern a name, in order. -/
def shown (name : String)
    (past : List (Access (Community π ε) (Job π ε ω δ) (Service.Phase β) (Reply ω))) :
    List (Nat × Job π ε ω δ × Sight β ω) :=
  (past.filter fun access => access.job.concerns name).flatMap sights

end Community

namespace Likeness

variable {π ε β ω δ : Type} [Clearable β] [BufferSupply π β] [EventEncoder ε β]
  {obeys : δ → π × ε → π × ε} (likeness : Likeness obeys)

/-- Sights that are alike. -/
inductive Sights : Community.Sight β ω → Community.Sight β ω → Prop where
  | announces (announcement : ThreadAnnouncement) :
    Sights (.announces announcement) (.announces announcement)
  | asks {draft other : Draft} (drafts : draft.Alike likeness.timed other) :
    Sights (.asks draft) (.asks other)
  | writes {event other : Event} (events : event.Alike likeness.timed other) :
    Sights (.writes event) (.writes other)
  | ships (written : Outcome IoFailure Unit) {buffer held : β}
    (buffers : likeness.buffers buffer held) : Sights (.ships written buffer) (.ships written held)
  | replies (reply : Reply ω) : Sights (.replies reply) (.replies reply)

/-- To delete the jobs of the neighbours. A reporter of the name has to begin alike, and neighbours
may not take time if both hosts are to show the same time. -/
def thinning (clocked : Prop) (name : String) :
    Thinning (Community.procedure obeys : Procedure _ (Community.Job π ε ω δ) _ _) where
  keeps job := job.concerns name
  allows
    | .task other task => if other = name then likeness.Starts clocked task
      else ∀ nanoseconds, task = .linger nanoseconds → ¬clocked
    | .change _ => True
  states := likeness.Communities clocked name
  phases := likeness.Phases
  start _ _ := .opening
  kept := by
    intro job phase other state state' allowed concerns phases alike
    cases job with
    | change change => exact ⟨.finished _, alike.apply change⟩
    | task neighbour task =>
      obtain rfl : neighbour = name := of_decide_eq_true concerns
      exact alike.perform task (by simpa using allowed) phases
  deleted := by
    intro job state state' phase allowed concerns alike
    cases job with
    | change change => cases concerns
    | task neighbour task =>
      have different : neighbour ≠ name := of_decide_eq_false concerns
      cases task with
      | linger nanoseconds =>
        simp only [if_neg different] at allowed
        exact alike.linger (allowed nanoseconds rfl) nanoseconds
      | make | serve | order | release =>
        exact alike.moves (Community.moves_perform obeys neighbour (fun _ same => by cases same)
          phase state) different.symm

theorem forall₂_toList {α : Type} {related : α → α → Prop} {item? other? : Option α}
    (rel : Option.Rel related item? other?) : List.Forall₂ related item?.toList other?.toList := by
  cases rel with
  | none => exact .nil
  | some alike => exact .cons alike .nil

theorem sights_ofPhase {phase other : Service.Phase β} (alike : likeness.Phases phase other) :
    Option.Rel (likeness.Sights (ω := ω)) (Community.Sight.ofPhase? phase)
      (Community.Sight.ofPhase? other) := by
  cases alike with
  | opening => exact .none
  | recognizing phase =>
    cases phase with
    | identifying => exact .none
    | announcing announcement => exact .some (.announces announcement)
  | calling calls =>
    cases calls with
    | entering | identifying | resolvingMethod | resolvingException => exact .none
    | delivering purposes deliveries =>
      cases deliveries with
      | obtaining drafts => exact .some (.asks drafts)
      | stamping => exact .none
      | writing events => exact .some (.writes events)
      | returning written buffers => exact .some (.ships written buffers)

theorem sights_ofMove {moved other : Progress (Service.Phase β) (Reply ω)}
    (alike : moved.Alike likeness.Phases other) :
    Option.Rel likeness.Sights (Community.Sight.ofMove? moved)
      (Community.Sight.ofMove? other) := by
  cases alike with
  | continues => exact .none
  | finished reply => exact .some (.replies reply)

/-- Sights that are alike, of the same job on the same strand. -/
def Shows (first second : Nat × Community.Job π ε ω δ × Community.Sight β ω) : Prop :=
  first.1 = second.1 ∧ first.2.1 = second.2.1 ∧ likeness.Sights first.2.2 second.2.2

theorem forall₂_sights {clocked : Prop} {name : String}
    {access other : Access (Community π ε) (Community.Job π ε ω δ) (Service.Phase β) (Reply ω)}
    (alike : (likeness.thinning clocked name).Accesses access other) :
    List.Forall₂ likeness.Shows (Community.sights access) (Community.sights other) := by
  rw [Community.sights, Community.sights, List.forall₂_map_left_iff, List.forall₂_map_right_iff]
  refine List.Forall₂.imp (fun _ _ sights => ⟨alike.strand, alike.job, sights⟩) ?_
  exact List.rel_append (forall₂_toList (sights_ofPhase likeness alike.phases))
    (forall₂_toList (sights_ofMove likeness alike.moved))

/-- In a run without other jobs all accesses are shown. -/
theorem shown_alone {name : String} (host : Host) (work : List (List (Community.Job π ε ω δ)))
    (schedule : List Nat) :
    let alone : Interleaving (Community π ε) _ (Service.Phase β) (Reply ω) :=
      .fresh { host } (work.map fun jobs => jobs.filter (Community.Job.concerns name))
    Community.shown name (alone.accesses (Community.procedure obeys) schedule) =
      (alone.accesses (Community.procedure obeys) schedule).flatMap Community.sights := by
  intro alone
  rw [Community.shown, List.filter_eq_self.mpr]
  intro access member
  obtain ⟨jobs, listed, isJob⟩ := Interleaving.mem_work_of_accesses _ _ _ _ member
  rw [List.getElem?_map, Option.map_eq_some_iff] at listed
  obtain ⟨all, -, rfl⟩ := listed
  exact (List.mem_filter.mp isJob).2

/-- The members of a name show the same with neighbours and without, as far as they have to be
alike, and end in states that are alike. -/
theorem shown_alike (clocked : Prop) (host : Host)
    (unused : ∀ thread key, host.memos.upcoming ≤ key → host.memos.find? thread key = none)
    (work : List (List (Community.Job π ε ω δ))) (schedule : List Nat) (name : String)
    (allowed : ∀ jobs ∈ work, ∀ job ∈ jobs, (likeness.thinning clocked name).allows job) :
    let full : Interleaving (Community π ε) _ (Service.Phase β) (Reply ω) := .fresh { host } work
    let alone : Interleaving (Community π ε) _ (Service.Phase β) (Reply ω) :=
      .fresh { host } (work.map fun jobs => jobs.filter (Community.Job.concerns name))
    let turns := full.thinned (Community.procedure obeys) (Community.Job.concerns name) schedule
    List.Forall₂ likeness.Shows
        (Community.shown name (full.accesses (Community.procedure obeys) schedule))
        (Community.shown name (alone.accesses (Community.procedure obeys) turns)) ∧
      (alone.run (Community.procedure obeys) turns).strands.map Strand.results =
        (full.run (Community.procedure obeys) schedule).strands.map (fun strand =>
          strand.results.filter fun entry => entry.1.concerns name) ∧
      likeness.Homes clocked name (full.run (Community.procedure obeys) schedule).shared
        (alone.run (Community.procedure obeys) turns).shared := by
  intro full alone turns
  have sound : ({ host } : Community π ε).Sound := Community.sound_empty unused
  -- at first nobody lives in the community, so both runs begin alike
  have states : (likeness.thinning (ω := ω) clocked name).states { host } { host } :=
    ⟨sound, sound, ⟨rfl, rfl, fun _ => rfl⟩, .none⟩
  obtain ⟨runs, accesses⟩ := Thinning.runs_thinned states work allowed schedule
  refine ⟨?_, runs.results, runs.states.homes⟩
  rw [shown_alone]
  exact List.rel_flatMap accesses fun _ _ alike => forall₂_sights likeness alike

/-- Everything is alike that is equal. -/
def exact (obeys : δ → π × ε → π × ε) : Likeness obeys where
  timed := true
  supplies := Eq
  encoders := Eq
  buffers := Eq
  lend := by
    rintro supply _ rfl
    exact ⟨Loan.Alike.refl (fun _ => rfl) _, rfl⟩
  ship := by
    rintro buffer _ supply _ rfl rfl
    exact ⟨rfl, rfl⟩
  encode := by
    rintro event told encoder _ buffer _ alike rfl rfl
    rw [alike.eq]
    exact ⟨rfl, rfl, rfl⟩
  clear := by
    rintro buffer _ rfl
    rfl
  obey := by
    rintro supply _ encoder _ order rfl rfl
    exact ⟨rfl, rfl⟩

theorem Shows.eq_of_exact {first second : Nat × Community.Job π ε ω δ × Community.Sight β ω}
    (shows : (exact obeys).Shows first second) : first = second := by
  obtain ⟨strand, job, sight⟩ := first
  obtain ⟨strand', job', sight'⟩ := second
  obtain ⟨rfl, rfl, sights⟩ := shows
  cases sights with
  | announces | replies => rfl
  | asks drafts => rw [drafts.eq]
  | writes events => rw [events.eq]
  | ships written buffers => rw [show _ = _ from buffers]

end Likeness

namespace Community

variable {π ε β ω δ : Type}

/-- The neighbours of a name take no time for their work. -/
def Timeless (name : String) (work : List (List (Job π ε ω δ))) : Prop :=
  ∀ jobs ∈ work, ∀ neighbour nanoseconds,
    .task neighbour (.linger nanoseconds) ∈ jobs → neighbour = name

/-- No reporter is made under a name. -/
def OnlyTracks (name : String) (work : List (List (Job π ε ω δ))) : Prop :=
  ∀ jobs ∈ work, ∀ supply encoder names,
    .task name (.make (.reporting supply encoder names)) ∉ jobs

variable [Clearable β] [BufferSupply π β] [EventEncoder ε β]

/-- The reporters of a name begin with supplies and encoders that are like themselves. -/
def Begins {obeys : δ → π × ε → π × ε} (likeness : Likeness obeys) (name : String)
    (work : List (List (Job π ε ω δ))) : Prop :=
  ∀ jobs ∈ work, ∀ supply encoder names,
    .task name (.make (.reporting supply encoder names)) ∈ jobs →
      likeness.supplies supply supply ∧ likeness.encoders encoder encoder

theorem allows_of_begins {obeys : δ → π × ε → π × ε} {likeness : Likeness obeys} {name : String}
    {work : List (List (Job π ε ω δ))} (begins : Begins likeness name work)
    (clocked : likeness.timed = true → Timeless name work ∨ OnlyTracks name work) :
    ∀ jobs ∈ work, ∀ job ∈ jobs, (likeness.thinning (Timeless name work) name).allows job := by
  intro jobs listed job member
  cases job with
  | change change => trivial
  | task neighbour task =>
    simp only [Likeness.thinning]
    split
    · rename_i same
      subst same
      rintro supply encoder names rfl
      obtain ⟨supplies, encoders⟩ := begins jobs listed supply encoder names member
      refine ⟨supplies, encoders, fun timed => (clocked timed).resolve_right fun tracks => ?_⟩
      exact tracks jobs listed supply encoder names member
    · rename_i different
      rintro nanoseconds rfl timeless
      exact different (timeless jobs listed neighbour nanoseconds member)

/-- The members of a name show the same as in the run in which only the host changes beside them, up
to the timestamps of their events if their neighbours take time. -/
theorem neighbours_unseen (obeys : δ → π × ε → π × ε) (host : Host)
    (unused : ∀ thread key, host.memos.upcoming ≤ key → host.memos.find? thread key = none)
    (work : List (List (Job π ε ω δ))) (schedule : List Nat) (name : String) :
    let full : Interleaving (Community π ε) _ (Service.Phase β) (Reply ω) := .fresh { host } work
    let alone : Interleaving (Community π ε) _ (Service.Phase β) (Reply ω) :=
      .fresh { host } (work.map fun jobs => jobs.filter (Job.concerns name))
    let turns := full.thinned (procedure obeys) (Job.concerns name) schedule
    let past := full.accesses (procedure obeys) schedule
    let own := alone.accesses (procedure obeys) turns
    let left := full.run (procedure obeys) schedule
    let leftAlone := alone.run (procedure obeys) turns
    (Timeless name work ∨ OnlyTracks name work →
      shown name past = shown name own ∧
        leftAlone.strands.map Strand.results = left.strands.map (fun strand =>
          strand.results.filter fun entry => entry.1.concerns name) ∧
        (Likeness.exact obeys).Homes (Timeless name work) name left.shared leftAlone.shared) ∧
    (∀ likeness : Likeness obeys, likeness.timed = false → Begins likeness name work →
      List.Forall₂ likeness.Shows (shown name past) (shown name own) ∧
        leftAlone.strands.map Strand.results = left.strands.map (fun strand =>
          strand.results.filter fun entry => entry.1.concerns name) ∧
        likeness.Homes (Timeless name work) name left.shared leftAlone.shared) ∧
    (∀ earlier made later access rest thread service text,
      past = earlier ++ made :: (later ++ access :: rest) → Founds name made →
      (∀ other ∈ later, ¬Founds name other) → access.job = .task name (.serve thread service) →
      access.phase.consults? = some text → access.moved ≠ .finished .refused →
      (∀ other ∈ later, ¬Consults name thread other) →
      ∃ next id, access.moved = .continues next ∧ next.announces? = some { id, name := text } ∧
        ((∀ other ∈ later, ∀ caller, ¬Consults name caller other) → id = 0)) := by
  intro full alone turns past own left leftAlone
  have sound : full.shared.Sound := sound_empty unused
  refine ⟨?_, ?_, ?_⟩
  · intro clocked
    have begins : Begins (Likeness.exact obeys) name work := fun _ _ _ _ _ _ => ⟨rfl, rfl⟩
    obtain ⟨shows, results, homes⟩ := (Likeness.exact obeys).shown_alike (Timeless name work) host
      unused work schedule name (allows_of_begins begins fun _ => clocked)
    refine ⟨?_, results, homes⟩
    exact List.forall₂_eq_eq_eq ▸ shows.imp fun _ _ same => same.eq_of_exact
  · intro likeness timeless begins
    exact likeness.shown_alike (Timeless name work) host unused work schedule name
      (allows_of_begins begins fun timed => by rw [timeless] at timed; cases timed)
  · intro earlier made later access rest thread service text split founds last job consults
      attended first
    exact announces_of_founds obeys full sound schedule split founds last job consults attended
      first

/-- The event that is written. -/
def Sight.written? : Sight β ω → Option Event
  | .writes event => some event
  | _ => none

/-- A tracker that knows two threads is released on one of them, and a reporter comes after it,
which a neighbour interrupts in its first call. -/
def successionWork : List (List (Job Archive Scribe String Directive)) :=
  [[.task "old" (.make (.tracking .scripted)),
      .task "old" (.serve ⟨0⟩ (.recognition (.returned ()))),
      .task "old" (.serve ⟨1⟩ (.recognition (.returned ()))), .task "old" (.release ⟨0⟩),
      .task "new" (.make (.reporting {} {} .scripted)), .task "old" (.linger 5000000),
      .change (.rename ⟨1⟩ "worker"),
      .task "new" (.serve ⟨1⟩ (.reporting (.report (.entry "run"))))],
    [.task "neighbour" (.make (.tracking .scripted)),
      .task "neighbour" (.serve ⟨1⟩ (.recognition (.failed "refused")))]]

def successionTurns : List Nat :=
  List.replicate 30 0 ++ List.replicate 12 1 ++ List.replicate 30 0

/-- The accesses of those jobs, or of some of them, in such an order. -/
def successionPast (work : List (List (Job Archive Scribe String Directive)))
    (turns : List Nat) :
    List (Access (Community Archive Scribe) (Job Archive Scribe String Directive)
      (Service.Phase Transcript) (Reply String)) :=
  (Interleaving.fresh {} work).accesses (procedure Directive.obeyed) turns

/-- The reporter and the neighbour that come after the released tracker show the same as by
themselves, although a memo of the tracker is left. The times in the stream of the reporter differ
by those that the tracker takes. -/
theorem neighbours_unseen_succession :
    let full : Interleaving _ _ (Service.Phase Transcript) _ := .fresh {} successionWork
    let turns (name : String) :=
      full.thinned (procedure Directive.obeyed) (Job.concerns name) successionTurns
    let own (name : String) :=
      successionPast (successionWork.map fun jobs => jobs.filter (Job.concerns name)) (turns name)
    let past := successionPast successionWork successionTurns
    Begins Likeness.recorded "new" successionWork ∧ OnlyTracks "neighbour" successionWork ∧
      List.Forall₂ Likeness.recorded.Shows (shown "new" past) (shown "new" (own "new")) ∧
      shown "neighbour" past = shown "neighbour" (own "neighbour") ∧
      (shown "new" past).filterMap (fun entry => entry.2.2.written?) =
        [.threadMapping 0 5 "worker", .methodMapping 1 "run", .activity ⟨5, 0⟩ 0 (.entry 1)] ∧
      (shown "new" (own "new")).filterMap (fun entry => entry.2.2.written?) =
        [.threadMapping 0 0 "worker", .methodMapping 1 "run", .activity ⟨0, 0⟩ 0 (.entry 1)] ∧
      (full.run (procedure Directive.obeyed) successionTurns).shared.host.memos.find? ⟨1⟩ 0 =
        some { id := 1, announced := some "" } := by
  intro full turns own past
  have unused (thread : Thread) (key : TrackerKey) (_ : ({} : Host).memos.upcoming ≤ key) :
      ({} : Host).memos.find? thread key = none := rfl
  have begins : Begins Likeness.recorded "new" successionWork := by
    intro jobs listed supply encoder names member
    simp only [successionWork, List.mem_cons, List.not_mem_nil, or_false] at listed
    rcases listed with rfl | rfl
    · obtain ⟨rfl, rfl, -⟩ : supply = {} ∧ encoder = {} ∧ names = .scripted := by
        simpa using member
      exact ⟨⟨.nil, rfl, rfl, rfl, rfl⟩, rfl⟩
    · simp at member
  have tracks : OnlyTracks "neighbour" successionWork := by
    intro jobs listed supply encoder names member
    simp only [successionWork, List.mem_cons, List.not_mem_nil, or_false] at listed
    rcases listed with rfl | rfl <;> simp at member
  obtain ⟨-, alike, -⟩ := neighbours_unseen Directive.obeyed {} unused successionWork
    successionTurns "new"
  obtain ⟨same, -, -⟩ := neighbours_unseen Directive.obeyed {} unused successionWork
    successionTurns "neighbour"
  refine ⟨begins, tracks, ?_, ?_, ?_, ?_, ?_⟩
  · exact (alike Likeness.recorded rfl begins).1
  · exact (same (.inr tracks)).1
  · decide +kernel
  · decide +kernel
  · decide +kernel

end Community

end TraceRelay
