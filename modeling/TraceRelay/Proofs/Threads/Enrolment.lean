import TraceRelay.Proofs.Stream.Sequential

/-! A thread gets an id of its own when a call of it looks for its memo in vain. -/

namespace TraceRelay.OpenSite

variable {π ε β δ : Type}

/-- The thread that gets an id with an access, and the id. -/
def enrolment? (access : SiteAccess π ε β δ) : Option (Thread × ThreadId) :=
  match access.phase with
  | .atSite _ (.calling thread (.identifying _ _ (.consult _))) =>
    if (access.before.tracked.memo? thread).isNone then
      some (thread, access.before.tracked.tracker.upcoming)
    else none
  | _ => none

/-- The thread that ends with an access. -/
def departs? (access : SiteAccess π ε β δ) : Option Thread :=
  match access.phase with
  | .atSite _ (.changing (.endThread thread)) => some thread
  | _ => none

/-- The thread whose lookup notes its announcement in a phase, and the announcement. -/
def Phase.settles? : Phase β δ → Option (Thread × ThreadAnnouncement)
  | .atSite _ (.calling thread (.identifying _ _ (.settle announcement))) =>
    some (thread, announcement)
  | _ => none

theorem calling_of_settles {phase : Phase β δ} {thread : Thread}
    {announcement : ThreadAnnouncement} (settles : phase.settles? = some (thread, announcement)) :
    ∃ siteJob activity entered, phase = .atSite siteJob
      (.calling thread (.identifying activity entered (.settle announcement))) := by
  unfold Phase.settles? at settles
  split at settles <;> cases settles
  exact ⟨_, _, _, rfl⟩

theorem calling_of_enrolment {access : SiteAccess π ε β δ} {thread : Thread} {id : ThreadId}
    (enrols : enrolment? access = some (thread, id)) :
    ∃ siteJob activity entered name, access.phase = .atSite siteJob
      (.calling thread (.identifying activity entered (.consult name))) := by
  unfold enrolment? at enrols
  split at enrols
  · rename_i calling
    split at enrols <;> cases enrols
    exact ⟨_, _, _, _, calling⟩
  · cases enrols

/-- The threads that have got ids, each with its id, in order. -/
def enrolments (past : List (SiteAccess π ε β δ)) : List (Thread × ThreadId) :=
  past.filterMap enrolment?

/-- The threads that have ended. -/
def departed (past : List (SiteAccess π ε β δ)) : List Thread := past.filterMap departs?

theorem enrolments_concat (past : List (SiteAccess π ε β δ)) (access : SiteAccess π ε β δ) :
    enrolments (past ++ [access]) = enrolments past ++ (enrolment? access).toList := by
  rw [enrolments, List.filterMap_append, filterMap_singleton]
  rfl

theorem departed_concat (past : List (SiteAccess π ε β δ)) (access : SiteAccess π ε β δ) :
    departed (past ++ [access]) = departed past ++ (departs? access).toList := by
  rw [departed, List.filterMap_append, filterMap_singleton]
  rfl

/-- What an access does to the memos of the tracker. -/
inductive Remembers (access : SiteAccess π ε β δ) : Prop where
  /-- The memos are kept, or lost with their thread. -/
  | keeps (unenrolled : enrolment? access = none)
    (upcoming : access.after.tracked.tracker.upcoming = access.before.tracked.tracker.upcoming)
    (memos : ∀ thread, access.after.tracked.memo? thread = access.before.tracked.memo? thread ∨
      access.after.tracked.memo? thread = none ∧ departs? access = some thread)
  /-- A new thread gets the next id. -/
  | enrols (thread : Thread) (new : access.before.tracked.memo? thread = none)
    (enrolled : enrolment? access = some (thread, access.before.tracked.tracker.upcoming))
    (upcoming : access.after.tracked.tracker.upcoming =
      access.before.tracked.tracker.upcoming + 1)
    (memos : ∀ other, access.after.tracked.memo? other =
      if other = thread then some { id := access.before.tracked.tracker.upcoming }
      else access.before.tracked.memo? other)
  /-- A thread has been announced. -/
  | notes (thread : Thread) (memo : ThreadMemo) (announcement : ThreadAnnouncement)
    (settles : access.phase.settles? = some (thread, announcement))
    (found : access.before.tracked.memo? thread = some memo)
    (unenrolled : enrolment? access = none)
    (upcoming : access.after.tracked.tracker.upcoming = access.before.tracked.tracker.upcoming)
    (memos : ∀ other, access.after.tracked.memo? other =
      if other = thread then some { memo with announced := some announcement.name }
      else access.before.tracked.memo? other)

variable [Clearable β] [BufferSupply π β] [EventEncoder ε β] {obeys : δ → π × ε → π × ε}
  {past : List (SiteAccess π ε β δ)} {access : SiteAccess π ε β δ}

omit [Clearable β] [BufferSupply π β] [EventEncoder ε β] in
/-- The lookup of a thread's id makes a memo, brings one up to date, or keeps all of them. -/
theorem remembers_identifying {siteJob : Site.Job} {thread : Thread}
    {activity : Activity String String} {entered : Timestamp} {phase : Identification}
    (calling : access.phase = .atSite siteJob
      (.calling thread (.identifying activity entered phase)))
    (tracked : access.after.tracked = (phase.step thread access.before.tracked).2) :
    Remembers access := by
  have still (silent : enrolment? access = none)
      (kept : (phase.step thread access.before.tracked).2 = access.before.tracked) :
      Remembers access :=
    .keeps silent (by rw [tracked, kept]) fun _ => .inl (by rw [tracked, kept])
  cases phase with
  | readName => exact still (by simp [enrolment?, calling]) rfl
  | consult name =>
    cases found : access.before.tracked.memo? thread with
    | none =>
      let id := access.before.tracked.tracker.upcoming
      have after : access.after.tracked = { access.before.tracked.remember thread { id } with
          tracker := { access.before.tracked.tracker with upcoming := id + 1 } } := by
        rw [tracked, Identification.step, found]
        rfl
      refine .enrols thread found (by simp [enrolment?, calling, found]) (by rw [after]) ?_
      intro other
      rw [after]
      exact access.before.tracked.memo?_remember thread other _
    | some memo =>
      refine still (by simp [enrolment?, calling, found]) ?_
      rw [Identification.step, found]
      by_cases same : memo.announced = some name <;> simp [same]
  | settle announcement =>
    have silent : enrolment? access = none := by simp [enrolment?, calling]
    cases found : access.before.tracked.memo? thread with
    | none => exact still silent (by rw [Identification.step, found])
    | some memo =>
      have after : access.after.tracked = access.before.tracked.remember thread
          { memo with announced := some announcement.name } := by
        rw [tracked, Identification.step, found]
      refine .notes thread memo announcement (by simp [Phase.settles?, calling]) found silent
        (by rw [after]; rfl) ?_
      intro other
      rw [after]
      exact access.before.tracked.memo?_remember thread other _

/-- Every access keeps the memos, makes one, or brings one up to date. -/
theorem remembers_of_step
    (made : (procedure obeys).step access.job access.phase access.before =
      (access.moved, access.after)) : Remembers access := by
  have still (silent : enrolment? access = none)
      (kept : access.after.tracked = access.before.tracked) : Remembers access :=
    .keeps silent (by rw [kept]) fun _ => .inl (by rw [kept])
  cases phase : access.phase with
  | ordering order =>
    rw [phase] at made
    exact still (by simp [enrolment?, phase]) (by rw [← (Prod.mk.inj made).2]; rfl)
  | atSite siteJob sitePhase =>
    cases sitePhase with
    | changing change =>
      rw [phase] at made
      have after := (Prod.mk.inj made).2
      have silent : enrolment? access = none := by simp [enrolment?, phase]
      cases change with
      | advance | rename =>
        exact .keeps silent (by rw [← after]; rfl) fun _ => .inl (by rw [← after]; rfl)
      | endThread ended =>
        refine .keeps silent (by rw [← after]; rfl) fun thread => ?_
        rw [← after]
        by_cases own : thread = ended
        · subst own
          exact .inr ⟨by simp [Site.tracked, TrackedHost.memo?, Host.apply,
            ThreadMemos.find?_endThread], by simp [departs?, phase]⟩
        · exact .inl (by simp [Site.tracked, TrackedHost.memo?, Host.apply,
            ThreadMemos.find?_endThread, own])
    | calling thread call =>
      have after := (call_of_step made phase).1
      cases call with
      | identifying activity entered own =>
        exact remembers_identifying phase
          (by rw [after, (step_identifying thread activity entered own access.before).1])
      | entering request => exact still (by simp [enrolment?, phase]) (by rw [after]; rfl)
      | resolvingMethod activity entered caller own =>
        exact still (by simp [enrolment?, phase])
          (by rw [after, (step_resolvingMethod ..).1])
      | resolvingException activity entered caller method raised own =>
        exact still (by simp [enrolment?, phase])
          (by rw [after, (step_resolvingException ..).1])
      | delivering purpose delivery =>
        exact still (by simp [enrolment?, phase]) (by rw [after, tracked_delivering])

/-- A memo that no lookup has just made or brought up to date has been there before. -/
theorem memo?_before {thread : Thread} {memo : ThreadMemo}
    (made : (procedure obeys).step access.job access.phase access.before =
      (access.moved, access.after))
    (unenrolled : ∀ id, enrolment? access ≠ some (thread, id))
    (unsettled : ∀ announcement, access.phase.settles? ≠ some (thread, announcement))
    (found : access.after.tracked.memo? thread = some memo) :
    access.before.tracked.memo? thread = some memo := by
  cases remembers_of_step made with
  | keeps _ _ memos =>
    rcases memos thread with same | ⟨lost, -⟩
    · exact same ▸ found
    · simp [lost] at found
  | enrols own _ enrolled _ memos =>
    have different : thread ≠ own := fun same => unenrolled _ (same ▸ enrolled)
    rwa [memos, if_neg different] at found
  | notes own old announcement settles _ _ _ memos =>
    have different : thread ≠ own := fun same => unsettled announcement (same ▸ settles)
    rwa [memos, if_neg different] at found

/-- The memo that a lookup makes holds the new id, and that nothing has been announced. -/
theorem memo?_enrolment {thread : Thread} {id : ThreadId}
    (made : (procedure obeys).step access.job access.phase access.before =
      (access.moved, access.after)) (enrols : enrolment? access = some (thread, id)) :
    access.after.tracked.memo? thread = some { id } := by
  cases remembers_of_step made with
  | keeps unenrolled | notes _ _ _ _ _ unenrolled =>
    rw [unenrolled] at enrols
    cases enrols
  | enrols own new enrolled _ memos =>
    rw [enrolled] at enrols
    cases enrols
    rw [memos, if_pos rfl]

/-- The memo that a lookup leaves when it notes an announcement is the one that it has found, with
the name that has been announced. -/
theorem memo?_settles {thread : Thread} {announcement : ThreadAnnouncement} {memo : ThreadMemo}
    (made : (procedure obeys).step access.job access.phase access.before =
      (access.moved, access.after))
    (settles : access.phase.settles? = some (thread, announcement))
    (found : access.after.tracked.memo? thread = some memo) :
    ∃ old, access.before.tracked.memo? thread = some old ∧
      memo = { old with announced := some announcement.name } := by
  obtain ⟨siteJob, activity, entered, calling⟩ := calling_of_settles settles
  rw [(call_of_step made calling).1, (step_identifying ..).1, Identification.step] at found
  cases old : access.before.tracked.memo? thread with
  | none =>
    rw [old] at found
    rw [old] at found
    cases found
  | some memo =>
    rw [old, TrackedHost.memo?_remember, if_pos rfl] at found
    cases found
    exact ⟨memo, rfl, rfl⟩

/-- The memos of the tracker and the ids that accesses have given fit each other. -/
structure Enrolled (tracked : TrackedHost) (past : List (SiteAccess π ε β δ)) : Prop where
  upcoming : tracked.tracker.upcoming = UInt32.ofNat (enrolments past).length
  ids : (enrolments past).map Prod.snd = (List.range (enrolments past).length).map UInt32.ofNat
  held : ∀ thread memo, tracked.memo? thread = some memo → (thread, memo.id) ∈ enrolments past
  single : ∀ thread id, (thread, id) ∈ enrolments past → thread ∈ departed past ∨
    ∃ memo, tracked.memo? thread = some memo ∧ memo.id = id

omit [Clearable β] [BufferSupply π β] [EventEncoder ε β] in
theorem enrolled_fresh {tracked : TrackedHost} (new : tracked.tracker.upcoming = 0)
    (without : ∀ thread, tracked.memo? thread = none) :
    Enrolled tracked ([] : List (SiteAccess π ε β δ)) where
  upcoming := new
  ids := rfl
  held thread memo found := by
    rw [without] at found
    cases found
  single thread id member := absurd member List.not_mem_nil

omit [Clearable β] [BufferSupply π β] [EventEncoder ε β] in
theorem departed_mono (past : List (SiteAccess π ε β δ)) (access : SiteAccess π ε β δ) :
    departed past ⊆ departed (past ++ [access]) := by
  rw [departed_concat]
  exact List.subset_append_left _ _

omit [Clearable β] [BufferSupply π β] [EventEncoder ε β] in
theorem enrolments_unenrolled {access : SiteAccess π ε β δ} (past : List (SiteAccess π ε β δ))
    (unenrolled : enrolment? access = none) :
    enrolments (past ++ [access]) = enrolments past := by
  rw [enrolments_concat, unenrolled]
  exact List.append_nil _

omit [Clearable β] [BufferSupply π β] [EventEncoder ε β] in
/-- An access that gives no id keeps the memos and the ids fitting if each memo that it leaves was
there under its id, and each memo that was there is left under its id or is one of a thread that
departs. -/
theorem Enrolled.unenrolled (enrolled : Enrolled access.before.tracked past)
    (unenrolled : enrolment? access = none)
    (upcoming : access.after.tracked.tracker.upcoming = access.before.tracked.tracker.upcoming)
    (older : ∀ thread memo, access.after.tracked.memo? thread = some memo →
      ∃ old, access.before.tracked.memo? thread = some old ∧ old.id = memo.id)
    (newer : ∀ thread memo, access.before.tracked.memo? thread = some memo →
      departs? access = some thread ∨
        ∃ new, access.after.tracked.memo? thread = some new ∧ new.id = memo.id) :
    Enrolled access.after.tracked (past ++ [access]) := by
  have same := enrolments_unenrolled past unenrolled
  constructor
  · rw [same, upcoming]
    exact enrolled.upcoming
  · rw [same]
    exact enrolled.ids
  · intro thread memo found
    obtain ⟨old, foundBefore, own⟩ := older thread memo found
    rw [same, ← own]
    exact enrolled.held thread old foundBefore
  · intro thread id member
    rw [same] at member
    obtain gone | ⟨old, found, rfl⟩ := enrolled.single thread id member
    · exact .inl (departed_mono past access gone)
    · exact (newer thread old found).imp_left fun gone => by simp [departed_concat, gone]

omit [Clearable β] [BufferSupply π β] [EventEncoder ε β] in
/-- An access that gives a thread an id and a memo of it keeps the memos and the ids fitting. -/
theorem Enrolled.enrols {thread : Thread} (enrolled : Enrolled access.before.tracked past)
    (new : access.before.tracked.memo? thread = none)
    (enrolledNow : enrolment? access = some (thread, access.before.tracked.tracker.upcoming))
    (upcoming : access.after.tracked.tracker.upcoming =
      access.before.tracked.tracker.upcoming + 1)
    (memos : ∀ other, access.after.tracked.memo? other =
      if other = thread then some { id := access.before.tracked.tracker.upcoming }
      else access.before.tracked.memo? other) :
    Enrolled access.after.tracked (past ++ [access]) := by
  have more : enrolments (past ++ [access]) =
      enrolments past ++ [(thread, access.before.tracked.tracker.upcoming)] := by
    rw [enrolments_concat, enrolledNow]
    rfl
  constructor
  · rw [more, upcoming, enrolled.upcoming, List.length_append]
    exact (UInt32.ofNat_add _ 1).symm
  · rw [more, List.map_append, enrolled.ids, enrolled.upcoming, List.length_append]
    simp [List.range_succ]
  · intro other memo found
    rw [more]
    rw [memos] at found
    split at found
    · rename_i same
      cases found
      simp [same]
    · exact List.mem_append_left _ (enrolled.held other memo found)
  · intro other id member
    rw [more, List.mem_append, List.mem_singleton] at member
    rw [memos]
    rcases member with old | same
    · refine (enrolled.single other id old).imp (fun gone => departed_mono past access gone) ?_
      rintro ⟨memo, found, own⟩
      rw [if_neg fun same => by simp [same, new] at found]
      exact ⟨memo, found, own⟩
    · cases same
      exact .inr ⟨_, if_pos rfl, rfl⟩

/-- Every access keeps the memos and the ids fitting. -/
theorem Enrolled.after_access (enrolled : Enrolled access.before.tracked past)
    (made : (procedure obeys).step access.job access.phase access.before =
      (access.moved, access.after)) : Enrolled access.after.tracked (past ++ [access]) := by
  cases remembers_of_step made with
  | keeps unenrolled upcoming memos =>
    refine enrolled.unenrolled unenrolled upcoming (fun thread memo found => ?_)
      fun thread memo found => ?_
    · rcases memos thread with kept | ⟨lost, -⟩
      · exact ⟨memo, kept ▸ found, rfl⟩
      · simp [lost] at found
    · rcases memos thread with kept | ⟨-, gone⟩
      · exact .inr ⟨memo, kept ▸ found, rfl⟩
      · exact .inl gone
  | enrols thread new enrolledNow upcoming memos =>
    exact enrolled.enrols new enrolledNow upcoming memos
  | notes thread memo announcement settles found unenrolled upcoming memos =>
    refine enrolled.unenrolled unenrolled upcoming (fun other new foundNew => ?_)
      fun other old foundOld => .inr ?_
    · rw [memos] at foundNew
      split at foundNew
      · rename_i own
        cases foundNew
        exact ⟨memo, own ▸ found, rfl⟩
      · exact ⟨new, foundNew, rfl⟩
    · rw [memos]
      split
      · rename_i own
        rw [own, found] at foundOld
        cases foundOld
        exact ⟨_, rfl, rfl⟩
      · exact ⟨old, foundOld, rfl⟩

/-- The memos and the ids fit each other in every run. -/
theorem enrolled_run (obeys : δ → π × ε → π × ε) {site : Site π ε}
    (new : site.reporter.tracker.upcoming = 0)
    (without : ∀ thread, site.tracked.memo? thread = none) (work : List (List (Job δ)))
    (schedule : List Nat) :
    Enrolled ((Interleaving.fresh site work).run (procedure obeys) schedule).shared.tracked
      ((Interleaving.fresh site work).accesses (procedure obeys) schedule) := by
  refine Interleaving.run_induction (motive := fun traffic past =>
    Enrolled traffic.shared.tracked past) (procedure obeys) _ ?_ ?_ ?_ schedule
  · exact enrolled_fresh new without
  · exact fun _ _ _ _ _ _ enrolled _ _ _ => enrolled
  · intro traffic past strand access enrolled makes
    rw [← makes.before] at enrolled
    exact enrolled.after_access makes.made

omit [Clearable β] [BufferSupply π β] [EventEncoder ε β] in
/-- As long as no more threads have got ids than there are ids, they are distinct. -/
theorem Enrolled.distinct {tracked : TrackedHost} (enrolled : Enrolled tracked past)
    (room : (enrolments past).length ≤ 2 ^ 32) : ((enrolments past).map Prod.snd).Nodup := by
  rw [enrolled.ids]
  refine List.Nodup.map_on ?_ List.nodup_range
  intro first inFirst second inSecond same
  rw [List.mem_range] at inFirst inSecond
  rw [← UInt32.toNat_ofNat_of_lt' (Nat.lt_of_lt_of_le inFirst room), same,
    UInt32.toNat_ofNat_of_lt' (Nat.lt_of_lt_of_le inSecond room)]

omit [Clearable β] [BufferSupply π β] [EventEncoder ε β] in
/-- A thread that lives has one id. -/
theorem Enrolled.id_unique {tracked : TrackedHost} (enrolled : Enrolled tracked past)
    {thread : Thread} {id other : ThreadId} (member : (thread, id) ∈ enrolments past)
    (memberOther : (thread, other) ∈ enrolments past) (lives : thread ∉ departed past) :
    id = other := by
  obtain gone | ⟨memo, found, rfl⟩ := enrolled.single thread id member
  · exact absurd gone lives
  · obtain gone | ⟨otherMemo, foundOther, rfl⟩ := enrolled.single thread other memberOther
    · exact absurd gone lives
    · rw [Option.some.inj (found.symm.trans foundOther)]

end TraceRelay.OpenSite
