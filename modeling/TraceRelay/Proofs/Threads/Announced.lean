import TraceRelay.Proofs.Threads.Enrolment

/-! The memo of a living thread tells the name that its last successful announcement gave. -/

namespace TraceRelay.OpenSite

variable {π ε β δ : Type}

/-- The announcements of threads that have succeeded, in order, be it that the mapping was shipped
or that there was no buffer for it. -/
def noted (past : List (SiteAccess π ε β δ)) : List (Thread × ThreadAnnouncement) :=
  past.filterMap fun access => access.phase.settles?

/-- The name that the last successful announcement of a thread gave. -/
def announcedName? (thread : Thread) (past : List (SiteAccess π ε β δ)) : Option String :=
  ((noted past).filter fun entry => entry.1 = thread).getLast?.map fun entry => entry.2.name

theorem noted_concat (past : List (SiteAccess π ε β δ)) (access : SiteAccess π ε β δ) :
    noted (past ++ [access]) = noted past ++ access.phase.settles?.toList := by
  rw [noted, List.filterMap_append, filterMap_singleton]
  rfl

theorem announcedName?_settles {access : SiteAccess π ε β δ} {thread : Thread}
    {announcement : ThreadAnnouncement} (past : List (SiteAccess π ε β δ))
    (settles : access.phase.settles? = some (thread, announcement)) (other : Thread) :
    announcedName? other (past ++ [access]) =
      if other = thread then some announcement.name else announcedName? other past := by
  rw [announcedName?, noted_concat, settles]
  by_cases own : other = thread
  · simp [own]
  · simp [own, Ne.symm own, announcedName?]

theorem announcedName?_unsettled {access : SiteAccess π ε β δ} (past : List (SiteAccess π ε β δ))
    (silent : access.phase.settles? = none) (thread : Thread) :
    announcedName? thread (past ++ [access]) = announcedName? thread past := by
  rw [announcedName?, noted_concat, silent, Option.toList_none, List.append_nil]
  rfl

/-- The thread that a call is announcing in a phase, or has just announced. -/
def Phase.presents? : Phase β δ → Option Thread
  | .atSite _ (.calling thread (.identifying _ _ (.settle _))) => some thread
  | .atSite _ (.calling thread (.delivering (.announceThread _ _ _) _)) => some thread
  | _ => none

theorem presents_of_settles {phase : Phase β δ} {thread : Thread}
    {announcement : ThreadAnnouncement} (settles : phase.settles? = some (thread, announcement)) :
    phase.presents? = some thread := by
  obtain ⟨siteJob, activity, entered, rfl⟩ := calling_of_settles settles
  rfl

theorem presents?_start (job : Job δ) : (job.start : Phase β δ).presents? = none := by
  cases job with
  | order wanted => rfl
  | atSite siteJob => cases siteJob <;> rfl

/-- The memos of the tracker, the calls in progress and the announcements that have been noted fit
each other. -/
structure Announced (traffic : Traffic π ε β δ) (past : List (SiteAccess π ε β δ)) : Prop where
  enrolled : Enrolled traffic.shared.tracked past
  presented : ∀ engagement ∈ traffic.underway, ∀ thread,
    engagement.phase.presents? = some thread → ∃ id, (thread, id) ∈ enrolments past
  memos : ∀ thread, thread ∉ departed past →
    (traffic.shared.tracked.memo? thread).bind ThreadMemo.announced = announcedName? thread past

variable [Clearable β] [BufferSupply π β] [EventEncoder ε β] {obeys : δ → π × ε → π × ε}
  {past : List (SiteAccess π ε β δ)} {access : SiteAccess π ε β δ}

/-- A call announces a thread only that has got an id. -/
theorem presents_next {next : Engagement (Job δ) (Phase β δ)} {thread : Thread}
    (made : (procedure obeys).step access.job access.phase access.before =
      (access.moved, access.after)) (goesOn : access.next? = some next)
    (presents : next.phase.presents? = some thread) :
    access.phase.presents? = some thread ∨
      (access.before.tracked.memo? thread).isSome ∨
      ∃ id, enrolment? access = some (thread, id) := by
  obtain ⟨turn, job, phase, before, moved, after⟩ := access
  simp only at made
  cases happens_of_step made with
  | ends | changes | obeys => cases goesOn
  | goesOn siteJob caller call next stepped =>
    cases goesOn
    cases call with
    | entering request =>
      cases stepped
      cases request <;> cases presents
    | identifying activity entered own =>
      rw [(step_identifying caller activity entered own before).2] at stepped
      cases stepped
      cases own with
      | readName => cases presents
      | consult name =>
        right
        cases found : before.tracked.memo? caller with
        | none =>
          rw [Identification.step, found] at presents
          cases presents
          exact .inr ⟨before.tracked.tracker.upcoming, by simp [enrolment?, found]⟩
        | some memo =>
          rw [Identification.step, found] at presents
          by_cases same : memo.announced = some name
          · simp only [same, if_true] at presents
            cases presents
          · simp only [same, if_false] at presents
            cases presents
            exact .inl (by simp [found])
      | settle announcement =>
        rw [Identification.step] at presents
        cases found : before.tracked.memo? caller <;> rw [found] at presents <;> cases presents
    | resolvingMethod activity entered own phase =>
      rw [(step_resolvingMethod ..).2] at stepped
      cases stepped
      generalize (phase.step activity.method before.reporter.methods).1 = found at presents
      cases found with
      | continues | announces => cases presents
      | returns method => cases activity <;> cases presents
    | resolvingException activity entered own method raised phase =>
      rw [(step_resolvingException ..).2] at stepped
      cases stepped
      generalize (phase.step raised before.reporter.exceptions).1 = found at presents
      cases found <;> cases presents
    | delivering purpose delivery =>
      left
      simp only [Call.step] at stepped
      split at stepped
      · cases stepped
        cases purpose with
        | announceThread => exact presents
        | announceMethod | announceException | answer => cases presents
      · cases purpose with
        | announceThread =>
          cases stepped
          exact presents
        | announceMethod | announceException =>
          cases stepped
          cases presents
        | answer => cases stepped
      · cases stepped

/-- A call that notes its announcement of a living thread finds the memo of the thread, and brings
it up to date. -/
theorem memos_settles {thread : Thread} {announcement : ThreadAnnouncement} {memo : ThreadMemo}
    (made : (procedure obeys).step access.job access.phase access.before =
      (access.moved, access.after))
    (settles : access.phase.settles? = some (thread, announcement))
    (found : access.before.tracked.memo? thread = some memo) (other : Thread) :
    access.after.tracked.memo? other =
      if other = thread then some { memo with announced := some announcement.name }
      else access.before.tracked.memo? other := by
  obtain ⟨siteJob, activity, entered, calling⟩ := calling_of_settles settles
  rw [(call_of_step made calling).1, (step_identifying ..).1, Identification.step, found]
  exact access.before.tracked.memo?_remember thread other _

/-- A call that notes an announcement changes no memo of another thread. -/
theorem memos_settles_other {thread other : Thread} {announcement : ThreadAnnouncement}
    (made : (procedure obeys).step access.job access.phase access.before =
      (access.moved, access.after))
    (settles : access.phase.settles? = some (thread, announcement)) (apart : other ≠ thread) :
    access.after.tracked.memo? other = access.before.tracked.memo? other := by
  cases found : access.before.tracked.memo? thread with
  | some memo => rw [memos_settles made settles found, if_neg apart]
  | none =>
    obtain ⟨siteJob, activity, entered, calling⟩ := calling_of_settles settles
    rw [(call_of_step made calling).1, (step_identifying ..).1, Identification.step, found]

/-- After an access, too, every call that presents a thread presents one that has got an id. -/
theorem Announced.presented_after {traffic : Traffic π ε β δ} {strand : SiteStrand β δ}
    (announced : Announced traffic past) (makes : traffic.Makes (procedure obeys) strand access)
    {engagement : Engagement (Job δ) (Phase β δ)}
    (member : engagement ∈ (traffic.afterAccess strand access).underway) {thread : Thread}
    (presents : engagement.phase.presents? = some thread) :
    ∃ id, (thread, id) ∈ enrolments (past ++ [access]) := by
  have more : enrolments past ⊆ enrolments (past ++ [access]) := by
    rw [enrolments_concat]
    exact List.subset_append_left _ _
  rcases Interleaving.mem_underway_afterAccess makes member with goesOn | ⟨old, -⟩
  · rcases presents_next makes.made goesOn presents with before | remembered | ⟨id, enrols⟩
    · obtain ⟨id, got⟩ := announced.presented _ makes.mem_underway thread before
      exact ⟨id, more got⟩
    · rw [makes.before] at remembered
      obtain ⟨memo, found⟩ := Option.isSome_iff_exists.mp remembered
      exact ⟨memo.id, more (announced.enrolled.held thread memo found)⟩
    · refine ⟨id, ?_⟩
      rw [enrolments_concat, enrols]
      simp
  · obtain ⟨id, got⟩ := announced.presented engagement old thread presents
    exact ⟨id, more got⟩

/-- After an access, too, the memo of a living thread tells the name that was noted last. -/
theorem Announced.memos_after {traffic : Traffic π ε β δ} {strand : SiteStrand β δ}
    (announced : Announced traffic past) (makes : traffic.Makes (procedure obeys) strand access)
    {thread : Thread} (lives : thread ∉ departed (past ++ [access])) :
    (access.after.tracked.memo? thread).bind ThreadMemo.announced =
      announcedName? thread (past ++ [access]) := by
  have enrolled := announced.enrolled
  have memos := announced.memos
  rw [← makes.before] at enrolled memos
  have livesBefore : thread ∉ departed past := fun gone => lives (departed_mono past access gone)
  cases settles : access.phase.settles? with
  | some noting =>
    obtain ⟨caller, announcement⟩ := noting
    rw [announcedName?_settles past settles]
    by_cases own : thread = caller
    · subst own
      obtain ⟨id, got⟩ :=
        announced.presented _ makes.mem_underway thread (presents_of_settles settles)
      obtain gone | ⟨memo, found, -⟩ := enrolled.single thread id got
      · exact absurd gone livesBefore
      · simp [memos_settles makes.made settles found]
    · rw [if_neg own, memos_settles_other makes.made settles own]
      exact memos thread livesBefore
  | none =>
    -- nothing is noted, so the access must leave the memo of a living thread as it was, or give it
    -- a first memo, which names nothing
    rw [announcedName?_unsettled past settles, ← memos thread livesBefore]
    cases remembers_of_step makes.made with
    | keeps _ _ kept =>
      rcases kept thread with same | ⟨-, gone⟩
      · rw [same]
      · exact absurd (by simp [departed_concat, gone]) lives
    | enrols caller new _ _ kept =>
      by_cases own : thread = caller
      · subst own
        simp [kept, new]
      · rw [kept, if_neg own]
    | notes _ _ _ settled =>
      rw [settles] at settled
      cases settled

/-- Every access keeps the memos and the announcements fitting. -/
theorem Announced.after_access {traffic : Traffic π ε β δ} {strand : SiteStrand β δ}
    (announced : Announced traffic past) (makes : traffic.Makes (procedure obeys) strand access) :
    Announced (traffic.afterAccess strand access) (past ++ [access]) := by
  have enrolled := announced.enrolled
  rw [← makes.before] at enrolled
  exact {
    enrolled := enrolled.after_access makes.made
    presented := fun _ member _ presents => announced.presented_after makes member presents
    memos := fun _ lives => announced.memos_after makes lives }

/-- In every run, whatever fails in it, the memo of a living thread tells the name that the last
successful announcement of the thread gave. -/
theorem announced_run (obeys : δ → π × ε → π × ε) {site : Site π ε}
    (new : site.reporter.tracker.upcoming = 0)
    (without : ∀ thread, site.tracked.memo? thread = none) (work : List (List (Job δ)))
    (schedule : List Nat) :
    Announced ((Interleaving.fresh site work).run (procedure obeys) schedule)
      ((Interleaving.fresh site work).accesses (procedure obeys) schedule) := by
  refine Interleaving.run_induction (motive := Announced) (procedure obeys) _ ?_ ?_ ?_ schedule
  · constructor
    · exact enrolled_fresh new without
    · intro engagement member
      rw [Interleaving.underway_fresh] at member
      cases member
    · intro thread _
      change (site.tracked.memo? thread).bind _ = none
      rw [without]
      rfl
  · intro traffic past number strand job jobs announced found idle next
    refine ⟨announced.enrolled, ?_, announced.memos⟩
    intro engagement member thread presents
    rcases Interleaving.mem_underway_afterStart found idle member with rfl | old
    · have silent : (job.start : Phase β δ).presents? = some thread := presents
      rw [presents?_start] at silent
      cases silent
    · exact announced.presented engagement old thread presents
  · intro traffic past strand access announced makes
    exact announced.after_access makes

end TraceRelay.OpenSite
