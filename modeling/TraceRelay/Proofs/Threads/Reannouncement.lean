import TraceRelay.Proofs.Threads.Arrivals

/-! A thread is announced again if it has not been announced under its current name. -/

namespace TraceRelay

/-- The name that a call has read and works with. -/
def Recognition.name? : Recognition → Option String
  | .identifying .readName => none
  | .identifying (.consult name) => some name
  | .identifying (.settle announcement) => some announcement.name
  | .announcing announcement => some announcement.name

namespace Visit

variable {ε : Type}

/-- The announcement that has succeeded and that the call has not noted yet, with its thread. -/
def settles? (engagement : Engagement (ThreadJob ε) Visit) : Option (Thread × ThreadAnnouncement) :=
  match engagement.job, engagement.phase.phase with
  | .request request, .identifying (.settle announcement) => some (request.thread, announcement)
  | _, _ => none

/-- The call of the given turn has read the name with an access of its own. -/
def HasRead (past : List (VisitAccess ε)) (turn : Turn) (name : String) : Prop :=
  ∃ reading ∈ past, reading.turn = turn ∧ reads? reading = some name

theorem HasRead.mono {past : List (VisitAccess ε)} {turn : Turn} {name : String}
    (read : HasRead past turn name) (access : VisitAccess ε) :
    HasRead (past ++ [access]) turn name := by
  obtain ⟨reading, member, facts⟩ := read
  exact ⟨reading, List.mem_append_left _ member, facts⟩

/-- In every run, a call works with a name that it has read. -/
theorem hasRead_run (host : LendingHost) (work : List (List (ThreadJob ε))) (schedule : List Nat)
    {earlier later : List (VisitAccess ε)} {access : VisitAccess ε}
    (same : (Interleaving.fresh host work).accesses procedure schedule =
      earlier ++ access :: later) {name : String} (named : access.phase.phase.name? = some name) :
    HasRead earlier access.turn name := by
  refine (Interleaving.underway_induction (motive := fun past engagement => ∀ name,
    engagement.phase.phase.name? = some name → HasRead past engagement.turn name)
    procedure host work ?_ ?_ ?_ schedule).2 _ _ _ same name named
  · intro past turn job silent name named
    cases named
  · intro past access engagement different kept name named
    exact (kept name named).mono access
  · intro past access next stepped goesOn kept name named
    cases does_of_step stepped with
    | collides | happens => cases goesOn
    | borrows turn request phase host handles there =>
      cases goesOn
      exact (kept name named).mono _
    | moves turn request phase holds host moved tracked held made =>
      cases made with
      | reads =>
        cases goesOn
        cases named
        exact ⟨_, List.mem_append_right _ (List.mem_singleton_self _), rfl, rfl⟩
      | enrols | presents | succeeds =>
        cases goesOn
        exact (kept name named).mono _
      | knows | fails | notes | forgets => cases goesOn

variable {visits : Visits ε} {past : List (VisitAccess ε)} {access : VisitAccess ε}
  {strand : Strand (ThreadJob ε) Visit (Option (Outcome ε ThreadId))}

/-- A thread has one call in progress that is not in its announcement. -/
theorem Nested.alone (nested : Nested visits) {first second : Engagement (ThreadJob ε) Visit}
    (member : first ∈ visits.underway) (memberToo : second ∈ visits.underway) {thread : Thread}
    (acts : acts? first = some thread) (actsToo : acts? second = some thread) : second = first :=
  filterMap_unique nested member memberToo acts actsToo

theorem acts_of_settles {engagement : Engagement (ThreadJob ε) Visit} {thread : Thread}
    {announcement : ThreadAnnouncement}
    (settles : settles? engagement = some (thread, announcement)) :
    acts? engagement = some thread ∧
      engagement.phase.phase = .identifying (.settle announcement) := by
  obtain ⟨turn, job, phase, holds⟩ := engagement
  cases job with
  | start | change => cases settles
  | request request =>
    rcases phase with (_ | _ | _) | _ <;> cases settles
    exact ⟨rfl, rfl⟩

/-- The memos of the tracker, the announcements that have succeeded and the loans fit the calls in
progress. -/
structure Recorded (visits : Visits ε) (past : List (VisitAccess ε)) : Prop where
  lent : ∀ thread ∈ visits.shared.lent, ∃ engagement ∈ visits.underway,
    acts? engagement = some thread ∧ engagement.phase.holds = true
  noted : ∀ engagement ∈ visits.underway, ∀ thread announcement,
    settles? engagement = some (thread, announcement) →
      announcedName? thread past = some announcement.name
  memos : ∀ thread, thread ∉ departed past → (∀ engagement ∈ visits.underway, ∀ announcement,
      settles? engagement ≠ some (thread, announcement)) →
    (visits.shared.tracked.memo? thread).bind ThreadMemo.announced = announcedName? thread past

/-- A call finds the memos of its thread in their place. -/
theorem Recorded.not_lent (recorded : Recorded visits past) (nested : Nested visits)
    {engagement : Engagement (ThreadJob ε) Visit} (member : engagement ∈ visits.underway)
    {thread : Thread} (acts : acts? engagement = some thread)
    (free : engagement.phase.holds = false) : thread ∉ visits.shared.lent := by
  intro gone
  obtain ⟨other, memberToo, actsToo, holds⟩ := recorded.lent thread gone
  rw [nested.alone member memberToo acts actsToo, free] at holds
  cases holds

/-- A call that consults the memo of its thread finds there the name that the last successful
announcement gave. -/
theorem Recorded.consulted (recorded : Recorded visits past) (nested : Nested visits)
    (lives : Lives visits past) {engagement : Engagement (ThreadJob ε) Visit}
    (member : engagement ∈ visits.underway) {request : ThreadRequest ε}
    (own : engagement.job = .request request) {name : String}
    (consults : engagement.phase.phase = .identifying (.consult name)) :
    (visits.shared.tracked.memo? request.thread).bind ThreadMemo.announced =
      announcedName? request.thread past := by
  have living : request.thread ∉ departed past :=
    lives engagement member _ (by simp [own, ThreadJob.caller?])
  refine recorded.memos request.thread living fun other memberToo announcement settles => ?_
  obtain ⟨acts, settling⟩ := acts_of_settles settles
  have same := nested.alone member memberToo (by simp [acts?, own, consults]) acts
  rw [same, consults] at settling
  cases settling

/-- After an access, too, the memos that are on loan are with a call of their thread. -/
theorem Recorded.lent_after (recorded : Recorded visits past)
    (makes : visits.Makes procedure strand access) {thread : Thread}
    (gone : thread ∈ access.after.lent) :
    ∃ engagement ∈ (visits.afterAccess strand access).underway,
      acts? engagement = some thread ∧ engagement.phase.holds = true := by
  -- the call that had the memos on loan before still has them, unless it makes this access
  have older (before : thread ∈ access.before.lent)
      (apart : acts? access.engagement = some thread → access.phase.holds = false) :
      ∃ engagement ∈ (visits.afterAccess strand access).underway,
        acts? engagement = some thread ∧ engagement.phase.holds = true := by
    rw [makes.before] at before
    obtain ⟨holder, member, acts, holds⟩ := recorded.lent thread before
    refine ⟨holder, makes.stays member fun same => ?_, acts, holds⟩
    subst same
    have free : access.engagement.phase.holds = false := apart acts
    rw [holds] at free
    cases free
  cases does_of_step makes.made with
  | borrows turn request phase host handles there =>
    rcases List.mem_cons.mp gone with caller | before
    · refine ⟨⟨turn, .request request, { phase, holds := true }⟩, makes.next_mem rfl, ?_, rfl⟩
      cases phase with
      | identifying own => exact congrArg some caller.symm
      | announcing announcement => cases handles
    · exact older before fun _ => rfl
  | collides turn request phase host handles _ => exact older gone fun _ => rfl
  | happens turn job visit host after uncalled memos =>
    refine older gone fun acts => ?_
    cases job with
    | request => cases uncalled
    | start | change => cases acts
  | moves turn request phase holds host moved tracked held made =>
    cases holds with
    | false => exact older gone fun _ => rfl
    | true =>
      obtain ⟨before, apart⟩ := List.mem_filter.mp gone
      refine older before fun acts => ?_
      cases phase with
      | identifying own =>
        cases acts
        simp at apart
      | announcing announcement => cases acts

/-- An access keeps all fitting if it ends no announcement with success, notes none, and leaves the
name in each memo as it was, unless the thread of the memo ends. -/
theorem Recorded.keeps (recorded : Recorded visits past)
    (makes : visits.Makes procedure strand access) (silent : ∀ thread, tells? thread access = none)
    (settles : ∀ entry, settles? access.engagement = some entry ↔
      ∃ next, access.next? = some next ∧ settles? next = some entry)
    (memos : ∀ thread, (access.after.tracked.memo? thread).bind ThreadMemo.announced =
        (access.before.tracked.memo? thread).bind ThreadMemo.announced ∨
      access.job.departs? = some thread) :
    Recorded (visits.afterAccess strand access) (past ++ [access]) := by
  have told (thread : Thread) := announcedName?_silent past (silent thread)
  constructor
  · exact fun thread gone => recorded.lent_after makes gone
  · intro engagement member thread announcement settling
    rw [told]
    rcases Interleaving.mem_underway_afterAccess makes member with goesOn | ⟨old, -⟩
    · exact recorded.noted _ makes.mem_underway thread announcement
        ((settles _).mpr ⟨engagement, goesOn, settling⟩)
    · exact recorded.noted engagement old thread announcement settling
  · intro thread lives unsettled
    rw [departed_concat, List.mem_append, not_or, Option.mem_toList] at lives
    have unsettledBefore (engagement : Engagement (ThreadJob ε) Visit)
        (member : engagement ∈ visits.underway) (announcement : ThreadAnnouncement) :
        settles? engagement ≠ some (thread, announcement) := by
      intro settling
      by_cases own : engagement = access.engagement
      · obtain ⟨next, goesOn, still⟩ := (settles _).mp (own ▸ settling)
        exact unsettled next (makes.next_mem goesOn) announcement still
      · exact unsettled engagement (makes.stays member own) announcement settling
    rw [told, ← recorded.memos thread lives.1 unsettledBefore, ← makes.before]
    exact (memos thread).resolve_right lives.2

/-- An announcement that succeeds gives the name that is then known to have been announced. -/
theorem Recorded.succeeds (recorded : Recorded visits past)
    (makes : visits.Makes procedure strand access) {request : ThreadRequest ε}
    {announcement : ThreadAnnouncement} {next : Engagement (ThreadJob ε) Visit}
    (nested : Nested (visits.afterAccess strand access))
    (tells : ∀ thread, tells? thread access =
      if thread = request.thread then some announcement.name else none)
    (goesOn : access.next? = some next)
    (settles : settles? next = some (request.thread, announcement))
    (unsettled : settles? access.engagement = none)
    (same : access.after.tracked = access.before.tracked) (stays : access.job.departs? = none) :
    Recorded (visits.afterAccess strand access) (past ++ [access]) := by
  constructor
  · exact fun thread gone => recorded.lent_after makes gone
  · intro engagement member thread other settling
    rw [announcedName?_concat, tells]
    rcases Interleaving.mem_underway_afterAccess makes member with own | ⟨old, -⟩
    · cases goesOn.symm.trans own
      cases settles.symm.trans settling
      rw [if_pos rfl, Option.some_or]
    · by_cases own : thread = request.thread
      · -- no other call of the thread can be about to note an announcement
        subst own
        cases nested.alone (makes.next_mem goesOn) member (acts_of_settles settles).1
          (acts_of_settles settling).1
        cases settles.symm.trans settling
        rw [if_pos rfl, Option.some_or]
      · rw [if_neg own, Option.none_or]
        exact recorded.noted engagement old thread other settling
  · intro thread lives unsettledAfter
    have apart : thread ≠ request.thread := by
      rintro rfl
      exact unsettledAfter next (makes.next_mem goesOn) announcement settles
    rw [departed_concat, stays] at lives
    rw [announcedName?_concat, tells, if_neg apart, Option.none_or]
    refine Eq.trans ?_ (recorded.memos thread (by simpa using lives) fun engagement member other
      settling => ?_)
    · rw [← makes.before, ← same]
      rfl
    · refine unsettledAfter engagement (makes.stays member fun own => ?_) other settling
      rw [own, unsettled] at settling
      cases settling

/-- A call notes the announcement that has succeeded last. -/
theorem Recorded.notes (recorded : Recorded visits past)
    (makes : visits.Makes procedure strand access) {request : ThreadRequest ε}
    {announcement : ThreadAnnouncement} {memo : ThreadMemo}
    (silent : ∀ thread, tells? thread access = none)
    (ends : access.next? = none)
    (settles : settles? access.engagement = some (request.thread, announcement))
    (memos : ∀ thread, access.after.tracked.memo? thread =
      if thread = request.thread then some { memo with announced := some announcement.name }
      else access.before.tracked.memo? thread)
    (stays : access.job.departs? = none) :
    Recorded (visits.afterAccess strand access) (past ++ [access]) := by
  have told (thread : Thread) := announcedName?_silent past (silent thread)
  constructor
  · exact fun thread gone => recorded.lent_after makes gone
  · intro engagement member thread other settling
    rw [told]
    rcases Interleaving.mem_underway_afterAccess makes member with own | ⟨old, -⟩
    · cases ends.symm.trans own
    · exact recorded.noted engagement old thread other settling
  · intro thread lives unsettled
    rw [departed_concat, stays] at lives
    rw [told]
    change (access.after.tracked.memo? thread).bind _ = _
    rw [memos]
    by_cases own : thread = request.thread
    · subst own
      rw [if_pos rfl]
      exact (recorded.noted _ makes.mem_underway _ _ settles).symm
    · rw [if_neg own, makes.before]
      refine recorded.memos thread (by simpa using lives) fun engagement member other settling => ?_
      refine unsettled engagement (makes.stays member fun same => own ?_) other settling
      rw [same, settles] at settling
      cases settling
      rfl

/-- Every access keeps the memos, the announcements and the loans fitting. -/
theorem Recorded.after_access (recorded : Recorded visits past) (enrolled : Enrolled visits past)
    (nested : Nested visits) (lives : Lives visits past)
    (nestedAfter : Nested (visits.afterAccess strand access))
    (makes : visits.Makes procedure strand access) :
    Recorded (visits.afterAccess strand access) (past ++ [access]) := by
  have before := makes.before
  have member := makes.mem_underway
  cases does_of_step makes.made with
  | borrows turn request phase host handles there =>
    refine recorded.keeps makes (fun thread => ?_) (fun entry => ?_) fun _ => .inl rfl
    · rcases phase with (_ | _ | _) | _ <;> first | rfl | cases handles
    · exact ⟨fun settling => ⟨_, rfl, settling⟩, by rintro ⟨next, ⟨⟩, settling⟩; exact settling⟩
  | collides turn request phase host handles gone =>
    cases phase with
    | announcing announcement => cases handles
    | identifying own =>
      exact absurd (before ▸ gone) (recorded.not_lent nested member rfl rfl)
  | happens turn job visit host after uncalled memos =>
    refine recorded.keeps makes (fun thread => ?_) (fun entry => ?_) fun thread => ?_
    · cases job with
      | request => cases uncalled
      | start | change => rfl
    · cases job with
      | request => cases uncalled
      | start | change => exact ⟨nofun, by rintro ⟨next, ⟨⟩, settling⟩⟩
    · exact (memos thread).imp
        (congrArg fun found : Option ThreadMemo => found.bind ThreadMemo.announced) And.right
  | moves turn request phase holds host moved tracked held made =>
    cases made with
    | reads =>
      exact recorded.keeps makes (fun _ => rfl)
        (fun entry => ⟨nofun, by rintro ⟨next, ⟨⟩, ⟨⟩⟩⟩) fun _ => .inl rfl
    | enrols name new =>
      refine recorded.keeps makes (fun _ => rfl)
        (fun entry => ⟨nofun, by rintro ⟨next, ⟨⟩, ⟨⟩⟩⟩) fun thread => .inl ?_
      change ((host.tracked.remember request.thread _).memo? thread).bind _ = _
      rw [TrackedHost.memo?_remember]
      split
      · rename_i own
        simp [own, new]
      · rfl
    | presents name memo found differs =>
      exact recorded.keeps makes (fun _ => rfl)
        (fun entry => ⟨nofun, by rintro ⟨next, ⟨⟩, ⟨⟩⟩⟩) fun _ => .inl rfl
    | knows name memo found same =>
      exact recorded.keeps makes (fun _ => rfl) (fun entry => ⟨nofun, nofun⟩) fun _ => .inl rfl
    | succeeds announcement ends =>
      refine recorded.succeeds makes nestedAfter (fun thread => ?_) rfl rfl rfl rfl rfl
      simp [tells?, ends]
    | fails announcement result ends unsuccessful =>
      refine recorded.keeps makes (fun thread => ?_) (fun entry => ⟨nofun, nofun⟩) fun _ => .inl rfl
      simp [tells?, ends]
    | notes announcement memo found =>
      exact recorded.notes makes (fun _ => rfl) rfl rfl
        (fun other => host.tracked.memo?_remember request.thread other _) rfl
    | forgets announcement lost =>
      obtain ⟨memo, found, -⟩ := enrolled.memo_of_presents lives member rfl
      rw [← before, lost] at found
      cases found

/-- The calls of every thread are nested, and no ended thread calls. -/
structure Orderly (visits : Visits ε) (past : List (VisitAccess ε)) : Prop where
  nested : Nested visits
  lives : Lives visits past

theorem recorded_fresh {tracked : TrackedHost} (without : ∀ thread, tracked.memo? thread = none)
    (work : List (List (ThreadJob ε))) : Recorded (Interleaving.fresh { tracked } work) [] := by
  constructor
  · intro thread gone
    cases gone
  · intro engagement member
    rw [Interleaving.underway_fresh] at member
    cases member
  · intro thread lives unsettled
    change (tracked.memo? thread).bind _ = _
    rw [without]
    rfl

/-- The start of a job keeps the memos, the announcements and the loans fitting. -/
theorem Recorded.after_start (recorded : Recorded visits past) {number : Nat} {job : ThreadJob ε}
    {jobs : List (ThreadJob ε)} (found : visits.strands[number]? = some strand)
    (idle : strand.going = none) :
    Recorded (visits.afterStart procedure number strand job jobs) past := by
  constructor
  · intro thread gone
    obtain ⟨holder, member, facts⟩ := recorded.lent thread gone
    exact ⟨holder, Interleaving.stays_afterStart job jobs found idle member, facts⟩
  · intro engagement member thread announcement settling
    rcases Interleaving.mem_underway_afterStart found idle member with rfl | old
    · cases job <;> cases settling
    · exact recorded.noted engagement old thread announcement settling
  · intro thread lives unsettled
    refine recorded.memos thread lives fun engagement member => ?_
    exact unsettled engagement (Interleaving.stays_afterStart job jobs found idle member)

/-- In every orderly run, the memos, the announcements and the loans fit the calls in progress. -/
theorem recorded_run {tracked : TrackedHost} (new : tracked.tracker.upcoming = 0)
    (without : ∀ thread, tracked.memo? thread = none) (work : List (List (ThreadJob ε)))
    (schedule : List Nat)
    (orderly : ∀ earlier, earlier <+: schedule →
      Orderly ((Interleaving.fresh { tracked } work).run procedure earlier)
        ((Interleaving.fresh { tracked } work).accesses procedure earlier)) :
    Recorded ((Interleaving.fresh { tracked } work).run procedure schedule)
      ((Interleaving.fresh { tracked } work).accesses procedure schedule) := by
  refine (Interleaving.run_induction_within
    (motive := fun visits past => Recorded visits past ∧ Enrolled visits past) procedure _
    ⟨recorded_fresh without work, enrolled_fresh new without work⟩ ?_ ?_ schedule orderly).1
  · rintro visits past number strand job jobs ⟨recorded, enrolled⟩ found idle next
    exact ⟨recorded.after_start found idle, enrolled.after_start found idle⟩
  · rintro visits past strand access before after ⟨recorded, enrolled⟩ makes
    exact ⟨recorded.after_access enrolled before.nested before.lives after.nested makes,
      enrolled.after_access before.lives makes⟩

/-- How far a call has to go: the name, a loan and the memo, the announcement, a loan and the
memo. -/
def rank (visit : Visit) : Nat :=
  match visit.phase, visit.holds with
  | .identifying .readName, _ => 5
  | .identifying (.consult _), false => 4
  | .identifying (.consult _), true => 3
  | .announcing _, _ => 2
  | .identifying (.settle _), false => 1
  | .identifying (.settle _), true => 0

theorem rank_falls {next : Engagement (ThreadJob ε) Visit}
    (stepped : procedure.step access.job access.phase access.before =
      (access.moved, access.after)) (goesOn : access.next? = some next) :
    rank next.phase < rank access.phase := by
  cases does_of_step stepped with
  | collides | happens => cases goesOn
  | borrows turn request phase host handles there =>
    cases goesOn
    rcases phase with (_ | _ | _) | _ <;> first | exact Nat.lt_succ_self _ | cases handles
  | moves turn request phase holds host moved tracked held made =>
    cases made with
    | reads | succeeds =>
      cases goesOn
      cases holds <;> exact Nat.lt_succ_self _
    | enrols | presents =>
      cases goesOn
      cases held rfl
      exact Nat.lt_succ_self _
    | knows | fails | notes | forgets => cases goesOn

/-- No call makes more than one access in which something is found. -/
def Once {α : Type} (find : VisitAccess ε → Option α) (past : List (VisitAccess ε)) : Prop :=
  (past.filterMap fun access => (find access).map fun _ => access.turn).Nodup

/-- What is found only in accesses of one rank is found once in a call. -/
theorem once_of_rank {α : Type} {find : VisitAccess ε → Option α} (value : Nat)
    (host : LendingHost) (work : List (List (ThreadJob ε))) (schedule : List Nat)
    (found : ∀ access ∈ (Interleaving.fresh host work).accesses procedure schedule,
      (find access).isSome → rank access.phase = value) :
    Once find ((Interleaving.fresh host work).accesses procedure schedule) := by
  have fall := Interleaving.ranks_fall procedure host work rank
    (fun access next stepped goesOn => rank_falls stepped goesOn) schedule
  refine List.pairwise_filterMap.mpr
    (fall.imp_of_mem fun inFirst inSecond lower turn own turnToo ownToo same => ?_)
  obtain ⟨value, foundFirst, rfl⟩ := Option.map_eq_some_iff.mp own
  obtain ⟨other, foundSecond, rfl⟩ := Option.map_eq_some_iff.mp ownToo
  have ranked := found _ inFirst (Option.isSome_of_eq_some foundFirst)
  have rankedToo := found _ inSecond (Option.isSome_of_eq_some foundSecond)
  have falls := lower same
  rw [ranked, rankedToo] at falls
  exact Nat.lt_irrefl _ falls

theorem rank_of_reads (reads : (reads? access).isSome) : rank access.phase = 5 := by
  obtain ⟨turn, job, ⟨phase, holds⟩, before, moved, after⟩ := access
  cases job with
  | start | change => cases reads
  | request request =>
    rcases phase with (_ | _ | _) | _ <;> cases reads
    cases holds <;> rfl

theorem rank_of_consults (consults : (consults? access).isSome) : rank access.phase = 3 := by
  obtain ⟨⟨thread, name⟩, found⟩ := Option.isSome_iff_exists.mp consults
  obtain ⟨request, -, -, phase⟩ := consults?_eq_some.mp found
  rw [phase]
  rfl

/-- The thread of a call that is about to take its memos on loan. -/
def asks? (access : VisitAccess ε) : Option Thread :=
  match access.job, access.phase with
  | .request request, { phase, holds := false } =>
    if phase.handlesMemos then some request.thread else none
  | _, _ => none

/-- What an access of a call has to do with the announcements before it. -/
structure Accounted (earlier : List (VisitAccess ε)) (access : VisitAccess ε) : Prop where
  /-- The call has read a name, and it announces its thread unless the last successful announcement
  gave this name. -/
  consults : ∀ thread name, consults? access = some (thread, name) →
    HasRead earlier access.turn name ∧ ∃ memo, access.after.tracked.memo? thread = some memo ∧
      if announcedName? thread earlier = some name then returns? access = some (thread, memo.id)
      else announces? access = some (thread, { id := memo.id, name })
  announces : (announces? access).isSome → (consults? access).isSome
  /-- The last successful announcement has given the name that the call has read. -/
  returns : ∀ thread id, returns? access = some (thread, id) →
    ∃ name, HasRead earlier access.turn name ∧ announcedName? thread earlier = some name
  fails : Fails access → access.after.tracked = access.before.tracked ∧
    ∀ thread, announcedName? thread (earlier ++ [access]) = announcedName? thread earlier
  asks : ∀ thread, asks? access = some thread → thread ∉ access.before.lent

theorem name_of_consults {thread : Thread} {name : String}
    (consults : consults? access = some (thread, name)) : access.phase.phase.name? = some name := by
  obtain ⟨request, -, -, phase⟩ := consults?_eq_some.mp consults
  rw [phase]
  rfl

theorem tells_of_fails {thread : Thread} (fails : Fails access) : tells? thread access = none := by
  obtain ⟨request, announcement, own, announcing, ends⟩ := fails
  simp [tells?, own, announcing, ends]

/-- A call starts its announcement when it consults the memo of its thread. -/
theorem consults_of_announces
    (stepped : procedure.step access.job access.phase access.before =
      (access.moved, access.after)) (announces : (announces? access).isSome) :
    (consults? access).isSome := by
  cases does_of_step stepped with
  | collides => cases announces
  | happens turn job visit host after uncalled memos => cases job <;> cases announces
  | borrows turn request phase host handles there =>
    cases phase with
    | identifying own => cases announces
    | announcing announcement => cases handles
  | moves turn request phase holds host moved tracked held made =>
    cases made with
    | reads | succeeds => cases announces
    | enrols | presents =>
      cases held rfl
      rfl
    | knows | fails | notes | forgets => cases announces

/-- A call that consults the memo of its thread announces the thread if and only if the last
successful announcement has not given the name that the call has read. -/
theorem Recorded.consults (recorded : Recorded visits past) (orderly : Orderly visits past)
    (makes : visits.Makes procedure strand access) {thread : Thread} {name : String}
    (consults : consults? access = some (thread, name)) :
    ∃ memo, access.after.tracked.memo? thread = some memo ∧
      if announcedName? thread past = some name then returns? access = some (thread, memo.id)
      else announces? access = some (thread, { id := memo.id, name }) := by
  have known (request : ThreadRequest ε) (own : access.job = .request request)
      (consulting : access.phase.phase = .identifying (.consult name)) :
      (access.before.tracked.memo? request.thread).bind ThreadMemo.announced =
        announcedName? request.thread past := by
    rw [makes.before]
    exact recorded.consulted orderly.nested orderly.lives makes.mem_underway own consulting
  cases does_of_step makes.made with
  | borrows | collides =>
    obtain ⟨_, _, _, ⟨⟩⟩ := consults?_eq_some.mp consults
  | happens turn job visit host after uncalled memos =>
    cases job with
    | request => cases uncalled
    | start | change => cases consults
  | moves turn request phase holds host moved tracked held made =>
    cases made with
    | enrols read new =>
      cases held rfl
      cases consults
      have told := known request rfl rfl
      rw [new] at told
      refine ⟨_,
        (host.tracked.memo?_remember request.thread request.thread _).trans (if_pos rfl), ?_⟩
      rw [if_neg (by rw [← told]; exact nofun)]
      rfl
    | presents read memo found differs =>
      cases held rfl
      cases consults
      have told := known request rfl rfl
      rw [found] at told
      refine ⟨memo, found, ?_⟩
      rw [if_neg (by rw [← told]; exact differs)]
      rfl
    | knows read memo found same =>
      cases held rfl
      cases consults
      have told := known request rfl rfl
      rw [found] at told
      refine ⟨memo, found, ?_⟩
      rw [if_pos (told.symm.trans same)]
      rfl
    | reads | succeeds | fails | notes | forgets => cases consults

/-- A call that returns has read the name that the last successful announcement gave. -/
theorem Recorded.returns (recorded : Recorded visits past) (orderly : Orderly visits past)
    (makes : visits.Makes procedure strand access) {thread : Thread} {id : ThreadId}
    (returns : returns? access = some (thread, id)) :
    ∃ name, access.phase.phase.name? = some name ∧ announcedName? thread past = some name := by
  have member := makes.mem_underway
  have before := makes.before
  cases does_of_step makes.made with
  | borrows | collides => cases returns
  | happens turn job visit host after uncalled memos => cases job <;> cases returns
  | moves turn request phase holds host moved tracked held made =>
    cases made with
    | reads | enrols | presents | succeeds => cases returns
    | fails announcement result ends unsuccessful =>
      cases result with
      | returned other => exact absurd rfl (unsuccessful other)
      | failed | panicked => cases returns
    | knows name memo found same =>
      cases returns
      have told := recorded.consulted orderly.nested orderly.lives member rfl rfl
      rw [← before, found] at told
      exact ⟨name, rfl, told.symm.trans same⟩
    | notes announcement | forgets announcement =>
      cases returns
      exact ⟨announcement.name, rfl, recorded.noted _ member _ announcement rfl⟩

/-- A call takes its memos on loan only when they are in their place. -/
theorem Recorded.asks (recorded : Recorded visits past) (nested : Nested visits)
    (makes : visits.Makes procedure strand access) {thread : Thread}
    (asks : asks? access = some thread) : thread ∉ access.before.lent := by
  have member := makes.mem_underway
  rw [makes.before]
  obtain ⟨turn, job, ⟨phase, holds⟩, before, moved, after⟩ := access
  cases job with
  | start | change => cases asks
  | request request =>
    cases holds with
    | true => cases asks
    | false =>
      rcases phase with (_ | _ | _) | _ <;> cases asks
      · exact recorded.not_lent nested member rfl rfl
      · exact recorded.not_lent nested member rfl rfl

/-- A call announces its thread if and only if the last announcement of the thread that has
succeeded gave another name than the one that the call has read, or none has succeeded yet. -/
theorem announced_exactly {tracked : TrackedHost} (new : tracked.tracker.upcoming = 0)
    (without : ∀ thread, tracked.memo? thread = none) (work : List (List (ThreadJob ε)))
    (schedule : List Nat)
    (orderly : ∀ earlier, earlier <+: schedule →
      Orderly ((Interleaving.fresh { tracked } work).run procedure earlier)
        ((Interleaving.fresh { tracked } work).accesses procedure earlier)) :
    let past := (Interleaving.fresh { tracked } work).accesses procedure schedule
    (∀ earlier access later, past = earlier ++ access :: later → Accounted earlier access) ∧
      Once reads? past ∧ Once consults? past ∧ Once announces? past := by
  intro past
  have stepped {access : VisitAccess ε} (member : access ∈ past) :
      procedure.step access.job access.phase access.before = (access.moved, access.after) := by
    obtain ⟨earlier, later, same⟩ := List.append_of_mem member
    exact Interleaving.made_of_accesses procedure _ schedule same
  refine ⟨?_, once_of_rank 5 _ work schedule ?_, once_of_rank 3 _ work schedule ?_,
    once_of_rank 3 _ work schedule ?_⟩
  · intro earlier access later same
    obtain ⟨first, number, rest, strand, whole, rfl, makes, -, -⟩ :=
      Interleaving.exists_makes procedure _ schedule earlier later access same
    have inside : first <+: schedule := ⟨number :: rest, whole.symm⟩
    have before := orderly first inside
    have recorded := recorded_run new without work first fun turns shorter =>
      orderly turns (shorter.trans inside)
    have read (name : String) (named : access.phase.phase.name? = some name) :=
      hasRead_run _ work schedule same named
    constructor
    · intro thread name consults
      exact ⟨read name (name_of_consults consults), recorded.consults before makes consults⟩
    · exact consults_of_announces makes.made
    · intro thread id returns
      obtain ⟨name, named, told⟩ := recorded.returns before makes returns
      exact ⟨name, read name named, told⟩
    · intro fails
      exact ⟨(unchanged_of_fails makes.made fails).1,
        fun thread => announcedName?_silent _ (tells_of_fails fails)⟩
    · exact fun thread asks => recorded.asks before.nested makes asks
  · exact fun access member reads => rank_of_reads reads
  · exact fun access member consults => rank_of_consults consults
  · exact fun access member announces =>
      rank_of_consults (consults_of_announces (stepped member) announces)

instance (visits : Visits ε) : Decidable (Nested visits) :=
  inferInstanceAs (Decidable (List.Nodup _))

instance (visits : Visits ε) (past : List (VisitAccess ε)) : Decidable (Orderly visits past) :=
  decidable_of_iff (Nested visits ∧ Lives visits past)
    ⟨fun both => ⟨both.1, both.2⟩, fun orderly => ⟨orderly.nested, orderly.lives⟩⟩

/-- The call that has taken its old name back is not announced again: the last announcement that
succeeded gave this name, and the one in between has failed. -/
theorem announced_exactly_renamed_back :
    Once announces? restlessPast ∧ restlessPast.filterMap announces? =
        [(⟨0⟩, ⟨0, ""⟩), (⟨1⟩, ⟨1, ""⟩), (⟨0⟩, ⟨0, "b"⟩), (⟨0⟩, ⟨0, "c"⟩)] ∧
      restlessPast.filterMap returns? = [(⟨0⟩, 0), (⟨0⟩, 0)] := by
  have orderly : ∀ earlier ∈ restlessTurns.inits, Orderly
      ((Interleaving.fresh { tracked := renamingHost } restlessCalls).run procedure earlier)
      ((Interleaving.fresh { tracked := renamingHost } restlessCalls).accesses procedure
        earlier) := by
    decide +kernel
  obtain ⟨-, -, -, once⟩ := announced_exactly (rfl : renamingHost.tracker.upcoming = 0)
    (fun _ => rfl) restlessCalls restlessTurns
    fun earlier inside => orderly earlier ((List.mem_inits _ _).mpr inside)
  exact ⟨once, by decide +kernel, by decide +kernel⟩

end Visit

end TraceRelay
