import TraceRelay.Proofs.Stream.Introductions
import TraceRelay.Proofs.Stream.Reading
import TraceRelay.Recording.Directive

/-! Every event of a thread comes after the mapping of the thread's name. -/

namespace TraceRelay

/-- The event maps the name of the thread with the id. -/
def Event.MapsThread (id : ThreadId) (event : Event) : Prop :=
  ∃ timestamp name, event = .threadMapping id timestamp name

/-- The latest mapping of the thread with the id in a stream bears the name. -/
def LastNamed (id : ThreadId) (name : String) (stream : List Event) : Prop :=
  ∃ earlier timestamp later, stream = earlier ++ .threadMapping id timestamp name :: later ∧
    ∀ event ∈ later, ¬event.MapsThread id

theorem Legend.threads_learn (legend : Legend) (event : Event) (id : ThreadId) :
    (legend.learn event).threads.find? id =
      match event with
      | .threadMapping own _ name => if id = own then some name else legend.threads.find? id
      | _ => legend.threads.find? id := by
  cases event with
  | threadMapping own timestamp name => exact Table.find?_insert ..
  | methodMapping | exceptionMapping | activity | marker => rfl

/-- A reader knows a thread by the name that its latest mapping bears. -/
theorem lastNamed_of_known {stream : List Event} {id : ThreadId} {name : String}
    (known : (Legend.ofEvents stream).threads.find? id = some name) :
    LastNamed id name stream := by
  induction stream using List.reverseRecOn with
  | nil => cases known
  | append_singleton stream event ih =>
    rw [Legend.ofEvents_concat, Legend.threads_learn] at known
    have older (known : (Legend.ofEvents stream).threads.find? id = some name)
        (unmapped : ¬event.MapsThread id) : LastNamed id name (stream ++ [event]) := by
      obtain ⟨earlier, timestamp, later, rfl, apart⟩ := ih known
      refine ⟨earlier, timestamp, later ++ [event], by simp, ?_⟩
      intro other member
      rcases List.mem_append.mp member with old | new
      · exact apart other old
      · rwa [List.mem_singleton.mp new]
    cases event with
    | methodMapping | exceptionMapping | activity | marker =>
      exact older known (by rintro ⟨_, _, ⟨⟩⟩)
    | threadMapping own timestamp ownName =>
      simp only at known
      split at known
      · rename_i same
        cases known
        exact ⟨stream, timestamp, [], by rw [same], fun _ member => absurd member List.not_mem_nil⟩
      · rename_i different
        refine older known ?_
        rintro ⟨_, _, mapped⟩
        cases mapped
        exact different rfl

namespace OpenSite

variable {π ε β δ : Type} [BufferSupply π β]

/-- The memos of threads, what the calls in progress have found out, and what a reader of the stream
knows fit each other. -/
structure Attests (traffic : Traffic π ε β δ) (past : List (SiteAccess π ε β δ)) : Prop where
  enrolled : Enrolled traffic.shared.tracked past
  vouches : ∀ engagement ∈ traffic.underway, JobVouches traffic.shared.tracked past engagement
  told : ∀ thread memo name, traffic.shared.tracked.memo? thread = some memo →
    memo.announced = some name →
      (chronicle past).legend.threads.find? memo.id = some name ∨
        ∃ engagement ∈ traffic.underway, ∃ announcement,
          engagement.phase.settles? = some (thread, announcement)

/-- No thread nests its calls, there are ids enough for all threads, each mapping of a thread gets
a buffer, and all calls are reports. -/
structure Unhindered (traffic : Traffic π ε β δ) (past : List (SiteAccess π ε β δ)) : Prop where
  unnested : Unnested traffic
  room : (enrolments past).length ≤ 2 ^ 32
  served : ∀ access ∈ past, unserved access = false
  reports : ∀ access ∈ past, ∀ request, access.phase.call? = some (.entering request) →
    request.isReport = true

variable [Clearable β] [EventEncoder ε β] {obeys : δ → π × ε → π × ε} {traffic : Traffic π ε β δ}
  {past : List (SiteAccess π ε β δ)} {access : SiteAccess π ε β δ} {thread : Thread}
  {strand : SiteStrand β δ}

omit [Clearable β] [EventEncoder ε β] in
theorem attests_fresh {site : Site π ε} (new : site.reporter.tracker.upcoming = 0)
    (without : ∀ thread, site.tracked.memo? thread = none) (work : List (List (Job δ))) :
    Attests (Interleaving.fresh site work) [] where
  enrolled := enrolled_fresh new without
  vouches engagement member := by
    rw [Interleaving.underway_fresh] at member
    cases member
  told thread memo name found := by
    have none : site.tracked.memo? thread = some memo := found
    rw [without] at none
    cases none

theorem Attests.afterStart {number : Nat} {job : Job δ} {jobs : List (Job δ)}
    (attests : Attests traffic past) (found : traffic.strands[number]? = some strand)
    (idle : strand.going = none) :
    Attests (traffic.afterStart (procedure obeys) number strand job jobs) past where
  enrolled := attests.enrolled
  vouches engagement member := by
    rcases Interleaving.mem_underway_afterStart found idle member with rfl | old
    · intro siteJob thread call calling
      cases job with
      | order => cases calling
      | atSite siteJob =>
        cases siteJob with
        | change => cases calling
        | request caller request =>
          cases calling
          trivial
    · exact attests.vouches engagement old
  told thread memo name held announced := by
    refine (attests.told thread memo name held announced).imp_right ?_
    rintro ⟨engagement, member, settles⟩
    obtain ⟨earlier, later, before, after⟩ :=
      Interleaving.underway_afterStart (procedure obeys) job jobs found idle
    refine ⟨engagement, ?_, settles⟩
    rw [before] at member
    rw [after]
    simp only [List.append_nil, List.mem_append] at member ⊢
    tauto

/-- What is known about the thread of a call in progress stays right when another call makes an
access. -/
theorem Attests.others {engagement : Engagement (Job δ) (Phase β δ)}
    (attests : Attests traffic past) (unhindered : Unhindered traffic past)
    (makes : traffic.Makes (procedure obeys) strand access)
    (member : engagement ∈ traffic.underway) (different : access.turn ≠ engagement.turn) :
    JobVouches access.after.tracked (past ++ [access]) engagement := by
  intro siteJob thread call calling
  have distinct := attests.enrolled.distinct unhindered.room
  have own := attests.vouches _ makes.mem_underway
  have vouches := attests.vouches engagement member siteJob thread call calling
  rw [← makes.before] at own vouches
  have caller : engagement.phase.caller? = some thread := by rw [calling]; rfl
  have apart : access.phase.caller? ≠ some thread := fun calls =>
    different (unhindered.unnested _ makes.mem_underway _ member thread calls caller)
  refine vouches.mono different (spares_of_step own distinct (.inr different.symm) ?_) ?_
  · intro announcement introduces
    obtain ⟨_, _, _, _, calls, -⟩ := calling_of_introduces introduces
    exact apart (by rw [calls]; rfl)
  · intro memo found
    refine memo?_before makes.made ?_ ?_ found
    · intro id enrols
      obtain ⟨_, _, _, _, calls⟩ := calling_of_enrolment enrols
      exact apart (by rw [calls]; rfl)
    · intro announcement settles
      obtain ⟨_, _, _, calls⟩ := calling_of_settles settles
      exact apart (by rw [calls]; rfl)

/-- What a call has found out about its thread stays right with an access of its own. -/
theorem Attests.next {next : Engagement (Job δ) (Phase β δ)} (attests : Attests traffic past)
    (unhindered : Unhindered traffic past)
    (makes : traffic.Makes (procedure obeys) strand access)
    (served : unserved access = false)
    (reports : ∀ request, access.phase.call? = some (.entering request) →
      request.isReport = true) (goesOn : access.next? = some next) :
    JobVouches access.after.tracked (past ++ [access]) next := by
  have distinct := attests.enrolled.distinct unhindered.room
  have enrolled := attests.enrolled
  have own := attests.vouches _ makes.mem_underway
  rw [← makes.before] at own enrolled
  have told (thread : Thread) (calls : access.phase.caller? = some thread) memo name
      (found : access.before.tracked.memo? thread = some memo)
      (announced : memo.announced = some name) :
      (chronicle past).legend.threads.find? memo.id = some name ∨
        ∃ announcement, access.phase.settles? = some (thread, announcement) := by
    rw [makes.before] at found
    refine (attests.told thread memo name found announced).imp_right ?_
    rintro ⟨engagement, member, announcement, settles⟩
    obtain ⟨_, _, _, calling⟩ := calling_of_settles settles
    -- the thread makes one call at a time, so it is this one that is about to note its announcement
    obtain rfl := Interleaving.eq_of_turn member makes.mem_underway
      (unhindered.unnested _ member _ makes.mem_underway thread (by rw [calling]; rfl) calls)
    exact ⟨announcement, settles⟩
  have made := makes.made
  obtain ⟨turn, job, phase, before, moved, after⟩ := access
  intro siteJob thread call calling
  simp only at made
  cases happens_of_step made with
  | ends | changes | obeys => cases goesOn
  | goesOn job thread stepping next stepped =>
    cases goesOn
    cases calling
    refine Vouches.step makes.made enrolled (told thread rfl) own distinct rfl served ?_ stepped
    rintro request rfl
    exact reports request rfl

/-- A reader knows each thread by the name in its memo after an access, unless the lookup of the
thread is about to note another one. -/
theorem Attests.tells (attests : Attests traffic past) (unhindered : Unhindered traffic past)
    (makes : traffic.Makes (procedure obeys) strand access) {memo : ThreadMemo} {name : String}
    (found : access.after.tracked.memo? thread = some memo)
    (announced : memo.announced = some name) :
    (chronicle (past ++ [access])).legend.threads.find? memo.id = some name ∨
      ∃ engagement ∈ (traffic.afterAccess strand access).underway, ∃ announcement,
        engagement.phase.settles? = some (thread, announcement) := by
  have distinct := attests.enrolled.distinct unhindered.room
  have enrolled := attests.enrolled
  have own := attests.vouches _ makes.mem_underway
  rw [← makes.before] at own enrolled
  by_cases settled : ∃ announcement, access.phase.settles? = some (thread, announcement)
  · obtain ⟨announcement, settles⟩ := settled
    obtain ⟨old, foundBefore, rfl⟩ := memo?_settles makes.made settles found
    obtain ⟨siteJob, activity, entered, calling⟩ := calling_of_settles settles
    obtain ⟨introduces, known⟩ := own siteJob thread _ calling
    cases announced
    left
    rw [chronicle_between (by rw [calling]; rfl) (by simp [readsName?, calling])]
    simpa [introduces.memo old foundBefore] using known
  · by_cases enrolling : ∃ id, enrolment? access = some (thread, id)
    · obtain ⟨id, enrols⟩ := enrolling
      rw [memo?_enrolment makes.made enrols] at found
      cases found
      cases announced
    · have before := memo?_before makes.made (not_exists.mp enrolling) (not_exists.mp settled) found
      have member := enrolled.held thread memo before
      rw [makes.before] at before
      rcases attests.told thread memo name before announced with known | ⟨engagement, inside, going⟩
      · by_cases introducing : ∃ announcement, introduces? access = some (thread, announcement)
        · obtain ⟨announcement, introduces⟩ := introducing
          obtain ⟨next, goesOn, settles⟩ := settles_of_introduces makes.made introduces
          exact .inr ⟨next, makes.next_mem goesOn, announcement, settles⟩
        · left
          rw [threads_apart own distinct member (not_exists.mp introducing), known]
      · right
        refine ⟨engagement, makes.stays inside ?_, going⟩
        rintro rfl
        exact settled going

theorem Attests.afterAccess (attests : Attests traffic past) (unhindered : Unhindered traffic past)
    (makes : traffic.Makes (procedure obeys) strand access) (served : unserved access = false)
    (reports : ∀ request, access.phase.call? = some (.entering request) →
      request.isReport = true) :
    Attests (traffic.afterAccess strand access) (past ++ [access]) where
  enrolled := by
    have enrolled := attests.enrolled
    rw [← makes.before] at enrolled
    exact enrolled.after_access makes.made
  vouches engagement member := by
    rcases Interleaving.mem_underway_afterAccess makes member with goesOn | ⟨old, different⟩
    · exact attests.next unhindered makes served reports goesOn
    · exact attests.others unhindered makes old fun same => different (same ▸ rfl)
  told _ _ _ found announced := attests.tells unhindered makes found announced

/-- What is known about the threads of the calls in progress is right in every run that nothing
hinders. -/
theorem attests_run (obeys : δ → π × ε → π × ε) {site : Site π ε}
    (new : site.reporter.tracker.upcoming = 0)
    (without : ∀ thread, site.tracked.memo? thread = none) (work : List (List (Job δ)))
    (schedule : List Nat)
    (unhindered : ∀ earlier, earlier <+: schedule →
      Unhindered ((Interleaving.fresh site work).run (procedure obeys) earlier)
        ((Interleaving.fresh site work).accesses (procedure obeys) earlier)) :
    Attests ((Interleaving.fresh site work).run (procedure obeys) schedule)
      ((Interleaving.fresh site work).accesses (procedure obeys) schedule) := by
  refine Interleaving.run_induction_within (motive := Attests) (procedure obeys) _
    (attests_fresh new without work) ?_ ?_ schedule unhindered
  · intro traffic past number strand job jobs attests found idle next
    exact attests.afterStart found idle
  · intro traffic past strand access before after attests makes
    have last : access ∈ past ++ [access] := List.mem_append_right _ (List.mem_singleton.mpr rfl)
    exact attests.afterAccess before makes (after.served access last) (after.reports access last)

/-- An event with the id of a thread is shipped by a call of the thread that knows it by this id. -/
theorem Attests.introduced {shipment : Shipment δ} {stamp : Stamp} {caller : ThreadId}
    {act : Activity MethodId ExceptionId} (attests : Attests traffic past)
    (makes : traffic.Makes (procedure obeys) strand access)
    (ships : (chronicle past).shipment? access = some shipment)
    (event : shipment.event = .activity stamp caller act) :
    ∃ purpose siteJob thread delivery, ends? access = some (purpose, true) ∧
      access.phase = .atSite siteJob (.calling thread (.delivering purpose delivery)) ∧
      shipment.id.turn = access.turn ∧ shipment.job = access.job ∧
      Introduced past thread access.turn caller := by
  obtain ⟨id, delivers, written⟩ := Option.bind_eq_some_iff.mp ships
  obtain ⟨own, wrote, rfl⟩ := Option.map_eq_some_iff.mp written
  obtain ⟨purpose, ends, rfl⟩ := delivers?_iff_ends.mp delivers
  obtain ⟨left, returning, -⟩ := ends?_eq_shipped.mp ends
  obtain ⟨siteJob, thread, calling⟩ := calling_of_delivery returning
  obtain ⟨draft, presents, other, wroteToo, becomes⟩ :=
    attests.vouches _ makes.mem_underway siteJob thread _ calling
  cases wrote.symm.trans wroteToo
  cases event
  exact ⟨purpose, siteJob, thread, _, ends, calling, rfl, rfl,
    introduced_of_presents presents becomes⟩

omit [BufferSupply π β] [Clearable β] [EventEncoder ε β] in
theorem rank_of_readsName {name : String} (reads : readsName? access = some name) :
    access.phase.rank = 28 := by
  unfold readsName? at reads
  split at reads
  · rename_i calling
    rw [calling]
    rfl
  · cases reads

omit [Clearable β] [EventEncoder ε β] in
/-- No call reads a name after it has shipped an event. -/
theorem silent_after_shipping {earlier later : List (SiteAccess π ε β δ)} {purpose : Purpose}
    (falls : (earlier ++ access :: later).Pairwise fun first second =>
      first.turn = second.turn → second.phase.rank < first.phase.rank)
    (ends : ends? access = some (purpose, true)) :
    ∀ other ∈ access :: later, readsName? other = none ∨ access.turn ≠ other.turn := by
  obtain ⟨left, returning, -⟩ := ends?_eq_shipped.mp ends
  have low : access.phase.rank < 28 := by
    have rank := rank_of_delivery returning
    cases stage : purpose.stage <;> simp [stage, Stage.rank, Delivery.rank] at rank <;> omega
  have behind := (List.pairwise_append.mp falls).2.1
  intro other member
  rw [or_iff_not_imp_right, not_not]
  intro same
  cases reads : readsName? other with
  | none => rfl
  | some name =>
    have high := rank_of_readsName reads
    rcases List.mem_cons.mp member with rfl | after
    · omega
    · have lower := (List.pairwise_cons.mp behind).1 other after same
      omega

/-- The request that a call is entered with is the one of its job. -/
theorem job_of_entering (obeys : δ → π × ε → π × ε) (site : Site π ε)
    (work : List (List (Job δ))) (schedule : List Nat)
    {earlier later : List (SiteAccess π ε β δ)} {request : Request}
    (same : (Interleaving.fresh site work).accesses (procedure obeys) schedule =
      earlier ++ access :: later)
    (entering : access.phase.call? = some (.entering request)) :
    ∃ thread, access.job = .atSite (.request thread request) := by
  refine ((Interleaving.underway_induction (motive := fun _ engagement =>
    engagement.phase.rank ≤ 29 ∧ ∀ request, engagement.phase.call? = some (.entering request) →
      ∃ thread, engagement.job = .atSite (.request thread request))
    (procedure obeys) site work ?_ ?_ ?_ schedule).2 earlier access later same).2 request entering
  · intro past turn job silent
    cases job with
    | order => exact ⟨Nat.zero_le _, nofun⟩
    | atSite siteJob =>
      cases siteJob with
      | change => exact ⟨Nat.zero_le _, nofun⟩
      | request thread own =>
        refine ⟨Nat.le_refl 29, ?_⟩
        intro request entering
        cases entering
        exact ⟨thread, rfl⟩
  · intro past other engagement different kept
    exact kept
  · intro past own next made goesOn kept
    have lower := rank_lt_of_step made goesOn
    have high : own.phase.rank ≤ 29 := kept.1
    refine ⟨by omega, ?_⟩
    intro request entering
    have top : next.phase.rank = 29 := by
      rw [Phase.rank, entering]
      rfl
    omega

/-- The thread that a job is a call of. -/
def Job.caller? : Job δ → Option Thread
  | .atSite (.request thread _) => some thread
  | _ => none

/-- What is in one of some disjoint lists is in no other one. -/
theorem index_unique {α : Type} {lists : List (List α)} (apart : lists.Pairwise List.Disjoint)
    {first second : Nat} {own other : List α} {item : α} (found : lists[first]? = some own)
    (foundOther : lists[second]? = some other) (member : item ∈ own) (memberOther : item ∈ other) :
    first = second := by
  obtain ⟨inside, rfl⟩ := List.getElem?_eq_some_iff.mp found
  obtain ⟨insideOther, rfl⟩ := List.getElem?_eq_some_iff.mp foundOther
  have disjoint := List.pairwise_iff_getElem.mp apart
  rcases Nat.lt_trichotomy first second with less | same | more
  · exact (disjoint first second inside insideOther less member memberOther).elim
  · exact same
  · exact (disjoint second first insideOther inside more memberOther member).elim

/-- A thread all of whose calls are on one strand does not nest them. -/
theorem unnested_of_strands (obeys : δ → π × ε → π × ε) (site : Site π ε)
    {work : List (List (Job δ))}
    (apart : (work.map (List.filterMap Job.caller?)).Pairwise List.Disjoint)
    (schedule : List Nat) :
    Unnested ((Interleaving.fresh site work).run (procedure obeys) schedule) := by
  have engages := (engages_always obeys site work schedule).1
  have asked (engagement : Engagement (Job δ) (Phase β δ)) (thread : Thread)
      (member : engagement ∈
        ((Interleaving.fresh site work).run (procedure obeys) schedule).underway)
      (calls : engagement.phase.caller? = some thread) :
      ∃ threads, (work.map (List.filterMap Job.caller?))[engagement.turn.strand]? = some threads ∧
        thread ∈ threads := by
    obtain ⟨strand, found, going, -⟩ := Interleaving.mem_underway.mp member
    have listed := Interleaving.work_of_strand (procedure obeys) site work schedule found
    refine ⟨_, by rw [List.getElem?_map, listed]; rfl, List.mem_filterMap.mpr ?_⟩
    refine ⟨engagement.job, by simp [going], ?_⟩
    obtain ⟨call?, engaged⟩ := engages engagement member
    obtain ⟨turn, job, phase⟩ := engagement
    cases engaged with
    | changes | obeys => cases calls
    | calls => exact calls
  intro first inFirst second inSecond thread callsFirst callsSecond
  obtain ⟨threads, listed, member⟩ := asked first thread inFirst callsFirst
  obtain ⟨others, listedToo, memberToo⟩ := asked second thread inSecond callsSecond
  have strand := index_unique apart listed listedToo member memberToo
  obtain ⟨own, found, -, number⟩ := Interleaving.mem_underway.mp inFirst
  obtain ⟨other, foundToo, -, numberToo⟩ := Interleaving.mem_underway.mp inSecond
  rw [strand, foundToo] at found
  cases found
  exact (Turn.mk.injEq ..).mpr ⟨strand, number.trans numberToo.symm⟩

/-- At every moment of a run nothing hinders it, if nothing does in the end. -/
theorem unhindered_run (obeys : δ → π × ε → π × ε) (site : Site π ε) (work : List (List (Job δ)))
    (schedule : List Nat) (reports : ∀ jobs ∈ work, ∀ job ∈ jobs, job.isReport = true)
    (unnested : ∀ earlier, earlier <+: schedule →
      Unnested ((Interleaving.fresh site work).run (procedure obeys) earlier))
    (served : ∀ access ∈ (Interleaving.fresh site work).accesses (procedure obeys) schedule,
      unserved access = false)
    (room : (enrolments ((Interleaving.fresh site work).accesses
      (procedure obeys) schedule)).length ≤ 2 ^ 32)
    {earlier : List Nat} (inside : earlier <+: schedule) :
    Unhindered ((Interleaving.fresh site work).run (procedure obeys) earlier)
      ((Interleaving.fresh site work).accesses (procedure obeys) earlier) := by
  have fewer := Interleaving.accesses_prefix (procedure obeys) (Interleaving.fresh site work) inside
  constructor
  · exact unnested earlier inside
  · exact Nat.le_trans (fewer.sublist.filterMap _).length_le room
  · exact fun access member => served access (fewer.subset member)
  · intro access member request entering
    obtain ⟨before, after, same⟩ := List.append_of_mem member
    obtain ⟨thread, job⟩ := job_of_entering obeys site work earlier same entering
    obtain ⟨jobs, listed, asked⟩ :=
      Interleaving.mem_work_of_accesses (procedure obeys) site work earlier member
    have reported := reports jobs (List.mem_of_getElem? listed) _ asked
    rwa [job] at reported

/-- Every event of a thread bears the id of this thread alone, and the latest mapping of the id
before it bears the name that its call has read. -/
theorem threads_introduced (obeys : δ → π × ε → π × ε) (site : Site π ε)
    (new : site.reporter.tracker.upcoming = 0)
    (without : ∀ thread, site.tracked.memo? thread = none) (work : List (List (Job δ)))
    (reports : ∀ jobs ∈ work, ∀ job ∈ jobs, job.isReport = true) (schedule : List Nat)
    (unnested : ∀ earlier, earlier <+: schedule →
      Unnested ((Interleaving.fresh site work).run (procedure obeys) earlier))
    (served : ∀ access ∈ (Interleaving.fresh site work).accesses (procedure obeys) schedule,
      unserved access = false)
    (room : (enrolments ((Interleaving.fresh site work).accesses
      (procedure obeys) schedule)).length ≤ 2 ^ 32) :
    let past := (Interleaving.fresh site work).accesses (procedure obeys) schedule
    ((enrolments past).map Prod.snd).Nodup ∧
      (∀ thread id other, (thread, id) ∈ enrolments past → (thread, other) ∈ enrolments past →
        id = other ∨ thread ∈ departed past) ∧
      ∀ earlier shipment later stamp caller act,
        shipments past = earlier ++ shipment :: later →
        shipment.event = .activity stamp caller act →
        ∃ thread request name, shipment.job = .atSite (.request thread request) ∧
          (thread, caller) ∈ enrolments past ∧
          (chronicle past).named shipment.id.turn = some name ∧
          LastNamed caller name (earlier.map Shipment.event) := by
  have unhindered (earlier : List Nat) (inside : earlier <+: schedule) :=
    unhindered_run obeys site work schedule reports unnested served room inside
  have attests := attests_run obeys new without work schedule unhindered
  intro past
  refine ⟨attests.enrolled.distinct room, ?_, ?_⟩
  · intro thread id other first second
    by_cases gone : thread ∈ departed past
    · exact .inr gone
    · exact .inl (attests.enrolled.id_unique first second gone)
  · intro earlier shipment later stamp caller act split own
    obtain ⟨before, access, after, same, here, ships⟩ := exists_shipping
      (wrote_nodup obeys site work schedule) (writesFirst_run obeys site work schedule) split
    obtain ⟨first, number, rest, strand, rfl, made, makes, -, -⟩ :=
      Interleaving.exists_makes (procedure obeys) _ schedule before after access same
    -- what the call has found out is right at the access with which it ships its event
    have attestsHere := attests_run obeys new without work first fun earlier inside =>
      unhindered earlier (inside.trans (List.prefix_append _ _))
    rw [made] at attestsHere
    obtain ⟨purpose, siteJob, thread, delivery, ends, calling, turn, job, enrolled, name, named,
      known⟩ := attestsHere.introduced makes ships own
    obtain ⟨request, asked⟩ := job_of_calling obeys site work _ same calling
    have whole : past = before ++ access :: after := same
    have stays : (chronicle past).named access.turn = (chronicle before).named access.turn := by
      have falls := ranks_fall_run obeys site work (first ++ number :: rest)
      rw [same] at falls
      rw [whole]
      exact named_append before _ (silent_after_shipping falls ends)
    have streamed : (chronicle before).stream = earlier.map Shipment.event := by
      rw [← here, ← made]
      exact stream_run obeys site work first
    have kept : (thread, caller) ∈ enrolments past := by
      rw [whole, enrolments, List.filterMap_append]
      exact List.mem_append_left _ enrolled
    rw [Chronicle.legend, streamed] at known
    exact ⟨thread, request, name, job.trans asked, kept, turn ▸ stays.trans named,
      lastNamed_of_known known⟩

/-- A thread is renamed. The first announcement under its new name is to be spoilt, and a later call
makes another one. A second thread makes a call. -/
def introducedCalls : List (List (Job Directive)) :=
  [[.atSite (.change (.rename ⟨0⟩ "alpha")), .atSite (.request ⟨0⟩ (.report (.entry "run"))),
      .atSite (.change (.rename ⟨0⟩ "beta")), .order (.spoil (.write .threadMapping)),
      .atSite (.request ⟨0⟩ (.report (.exit "run" 3))),
      .atSite (.request ⟨0⟩ (.report (.exit "run" 4)))],
    [.atSite (.request ⟨1⟩ (.report (.entry "run")))]]

/-- The accesses of the two threads. The call of the second one comes in the middle of the first
call of the other. -/
def introducedPast : List (SiteAccess Archive Scribe Transcript Directive) :=
  (Interleaving.fresh (Site.create {} {} .scripted {}) introducedCalls).accesses
    (procedure Directive.obeyed)
    (List.replicate 9 0 ++ List.replicate 25 1 ++ List.replicate 60 0)

/-- The call whose announcement is spoilt ships no event, and that of the next call comes after the
mapping of the new name. -/
theorem threads_introduced_renamed :
    (chronicle introducedPast).stream = [.threadMapping 1 0 "", .methodMapping 1 "run",
      .activity ⟨0, 0⟩ 1 (.entry 1), .threadMapping 0 0 "alpha", .activity ⟨0, 1⟩ 0 (.entry 1),
      .threadMapping 0 0 "beta", .activity ⟨0, 2⟩ 0 (.exit 1 4)] ∧
    enrolments introducedPast = [(⟨0⟩, 0), (⟨1⟩, 1)] ∧
    (chronicle introducedPast).named ⟨0, 5⟩ = some "beta" ∧
    LastNamed 0 "beta" [.threadMapping 1 0 "", .methodMapping 1 "run",
      .activity ⟨0, 0⟩ 1 (.entry 1), .threadMapping 0 0 "alpha", .activity ⟨0, 1⟩ 0 (.entry 1),
      .threadMapping 0 0 "beta"] := by
  have enrolled : enrolments introducedPast = [(⟨0⟩, 0), (⟨1⟩, 1)] := by
    rfl
  have room : (enrolments introducedPast).length ≤ 2 ^ 32 := by
    rw [enrolled]
    decide
  have served : ∀ access ∈ introducedPast, unserved access = false := by
    decide +kernel
  have apart : (introducedCalls.map (List.filterMap Job.caller?)).Pairwise List.Disjoint := by
    simp [introducedCalls, Job.caller?]
  have split : shipments introducedPast = (shipments introducedPast).take 6 ++
      ⟨⟨⟨0, 5⟩, .answer⟩, .atSite (.request ⟨0⟩ (.report (.exit "run" 4))),
        .activity ⟨0, 2⟩ 0 (.exit 1 4)⟩ :: [] := by
    rfl
  have before : ((shipments introducedPast).take 6).map Shipment.event =
      [.threadMapping 1 0 "", .methodMapping 1 "run", .activity ⟨0, 0⟩ 1 (.entry 1),
        .threadMapping 0 0 "alpha", .activity ⟨0, 1⟩ 0 (.entry 1), .threadMapping 0 0 "beta"] := by
    rfl
  have read : (chronicle introducedPast).named ⟨0, 5⟩ = some "beta" := by
    rfl
  obtain ⟨thread, request, name, -, -, named, latest⟩ :=
    (threads_introduced Directive.obeyed (Site.create {} {} .scripted {}) rfl (fun _ => rfl)
      introducedCalls (by decide) _ (fun earlier _ => unnested_of_strands _ _ apart earlier) served
      room).2.2 _ _ _ _ _ _ split rfl
  cases read.symm.trans named
  rw [before] at latest
  exact ⟨by rfl, enrolled, read, latest⟩

/-- A report, a mapping that another name is given to the thread by, and a report. -/
def overwrittenCalls : List (Job Empty) :=
  [.atSite (.request ⟨0⟩ (.report (.entry "run"))),
    .atSite (.request ⟨0⟩ (.mapThread "other" 0)),
    .atSite (.request ⟨0⟩ (.report (.entry "run")))]

/-- What these calls do. -/
def overwrittenPast : List (SiteAccess Ample Ample Ample Empty) :=
  (Interleaving.fresh ampleSite [overwrittenCalls]).accesses (procedure Empty.elim)
    (List.replicate 93 0)

/-- Without the bound two threads get one id, and an event does not come after the name that its
call has read if another call has mapped the id of the thread on its own account. -/
theorem threads_confused :
    (∀ access ∈ reportsPast (debuts (2 ^ 32 + 1)), unserved access = false) ∧
    ¬ ((enrolments (reportsPast (debuts (2 ^ 32 + 1)))).map Prod.snd).Nodup ∧
    (chronicle overwrittenPast).stream =
      [.threadMapping 0 0 "main", .methodMapping 1 "run", .activity ⟨0, 0⟩ 0 (.entry 1),
        .threadMapping 0 0 "other", .activity ⟨0, 1⟩ 0 (.entry 1)] ∧
    (chronicle overwrittenPast).named ⟨0, 2⟩ = some "main" := by
  refine ⟨fun access _ => ?_, fun once => ?_, rfl, rfl⟩
  · unfold unserved
    split
    · rename_i refused
      cases refused
    · rfl
  · have enrolled : Enrolled (reportsRun (debuts (2 ^ 32 + 1))).shared.tracked
        (reportsPast (debuts (2 ^ 32 + 1))) :=
      enrolled_run Empty.elim rfl (fun _ => rfl) _ _
    have shared (thread : Thread) (first : thread.number = 0 ∨ thread.number = 2 ^ 32) :
        (thread, 0) ∈ enrolments (reportsPast (debuts (2 ^ 32 + 1))) := by
      obtain ⟨memo, found, own⟩ := memos_debuts ofNat_exhausted first
      exact own ▸ enrolled.held thread memo found
    have same := List.inj_on_of_nodup_map once (shared ⟨0⟩ (.inl rfl))
      (shared ⟨2 ^ 32⟩ (.inr rfl)) rfl
    simp at same

end OpenSite

end TraceRelay
