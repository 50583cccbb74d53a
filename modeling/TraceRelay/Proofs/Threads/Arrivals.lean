import Mathlib.Data.List.Infix
import TraceRelay.Proofs.Threads.Visits

/-! The ids that a tracker hands out count up in the order in which the threads arrive. -/

namespace TraceRelay

namespace Visit

variable {ε : Type}

/-- The threads that have consulted the tracker, in the order in which they did so first. -/
def arrivals (past : List (VisitAccess ε)) : List Thread :=
  (past.filterMap fun access => (consults? access).map Prod.fst).eraseDups

/-- The threads with the numbers of their places as ids. -/
def numbered (threads : List Thread) : List (Thread × ThreadId) :=
  threads.zipIdx.map fun (thread, number) => (thread, UInt32.ofNat number)

/-- The thread that gets an id with an access, because it has no memo, and the id. -/
def enrolment? (access : VisitAccess ε) : Option (Thread × ThreadId) :=
  (consults? access).bind fun consulted =>
    if (access.before.tracked.memo? consulted.1).isNone then
      some (consulted.1, access.before.tracked.tracker.upcoming)
    else none

/-- The threads that have got ids, each with its id, in order. -/
def enrolments (past : List (VisitAccess ε)) : List (Thread × ThreadId) :=
  past.filterMap enrolment?

/-- A thread is shown under an id by an announcement that starts, or by an answer. -/
def shows? (access : VisitAccess ε) : Option (Thread × ThreadId) :=
  ((announces? access).map fun (thread, announcement) => (thread, announcement.id)).or
    (returns? access)

/-- The announcement that a call is making, or has just made, with its thread. -/
def presents? (engagement : Engagement (ThreadJob ε) Visit) :
    Option (Thread × ThreadAnnouncement) :=
  match engagement.job, engagement.phase.phase with
  | .request request, .announcing announcement => some (request.thread, announcement)
  | .request request, .identifying (.settle announcement) => some (request.thread, announcement)
  | _, _ => none

theorem arrivals_nil : arrivals ([] : List (VisitAccess ε)) = [] := List.eraseDups_nil

theorem arrivals_silent (past : List (VisitAccess ε)) {access : VisitAccess ε}
    (silent : consults? access = none) : arrivals (past ++ [access]) = arrivals past := by
  rw [arrivals, List.filterMap_append, filterMap_singleton, silent]
  exact congrArg List.eraseDups (List.append_nil _)

theorem arrivals_consults (past : List (VisitAccess ε)) {access : VisitAccess ε} {thread : Thread}
    {name : String} (consults : consults? access = some (thread, name)) :
    arrivals (past ++ [access]) =
      if thread ∈ arrivals past then arrivals past else arrivals past ++ [thread] := by
  rw [arrivals, List.filterMap_append, filterMap_singleton, consults]
  exact (eraseDups_concat _ thread).trans (by simp only [arrivals, List.mem_eraseDups])

theorem nodup_arrivals (past : List (VisitAccess ε)) : (arrivals past).Nodup :=
  nodup_eraseDups _

theorem enrolments_concat (past : List (VisitAccess ε)) (access : VisitAccess ε) :
    enrolments (past ++ [access]) = enrolments past ++ (enrolment? access).toList := by
  rw [enrolments, List.filterMap_append, filterMap_singleton]
  rfl

theorem numbered_concat (threads : List Thread) (thread : Thread) :
    numbered (threads ++ [thread]) =
      numbered threads ++ [(thread, UInt32.ofNat threads.length)] := by
  simp [numbered, List.zipIdx_append]

theorem mem_numbered {threads : List Thread} {thread : Thread} {id : ThreadId} :
    (thread, id) ∈ numbered threads ↔
      ∃ number, threads[number]? = some thread ∧ UInt32.ofNat number = id := by
  simp only [numbered, List.mem_map, Prod.exists, Prod.mk.injEq, List.mem_zipIdx_iff_getElem?]
  constructor
  · rintro ⟨_, number, found, rfl, same⟩
    exact ⟨number, found, same⟩
  · rintro ⟨number, found, same⟩
    exact ⟨thread, number, found, rfl, same⟩

/-- The memos of the tracker, the ids that it has handed out and the calls in progress fit each
other. -/
structure Enrolled (visits : Visits ε) (past : List (VisitAccess ε)) : Prop where
  upcoming : visits.shared.tracked.tracker.upcoming = UInt32.ofNat (arrivals past).length
  ids : enrolments past = numbered (arrivals past)
  held : ∀ thread memo, visits.shared.tracked.memo? thread = some memo →
    (thread, memo.id) ∈ enrolments past
  single : ∀ thread ∈ arrivals past, thread ∈ departed past ∨
    (visits.shared.tracked.memo? thread).isSome
  presented : ∀ engagement ∈ visits.underway, ∀ thread announcement,
    presents? engagement = some (thread, announcement) → (thread, announcement.id) ∈ enrolments past

variable {visits : Visits ε} {past : List (VisitAccess ε)} {access : VisitAccess ε}
  {strand : Strand (ThreadJob ε) Visit (Option (Outcome ε ThreadId))}

theorem Enrolled.mem_arrivals (enrolled : Enrolled visits past) {thread : Thread} {id : ThreadId}
    (member : (thread, id) ∈ enrolments past) : thread ∈ arrivals past := by
  rw [enrolled.ids] at member
  obtain ⟨number, found, -⟩ := mem_numbered.mp member
  exact List.mem_of_getElem? found

/-- After an access, too, every call presents its thread under the id that the thread has got. -/
theorem Enrolled.presented_after (enrolled : Enrolled visits past)
    (makes : visits.Makes procedure strand access)
    (presents : ∀ next, access.next? = some next → ∀ thread announcement,
      presents? next = some (thread, announcement) →
      presents? access.engagement = some (thread, announcement) ∨
        (thread, announcement.id) ∈ enrolments (past ++ [access]))
    (engagement : Engagement (ThreadJob ε) Visit)
    (member : engagement ∈ (visits.afterAccess strand access).underway) (thread : Thread)
    (announcement : ThreadAnnouncement)
    (presented : presents? engagement = some (thread, announcement)) :
    (thread, announcement.id) ∈ enrolments (past ++ [access]) := by
  have older (engagement : Engagement (ThreadJob ε) Visit) (old : engagement ∈ visits.underway)
      (presented : presents? engagement = some (thread, announcement)) :
      (thread, announcement.id) ∈ enrolments (past ++ [access]) := by
    rw [enrolments_concat]
    exact List.mem_append_left _ (enrolled.presented engagement old thread announcement presented)
  rcases Interleaving.mem_underway_afterAccess makes member with goesOn | ⟨old, -⟩
  · rcases presents engagement goesOn thread announcement presented with same | known
    · exact older _ makes.mem_underway same
    · exact known
  · exact older engagement old presented

/-- An access that gives no id keeps all fitting if each thread keeps its memo with its id, unless
it ends. -/
theorem Enrolled.keeps (enrolled : Enrolled visits past)
    (makes : visits.Makes procedure strand access)
    (known : ∀ consulted, consults? access = some consulted →
      (access.before.tracked.memo? consulted.1).isSome)
    (upcoming : access.after.tracked.tracker.upcoming = access.before.tracked.tracker.upcoming)
    (memos : ∀ thread, (access.after.tracked.memo? thread).map ThreadMemo.id =
        (access.before.tracked.memo? thread).map ThreadMemo.id ∨
      access.after.tracked.memo? thread = none ∧ access.job.departs? = some thread)
    (presents : ∀ next, access.next? = some next → ∀ thread announcement,
      presents? next = some (thread, announcement) →
      presents? access.engagement = some (thread, announcement) ∨
        (thread, announcement.id) ∈ enrolments past) :
    Enrolled (visits.afterAccess strand access) (past ++ [access]) := by
  have arrived : arrivals (past ++ [access]) = arrivals past := by
    cases found : consults? access with
    | none => exact arrivals_silent past found
    | some consulted =>
      obtain ⟨memo, there⟩ := Option.isSome_iff_exists.mp (known consulted found)
      rw [makes.before] at there
      rw [arrivals_consults past found, if_pos (enrolled.mem_arrivals (enrolled.held _ memo there))]
  have same : enrolments (past ++ [access]) = enrolments past := by
    rw [enrolments_concat, enrolment?]
    cases found : consults? access with
    | none => exact List.append_nil _
    | some consulted =>
      obtain ⟨memo, there⟩ := Option.isSome_iff_exists.mp (known consulted found)
      simp [there]
  constructor
  · rw [arrived]
    exact upcoming.trans (makes.before ▸ enrolled.upcoming)
  · rw [arrived, same]
    exact enrolled.ids
  · intro thread memo found
    rw [same]
    rcases memos thread with kept | ⟨lost, -⟩
    · obtain ⟨old, foundOld, own⟩ := Option.map_eq_some_iff.mp (kept.symm.trans
        (congrArg (Option.map ThreadMemo.id) found))
      rw [makes.before] at foundOld
      exact own ▸ enrolled.held thread old foundOld
    · cases found.symm.trans lost
  · intro thread arrives
    rw [arrived] at arrives
    rw [departed_concat, List.mem_append]
    rcases enrolled.single thread arrives with gone | there
    · exact .inl (.inl gone)
    · rcases memos thread with kept | ⟨-, ends⟩
      · refine .inr ?_
        rw [← makes.before, ← Option.isSome_map (f := ThreadMemo.id), ← kept,
          Option.isSome_map] at there
        exact there
      · exact .inl (.inr (by simp [ends]))
  · refine enrolled.presented_after makes fun next goesOn thread announcement presented => ?_
    rw [same]
    exact presents next goesOn thread announcement presented

/-- A thread that has no memo has not consulted the tracker before, unless it has ended. -/
theorem Enrolled.enrols {thread : Thread} {name : String} (enrolled : Enrolled visits past)
    (makes : visits.Makes procedure strand access) (lives : thread ∉ departed past)
    (consults : consults? access = some (thread, name))
    (new : access.before.tracked.memo? thread = none)
    (upcoming : access.after.tracked.tracker.upcoming =
      access.before.tracked.tracker.upcoming + 1)
    (memos : ∀ other, access.after.tracked.memo? other =
      if other = thread then some { id := access.before.tracked.tracker.upcoming }
      else access.before.tracked.memo? other)
    (presents : ∀ next, access.next? = some next → presents? next =
      some (thread, { id := access.before.tracked.tracker.upcoming, name })) :
    Enrolled (visits.afterAccess strand access) (past ++ [access]) := by
  have unknown : thread ∉ arrivals past := fun known => by
    rcases enrolled.single thread known with gone | there
    · exact lives gone
    · rw [← makes.before, new] at there
      cases there
  have arrived : arrivals (past ++ [access]) = arrivals past ++ [thread] := by
    rw [arrivals_consults past consults, if_neg unknown]
  have number : access.before.tracked.tracker.upcoming = UInt32.ofNat (arrivals past).length := by
    rw [makes.before]
    exact enrolled.upcoming
  have more : enrolments (past ++ [access]) =
      enrolments past ++ [(thread, access.before.tracked.tracker.upcoming)] := by
    rw [enrolments_concat, enrolment?, consults, Option.bind_some, new]
    rfl
  constructor
  · rw [arrived, List.length_append]
    exact upcoming.trans (number ▸ (UInt32.ofNat_add _ 1).symm)
  · rw [arrived, more, numbered_concat, enrolled.ids, number]
  · intro other memo found
    rw [more, List.mem_append, List.mem_singleton]
    have held : (if other = thread then some { id := access.before.tracked.tracker.upcoming }
        else access.before.tracked.memo? other) = some memo := (memos other).symm.trans found
    split at held
    · rename_i own
      cases held
      exact .inr (own ▸ rfl)
    · exact .inl (enrolled.held other memo (makes.before ▸ held))
  · intro other arrives
    rw [departed_concat, List.mem_append]
    show _ ∨ (access.after.tracked.memo? other).isSome
    rw [memos]
    split
    · exact .inr rfl
    · rename_i apart
      rw [arrived, List.mem_append, List.mem_singleton] at arrives
      rcases enrolled.single other (arrives.resolve_right apart) with gone | there
      · exact .inl (.inl gone)
      · exact .inr (makes.before ▸ there)
  · refine enrolled.presented_after makes fun next goesOn other announcement presented => .inr ?_
    rw [presents next goesOn] at presented
    cases presented
    simp [more]

/-- Every access keeps the memos, the ids and the calls in progress fitting. -/
theorem Enrolled.after_access (enrolled : Enrolled visits past) (lives : Lives visits past)
    (makes : visits.Makes procedure strand access) :
    Enrolled (visits.afterAccess strand access) (past ++ [access]) := by
  have caller := lives _ makes.mem_underway
  have before := makes.before
  cases does_of_step makes.made with
  | borrows turn request phase host handles there =>
    refine enrolled.keeps makes (fun consulted consults => ?_) rfl (fun _ => .inl rfl) ?_
    · obtain ⟨_, _, _, ⟨⟩⟩ := consults?_eq_some.mp consults
    · rintro next ⟨⟩ thread announcement presented
      exact .inl presented
  | collides turn request phase host handles gone =>
    refine enrolled.keeps makes (fun consulted consults => ?_) rfl (fun _ => .inl rfl) nofun
    obtain ⟨_, _, _, ⟨⟩⟩ := consults?_eq_some.mp consults
  | happens turn job visit host after uncalled memos =>
    refine enrolled.keeps makes (fun consulted consults => ?_) rfl (fun thread => ?_) nofun
    · cases job with
      | request => cases uncalled
      | start | change => cases consults
    · exact (memos thread).imp_left (congrArg _)
  | moves turn request phase holds host moved tracked held made =>
    cases made with
    | reads =>
      exact enrolled.keeps makes nofun rfl (fun _ => .inl rfl) nofun
    | enrols name new =>
      cases held rfl
      refine enrolled.enrols makes (caller _ rfl) rfl new rfl (fun other => ?_) ?_
      · exact host.tracked.memo?_remember request.thread other _
      · rintro next ⟨⟩
        rfl
    | presents name memo found differs =>
      cases held rfl
      refine enrolled.keeps makes ?_ rfl (fun _ => .inl rfl) ?_
      · rintro consulted ⟨⟩
        exact Option.isSome_of_eq_some found
      · rintro next ⟨⟩ thread announcement ⟨⟩
        exact .inr (enrolled.held _ memo (before ▸ found))
    | knows name memo found same =>
      cases held rfl
      refine enrolled.keeps makes ?_ rfl (fun _ => .inl rfl) nofun
      rintro consulted ⟨⟩
      exact Option.isSome_of_eq_some found
    | succeeds announcement ends =>
      refine enrolled.keeps makes nofun rfl (fun _ => .inl rfl) ?_
      rintro next ⟨⟩ thread other presented
      exact .inl presented
    | fails announcement result ends unsuccessful =>
      exact enrolled.keeps makes nofun rfl (fun _ => .inl rfl) nofun
    | notes announcement memo found =>
      refine enrolled.keeps makes nofun rfl (fun other => .inl ?_) nofun
      simp only [TrackedHost.memo?_remember]
      split
      · rename_i own
        rw [own, found]
        rfl
      · rfl
    | forgets announcement lost =>
      exact enrolled.keeps makes nofun rfl (fun _ => .inl rfl) nofun

theorem presents_of_announces {thread : Thread} {announcement : ThreadAnnouncement}
    (announces : announces? access = some (thread, announcement)) :
    ∃ next, access.next? = some next ∧ presents? next = some (thread, announcement) := by
  obtain ⟨turn, job, phase, before, moved, after⟩ := access
  unfold announces? at announces
  split at announces
  · rename_i request _ _ job goesOn
    simp only at job goesOn
    cases announces
    cases job
    cases goesOn
    exact ⟨_, rfl, rfl⟩
  · cases announces

/-- An answer gives its thread the id that the thread has got. -/
theorem Enrolled.returned (enrolled : Enrolled visits past)
    (makes : visits.Makes procedure strand access) {thread : Thread} {id : ThreadId}
    (returns : returns? access = some (thread, id)) : (thread, id) ∈ enrolments past := by
  have presented := enrolled.presented _ makes.mem_underway
  have before := makes.before
  cases does_of_step makes.made with
  | borrows | collides => cases returns
  | happens turn job visit host after uncalled memos => cases job <;> cases returns
  | moves turn request phase holds host moved tracked held made =>
    cases made with
    | reads | enrols | presents | succeeds => cases returns
    | fails announcement result ends unsuccessful =>
      cases result with
      | returned other => exact absurd rfl (unsuccessful other)
      | failed | panicked => cases returns
    | knows name memo found same =>
      cases returns
      exact enrolled.held _ memo (before ▸ found)
    | notes announcement | forgets announcement =>
      cases returns
      exact presented _ announcement rfl

/-- An access shows its thread under the id that the thread has got. -/
theorem Enrolled.shown (enrolled : Enrolled visits past) (lives : Lives visits past)
    (makes : visits.Makes procedure strand access) {thread : Thread} {id : ThreadId}
    (shows : shows? access = some (thread, id)) : (thread, id) ∈ enrolments (past ++ [access]) := by
  rw [shows?, Option.or_eq_some_iff] at shows
  rcases shows with announces | ⟨-, returns⟩
  · obtain ⟨⟨own, announcement⟩, found, same⟩ := Option.map_eq_some_iff.mp announces
    cases same
    obtain ⟨next, goesOn, presents⟩ := presents_of_announces found
    exact (enrolled.after_access lives makes).presented next (makes.next_mem goesOn) _ _ presents
  · rw [enrolments_concat]
    exact List.mem_append_left _ (enrolled.returned makes returns)

theorem enrolled_fresh {tracked : TrackedHost} (new : tracked.tracker.upcoming = 0)
    (without : ∀ thread, tracked.memo? thread = none) (work : List (List (ThreadJob ε))) :
    Enrolled (Interleaving.fresh { tracked } work) [] := by
  constructor
  · rw [arrivals_nil]
    exact new
  · rw [arrivals_nil]
    rfl
  · intro thread memo found
    cases (without thread).symm.trans found
  · intro thread arrives
    rw [arrivals_nil] at arrives
    cases arrives
  · intro engagement member
    rw [Interleaving.underway_fresh] at member
    cases member

/-- The start of a job keeps the memos, the ids and the calls in progress fitting. -/
theorem Enrolled.after_start (enrolled : Enrolled visits past) {number : Nat} {job : ThreadJob ε}
    {jobs : List (ThreadJob ε)} (found : visits.strands[number]? = some strand)
    (idle : strand.going = none) :
    Enrolled (visits.afterStart procedure number strand job jobs) past := by
  refine ⟨enrolled.upcoming, enrolled.ids, enrolled.held, enrolled.single, ?_⟩
  intro engagement member thread announcement presented
  rcases Interleaving.mem_underway_afterStart found idle member with rfl | old
  · cases job <;> cases presented
  · exact enrolled.presented engagement old thread announcement presented

/-- In every run in which no ended thread calls, the memos, the ids and the calls in progress fit
each other, and every thread has been shown under its own id. -/
theorem enrolled_run {tracked : TrackedHost} (new : tracked.tracker.upcoming = 0)
    (without : ∀ thread, tracked.memo? thread = none) (work : List (List (ThreadJob ε)))
    (schedule : List Nat)
    (lives : ∀ earlier, earlier <+: schedule →
      Lives ((Interleaving.fresh { tracked } work).run procedure earlier)
        ((Interleaving.fresh { tracked } work).accesses procedure earlier)) :
    let past := (Interleaving.fresh { tracked } work).accesses procedure schedule
    Enrolled ((Interleaving.fresh { tracked } work).run procedure schedule) past ∧
      ∀ access ∈ past, ∀ thread id, shows? access = some (thread, id) →
        (thread, id) ∈ enrolments past := by
  refine Interleaving.run_induction_within
    (motive := fun visits past => Enrolled visits past ∧ ∀ access ∈ past, ∀ thread id,
      shows? access = some (thread, id) → (thread, id) ∈ enrolments past)
    procedure _ ⟨enrolled_fresh new without work, fun _ member => absurd member List.not_mem_nil⟩
    ?_ ?_ schedule lives
  · rintro visits past number strand job jobs ⟨enrolled, shown⟩ found idle next
    exact ⟨enrolled.after_start found idle, shown⟩
  · rintro visits past strand access livesBefore - ⟨enrolled, shown⟩ makes
    refine ⟨enrolled.after_access livesBefore makes, fun other member thread id shows => ?_⟩
    rcases List.mem_append.mp member with old | own
    · rw [enrolments_concat]
      exact List.mem_append_left _ (shown other old thread id shows)
    · cases List.mem_singleton.mp own
      exact enrolled.shown livesBefore makes shows

/-- A thread has one id. -/
theorem id_unique {threads : List Thread} (distinct : threads.Nodup) {thread : Thread}
    {id otherId : ThreadId} (member : (thread, id) ∈ numbered threads)
    (memberToo : (thread, otherId) ∈ numbered threads) : id = otherId := by
  obtain ⟨number, found, rfl⟩ := mem_numbered.mp member
  obtain ⟨place, foundToo, rfl⟩ := mem_numbered.mp memberToo
  obtain ⟨inside, -⟩ := List.getElem?_eq_some_iff.mp found
  rw [(List.getElem?_inj inside distinct).mp (found.trans foundToo.symm)]

/-- As long as there are no more threads than ids, an id has one thread. -/
theorem thread_unique {threads : List Thread} (few : threads.length ≤ 2 ^ 32)
    {thread other : Thread} {id : ThreadId} (member : (thread, id) ∈ numbered threads)
    (memberOther : (other, id) ∈ numbered threads) : thread = other := by
  obtain ⟨number, found, own⟩ := mem_numbered.mp member
  obtain ⟨place, foundOther, same⟩ := mem_numbered.mp memberOther
  obtain ⟨inside, atNumber⟩ := List.getElem?_eq_some_iff.mp found
  obtain ⟨insideOther, atPlace⟩ := List.getElem?_eq_some_iff.mp foundOther
  have numbers := congrArg UInt32.toNat (own.trans same.symm)
  rw [UInt32.toNat_ofNat_of_lt' (Nat.lt_of_lt_of_le inside few),
    UInt32.toNat_ofNat_of_lt' (Nat.lt_of_lt_of_le insideOther few)] at numbers
  subst numbers
  exact atNumber.symm.trans atPlace

/-- A thread that a call presents has a memo, and the memo holds the id under which the call
presents the thread. -/
theorem Enrolled.memo_of_presents (enrolled : Enrolled visits past) (lives : Lives visits past)
    {engagement : Engagement (ThreadJob ε) Visit} (member : engagement ∈ visits.underway)
    {thread : Thread} {announcement : ThreadAnnouncement}
    (presents : presents? engagement = some (thread, announcement)) :
    ∃ memo, visits.shared.tracked.memo? thread = some memo ∧ memo.id = announcement.id := by
  have presented := enrolled.presented engagement member thread announcement presents
  have caller : engagement.job.caller? = some thread := by
    obtain ⟨turn, job, phase, holds⟩ := engagement
    cases job with
    | start | change => cases presents
    | request request => rcases phase with (_ | _ | _) | _ <;> cases presents <;> rfl
  rcases enrolled.single thread (enrolled.mem_arrivals presented) with gone | there
  · exact absurd gone (lives engagement member thread caller)
  · obtain ⟨memo, found⟩ := Option.isSome_iff_exists.mp there
    have held := enrolled.held thread memo found
    rw [enrolled.ids] at held presented
    exact ⟨memo, found, id_unique (nodup_arrivals past) held presented⟩

/-- The ids that a tracker hands out are 0, 1, 2 and so on, one for each thread, in the order in
which the threads first reach their memos. -/
theorem ids_exact {tracked : TrackedHost} (new : tracked.tracker.upcoming = 0)
    (without : ∀ thread, tracked.memo? thread = none) (work : List (List (ThreadJob ε)))
    (schedule : List Nat)
    (lives : ∀ earlier, earlier <+: schedule →
      Lives ((Interleaving.fresh { tracked } work).run procedure earlier)
        ((Interleaving.fresh { tracked } work).accesses procedure earlier))
    (few : (arrivals ((Interleaving.fresh { tracked } work).accesses procedure schedule)).length ≤
      2 ^ 32) :
    let past := (Interleaving.fresh { tracked } work).accesses procedure schedule
    enrolments past = numbered (arrivals past) ∧
    (∀ access ∈ past, ∀ thread id, shows? access = some (thread, id) →
      (thread, id) ∈ enrolments past ∧
      ∀ other ∈ past, ∀ otherThread otherId, shows? other = some (otherThread, otherId) →
        (id = otherId ↔ thread = otherThread)) ∧
    ∀ access ∈ past, Fails access → access.after.tracked = access.before.tracked := by
  intro past
  obtain ⟨enrolled, shown⟩ := enrolled_run new without work schedule lives
  refine ⟨enrolled.ids, ?_, ?_⟩
  · intro access member thread id shows
    have own := shown access member thread id shows
    refine ⟨own, fun other memberOther otherThread otherId showsOther => ?_⟩
    have others := shown other memberOther otherThread otherId showsOther
    rw [enrolled.ids] at own others
    constructor
    · rintro rfl
      exact thread_unique few own others
    · rintro rfl
      exact id_unique (nodup_arrivals past) own others
  · intro access member fails
    obtain ⟨earlier, later, split⟩ := List.append_of_mem member
    exact (unchanged_of_fails (Interleaving.made_of_accesses procedure _ schedule split) fails).1

instance (visits : Visits ε) (past : List (VisitAccess ε)) : Decidable (Lives visits past) :=
  inferInstanceAs (Decidable (∀ _ ∈ _, ∀ _ ∈ _, _))

/-- A new tracker that asks for the names that threads have taken on last. -/
def renamingHost : TrackedHost := { tracker := { key := 0, names := .scripted }, host := {} }

/-- The first announcements of two threads fail, and in that of the first thread there are renames
and further calls. -/
def restlessCalls : List (List (ThreadJob String)) :=
  [[.request ⟨⟨0⟩, .failed "full"⟩],
    [.change (.rename ⟨0⟩ "b"), .request ⟨⟨0⟩, .returned ()⟩, .change (.rename ⟨0⟩ "c"),
      .request ⟨⟨0⟩, .failed "full"⟩, .change (.rename ⟨0⟩ "b"), .request ⟨⟨0⟩, .returned ()⟩],
    [.request ⟨⟨1⟩, .panicked "closed"⟩, .change (.endThread ⟨1⟩)]]

/-- The other calls of the first thread are made while it is announced for the first time. -/
def restlessTurns : List Nat :=
  List.replicate 4 0 ++ List.replicate 4 2 ++ List.replicate 9 1 ++ List.replicate 3 2 ++
    List.replicate 13 1 ++ [0]

/-- The accesses of these calls. -/
def restlessPast : List (VisitAccess String) :=
  (Interleaving.fresh { tracked := renamingHost } restlessCalls).accesses procedure restlessTurns

/-- Although both first announcements fail, each thread has one id. -/
theorem ids_exact_restless :
    enrolments restlessPast = numbered (arrivals restlessPast) ∧
      arrivals restlessPast = [⟨0⟩, ⟨1⟩] ∧
      restlessPast.filterMap shows? =
        [(⟨0⟩, 0), (⟨1⟩, 1), (⟨0⟩, 0), (⟨0⟩, 0), (⟨0⟩, 0), (⟨0⟩, 0)] := by
  have lives : ∀ earlier ∈ restlessTurns.inits, Lives
      ((Interleaving.fresh { tracked := renamingHost } restlessCalls).run procedure earlier)
      ((Interleaving.fresh { tracked := renamingHost } restlessCalls).accesses procedure
        earlier) := by
    decide +kernel
  have arrived : arrivals restlessPast = [⟨0⟩, ⟨1⟩] := by decide +kernel
  obtain ⟨ids, -, -⟩ := ids_exact (rfl : renamingHost.tracker.upcoming = 0) (fun _ => rfl)
    restlessCalls restlessTurns
    (fun earlier inside => lives earlier ((List.mem_inits _ _).mpr inside))
    (by rw [← restlessPast, arrived]; decide)
  exact ⟨ids, arrived, by decide +kernel⟩

end Visit

end TraceRelay
