import TraceRelay.Proofs.Stream.Shipments
import TraceRelay.Proofs.Threads.Enrolment

/-! Threads are introduced by their names before they are heard. -/

namespace TraceRelay.OpenSite

variable {π ε β δ : Type}

/-- The thread that makes a call in a phase. -/
def Phase.caller? : Phase β δ → Option Thread
  | .atSite _ (.calling thread _) => some thread
  | _ => none

/-- No thread has two calls in progress. -/
def Unnested (traffic : Traffic π ε β δ) : Prop :=
  ∀ first ∈ traffic.underway, ∀ second ∈ traffic.underway, ∀ thread,
    first.phase.caller? = some thread → second.phase.caller? = some thread →
      first.turn = second.turn

/-- The thread whose mapping is shipped with an access, and the mapping. -/
def introduces? [BufferSupply π β] (access : SiteAccess π ε β δ) :
    Option (Thread × ThreadAnnouncement) :=
  match access.phase.caller?, ends? access with
  | some thread, some (.announceThread _ _ announcement, true) => some (thread, announcement)
  | _, _ => none

/-- Whether the supply has no buffer to spare for the mapping of a thread. -/
def unserved [BufferSupply π β] (access : SiteAccess π ε β δ) : Bool :=
  match access.phase.delivery?, (BufferSupply.lend access.before.reporter.supply).result with
  | some (.announceThread _ _ _, .obtaining _), .ok none => true
  | _, _ => false

section Findings

variable [BufferSupply π β]

/-- The id is one that the thread has got, and a reader knows it by the name that the call of the
turn has read. -/
structure Introduced (past : List (SiteAccess π ε β δ)) (thread : Thread) (turn : Turn)
    (id : ThreadId) : Prop where
  own : (thread, id) ∈ enrolments past
  known : ∃ name, (chronicle past).named turn = some name ∧
    (chronicle past).legend.threads.find? id = some name

/-- The announcement is one of the thread, under the name that the call of the turn has read. -/
structure Introduces (tracked : TrackedHost) (past : List (SiteAccess π ε β δ)) (thread : Thread)
    (turn : Turn) (announcement : ThreadAnnouncement) : Prop where
  own : (thread, announcement.id) ∈ enrolments past
  named : (chronicle past).named turn = some announcement.name
  memo : ∀ memo, tracked.memo? thread = some memo → memo.id = announcement.id

/-- The draft is what a delivery with the given purpose has to carry, and what the call has found
out about its thread is right. -/
def Presents (tracked : TrackedHost) (past : List (SiteAccess π ε β δ)) (thread : Thread)
    (turn : Turn) (draft : Draft) : Purpose → Prop
  | .announceThread _ _ announcement => Introduces tracked past thread turn announcement ∧
    draft = .threadMapping announcement.id announcement.name
  | .announceMethod activity _ caller id =>
    Introduced past thread turn caller ∧ draft = .methodMapping id activity.method
  | .announceException _ _ caller _ raised id =>
    Introduced past thread turn caller ∧ draft = .exceptionMapping id raised
  | .answer =>
    match draft with
    | .activity _ caller _ => Introduced past thread turn caller
    | .marker _ _ _ => True
    | _ => False

/-- What a call in progress has found out about its thread is right. -/
def Vouches (tracked : TrackedHost) (past : List (SiteAccess π ε β δ)) (thread : Thread)
    (turn : Turn) : Call β → Prop
  | .entering _ => True
  | .identifying _ _ .readName => True
  | .identifying _ _ (.consult name) => (chronicle past).named turn = some name
  | .identifying _ _ (.settle announcement) => Introduces tracked past thread turn announcement ∧
    (chronicle past).legend.threads.find? announcement.id = some announcement.name
  | .resolvingMethod _ _ caller _ => Introduced past thread turn caller
  | .resolvingException _ _ caller _ _ _ => Introduced past thread turn caller
  | .delivering purpose delivery => ∃ draft, Presents tracked past thread turn draft purpose ∧
    delivery.Carries ((chronicle past).written ⟨turn, purpose.stage⟩) draft

/-- What the call of a job in progress has found out about its thread is right. -/
def JobVouches (tracked : TrackedHost) (past : List (SiteAccess π ε β δ))
    (engagement : Engagement (Job δ) (Phase β δ)) : Prop :=
  ∀ siteJob thread call, engagement.phase = .atSite siteJob (.calling thread call) →
    Vouches tracked past thread engagement.turn call

variable {past : List (SiteAccess π ε β δ)} {access : SiteAccess π ε β δ} {siteJob : Site.Job}
  {thread : Thread} {turn : Turn} {id : ThreadId} {announcement : ThreadAnnouncement}
  {draft : Draft} {purpose : Purpose} {call : Call β}

/-- An access leaves what a reader knows about the thread of a call as it is. -/
structure Spares (past : List (SiteAccess π ε β δ)) (access : SiteAccess π ε β δ) (thread : Thread)
    (turn : Turn) : Prop where
  named : (chronicle (past ++ [access])).named turn = (chronicle past).named turn
  threads : ∀ id, (thread, id) ∈ enrolments past →
    (chronicle (past ++ [access])).legend.threads.find? id =
      (chronicle past).legend.threads.find? id

omit [BufferSupply π β] in
theorem enrolments_mono (past : List (SiteAccess π ε β δ)) (access : SiteAccess π ε β δ) :
    enrolments past ⊆ enrolments (past ++ [access]) := by
  rw [enrolments_concat]
  exact List.subset_append_left _ _

theorem Introduced.mono (introduced : Introduced past thread turn id)
    (spares : Spares past access thread turn) : Introduced (past ++ [access]) thread turn id where
  own := enrolments_mono past access introduced.own
  known := by
    rw [spares.named, spares.threads id introduced.own]
    exact introduced.known

theorem Introduces.mono
    (introduces : Introduces access.before.tracked past thread turn announcement)
    (named : (chronicle (past ++ [access])).named turn = (chronicle past).named turn)
    (memos : ∀ memo, access.after.tracked.memo? thread = some memo →
      access.before.tracked.memo? thread = some memo) :
    Introduces access.after.tracked (past ++ [access]) thread turn announcement where
  own := enrolments_mono past access introduces.own
  named := named.trans introduces.named
  memo memo found := introduces.memo memo (memos memo found)

theorem Presents.mono (presents : Presents access.before.tracked past thread turn draft purpose)
    (spares : Spares past access thread turn)
    (memos : ∀ memo, access.after.tracked.memo? thread = some memo →
      access.before.tracked.memo? thread = some memo) :
    Presents access.after.tracked (past ++ [access]) thread turn draft purpose := by
  cases purpose with
  | announceThread => exact ⟨presents.1.mono spares.named memos, presents.2⟩
  | announceMethod | announceException => exact ⟨presents.1.mono spares, presents.2⟩
  | answer =>
    cases draft with
    | methodMapping | exceptionMapping | threadMapping => exact presents.elim
    | marker => trivial
    | activity stamp caller act => exact Introduced.mono presents spares

/-- An event with the id of a thread is delivered by a call that knows its thread by this id. -/
theorem introduced_of_presents {tracked : TrackedHost} {stamp : Stamp}
    {act : Activity MethodId ExceptionId}
    (presents : Presents tracked past thread turn draft purpose)
    (becomes : draft.Becomes (.activity stamp id act)) : Introduced past thread turn id := by
  obtain ⟨current, numbering, same⟩ := becomes
  cases purpose with
  | announceThread | announceMethod | announceException =>
    obtain ⟨-, rfl⟩ := presents
    cases same
  | answer =>
    cases draft with
    | methodMapping | exceptionMapping | threadMapping => exact presents.elim
    | marker => cases same
    | activity entered caller own =>
      cases same
      exact presents

/-- What a call has found out stays right while others make accesses. -/
theorem Vouches.mono (vouches : Vouches access.before.tracked past thread turn call)
    (different : access.turn ≠ turn) (spares : Spares past access thread turn)
    (memos : ∀ memo, access.after.tracked.memo? thread = some memo →
      access.before.tracked.memo? thread = some memo) :
    Vouches access.after.tracked (past ++ [access]) thread turn call := by
  cases call with
  | entering => trivial
  | identifying activity entered phase =>
    cases phase with
    | readName => trivial
    | consult name => exact spares.named.trans vouches
    | settle announcement =>
      obtain ⟨introduces, known⟩ := vouches
      exact ⟨introduces.mono spares.named memos, (spares.threads _ introduces.own).trans known⟩
  | resolvingMethod | resolvingException => exact Introduced.mono vouches spares
  | delivering purpose delivery =>
    obtain ⟨draft, presents, carries⟩ := vouches
    refine ⟨draft, presents.mono spares memos, ?_⟩
    rw [written_other past different]
    exact carries

theorem calling_of_introduces (introduces : introduces? access = some (thread, announcement)) :
    ∃ siteJob activity entered delivery,
      access.phase = .atSite siteJob
        (.calling thread (.delivering (.announceThread activity entered announcement) delivery)) ∧
      ends? access = some (.announceThread activity entered announcement, true) := by
  unfold introduces? at introduces
  split at introduces
  · rename_i own activity entered ownAnnouncement calls ends
    cases introduces
    obtain ⟨left, returning, -⟩ := ends?_eq_shipped.mp ends
    obtain ⟨siteJob, caller, calling⟩ := calling_of_delivery returning
    rw [calling] at calls
    cases calls
    exact ⟨siteJob, activity, entered, _, calling, ends⟩
  · cases introduces

/-- A call that does not announce its thread introduces no thread. -/
theorem unintroduced (calling : access.phase = .atSite siteJob (.calling thread call))
    (other : ∀ activity entered announcement delivery,
      call ≠ .delivering (.announceThread activity entered announcement) delivery)
    (announcement : ThreadAnnouncement) : introduces? access ≠ some (thread, announcement) := by
  intro introduces
  obtain ⟨_, _, _, _, own, -⟩ := calling_of_introduces introduces
  rw [calling] at own
  cases own
  exact other _ _ _ _ rfl

/-- What a reader knows about threads changes with the mappings of threads only. -/
theorem threads_concat (vouches : JobVouches access.before.tracked past access.engagement) :
    (chronicle (past ++ [access])).legend.threads =
      match introduces? access with
      | some (_, announcement) =>
        (chronicle past).legend.threads.insert announcement.id announcement.name
      | none => (chronicle past).legend.threads := by
  by_cases ships : ∃ purpose, ends? access = some (purpose, true)
  · obtain ⟨purpose, ends⟩ := ships
    obtain ⟨left, returning, -⟩ := ends?_eq_shipped.mp ends
    obtain ⟨siteJob, thread, calling⟩ := calling_of_delivery returning
    obtain ⟨draft, presents, event, written, becomes⟩ := vouches siteJob thread _ calling
    obtain ⟨current, numbering, rfl⟩ := becomes
    rw [Chronicle.legend, stream_shipped ends written, Legend.ofEvents_concat]
    have caller : access.phase.caller? = some thread := by rw [calling]; rfl
    cases purpose with
    | announceThread activity entered announcement =>
      obtain ⟨-, rfl⟩ := presents
      simp only [introduces?, caller, ends]
      rfl
    | announceMethod | announceException =>
      obtain ⟨-, rfl⟩ := presents
      simp only [introduces?, caller, ends]
      rfl
    | answer =>
      simp only [introduces?, caller, ends]
      cases draft with
      | methodMapping | exceptionMapping | threadMapping => exact presents.elim
      | marker | activity => rfl
  · have silent : introduces? access = none := by
      cases introduces : introduces? access with
      | none => rfl
      | some introduction =>
        obtain ⟨_, _, _, _, _, ends⟩ := calling_of_introduces introduces
        exact absurd ⟨_, ends⟩ ships
    have same : (chronicle (past ++ [access])).stream = (chronicle past).stream := by
      rw [chronicle_concat]
      simp only [Chronicle.add]
      split
      · rename_i purpose ends
        exact absurd ⟨purpose, ends⟩ ships
      · rfl
    rw [silent, Chronicle.legend, same]
    rfl

/-- An access leaves what a reader knows about a thread as it is, unless it introduces the thread
itself. -/
theorem threads_apart (vouches : JobVouches access.before.tracked past access.engagement)
    (distinct : ((enrolments past).map Prod.snd).Nodup) (own : (thread, id) ∈ enrolments past)
    (apart : ∀ announcement, introduces? access ≠ some (thread, announcement)) :
    (chronicle (past ++ [access])).legend.threads.find? id =
      (chronicle past).legend.threads.find? id := by
  rw [threads_concat vouches]
  cases introduces : introduces? access with
  | none => rfl
  | some introduction =>
    obtain ⟨other, announcement⟩ := introduction
    obtain ⟨siteJob, activity, entered, delivery, calling, -⟩ := calling_of_introduces introduces
    obtain ⟨draft, ⟨⟨enrolled, -, -⟩, -⟩, -⟩ := vouches siteJob other _ calling
    have different : id ≠ announcement.id := by
      rintro rfl
      cases List.inj_on_of_nodup_map distinct own enrolled rfl
      exact apart announcement introduces
    exact (Table.find?_insert ..).trans (if_neg different)

theorem spares_of_step (vouches : JobVouches access.before.tracked past access.engagement)
    (distinct : ((enrolments past).map Prod.snd).Nodup)
    (named : readsName? access = none ∨ turn ≠ access.turn)
    (apart : ∀ announcement, introduces? access ≠ some (thread, announcement)) :
    Spares past access thread turn where
  named := named_apart past named
  threads _ own := threads_apart vouches distinct own apart

theorem vouches_withMethod {tracked : TrackedHost} {activity : Activity String String}
    (entered : Timestamp) (introduced : Introduced past thread turn id) (method : MethodId) :
    Vouches tracked past thread turn (Call.withMethod activity entered id method : Call β) := by
  cases activity with
  | entry signature => exact ⟨.activity entered id (.entry method), introduced, rfl⟩
  | exit signature line => exact ⟨.activity entered id (.exit method line), introduced, rfl⟩
  | exception | bubble => exact introduced

variable [Clearable β] [EventEncoder ε β] {obeys : δ → π × ε → π × ε} {next : Call β}
  {activity : Activity String String} {entered : Timestamp}
  (made : (procedure obeys).step access.job access.phase access.before =
    (access.moved, access.after))
  (enrolled : Enrolled access.before.tracked past)
  (told : ∀ memo name, access.before.tracked.memo? thread = some memo →
    memo.announced = some name →
      (chronicle past).legend.threads.find? memo.id = some name ∨
        ∃ announcement, access.phase.settles? = some (thread, announcement))

include made in
/-- A call whose thread has been introduced goes on to note that. -/
theorem settles_of_introduces (introduces : introduces? access = some (thread, announcement)) :
    ∃ next, access.next? = some next ∧ next.phase.settles? = some (thread, announcement) := by
  obtain ⟨siteJob, activity, entered, delivery, calling, ends⟩ := calling_of_introduces introduces
  rw [ends?_of_delivering calling] at ends
  obtain ⟨shipped, ships, same⟩ := Option.map_eq_some_iff.mp ends
  cases same
  have resumes := (step_delivering thread (.announceThread activity entered announcement) delivery
    access.before).2.1 ships
  obtain ⟨turn, job, phase, before, moved, after⟩ := access
  simp only at made calling resumes
  subst calling
  cases happens_of_step made with
  | goesOn job thread call next stepped =>
    rw [resumes] at stepped
    cases stepped
    exact ⟨_, rfl, rfl⟩
  | ends job thread call outcome stepped =>
    rw [resumes] at stepped
    cases stepped

include made enrolled told in
/-- What a lookup of the thread's id leads its call to is right. -/
theorem vouches_identified {phase : Identification}
    (vouches : Vouches access.before.tracked past thread access.turn
      (.identifying activity entered phase : Call β))
    (calling : access.phase = .atSite siteJob
      (.calling thread (.identifying activity entered phase))) :
    Vouches access.after.tracked (past ++ [access]) thread access.turn
      (identified activity entered (phase.step thread access.before.tracked).1 : Call β) := by
  have between : access.phase.delivery? = none := by rw [calling]; rfl
  cases phase with
  | readName =>
    change (chronicle (past ++ [access])).named access.turn = _
    rw [chronicle_concat]
    simp [Chronicle.add, readsName?, calling, Site.tracked]
  | consult name =>
    have same : chronicle (past ++ [access]) = chronicle past :=
      chronicle_between between (by simp [readsName?, calling])
    have read : (chronicle (past ++ [access])).named access.turn = some name := same ▸ vouches
    have unsettled (announcement : ThreadAnnouncement) :
        access.phase.settles? ≠ some (thread, announcement) := by
      simp [calling, Phase.settles?]
    simp only [Identification.step]
    cases found : access.before.tracked.memo? thread with
    | none =>
      have enrols : enrolment? access =
          some (thread, access.before.tracked.tracker.upcoming) := by
        simp [enrolment?, calling, found]
      refine ⟨_, ⟨⟨?_, read, ?_⟩, rfl⟩, rfl⟩
      · rw [enrolments_concat, enrols]
        exact List.mem_append_right _ (List.mem_singleton.mpr rfl)
      · intro memo foundAfter
        rw [memo?_enrolment made enrols] at foundAfter
        cases foundAfter
        rfl
    | some memo =>
      have own := enrolments_mono past access (enrolled.held thread memo found)
      by_cases current : memo.announced = some name
      · simp only [current, if_true]
        refine ⟨own, name, read, ?_⟩
        rw [same]
        rcases told memo name found current with known | ⟨announcement, settles⟩
        · exact known
        · exact absurd settles (unsettled announcement)
      · simp only [current, if_false]
        refine ⟨_, ⟨⟨own, read, ?_⟩, rfl⟩, rfl⟩
        intro after foundAfter
        have unenrolled (id : ThreadId) : enrolment? access ≠ some (thread, id) := by
          simp [enrolment?, calling, found]
        have kept := memo?_before made unenrolled unsettled foundAfter
        rw [found] at kept
        cases kept
        rfl
  | settle announcement =>
    have same : chronicle (past ++ [access]) = chronicle past :=
      chronicle_between between (by simp [readsName?, calling])
    obtain ⟨introduces, known⟩ := vouches
    have introduced : Introduced (past ++ [access]) thread access.turn announcement.id :=
      ⟨enrolments_mono past access introduces.own, announcement.name, same ▸ introduces.named,
        same ▸ known⟩
    simp only [Identification.step]
    cases access.before.tracked.memo? thread <;> exact introduced

include made in
/-- What an access of a delivery leads its call to is right, if there is a buffer for each mapping
of a thread. -/
theorem vouches_delivering {delivery : Delivery β}
    (vouches : JobVouches access.before.tracked past access.engagement)
    (distinct : ((enrolments past).map Prod.snd).Nodup)
    (calling : access.phase = .atSite siteJob (.calling thread (.delivering purpose delivery)))
    (served : unserved access = false)
    (goesOn : ((Call.delivering purpose delivery).step thread access.before).result =
      .continues next) :
    Vouches access.after.tracked (past ++ [access]) thread access.turn next := by
  obtain ⟨draft, presents, carries⟩ := vouches siteJob thread _ calling
  have silent : readsName? access = none := by simp [readsName?, calling]
  have tracked : access.after.tracked = access.before.tracked := by
    rw [(call_of_step made calling).1, tracked_delivering]
  have memos (memo : ThreadMemo) (found : access.after.tracked.memo? thread = some memo) :
      access.before.tracked.memo? thread = some memo := tracked ▸ found
  rcases carries_delivering calling carries goesOn with
    ⟨later, rfl, unended, carried⟩ | ⟨resumes, ended⟩
  · have apart (announcement : ThreadAnnouncement) :
        introduces? access ≠ some (thread, announcement) := by
      intro introduces
      obtain ⟨_, _, _, _, -, ends⟩ := calling_of_introduces introduces
      rw [unended] at ends
      cases ends
    have spares : Spares past access thread access.turn :=
      spares_of_step vouches distinct (.inl silent) apart
    exact ⟨draft, presents.mono spares memos, carried⟩
  · cases purpose with
    | announceThread activity entered announcement =>
      cases resumes
      obtain ⟨introduces, rfl⟩ := presents
      refine ⟨introduces.mono (named_apart past (.inl silent)) memos, ?_⟩
      rcases ended with shipped | ⟨-, ⟨own, rfl⟩, refused⟩
      · have caller : access.phase.caller? = some thread := by rw [calling]; rfl
        rw [threads_concat vouches]
        simp only [introduces?, caller, shipped]
        exact (Table.find?_insert ..).trans (if_pos rfl)
      · have delivering : access.phase.delivery? =
            some (.announceThread activity entered announcement, .obtaining own) := by
          rw [calling]
          rfl
        simp [unserved, delivering, refused] at served
    | announceMethod | announceException =>
      cases resumes
      exact presents.1.mono
        (spares_of_step vouches distinct (.inl silent) (unintroduced calling (by simp)))
    | answer => cases resumes

include made enrolled told in
/-- What an access leads its call to is right. -/
theorem Vouches.step (vouches : JobVouches access.before.tracked past access.engagement)
    (distinct : ((enrolments past).map Prod.snd).Nodup)
    (calling : access.phase = .atSite siteJob (.calling thread call))
    (served : unserved access = false)
    (reports : ∀ request, call = .entering request → request.isReport = true)
    (goesOn : (call.step thread access.before).result = .continues next) :
    Vouches access.after.tracked (past ++ [access]) thread access.turn next := by
  have own := vouches siteJob thread call calling
  cases call with
  | entering request =>
    cases goesOn
    cases request with
    | mapMethod | mapException | mapThread => cases reports _ rfl
    | report activity => trivial
    | marker key value => exact ⟨.marker _ key value, trivial, rfl⟩
  | identifying activity entered phase =>
    rw [(step_identifying thread activity entered phase access.before).2] at goesOn
    cases goesOn
    exact vouches_identified made enrolled told own calling
  | resolvingMethod activity entered caller phase =>
    have introduced := Introduced.mono own (spares_of_step vouches distinct
      (.inl (by simp [readsName?, calling])) (unintroduced calling (by simp)))
    rw [(step_resolvingMethod thread activity entered caller phase access.before).2] at goesOn
    cases goesOn
    cases (phase.step activity.method access.before.reporter.methods).1 with
    | continues phase => exact introduced
    | announces id => exact ⟨_, ⟨introduced, rfl⟩, rfl⟩
    | returns method => exact vouches_withMethod entered introduced method
  | resolvingException activity entered caller method raised phase =>
    have introduced := Introduced.mono own (spares_of_step vouches distinct
      (.inl (by simp [readsName?, calling])) (unintroduced calling (by simp)))
    rw [(step_resolvingException thread activity entered caller method raised phase
      access.before).2] at goesOn
    cases goesOn
    cases (phase.step raised access.before.reporter.exceptions).1 with
    | continues phase => exact introduced
    | announces id => exact ⟨_, ⟨introduced, rfl⟩, rfl⟩
    | returns id => exact ⟨.activity entered caller _, introduced, rfl⟩
  | delivering => exact vouches_delivering made vouches distinct calling served goesOn

end Findings

end TraceRelay.OpenSite
