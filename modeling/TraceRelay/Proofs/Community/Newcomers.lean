import TraceRelay.Proofs.Community.Keys
import TraceRelay.Proofs.Interleaving.Accesses

/-! A new member of a community knows no thread, whatever memos former members have left. -/

namespace TraceRelay

/-- The name of the thread whose memo the lookup consults next. -/
def Identification.consults? : Identification → Option String
  | .consult name => some name
  | _ => none

def Recognition.consults? : Recognition → Option String
  | .identifying phase => phase.consults?
  | .announcing _ => none

def Call.consults? {β : Type} : Call β → Option String
  | .identifying _ _ phase => phase.consults?
  | _ => none

namespace Service.Phase

variable {β : Type}

def consults? : Service.Phase β → Option String
  | .opening => none
  | .recognizing phase => phase.consults?
  | .calling call => call.consults?

/-- The thread that the member announces next. -/
def announces? : Service.Phase β → Option ThreadAnnouncement
  | .recognizing (.announcing announcement) => some announcement
  | .calling (.delivering (.announceThread _ _ announcement) (.obtaining _)) => some announcement
  | _ => none

end Service.Phase

/-- The tracker remembers only threads that it has seen, and if it has seen none, it has given no
id. -/
structure TrackedHost.KnowsOnly (seen : Thread → Prop) (tracked : TrackedHost) : Prop where
  memos : ∀ thread, ¬seen thread → tracked.memo? thread = none
  upcoming : (∀ thread, ¬seen thread) → tracked.tracker.upcoming = 0

namespace TrackedHost.KnowsOnly

variable {seen : Thread → Prop} {tracked : TrackedHost}

theorem mono {more : Thread → Prop} (knows : tracked.KnowsOnly seen)
    (all : ∀ thread, seen thread → more thread) : tracked.KnowsOnly more where
  memos thread unseen := knows.memos thread fun isSeen => unseen (all thread isSeen)
  upcoming none_seen := knows.upcoming fun thread isSeen => none_seen thread (all thread isSeen)

/-- A lookup lets the tracker see the calling thread when it consults the memo. -/
theorem step (knows : tracked.KnowsOnly seen) (thread : Thread) (phase : Identification) :
    (phase.step thread tracked).2.KnowsOnly
      fun other => seen other ∨ other = thread ∧ phase.consults?.isSome = true := by
  cases phase with
  | readName => exact knows.mono fun _ => .inl
  | consult name =>
    simp only [Identification.step, Identification.consults?, Option.isSome_some, and_true]
    split
    · split <;> exact knows.mono fun _ => .inl
    · refine ⟨fun other unseen => ?_, fun none_seen => absurd (.inr rfl) (none_seen thread)⟩
      rw [not_or] at unseen
      refine (tracked.memo?_remember thread other _).trans ?_
      rw [if_neg unseen.2, knows.memos other unseen.1]
  | settle announcement =>
    simp only [Identification.step]
    split
    · rename_i memo found
      refine ⟨fun other unseen => ?_, fun none_seen => ?_⟩
      · rw [not_or] at unseen
        have new := knows.memos other unseen.1
        refine (tracked.memo?_remember thread other _).trans ?_
        split
        · rename_i same
          rw [← same, new] at found
          cases found
        · exact new
      · exact knows.upcoming fun other isSeen => none_seen other (.inl isSeen)
    · exact knows.mono fun _ => .inl

theorem step_recognition {ω : Type} (knows : tracked.KnowsOnly seen) (request : ThreadRequest ω)
    (phase : Recognition) :
    (phase.step request tracked).2.KnowsOnly
      fun other => seen other ∨ other = request.thread ∧ phase.consults?.isSome = true := by
  cases phase with
  | identifying phase =>
    have known := knows.step request.thread phase
    simp only [Recognition.step]
    split <;> rename_i found <;> rw [found] at known <;> exact known
  | announcing announcement =>
    simp only [Recognition.step]
    split <;> exact knows.mono fun _ => .inl

/-- The tracker forgets threads at will. -/
theorem forget {after : TrackedHost} (knows : tracked.KnowsOnly seen)
    (upcoming : after.tracker.upcoming = tracked.tracker.upcoming)
    (forgotten : ∀ thread, tracked.memo? thread = none → after.memo? thread = none) :
    after.KnowsOnly seen where
  memos thread unseen := forgotten thread (knows.memos thread unseen)
  upcoming none_seen := upcoming.trans (knows.upcoming none_seen)

end TrackedHost.KnowsOnly

section

variable {π ε β ω : Type} [Clearable β] [BufferSupply π β] [EventEncoder ε β]

theorem Call.knowsOnly_step {seen : Thread → Prop} {site : Site π ε}
    (knows : TrackedHost.KnowsOnly seen ⟨site.reporter.tracker, site.host⟩) (thread : Thread)
    (call : Call β) :
    TrackedHost.KnowsOnly
      (fun other => seen other ∨ other = thread ∧ call.consults?.isSome = true)
      ⟨(call.step thread site).state.reporter.tracker, (call.step thread site).state.host⟩ := by
  cases call with
  | entering request => exact knows.mono fun _ => .inl
  | identifying activity entered phase =>
    have known := knows.step thread phase
    simp only [step]
    split <;> exact known
  | resolvingMethod activity entered caller phase =>
    simp only [step]
    split <;> exact knows.mono fun _ => .inl
  | resolvingException activity entered caller method raised phase =>
    simp only [step]
    split <;> exact knows.mono fun _ => .inl
  | delivering purpose delivery =>
    simp only [step, Delivery.tracker_step]
    exact knows.mono fun _ => .inl

/-- A member sees no other threads than those for which it consults its memo. -/
theorem Service.knowsOnly_step {seen : Thread → Prop} {thread : Thread} {service : Service ω}
    {phase : Service.Phase β} {member after : Member π ε} {host left : Host}
    {moved : Progress (Service.Phase β) (Reply ω)}
    (stepped : service.step thread phase member host = some (moved, after, left))
    (knows : TrackedHost.KnowsOnly seen ⟨member.tracker, host⟩) :
    TrackedHost.KnowsOnly
      (fun other => seen other ∨ other = thread ∧ phase.consults?.isSome = true)
      ⟨after.tracker, left⟩ := by
  cases service <;> cases phase <;> cases member <;> cases stepped
  · exact knows.step_recognition ⟨thread, _⟩ _
  · exact Call.knowsOnly_step knows thread _

/-- A member announces a thread that it does not know, under the next id. -/
theorem Service.announces_of_unknown {thread : Thread} {service : Service ω}
    {phase : Service.Phase β} {name : String} {member after : Member π ε} {host left : Host}
    {moved : Progress (Service.Phase β) (Reply ω)}
    (stepped : service.step thread phase member host = some (moved, after, left))
    (consults : phase.consults? = some name)
    (unknown : host.memos.find? thread member.tracker.key = none) :
    ∃ next, moved = .continues next ∧
      next.announces? = some { id := member.tracker.upcoming, name } := by
  cases service with
  | recognition announcement =>
    cases phase with
    | opening | calling => cases member <;> cases stepped
    | recognizing phase =>
      cases member with
      | reporting => cases stepped
      | tracking tracker =>
        cases phase with
        | announcing => cases consults
        | identifying phase =>
          cases phase with
          | readName | settle => cases consults
          | consult text =>
            cases consults
            have new : (⟨tracker, host⟩ : TrackedHost).memo? thread = none := unknown
            simp only [step, Recognition.step, Identification.step, new] at stepped
            cases stepped
            exact ⟨_, rfl, rfl⟩
  | reporting request =>
    cases phase with
    | opening | recognizing => cases member <;> cases stepped
    | calling call =>
      cases member with
      | tracking => cases stepped
      | reporting reporter =>
        cases call with
        | entering | resolvingMethod | resolvingException | delivering => cases consults
        | identifying activity entered phase =>
          cases phase with
          | readName | settle => cases consults
          | consult text =>
            cases consults
            have new : (⟨reporter.tracker, host⟩ : TrackedHost).memo? thread = none := unknown
            simp only [step, Call.step, Identification.step, new] at stepped
            cases stepped
            exact ⟨_, rfl, rfl⟩

end

namespace Community

variable {π ε β ω δ : Type}

/-- The member of the name, if there is one, has seen only the given threads. -/
def Knows (seen : Thread → Prop) (name : String) (community : Community π ε) : Prop :=
  ∀ tenancy, community.members.find? name = some tenancy →
    TrackedHost.KnowsOnly seen ⟨tenancy.member.tracker, community.host⟩

/-- An access consults the memo that the member of the name has of the thread. -/
def Consults (name : String) (thread : Thread)
    (access : Access (Community π ε) (Job π ε ω δ) (Service.Phase β) (Reply ω)) : Prop :=
  ∃ service, access.job = .task name (.serve thread service) ∧
    access.phase.consults?.isSome = true

/-- An access makes a new member of the name. -/
def Founds (name : String)
    (access : Access (Community π ε) (Job π ε ω δ) (Service.Phase β) (Reply ω)) : Prop :=
  ∃ blueprint, access.job = .task name (.make blueprint) ∧ access.moved = .finished .done

variable {seen : Thread → Prop} {name : String} {community after : Community π ε}

theorem knows_keep {tenancy : Tenancy π ε} {host : Host}
    (knows : TrackedHost.KnowsOnly seen ⟨tenancy.member.tracker, host⟩) :
    (community.keep name tenancy host).Knows seen name := by
  intro own found
  rw [keep, Table.find?_insert, if_pos rfl] at found
  cases found
  exact knows

theorem knows_settle {tenancy : Tenancy π ε} {host : Host} (thread : Thread)
    (knows : TrackedHost.KnowsOnly seen ⟨tenancy.member.tracker, host⟩) :
    (community.settle thread name tenancy host).Knows seen name := by
  unfold settle
  split
  · exact knows_keep knows
  · intro own found
    rw [lose, Table.find?_erase, if_pos rfl] at found
    cases found

theorem Knows.mono {more : Thread → Prop} (knows : community.Knows seen name)
    (all : ∀ thread, seen thread → more thread) : community.Knows more name :=
  fun tenancy found => (knows tenancy found).mono all

/-- The host changes. -/
theorem Knows.apply (knows : community.Knows seen name) (change : Host.Change) :
    Knows seen name { community with host := community.host.apply change } := by
  intro tenancy found
  refine (knows tenancy found).forget rfl fun thread forgotten => ?_
  cases change with
  | advance | rename => exact forgotten
  | endThread ended =>
    simp only [TrackedHost.memo?, Host.apply, ThreadMemos.find?_endThread]
    split
    · rfl
    · exact forgotten

/-- A neighbour of the member does its work. -/
theorem Knows.moves {neighbour : String} (knows : community.Knows seen name)
    (sound : community.Sound) (moves : Moves neighbour community after)
    (different : name ≠ neighbour) : after.Knows seen name := by
  obtain ⟨listed, -, -, -, memos⟩ := moves.apart sound different
  intro tenancy found
  rw [listed] at found
  exact (knows tenancy found).forget rfl fun thread forgotten =>
    (memos tenancy found thread).trans forgotten

variable [Clearable β] [BufferSupply π β] [EventEncoder ε β]

/-- The member makes an access for a thread. -/
theorem Knows.attend (knows : community.Knows seen name) (thread : Thread) (service : Service ω)
    (phase : Service.Phase β) :
    (community.attend thread name service phase).2.Knows
      (fun other => seen other ∨ other = thread ∧ phase.consults?.isSome = true) name := by
  unfold Community.attend
  split
  · exact knows.mono fun _ => .inl
  · rename_i tenancy found
    have known := knows tenancy found
    split
    · exact knows.mono fun _ => .inl
    · rename_i stepped
      exact knows_settle thread (Service.knowsOnly_step stepped known)
    · rename_i stepped
      exact knows_settle thread (Service.knowsOnly_step stepped known)

/-- A task of the member that makes no new one. -/
theorem Knows.perform (knows : community.Knows seen name) (obeys : δ → π × ε → π × ε)
    (task : Task π ε ω δ) (phase : Service.Phase β)
    (old : ∀ blueprint, task = .make blueprint →
      (Community.perform obeys name task phase community).1 ≠ .finished .done) :
    (Community.perform obeys name task phase community).2.Knows
      (fun thread => seen thread ∨
        ∃ service, task = .serve thread service ∧ phase.consults?.isSome = true) name := by
  cases task with
  | make blueprint =>
    have refused := old blueprint rfl
    simp only [Community.perform] at refused ⊢
    split at refused
    · exact knows.mono fun _ => .inl
    · exact absurd rfl refused
  | serve thread service =>
    have attended : (community.attend thread name service phase).2.Knows
        (fun other => seen other ∨ ∃ own, (.serve thread service : Task π ε ω δ) =
          .serve other own ∧ phase.consults?.isSome = true) name := by
      refine (knows.attend thread service phase).mono fun other => Or.imp_right ?_
      rintro ⟨rfl, consulted⟩
      exact ⟨service, rfl, consulted⟩
    cases phase with
    | recognizing | calling => exact attended
    | opening =>
      simp only [Community.perform]
      split
      · rename_i found
        split
        · exact knows_keep ((knows _ found).mono fun _ => .inl)
        · exact knows.mono fun _ => .inl
      · exact knows.mono fun _ => .inl
  | order order =>
    simp only [Community.perform]
    split
    · rename_i found
      exact knows_keep ((knows _ found).mono fun _ => .inl)
    · exact knows.mono fun _ => .inl
  | release thread =>
    simp only [Community.perform]
    split
    · rename_i found
      exact knows_settle thread ((knows _ found).mono fun _ => .inl)
    · exact knows.mono fun _ => .inl
  | linger nanoseconds => exact (knows.mono fun _ => .inl).apply (.advance nanoseconds)

theorem Sound.step (sound : community.Sound) (obeys : δ → π × ε → π × ε) (job : Job π ε ω δ)
    (phase : Service.Phase β) : ((procedure obeys).step job phase community).2.Sound := by
  cases job with
  | change change => exact sound.apply change
  | task name task => exact sound.perform obeys name task phase

/-- An access that makes no new member of the name. -/
theorem Knows.step {obeys : δ → π × ε → π × ε}
    {access : Access (Community π ε) (Job π ε ω δ) (Service.Phase β) (Reply ω)}
    (made : (procedure obeys).step access.job access.phase access.before =
      (access.moved, access.after))
    (knows : access.before.Knows seen name) (sound : access.before.Sound)
    (old : ¬Founds name access) :
    access.after.Knows (fun thread => seen thread ∨ Consults name thread access) name := by
  have moved : ((procedure obeys).step access.job access.phase access.before).1 = access.moved :=
    congrArg Prod.fst made
  have left : ((procedure obeys).step access.job access.phase access.before).2 = access.after :=
    congrArg Prod.snd made
  rw [← left]
  cases job : access.job with
  | change change => exact (knows.apply change).mono fun _ => .inl
  | task neighbour task =>
    by_cases own : name = neighbour
    · subst own
      rw [job] at moved
      refine (knows.perform obeys task access.phase fun blueprint make done => ?_).mono
        fun thread => Or.imp_right ?_
      · exact old ⟨blueprint, job.trans (congrArg _ make), moved.symm.trans done⟩
      · rintro ⟨service, serve, consulted⟩
        exact ⟨service, job.trans (congrArg _ serve), consulted⟩
    · refine Knows.mono ?_ fun _ => .inl
      cases task with
      | linger nanoseconds => exact knows.apply (.advance nanoseconds)
      | make | serve | order | release =>
        exact knows.moves sound
          (moves_perform obeys neighbour (fun _ same => by cases same) access.phase
            access.before) own

/-- A new member knows nobody. -/
theorem knows_of_founds {obeys : δ → π × ε → π × ε}
    {access : Access (Community π ε) (Job π ε ω δ) (Service.Phase β) (Reply ω)}
    (made : (procedure obeys).step access.job access.phase access.before =
      (access.moved, access.after))
    (sound : access.before.Sound) (founds : Founds name access) :
    access.after.Knows (fun _ => False) name := by
  obtain ⟨blueprint, job, done⟩ := founds
  rw [job, done] at made
  simp only [procedure, Community.perform] at made
  split at made
  · cases made
  · obtain ⟨newKey, none_given⟩ := blueprint.tracker_build access.before.host
    rw [← (Prod.mk.inj made).2]
    refine knows_keep ⟨fun thread _ => ?_, fun _ => none_given⟩
    simp only [TrackedHost.memo?, newKey, blueprint.host_build]
    exact sound.unused thread _ (Nat.le_refl _)

/-- After a member has been made, the communities of a run know by it only the threads for which it
has consulted its memos, until the next member of its name is made. -/
theorem knows_run (obeys : δ → π × ε → π × ε)
    (initial : Interleaving (Community π ε) (Job π ε ω δ) (Service.Phase β) (Reply ω))
    (sound : initial.shared.Sound) (knows : initial.shared.Knows (fun _ => False) name)
    (schedule : List Nat)
    (old : ∀ access ∈ initial.accesses (procedure obeys) schedule, ¬Founds name access) :
    (initial.run (procedure obeys) schedule).shared.Knows
      (fun thread => ∃ access ∈ initial.accesses (procedure obeys) schedule,
        Consults name thread access) name := by
  have kept := Interleaving.run_induction (motive := fun interleaving past =>
    interleaving.shared.Sound ∧ ((∀ access ∈ past, ¬Founds name access) →
      interleaving.shared.Knows (fun thread => ∃ access ∈ past, Consults name thread access) name))
    (procedure obeys) initial ?_ ?_ ?_ schedule
  -- what the member knows outlasts an access of a neighbour only while no two members share a key
  · exact kept.2 old
  · exact ⟨sound, fun _ => knows.mono fun _ impossible => impossible.elim⟩
  · exact fun _ _ _ _ _ _ holds _ _ _ => holds
  · rintro interleaving past strand access ⟨sound, holds⟩ makes
    rw [← makes.before] at sound holds
    have left := sound.step obeys access.job access.phase
    rw [makes.made] at left
    refine ⟨left, fun old => ?_⟩
    have knows := holds fun other member => old other (List.mem_append_left _ member)
    refine (knows.step makes.made sound (old access (by simp))).mono fun thread => ?_
    rintro (⟨other, member, consults⟩ | consults)
    · exact ⟨other, List.mem_append_left _ member, consults⟩
    · exact ⟨access, by simp, consults⟩

/-- The communities of a run are sound. -/
theorem sound_run (obeys : δ → π × ε → π × ε)
    (initial : Interleaving (Community π ε) (Job π ε ω δ) (Service.Phase β) (Reply ω))
    (sound : initial.shared.Sound) (schedule : List Nat) :
    (initial.run (procedure obeys) schedule).shared.Sound := by
  refine Interleaving.run_induction (motive := fun interleaving _ => interleaving.shared.Sound)
    (procedure obeys) initial sound ?_ ?_ schedule
  · exact fun _ _ _ _ _ _ sound _ _ _ => sound
  · intro interleaving past strand access sound makes
    have left := sound.step obeys access.job access.phase
    rwa [← makes.before, makes.made] at left

/-- A member that consults its memo of an unknown thread announces the thread. -/
theorem Knows.announces {obeys : δ → π × ε → π × ε}
    {access : Access (Community π ε) (Job π ε ω δ) (Service.Phase β) (Reply ω)}
    (made : (procedure obeys).step access.job access.phase access.before =
      (access.moved, access.after))
    (knows : access.before.Knows seen name) {thread : Thread} {service : Service ω} {text : String}
    (job : access.job = .task name (.serve thread service))
    (consults : access.phase.consults? = some text) (attended : access.moved ≠ .finished .refused)
    (first : ¬seen thread) :
    ∃ next id, access.moved = .continues next ∧
      next.announces? = some { id, name := text } ∧ ((∀ other, ¬seen other) → id = 0) := by
  have moved : (access.before.attend thread name service access.phase).1 = access.moved := by
    rw [job] at made
    cases phase : access.phase with
    | opening => rw [phase] at consults; cases consults
    | recognizing | calling => rw [phase] at made; exact congrArg Prod.fst made
  cases found : access.before.members.find? name with
  | none =>
    rw [← moved] at attended
    simp [Community.attend, found] at attended
  | some tenancy =>
    have known := knows tenancy found
    cases stepped : service.step thread access.phase tenancy.member access.before.host with
    | none =>
      rw [← moved] at attended
      simp [Community.attend, found, stepped] at attended
    | some result =>
      obtain ⟨move, member, host⟩ := result
      obtain ⟨next, rfl, announces⟩ :=
        Service.announces_of_unknown stepped consults (known.memos thread first)
      refine ⟨next, tenancy.member.tracker.upcoming, ?_, announces, known.upcoming⟩
      rw [← moved]
      simp [Community.attend, found, stepped]

/-- A new member announces every thread that comes to it for the first time, whatever the past of
the community, and the first thread of all gets the id zero. -/
theorem announces_of_founds (obeys : δ → π × ε → π × ε)
    (initial : Interleaving (Community π ε) (Job π ε ω δ) (Service.Phase β) (Reply ω))
    (sound : initial.shared.Sound) (schedule : List Nat)
    {earlier later rest : List (Access (Community π ε) (Job π ε ω δ) (Service.Phase β) (Reply ω))}
    {made access : Access (Community π ε) (Job π ε ω δ) (Service.Phase β) (Reply ω)}
    (past : initial.accesses (procedure obeys) schedule =
      earlier ++ made :: (later ++ access :: rest))
    (founds : Founds name made) (last : ∀ other ∈ later, ¬Founds name other)
    {thread : Thread} {service : Service ω} {text : String}
    (job : access.job = .task name (.serve thread service))
    (consults : access.phase.consults? = some text) (attended : access.moved ≠ .finished .refused)
    (first : ∀ other ∈ later, ¬Consults name thread other) :
    ∃ next id, access.moved = .continues next ∧ next.announces? = some { id, name := text } ∧
      ((∀ other ∈ later, ∀ caller, ¬Consults name caller other) → id = 0) := by
  obtain ⟨before, number, behind, strand, -, -, makes, left, rest_past⟩ :=
    Interleaving.exists_makes (procedure obeys) initial schedule earlier _ made past
  obtain ⟨between, -, -, other, -, later_past, makesToo, -, -⟩ :=
    Interleaving.exists_makes (procedure obeys) _ behind later rest access rest_past
  have soundBefore := sound_run obeys initial sound before
  have soundAfter := sound_run obeys initial sound (before ++ [number])
  rw [← makes.before] at soundBefore
  have new := knows_of_founds makes.made soundBefore founds
  have founded : (initial.run (procedure obeys) (before ++ [number])).shared = made.after :=
    congrArg Interleaving.shared left
  rw [← founded] at new
  have known := knows_run obeys _ soundAfter new between (later_past.symm ▸ last)
  rw [later_past, ← makesToo.before] at known
  obtain ⟨next, id, moved, announces, zero⟩ := known.announces makesToo.made job consults attended
    fun ⟨other, member, consulted⟩ => first other member consulted
  refine ⟨next, id, moved, announces, fun none_seen => zero ?_⟩
  rintro caller ⟨other, member, consulted⟩
  exact none_seen other member caller consulted

end Community

end TraceRelay
