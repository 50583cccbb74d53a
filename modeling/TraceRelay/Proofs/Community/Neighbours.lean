import TraceRelay.Proofs.Community.Likeness

/-! Two communities in which the members of one name cannot be told apart. -/

namespace TraceRelay

/-- Hosts with the same names of threads, which show the same time if `clocked` holds. -/
structure Host.Alike (clocked : Prop) (host other : Host) : Prop where
  given : host.givenNames = other.givenNames
  scripted : host.scriptedNames = other.scriptedNames
  clock : clocked → host.clock = other.clock

theorem Host.Alike.touched {clocked : Prop} {host other after left : Host} {key own : TrackerKey}
    (alike : host.Alike clocked other) (touched : host.Touched key after)
    (touchedToo : other.Touched own left) : after.Alike clocked left where
  given := by rw [touched.given, touchedToo.given, alike.given]
  scripted := by rw [touched.scripted, touchedToo.scripted, alike.scripted]
  clock same := by rw [touched.clock, touchedToo.clock, alike.clock same]

/-- A change of both hosts leaves trackers alike. -/
theorem TrackedHost.Alike.apply {tracker own : Tracker} {host other : Host}
    (alike : TrackedHost.Alike ⟨tracker, host⟩ ⟨own, other⟩) (change : Host.Change) :
    TrackedHost.Alike ⟨tracker, host.apply change⟩ ⟨own, other.apply change⟩ := by
  cases change with
  | advance nanoseconds =>
    exact ⟨alike.names, alike.upcoming, alike.given, alike.scripted, alike.memos⟩
  | rename thread name =>
    refine ⟨alike.names, alike.upcoming, alike.given, ?_, alike.memos⟩
    exact congrArg (Table.insert · thread name) alike.scripted
  | endThread thread =>
    refine ⟨alike.names, alike.upcoming, alike.given, alike.scripted, fun caller => ?_⟩
    have memo := alike.memos caller
    simp only [memo?, Host.apply, ThreadMemos.find?_endThread] at memo ⊢
    rw [memo]

namespace Likeness

variable {π ε β δ : Type} [Clearable β] [BufferSupply π β] [EventEncoder ε β]
  {obeys : δ → π × ε → π × ε} (likeness : Likeness obeys) (clocked : Prop)

/-- Members of the same kind that are alike on their hosts. Reporters need hosts that show the same
time, if timestamps are compared. -/
inductive Members (host other : Host) : Member π ε → Member π ε → Prop where
  | tracking {tracker own : Tracker}
    (tracked : TrackedHost.Alike ⟨tracker, host⟩ ⟨own, other⟩) :
    Members host other (.tracking tracker) (.tracking own)
  | reporting {reporter own : Reporter π ε} (seen : likeness.timed = true → clocked)
    (reporters : likeness.Reporters reporter own)
    (tracked : TrackedHost.Alike ⟨reporter.tracker, host⟩ ⟨own.tracker, other⟩) :
    Members host other (.reporting reporter) (.reporting own)

/-- Services in the same phase. -/
inductive Phases : Service.Phase β → Service.Phase β → Prop where
  | opening : Phases .opening .opening
  | recognizing (phase : Recognition) : Phases (.recognizing phase) (.recognizing phase)
  | calling {call other : Call β} (calls : call.Alike likeness.timed likeness.buffers other) :
    Phases (.calling call) (.calling other)

/-- Members that are alike and held by as many. -/
structure Tenancies (host other : Host) (tenancy own : Tenancy π ε) : Prop where
  members : likeness.Members clocked host other tenancy.member own.member
  owned : tenancy.owned = own.owned
  calls : tenancy.calls = own.calls

variable {likeness clocked} {host other : Host} {member own : Member π ε}

theorem Members.tracked (alike : likeness.Members clocked host other member own) :
    TrackedHost.Alike ⟨member.tracker, host⟩ ⟨own.tracker, other⟩ := by
  cases alike with
  | tracking tracked => exact tracked
  | reporting seen reporters tracked => exact tracked

/-- Members stay alike on hosts that are alike to their trackers. -/
theorem Members.on {after left : Host} (alike : likeness.Members clocked host other member own)
    (tracked : TrackedHost.Alike ⟨member.tracker, after⟩ ⟨own.tracker, left⟩) :
    likeness.Members clocked after left member own := by
  cases alike with
  | tracking => exact .tracking tracked
  | reporting seen reporters => exact .reporting seen reporters tracked

theorem Members.start {ω : Type} (alike : likeness.Members clocked host other member own)
    (service : Service ω) :
    Option.Rel likeness.Phases (service.start member) (service.start own) := by
  cases service with
  | recognition announcement =>
    cases alike with
    | tracking => exact .some (.recognizing _)
    | reporting => exact .none
  | reporting request =>
    cases alike with
    | tracking => exact .none
    | reporting => exact .some (.calling (.entering request))

/-- Members that are alike do the same for a thread. -/
theorem Members.step {ω : Type} {phase reached : Service.Phase β}
    (alike : likeness.Members clocked host other member own)
    (clock : clocked → host.clock = other.clock) (phases : likeness.Phases phase reached)
    (thread : Thread) (service : Service ω) :
    Option.Rel (fun made left => made.1.Alike likeness.Phases left.1 ∧
        likeness.Members clocked made.2.2 left.2.2 made.2.1 left.2.1)
      (service.step thread phase member host) (service.step thread reached own other) := by
  cases service with
  | recognition announcement =>
    cases phases with
    | opening => cases alike <;> exact .none
    | calling => cases alike <;> exact .none
    | recognizing phase =>
      cases alike with
      | reporting => exact .none
      | tracking tracked =>
        obtain ⟨moved, left⟩ := tracked.step_recognition ⟨thread, announcement⟩ phase
        refine .some ⟨(Progress.Alike.of_eq moved).map _ _ ?_, .tracking left⟩
        rintro phase _ rfl
        exact .recognizing phase
  | reporting request =>
    cases phases with
    | opening => cases alike <;> exact .none
    | recognizing => cases alike <;> exact .none
    | calling calls =>
      cases alike with
      | tracking => exact .none
      | reporting seen reporters tracked =>
        have sites : likeness.Sites ⟨_, host⟩ ⟨_, other⟩ :=
          ⟨reporters, tracked, fun timed => clock (seen timed)⟩
        obtain ⟨moved, left⟩ := sites.step thread calls
        exact .some ⟨moved.map _ _ fun _ _ => .calling,
          .reporting seen left.reporter left.tracked⟩

/-- What the jobs of the members of one name can tell two communities by. -/
structure Homes (likeness : Likeness obeys) (clocked : Prop) (name : String)
    (community left : Community π ε) : Prop where
  hosts : community.host.Alike clocked left.host
  own : Option.Rel (likeness.Tenancies clocked community.host left.host)
    (community.members.find? name) (left.members.find? name)

namespace Homes

variable {name : String} {community left : Community π ε}

/-- The name has no member in either community, or members that are alike and held by as many. -/
theorem absent_or_alike (homes : likeness.Homes clocked name community left) :
    (community.members.find? name = none ∧ left.members.find? name = none) ∨
      ∃ member own owned calls, community.members.find? name = some ⟨member, owned, calls⟩ ∧
        left.members.find? name = some ⟨own, owned, calls⟩ ∧
        likeness.Members clocked community.host left.host member own := by
  rcases absent_or_some_of_rel homes.own with absent | ⟨tenancy, other, found, foundToo, alike⟩
  · exact .inl absent
  · obtain ⟨member, owned, calls⟩ := tenancy
    obtain ⟨own, ownedToo, callsToo⟩ := other
    obtain ⟨members, rfl, rfl⟩ := alike
    exact .inr ⟨member, own, owned, calls, found, foundToo, members⟩

theorem keep {tenancy after : Tenancy π ε} (hosts : host.Alike clocked other)
    (tenancies : likeness.Tenancies clocked host other tenancy after) :
    likeness.Homes clocked name (community.keep name tenancy host)
      (left.keep name after other) := by
  refine ⟨hosts, ?_⟩
  simp only [Community.keep, Table.find?_insert, if_true]
  exact .some tenancies

theorem lose (hosts : host.Alike clocked other) (thread : Thread) (member own : Member π ε) :
    likeness.Homes clocked name (community.lose thread name member host)
      (left.lose thread name own other) := by
  refine ⟨hosts.touched (member.touched_drop thread host) (own.touched_drop thread other), ?_⟩
  simp only [Community.lose, Table.find?_erase, if_true]
  exact .none

theorem settle {tenancy after : Tenancy π ε} (hosts : host.Alike clocked other)
    (tenancies : likeness.Tenancies clocked host other tenancy after) (thread : Thread) :
    likeness.Homes clocked name (community.settle thread name tenancy host)
      (left.settle thread name after other) := by
  simp only [Community.settle, tenancies.owned, tenancies.calls]
  split
  · exact keep hosts tenancies
  · exact lose hosts thread _ _

/-- A change of both hosts. -/
theorem apply (homes : likeness.Homes clocked name community left) (change : Host.Change) :
    likeness.Homes clocked name { community with host := community.host.apply change }
      { left with host := left.host.apply change } := by
  constructor
  · cases change with
    | advance nanoseconds =>
      refine ⟨homes.hosts.given, homes.hosts.scripted, fun same => ?_⟩
      exact congrArg (· + nanoseconds) (homes.hosts.clock same)
    | rename thread name =>
      refine ⟨homes.hosts.given, ?_, homes.hosts.clock⟩
      exact congrArg (Table.insert · thread name) homes.hosts.scripted
    | endThread thread => exact ⟨homes.hosts.given, homes.hosts.scripted, homes.hosts.clock⟩
  · exact rel_imp homes.own fun _ _ tenancies =>
      ⟨tenancies.members.on (tenancies.members.tracked.apply change), tenancies.owned,
        tenancies.calls⟩

/-- A member makes an access for a thread in both communities. -/
theorem attend {ω : Type} {phase reached : Service.Phase β}
    (homes : likeness.Homes clocked name community left) (phases : likeness.Phases phase reached)
    (thread : Thread) (service : Service ω) :
    (community.attend thread name service phase).1.Alike likeness.Phases
        (left.attend thread name service reached).1 ∧
      likeness.Homes clocked name (community.attend thread name service phase).2
        (left.attend thread name service reached).2 := by
  rcases homes.absent_or_alike with ⟨absent, absentToo⟩ |
    ⟨member, own, owned, calls, found, foundToo, members⟩
  · simp only [Community.attend, absent, absentToo]
    exact ⟨.finished _, homes⟩
  · have made := members.step homes.hosts.clock phases thread service
    simp only [Community.attend, found, foundToo]
    generalize stepped : service.step thread phase member community.host = result at made ⊢
    generalize steppedToo : service.step thread reached own left.host = resultToo at made ⊢
    cases made with
    | none => exact ⟨.finished _, homes⟩
    | @some made madeToo related =>
      obtain ⟨moved, after, host⟩ := made
      obtain ⟨movedToo, afterToo, hostToo⟩ := madeToo
      obtain ⟨moves, members⟩ := related
      have hosts := homes.hosts.touched (Service.touched_step stepped).2
        (Service.touched_step steppedToo).2
      -- the last access of a call lets go of the member, which may be dropped in both communities
      cases moves with
      | continues next =>
        have going : likeness.Tenancies clocked host hostToo ⟨after, owned, calls⟩
            ⟨afterToo, owned, calls⟩ := ⟨members, rfl, rfl⟩
        exact ⟨.continues next, settle hosts going thread⟩
      | finished reply =>
        have ended : likeness.Tenancies clocked host hostToo ⟨after, owned, calls - 1⟩
            ⟨afterToo, owned, calls - 1⟩ := ⟨members, rfl, rfl⟩
        exact ⟨.finished reply, settle hosts ended thread⟩

/-- New members with the same blueprint are alike, on hosts that keep no memo under a new key. -/
theorem build (hosts : host.Alike clocked other)
    (unused : ∀ thread, host.memos.find? thread host.memos.upcoming = none)
    (unusedToo : ∀ thread, other.memos.find? thread other.memos.upcoming = none)
    (blueprint : Blueprint π ε) (starts : ∀ supply encoder names,
      blueprint = .reporting supply encoder names → likeness.supplies supply supply ∧
        likeness.encoders encoder encoder ∧ (likeness.timed = true → clocked)) :
    (blueprint.build host).2.Alike clocked (blueprint.build other).2 ∧
      likeness.Members clocked (blueprint.build host).2 (blueprint.build other).2
        (blueprint.build host).1 (blueprint.build other).1 := by
  have tracked (names : NameSource) : TrackedHost.Alike
      ⟨(host.newTracker names).1, (host.newTracker names).2⟩
      ⟨(other.newTracker names).1, (other.newTracker names).2⟩ :=
    { names := rfl, upcoming := rfl, given := hosts.given, scripted := hosts.scripted
      memos := fun thread => (unused thread).trans (unusedToo thread).symm }
  cases blueprint with
  | tracking names =>
    exact ⟨⟨hosts.given, hosts.scripted, hosts.clock⟩, .tracking (tracked names)⟩
  | reporting supply encoder names =>
    obtain ⟨supplies, encoders, seen⟩ := starts supply encoder names rfl
    refine ⟨⟨hosts.given, hosts.scripted, hosts.clock⟩, .reporting seen ?_ (tracked names)⟩
    exact ⟨supplies, encoders, fun timed => hosts.clock (seen timed), rfl, rfl, rfl⟩

/-- A call of the member begins, or is refused, in both communities. -/
theorem serve_opening {ω : Type} (homes : likeness.Homes clocked name community left)
    (service : Service ω) (thread : Thread) :
    (Community.perform obeys name (.serve thread service) .opening community).1.Alike
        likeness.Phases (Community.perform obeys name (.serve thread service) .opening left).1 ∧
      likeness.Homes clocked name
        (Community.perform obeys name (.serve thread service) .opening community).2
        (Community.perform obeys name (.serve thread service) .opening left).2 := by
  rcases homes.absent_or_alike with ⟨absent, absentToo⟩ |
    ⟨member, own, owned, calls, found, foundToo, members⟩
  · simp only [Community.perform, absent, absentToo]
    exact ⟨.finished _, homes⟩
  · simp only [Community.perform, found, foundToo]
    cases owned with
    | false => exact ⟨.finished _, homes⟩
    | true =>
      have starts := members.start service
      simp only
      generalize service.start member = first? at starts
      generalize service.start own = firstToo? at starts
      cases starts with
      | none => exact ⟨.finished _, homes⟩
      | some phases => exact ⟨.continues phases, keep homes.hosts ⟨members, rfl, rfl⟩⟩

/-- The supply and the encoder of a reporter get an order in both communities. -/
theorem order {ω : Type} {phase reached : Service.Phase β}
    (homes : likeness.Homes clocked name community left) (order : δ) :
    (Community.perform (ω := ω) obeys name (.order order) phase community).1.Alike likeness.Phases
        (Community.perform (ω := ω) obeys name (.order order) reached left).1 ∧
      likeness.Homes clocked name
        (Community.perform (ω := ω) obeys name (.order order) phase community).2
        (Community.perform (ω := ω) obeys name (.order order) reached left).2 := by
  rcases homes.absent_or_alike with ⟨absent, absentToo⟩ |
    ⟨member, own, owned, calls, found, foundToo, members⟩
  · simp only [Community.perform, absent, absentToo]
    exact ⟨.finished _, homes⟩
  · simp only [Community.perform, found, foundToo]
    cases members with
    | tracking tracked => exact ⟨.finished _, homes⟩
    | @reporting reporter other seen reporters tracked =>
      obtain ⟨supplies, encoders⟩ := likeness.obey order reporters.supply reporters.encoder
      have obeyed : likeness.Reporters
          (OpenSite.obey obeys order ⟨reporter, community.host⟩).reporter
          (OpenSite.obey obeys order ⟨other, left.host⟩).reporter :=
        ⟨supplies, encoders, reporters.createdAt, reporters.numbering, reporters.methods,
          reporters.exceptions⟩
      exact ⟨.finished _, keep homes.hosts ⟨.reporting seen obeyed tracked, rfl, rfl⟩⟩

end Homes

/-- Communities in which the members of one name cannot be told apart. -/
structure Communities (likeness : Likeness obeys) (clocked : Prop) (name : String)
    (community left : Community π ε) : Prop where
  sound : community.Sound
  soundToo : left.Sound
  homes : likeness.Homes clocked name community left

/-- Reporters begin alike, on hosts that show the same time if timestamps are compared. -/
def Starts (likeness : Likeness obeys) (clocked : Prop) {ω : Type} (task : Community.Task π ε ω δ) :
    Prop :=
  ∀ supply encoder names, task = .make (.reporting supply encoder names) →
    likeness.supplies supply supply ∧ likeness.encoders encoder encoder ∧
      (likeness.timed = true → clocked)

namespace Communities

variable {name : String} {community left : Community π ε}

/-- The members of the name do their work in both communities. -/
theorem perform {ω : Type} {phase reached : Service.Phase β}
    (alike : likeness.Communities clocked name community left) (task : Community.Task π ε ω δ)
    (starts : likeness.Starts clocked task) (phases : likeness.Phases phase reached) :
    (Community.perform obeys name task phase community).1.Alike likeness.Phases
        (Community.perform obeys name task reached left).1 ∧
      likeness.Communities clocked name (Community.perform obeys name task phase community).2
        (Community.perform obeys name task reached left).2 := by
  suffices done : (Community.perform obeys name task phase community).1.Alike likeness.Phases
        (Community.perform obeys name task reached left).1 ∧
      likeness.Homes clocked name (Community.perform obeys name task phase community).2
        (Community.perform obeys name task reached left).2 from
    ⟨done.1, alike.sound.perform obeys name task phase,
      alike.soundToo.perform obeys name task reached, done.2⟩
  have homes := alike.homes
  have hosts := homes.hosts
  have listed := homes.absent_or_alike
  cases task with
  | make blueprint =>
    rcases listed with ⟨absent, absentToo⟩ | ⟨member, own, owned, calls, found, foundToo, members⟩
    · simp only [Community.perform, absent, absentToo]
      obtain ⟨built, members⟩ := Homes.build hosts
        (fun thread => alike.sound.unused thread _ (Nat.le_refl _))
        (fun thread => alike.soundToo.unused thread _ (Nat.le_refl _)) blueprint
        (fun supply encoder names same => starts supply encoder names (congrArg _ same))
      exact ⟨.finished _, Homes.keep built ⟨members, rfl, rfl⟩⟩
    · simp only [Community.perform, found, foundToo]
      exact ⟨.finished _, homes⟩
  | serve thread service =>
    cases phases with
    | recognizing phase => exact homes.attend (.recognizing phase) thread service
    | calling calls => exact homes.attend (.calling calls) thread service
    | opening => exact homes.serve_opening service thread
  | order order => exact homes.order order
  | release thread =>
    rcases listed with ⟨absent, absentToo⟩ | ⟨member, own, owned, calls, found, foundToo, members⟩
    · simp only [Community.perform, absent, absentToo]
      exact ⟨.finished _, homes⟩
    · simp only [Community.perform, found, foundToo]
      cases owned with
      | false => exact ⟨.finished _, homes⟩
      | true =>
        have released : likeness.Tenancies clocked community.host left.host
            ⟨member, false, calls⟩ ⟨own, false, calls⟩ := ⟨members, rfl, rfl⟩
        exact ⟨.finished _, Homes.settle hosts released thread⟩
  | linger nanoseconds => exact ⟨.finished _, homes.apply (.advance nanoseconds)⟩

/-- Both hosts change. -/
theorem apply (alike : likeness.Communities clocked name community left) (change : Host.Change) :
    likeness.Communities clocked name { community with host := community.host.apply change }
      { left with host := left.host.apply change } :=
  ⟨alike.sound.apply change, alike.soundToo.apply change, alike.homes.apply change⟩

/-- Time passes in one of the communities, if the hosts need not show the same time. -/
theorem linger (alike : likeness.Communities clocked name community left) (timeless : ¬clocked)
    (nanoseconds : Nat) : likeness.Communities clocked name
      { community with host := community.host.apply (.advance nanoseconds) } left where
  sound := alike.sound.apply (.advance nanoseconds)
  soundToo := alike.soundToo
  homes :=
    { hosts :=
        ⟨alike.homes.hosts.given, alike.homes.hosts.scripted, fun same => absurd same timeless⟩
      own := rel_imp alike.homes.own fun _ _ tenancies =>
        have tracked := tenancies.members.tracked
        ⟨tenancies.members.on
          ⟨tracked.names, tracked.upcoming, tracked.given, tracked.scripted, tracked.memos⟩,
          tenancies.owned, tenancies.calls⟩ }

/-- Neighbours do their work in one of the communities. -/
theorem moves {neighbour : String} {after : Community π ε}
    (alike : likeness.Communities clocked name community left)
    (moves : Community.Moves neighbour community after) (different : name ≠ neighbour) :
    likeness.Communities clocked name after left := by
  obtain ⟨listed, clock, given, scripted, memos⟩ := moves.apart alike.sound different
  refine ⟨alike.sound.moves moves, alike.soundToo, ⟨?_, ?_, ?_⟩, ?_⟩
  · exact given.trans alike.homes.hosts.given
  · exact scripted.trans alike.homes.hosts.scripted
  · exact fun same => clock.trans (alike.homes.hosts.clock same)
  · rw [listed]
    rcases alike.homes.absent_or_alike with ⟨absent, absentToo⟩ |
      ⟨member, own, owned, calls, found, foundToo, members⟩
    · rw [absent, absentToo]
      exact .none
    · have tracked := members.tracked
      have stays : TrackedHost.Alike ⟨member.tracker, after.host⟩ ⟨own.tracker, left.host⟩ :=
        ⟨tracked.names, tracked.upcoming, given.trans tracked.given,
          scripted.trans tracked.scripted,
          fun thread => (memos _ found thread).trans (tracked.memos thread)⟩
      rw [found, foundToo]
      exact .some ⟨members.on stays, rfl, rfl⟩

end Communities

end Likeness

end TraceRelay
