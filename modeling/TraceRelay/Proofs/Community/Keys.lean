import TraceRelay.Proofs.Threads.Roster
import TraceRelay.Reporting.Community

/-! Every member of a community has a key of its own and touches no memo under another one. -/

namespace TraceRelay

/-- The second host differs from the first one in the memos under one key only. -/
structure Host.Touched (key : TrackerKey) (host after : Host) : Prop where
  clock : after.clock = host.clock
  given : after.givenNames = host.givenNames
  scripted : after.scriptedNames = host.scriptedNames
  upcoming : after.memos.upcoming = host.memos.upcoming
  elsewhere : ∀ thread other, other ≠ key →
    after.memos.find? thread other = host.memos.find? thread other

theorem Host.Touched.refl (key : TrackerKey) (host : Host) : host.Touched key host :=
  ⟨rfl, rfl, rfl, rfl, fun _ _ _ => rfl⟩

theorem Host.Touched.trans {key : TrackerKey} {first second third : Host}
    (early : first.Touched key second) (late : second.Touched key third) :
    first.Touched key third where
  clock := late.clock.trans early.clock
  given := late.given.trans early.given
  scripted := late.scripted.trans early.scripted
  upcoming := late.upcoming.trans early.upcoming
  elsewhere thread other different :=
    (late.elsewhere thread other different).trans (early.elsewhere thread other different)

theorem TrackedHost.touched_remember (tracked : TrackedHost) (thread : Thread)
    (memo : ThreadMemo) :
    tracked.host.Touched tracked.tracker.key (tracked.remember thread memo).host := by
  refine ⟨rfl, rfl, rfl, rfl, fun other key different => ?_⟩
  simp [remember, ThreadMemos.find?_put, different]

/-- An access of a lookup keeps the key and the names of its tracker. -/
theorem Identification.touched_step (thread : Thread) (phase : Identification)
    (tracked : TrackedHost) :
    (phase.step thread tracked).2.tracker.key = tracked.tracker.key ∧
      tracked.host.Touched tracked.tracker.key (phase.step thread tracked).2.host := by
  cases phase with
  | readName => exact ⟨rfl, .refl _ _⟩
  | consult name =>
    simp only [step]
    split
    · split <;> exact ⟨rfl, .refl _ _⟩
    · exact ⟨rfl, tracked.touched_remember thread _⟩
  | settle announcement =>
    simp only [step]
    split
    · exact ⟨rfl, tracked.touched_remember thread _⟩
    · exact ⟨rfl, .refl _ _⟩

theorem Recognition.touched_step {ω : Type} (request : ThreadRequest ω) (phase : Recognition)
    (tracked : TrackedHost) :
    (phase.step request tracked).2.tracker.key = tracked.tracker.key ∧
      tracked.host.Touched tracked.tracker.key (phase.step request tracked).2.host := by
  cases phase with
  | identifying phase =>
    have touched := Identification.touched_step request.thread phase tracked
    simp only [step]
    split <;> rename_i found <;> rw [found] at touched <;> exact touched
  | announcing announcement =>
    simp only [step]
    split <;> exact ⟨rfl, .refl _ _⟩

section

variable {π ε β ω : Type} [Clearable β] [BufferSupply π β] [EventEncoder ε β]

@[simp] theorem Delivery.tracker_step (now : Nat) (delivery : Delivery β)
    (reporter : Reporter π ε) :
    (delivery.step now reporter).state.tracker = reporter.tracker := by
  cases delivery with
  | obtaining draft =>
    simp only [step]
    split <;> rfl
  | stamping | writing | returning => rfl

theorem Call.touched_step (thread : Thread) (call : Call β) (site : Site π ε) :
    (call.step thread site).state.reporter.tracker.key = site.reporter.tracker.key ∧
      site.host.Touched site.reporter.tracker.key (call.step thread site).state.host := by
  cases call with
  | entering request => exact ⟨rfl, .refl _ _⟩
  | identifying activity entered phase =>
    have touched := Identification.touched_step thread phase ⟨site.reporter.tracker, site.host⟩
    simp only [step]
    split <;> exact touched
  | resolvingMethod activity entered caller phase =>
    simp only [step]
    split <;> exact ⟨rfl, .refl _ _⟩
  | resolvingException activity entered caller method raised phase =>
    simp only [step]
    split <;> exact ⟨rfl, .refl _ _⟩
  | delivering purpose delivery =>
    refine ⟨?_, .refl _ _⟩
    simp [step]

theorem Service.touched_step {thread : Thread} {service : Service ω} {phase : Service.Phase β}
    {member after : Member π ε} {host left : Host} {moved : Progress (Service.Phase β) (Reply ω)}
    (stepped : service.step thread phase member host = some (moved, after, left)) :
    after.tracker.key = member.tracker.key ∧ host.Touched member.tracker.key left := by
  cases service <;> cases phase <;> cases member <;> cases stepped
  · exact Recognition.touched_step _ _ ⟨_, host⟩
  · exact Call.touched_step thread _ ⟨_, host⟩

end

/-- A member that is dropped by a thread loses its memo of this thread. -/
theorem Member.touched_drop {π ε : Type} (thread : Thread) (host : Host) (member : Member π ε) :
    host.Touched member.tracker.key (member.drop thread host) := by
  cases member <;> refine ⟨rfl, rfl, rfl, rfl, fun other key different => ?_⟩ <;>
    simp [drop, Reporter.drop, ThreadMemos.find?_dropTracker] <;>
    exact fun _ same => absurd same different

/-- A new member has a new key, and its tracker has given no id yet. -/
theorem Blueprint.tracker_build {π ε : Type} (host : Host) (blueprint : Blueprint π ε) :
    (blueprint.build host).1.tracker.key = host.memos.upcoming ∧
      (blueprint.build host).1.tracker.upcoming = 0 := by
  cases blueprint <;> exact ⟨rfl, rfl⟩

theorem Blueprint.host_build {π ε : Type} (host : Host) (blueprint : Blueprint π ε) :
    (blueprint.build host).2 =
      { host with memos := { host.memos with upcoming := host.memos.upcoming + 1 } } := by
  cases blueprint <;> rfl

namespace Community

variable {π ε : Type}

/-- What an access on behalf of a task does to a community, unless time passes. -/
inductive Moves (name : String) : Community π ε → Community π ε → Prop where
  | rests (community : Community π ε) : Moves name community community
  | enters (community : Community π ε) (blueprint : Blueprint π ε)
    (absent : community.members.find? name = none) :
    Moves name community
      (community.keep name { member := (blueprint.build community.host).1 }
        (blueprint.build community.host).2)
  | stays (community : Community π ε) {tenancy after : Tenancy π ε} {host : Host}
    (found : community.members.find? name = some tenancy)
    (key : after.member.tracker.key = tenancy.member.tracker.key)
    (touched : community.host.Touched tenancy.member.tracker.key host) :
    Moves name community (community.keep name after host)
  | leaves (community : Community π ε) (thread : Thread) {tenancy : Tenancy π ε}
    {member : Member π ε} {host : Host} (found : community.members.find? name = some tenancy)
    (key : member.tracker.key = tenancy.member.tracker.key)
    (touched : community.host.Touched tenancy.member.tracker.key host) :
    Moves name community (community.lose thread name member host)

theorem Moves.settle {name : String} {community : Community π ε} {tenancy after : Tenancy π ε}
    {host : Host} (thread : Thread) (found : community.members.find? name = some tenancy)
    (key : after.member.tracker.key = tenancy.member.tracker.key)
    (touched : community.host.Touched tenancy.member.tracker.key host) :
    Moves name community (community.settle thread name after host) := by
  unfold Community.settle
  split
  · exact .stays community found key touched
  · exact .leaves community thread found key touched

/-- No memo is kept under a key that is still to be given away, and the members have keys that have
been given away, each of them another one. -/
structure Sound (community : Community π ε) : Prop where
  unused : ∀ thread key, community.host.memos.upcoming ≤ key →
    community.host.memos.find? thread key = none
  given : ∀ name tenancy, community.members.find? name = some tenancy →
    tenancy.member.tracker.key < community.host.memos.upcoming
  apart : ∀ name other tenancy otherTenancy, community.members.find? name = some tenancy →
    community.members.find? other = some otherTenancy →
    tenancy.member.tracker.key = otherTenancy.member.tracker.key → name = other

theorem sound_empty {host : Host}
    (unused : ∀ thread key, host.memos.upcoming ≤ key → host.memos.find? thread key = none) :
    ({ host } : Community π ε).Sound where
  unused := unused
  given name tenancy found := by cases found
  apart name other tenancy otherTenancy found := by cases found

/-- The host may change in the memos that are under a key that has been given away, while the
members keep their keys or leave. -/
theorem Sound.of_known {community after : Community π ε} {key : TrackerKey}
    (sound : community.Sound) (below : key < community.host.memos.upcoming)
    (touched : community.host.Touched key after.host)
    (known : ∀ name own, after.members.find? name = some own →
      ∃ old, community.members.find? name = some old ∧
        own.member.tracker.key = old.member.tracker.key) : after.Sound where
  unused thread other above := by
    rw [touched.upcoming] at above
    rw [touched.elsewhere thread other (Nat.ne_of_gt (Nat.lt_of_lt_of_le below above))]
    exact sound.unused thread other above
  given name own listed := by
    obtain ⟨old, wasListed, same⟩ := known name own listed
    rw [same, touched.upcoming]
    exact sound.given name old wasListed
  apart name other own otherOwn listed listedOther same := by
    obtain ⟨old, wasListed, sameOld⟩ := known name own listed
    obtain ⟨older, wasListedOther, sameOlder⟩ := known other otherOwn listedOther
    exact sound.apart name other old older wasListed wasListedOther
      (sameOld.symm.trans (same.trans sameOlder))

theorem Sound.apply {community : Community π ε} (sound : community.Sound) (change : Host.Change) :
    ({ community with host := community.host.apply change } : Community π ε).Sound := by
  cases change with
  | advance nanoseconds => exact ⟨sound.unused, sound.given, sound.apart⟩
  | rename thread name => exact ⟨sound.unused, sound.given, sound.apart⟩
  | endThread thread =>
    refine ⟨fun other key above => ?_, sound.given, sound.apart⟩
    simp only [Host.apply, ThreadMemos.find?_endThread]
    split
    · rfl
    · exact sound.unused other key above

/-- A member may change as long as its key stays the same. -/
theorem Sound.keep {community : Community π ε} {name : String} {tenancy after : Tenancy π ε}
    {host : Host} (sound : community.Sound) (found : community.members.find? name = some tenancy)
    (key : after.member.tracker.key = tenancy.member.tracker.key)
    (touched : community.host.Touched tenancy.member.tracker.key host) :
    (community.keep name after host).Sound := by
  refine sound.of_known (sound.given name tenancy found) touched fun other own listed => ?_
  rw [Community.keep, Table.find?_insert] at listed
  split at listed
  · rename_i same
    cases listed
    exact ⟨tenancy, same ▸ found, key⟩
  · exact ⟨own, listed, rfl⟩

/-- A member may be dropped. -/
theorem Sound.lose {community : Community π ε} {name : String} {tenancy : Tenancy π ε}
    {member : Member π ε} {host : Host} (sound : community.Sound) (thread : Thread)
    (found : community.members.find? name = some tenancy)
    (key : member.tracker.key = tenancy.member.tracker.key)
    (touched : community.host.Touched tenancy.member.tracker.key host) :
    (community.lose thread name member host).Sound := by
  have dropped := member.touched_drop thread host
  rw [key] at dropped
  refine sound.of_known (sound.given name tenancy found) (touched.trans dropped)
    fun other own listed => ?_
  rw [Community.lose, Table.find?_erase] at listed
  split at listed
  · cases listed
  · exact ⟨own, listed, rfl⟩

/-- A new member gets a key that no other member has. -/
theorem Sound.build {community : Community π ε} (sound : community.Sound) (name : String)
    (blueprint : Blueprint π ε) :
    (community.keep name { member := (blueprint.build community.host).1 }
      (blueprint.build community.host).2).Sound := by
  have newKey := (blueprint.tracker_build community.host).1
  have known (other : String) (own : Tenancy π ε)
      (listed : (community.members.insert name
        { member := (blueprint.build community.host).1 }).find? other = some own) :
      other = name ∧ own.member.tracker.key = community.host.memos.upcoming ∨
        community.members.find? other = some own ∧
          own.member.tracker.key < community.host.memos.upcoming := by
    rw [Table.find?_insert] at listed
    split at listed
    · rename_i same
      cases listed
      exact .inl ⟨same, newKey⟩
    · exact .inr ⟨listed, sound.given other own listed⟩
  rw [blueprint.host_build]
  refine ⟨?_, ?_, ?_⟩
  · intro thread key above
    exact sound.unused thread key (Nat.le_of_succ_le above)
  · intro other own listed
    show _ < community.host.memos.upcoming + 1
    rcases known other own listed with ⟨-, new⟩ | ⟨-, old⟩
    · exact Nat.lt_succ_of_le (Nat.le_of_eq new)
    · exact Nat.lt_succ_of_lt old
  · intro one other first second listed listedOther same
    rcases known one first listed with ⟨rfl, new⟩ | ⟨wasListed, old⟩ <;>
      rcases known other second listedOther with ⟨rfl, newToo⟩ | ⟨wasListedToo, oldToo⟩
    · rfl
    · exact absurd (new.symm.trans same) (Nat.ne_of_gt oldToo)
    · exact absurd (same.trans newToo) (Nat.ne_of_lt old)
    · exact sound.apart one other first second wasListed wasListedToo same

theorem Sound.moves {name : String} {community after : Community π ε} (sound : community.Sound)
    (moves : Moves name community after) : after.Sound := by
  cases moves with
  | rests => exact sound
  | enters blueprint absent => exact sound.build name blueprint
  | stays found key touched => exact sound.keep found key touched
  | leaves thread found key touched => exact sound.lose thread found key touched

/-- What is done about the member of one name leaves the members of the other names alone: their
states, the clock, the names of the threads, and the memos under their keys. -/
theorem Moves.apart {name neighbour : String} {community after : Community π ε}
    (moves : Moves neighbour community after) (sound : community.Sound)
    (different : name ≠ neighbour) :
    after.members.find? name = community.members.find? name ∧
      after.host.clock = community.host.clock ∧
      after.host.givenNames = community.host.givenNames ∧
      after.host.scriptedNames = community.host.scriptedNames ∧
      ∀ tenancy, community.members.find? name = some tenancy → ∀ thread,
        after.host.memos.find? thread tenancy.member.tracker.key =
          community.host.memos.find? thread tenancy.member.tracker.key := by
  have others {tenancy own : Tenancy π ε} (found : community.members.find? neighbour = some own)
      (listed : community.members.find? name = some tenancy) :
      tenancy.member.tracker.key ≠ own.member.tracker.key :=
    fun same => different (sound.apart name neighbour tenancy own listed found same)
  cases moves with
  | rests => exact ⟨rfl, rfl, rfl, rfl, fun _ _ _ => rfl⟩
  | enters blueprint absent =>
    rw [blueprint.host_build]
    refine ⟨?_, rfl, rfl, rfl, fun _ _ _ => rfl⟩
    rw [keep, Table.find?_insert, if_neg different]
  | stays found key touched =>
    refine ⟨?_, touched.clock, touched.given, touched.scripted, fun tenancy listed thread => ?_⟩
    · rw [keep, Table.find?_insert, if_neg different]
    · exact touched.elsewhere thread _ (others found listed)
  | @leaves thread own member host found key touched =>
    have dropped := member.touched_drop thread host
    rw [key] at dropped
    have left := touched.trans dropped
    refine ⟨?_, left.clock, left.given, left.scripted, fun tenancy listed caller => ?_⟩
    · rw [lose, Table.find?_erase, if_neg different]
    · exact left.elsewhere caller _ (others found listed)

variable {β ω δ : Type} [Clearable β] [BufferSupply π β] [EventEncoder ε β]

theorem moves_attend (thread : Thread) (name : String) (service : Service ω)
    (phase : Service.Phase β) (community : Community π ε) :
    Moves name community (community.attend thread name service phase).2 := by
  unfold attend
  split
  · exact .rests community
  · rename_i tenancy found
    split
    · exact .rests community
    · rename_i stepped
      have touched := Service.touched_step stepped
      exact .settle thread found touched.1 touched.2
    · rename_i stepped
      have touched := Service.touched_step stepped
      exact .settle thread found touched.1 touched.2

theorem moves_perform (obeys : δ → π × ε → π × ε) (name : String) {task : Task π ε ω δ}
    (timeless : ∀ nanoseconds, task ≠ .linger nanoseconds) (phase : Service.Phase β)
    (community : Community π ε) :
    Moves name community (perform obeys name task phase community).2 := by
  cases task with
  | make blueprint =>
    simp only [perform]
    split
    · exact .rests community
    · rename_i absent
      exact .enters community blueprint absent
  | serve thread service =>
    cases phase with
    | opening =>
      simp only [perform]
      split
      · rename_i found
        split
        · exact .stays community found rfl (.refl _ _)
        · exact .rests community
      · exact .rests community
    | recognizing => exact moves_attend thread name service _ community
    | calling => exact moves_attend thread name service _ community
  | order order =>
    simp only [perform]
    split
    · rename_i found
      exact .stays community found rfl (.refl _ _)
    · exact .rests community
  | release thread =>
    simp only [perform]
    split
    · rename_i found
      exact .settle thread found rfl (.refl _ _)
    · exact .rests community
  | linger nanoseconds => exact absurd rfl (timeless nanoseconds)

theorem Sound.perform {community : Community π ε} (sound : community.Sound)
    (obeys : δ → π × ε → π × ε) (name : String) (task : Task π ε ω δ) (phase : Service.Phase β) :
    (Community.perform obeys name task phase community).2.Sound := by
  cases task with
  | linger nanoseconds => exact sound.apply (.advance nanoseconds)
  | make | serve | order | release =>
    exact sound.moves (moves_perform obeys name (fun _ same => by cases same) phase community)

end Community

end TraceRelay
