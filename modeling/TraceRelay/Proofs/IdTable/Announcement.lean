import TraceRelay.Proofs.IdTable.Agreement

/-! Each key of a table is announced once, by the request that gave the key its id. -/

namespace TraceRelay

variable {κ ε : Type} [DecidableEq κ]

/-- An access that gives a key its id is the one that has to be announced. -/
theorem Resolution.announces_of_registers {key other : κ} {phase : Resolution}
    {before : IdTable κ} {id : UInt32} (without : before.find? other = none)
    (registered : (phase.step key before).2.find? other = some id) :
    other = key ∧ (phase.step key before).1 = .announces id := by
  have changed : (phase.step key before).2.find? other ≠ before.find? other := by
    rw [registered, without]
    exact Option.some_ne_none id
  cases phase with
  | lookup =>
    simp only [step] at changed
    split at changed <;> exact absurd rfl changed
  | claim =>
    simp only [step] at changed
    split at changed
    · rename_i absent
      exact absurd (IdTable.find?_insert_pending absent) changed
    · split at changed <;> exact absurd rfl changed
  | draw => exact absurd rfl changed
  | replace drawn =>
    simp only [step] at changed registered ⊢
    split at changed
    · rename_i marked
      rw [if_pos marked] at registered ⊢
      by_cases own : other = key
      · subst own
        have same : drawn = id := by
          simpa [Table.find?_insert] using (IdTable.find?_eq_some.mp registered).1
        exact ⟨rfl, by rw [same]⟩
      · simp [IdTable.find?, Table.find?_insert, own] at changed
    · exact absurd rfl changed
  | reuse found => exact absurd rfl changed
  | conclude drawn => exact absurd rfl changed

namespace Registration

/-- What a request ends with after it has announced an id. -/
def answer (request : KeyRequest κ ε) (id : UInt32) : Outcome ε UInt32 :=
  match request.announcement with
  | .returned () => .returned id
  | .failed error => .failed error
  | .panicked message => .panicked message

/-- An announcement starts with the replacement of the mark of the pending key. -/
theorem opened?_eq_some {access : TableAccess κ ε} {key : κ} {id : UInt32}
    (made : step access.job access.phase access.before = (access.moved, access.after))
    (opens : opened? access = some (key, id)) :
    access.job.key = key ∧ access.phase = .resolving (.replace id) ∧
      access.moved = .continues (.announcing id) ∧
      access.before.ids.find? key = some IdTable.pending ∧
      access.after = { access.before with ids := access.before.ids.insert key id } := by
  obtain ⟨turn, request, phase, before, moved, after⟩ := access
  cases moves_of_step made with
  | announces resolved =>
    simp only [opened?, announcement?, Option.some.injEq, Prod.mk.injEq] at opens
    obtain ⟨rfl, rfl⟩ := opens
    obtain ⟨rfl, marked, stored⟩ := Resolution.announces_iff.mp resolved
    exact ⟨rfl, rfl, rfl, marked, stored⟩
  | continues | returns | announced | fails | panics => simp [opened?, announcement?] at opens

/-- An announcement is started by the access that gives the key its id, and by no other. -/
theorem opened?_iff {access : TableAccess κ ε} {front back : List (Inquiry κ)}
    {stored : List (κ × UInt32)} {count : Nat} {key : κ} {id : UInt32}
    (made : step access.job access.phase access.before = (access.moved, access.after))
    (few : count + draws access < 2 ^ 32)
    (consistent : access.before.Consistent (front ++ [inquiry access.engagement] ++ back)
      stored count) :
    opened? access = some (key, id) ↔
      access.before.find? key = none ∧ access.after.find? key = some id := by
  constructor
  · intro opens
    obtain ⟨own, -, moved, marked, -⟩ := opened?_eq_some made opens
    refine ⟨IdTable.find?_eq_none.mpr (.inr marked), ?_⟩
    have kept := consistent_access made few consistent
    have fits := kept.fits (key, .announcing id) (by simp [Access.next?, moved, inquiry, own])
    exact fits
  · rintro ⟨without, registered⟩
    obtain ⟨turn, request, phase, before, moved, after⟩ := access
    simp only at without registered made
    cases moves_of_step made with
    | @continues phase _ _ resolved | @returns phase _ _ resolved =>
      obtain ⟨-, said⟩ := phase.announces_of_registers without (by rw [resolved]; exact registered)
      rw [resolved] at said
      cases said
    | @announces phase _ _ resolved =>
      obtain ⟨rfl, said⟩ :=
        phase.announces_of_registers without (by rw [resolved]; exact registered)
      rw [resolved] at said
      cases said
      rfl
    | announced | fails | panics =>
      rw [without] at registered
      cases registered

/-- What a request in progress and its announcement have to do with each other. -/
structure Announcer (past : List (TableAccess κ ε))
    (engagement : Engagement (KeyRequest κ ε) Registration) : Prop where
  opened : ∀ id, engagement.phase = .announcing id → ∃ opener ∈ past,
    opener.turn = engagement.turn ∧ opened? opener = some (engagement.job.key, id)
  ends : ∀ opener ∈ past, opener.turn = engagement.turn → ∀ key id,
    opened? opener = some (key, id) → opener.job = engagement.job ∧
      (engagement.phase = .announcing id ∨
        engagement.phase = .resolving (.conclude id) ∧
          engagement.job.announcement = .returned ())

omit [DecidableEq κ] in
/-- The accesses of other requests leave a request and its announcement as they are. -/
theorem Announcer.other {past : List (TableAccess κ ε)} {access : TableAccess κ ε}
    {engagement : Engagement (KeyRequest κ ε) Registration} (announcer : Announcer past engagement)
    (different : access.turn ≠ engagement.turn) :
    Announcer (past ++ [access]) engagement where
  opened id announcing := by
    obtain ⟨opener, member, facts⟩ := announcer.opened id announcing
    exact ⟨opener, List.mem_append_left _ member, facts⟩
  ends opener member same := by
    rcases List.mem_append.mp member with old | new
    · exact announcer.ends opener old same
    · exact absurd (List.mem_singleton.mp new ▸ same) different

/-- A request announces its id next after it has put it into the table, and only a successful
announcement leads it on. -/
theorem Announcer.own {past : List (TableAccess κ ε)} {access : TableAccess κ ε}
    {next : Engagement (KeyRequest κ ε) Registration}
    (announcer : Announcer past access.engagement)
    (made : step access.job access.phase access.before = (access.moved, access.after))
    (goesOn : access.next? = some next) : Announcer (past ++ [access]) next := by
  obtain ⟨turn, request, phase, before, moved, after⟩ := access
  cases moves_of_step made with
  | continues resolved =>
    cases goesOn
    refine ⟨fun _ => nofun, ?_⟩
    intro opener member same key id opens
    rcases List.mem_append.mp member with old | new
    · obtain ⟨job, during | ⟨during, -⟩⟩ := announcer.ends opener old same key id opens
      · cases during
      · cases during
        cases resolved
    · cases List.mem_singleton.mp new
      cases opens
  | announces resolved =>
    cases goesOn
    refine ⟨?_, ?_⟩
    · rintro id announcing
      cases announcing
      exact ⟨_, List.mem_append_right _ (List.mem_singleton.mpr rfl), rfl, rfl⟩
    · intro opener member same key id opens
      rcases List.mem_append.mp member with old | new
      · obtain ⟨job, during | ⟨during, -⟩⟩ := announcer.ends opener old same key id opens
        · cases during
        · cases during
          cases resolved
      · cases List.mem_singleton.mp new
        cases opens
        exact ⟨rfl, .inl rfl⟩
  | announced succeeds =>
    cases goesOn
    refine ⟨fun _ => nofun, ?_⟩
    intro opener member same key id opens
    rcases List.mem_append.mp member with old | new
    · obtain ⟨job, during | ⟨during, -⟩⟩ := announcer.ends opener old same key id opens
      · cases during
        exact ⟨job, .inr ⟨rfl, succeeds⟩⟩
      · cases during
    · cases List.mem_singleton.mp new
      cases opens
  | returns | fails | panics => cases goesOn

/-- In every run, each announcement in progress was started by its own request, and a request that
has started one is announcing or has been successful with it. -/
theorem announcer_run (work : List (List (KeyRequest κ ε))) (schedule : List Nat)
    {earlier later : List (TableAccess κ ε)} {access : TableAccess κ ε}
    (same : (Interleaving.fresh {} work).accesses procedure schedule =
      earlier ++ access :: later) : Announcer earlier access.engagement := by
  refine (Interleaving.underway_induction procedure {} work ?_ ?_ ?_ schedule).2 _ _ _ same
  · intro past turn request silent
    refine ⟨fun _ => nofun, ?_⟩
    intro opener member own
    exact absurd own (silent opener member)
  · intro past access engagement different announcer
    exact announcer.other different
  · intro past access next made goesOn announcer
    exact announcer.own made goesOn

/-- A request whose key has an id finds it with its first access. -/
theorem returned_at_lookup {access : TableAccess κ ε} {id : UInt32}
    (made : step access.job access.phase access.before = (access.moved, access.after))
    (atLookup : access.phase = .resolving .lookup)
    (found : access.before.find? access.job.key = some id) :
    access.moved = .finished (.returned id) := by
  rw [atLookup] at made
  simp only [step, Resolution.step, found] at made
  exact (congrArg Prod.fst made).symm

/-- A request that ends after its key has been announced returns the announced id, unless it made
the announcement itself. -/
theorem ends_after_announcement {access other : TableAccess κ ε} {key : κ} {id : UInt32}
    {past : List (TableAccess κ ε)} {front back : List (Inquiry κ)} {stored : List (κ × UInt32)}
    {count : Nat} {result : Outcome ε UInt32} (opens : opened? access = some (key, id))
    (inside : access ∈ past)
    (alone : ∀ opener ∈ past, ∀ found, opened? opener = some (key, found) → opener = access)
    (announcer : Announcer past other.engagement)
    (made : step other.job other.phase other.before = (other.moved, other.after))
    (few : count + draws other < 2 ^ 32)
    (consistent : other.before.Consistent (front ++ [inquiry other.engagement] ++ back)
      stored count) (found : other.before.find? key = some id) (own : other.job.key = key)
    (finished : other.moved = .finished result) :
    if other.turn = access.turn then result = answer access.job id else result = .returned id := by
  have lookup (value : UInt32) (returned : result = .returned value) : result = .returned id := by
    rw [returned] at finished ⊢
    have same := found_of_returned made few consistent finished
    rw [own, found] at same
    cases same
    rfl
  split
  · rename_i same
    obtain ⟨job, during | ⟨during, succeeds⟩⟩ := announcer.ends access inside same.symm key id opens
    · obtain ⟨turn, request, phase, before, moved, after⟩ := other
      simp only [Access.engagement] at job during
      subst job during
      simp only at made finished
      subst finished
      cases moves_of_step made with
      | fails ends | panics ends => simp [answer, ends]
    · have silent : answer access.job id = .returned id := by
        rw [answer, job, succeeds]
      rw [silent]
      obtain ⟨turn, request, phase, before, moved, after⟩ := other
      simp only [Access.engagement] at during
      subst during
      simp only at made finished
      subst finished
      cases moves_of_step made with
      | returns resolved => exact lookup _ rfl
  · rename_i different
    obtain ⟨turn, request, phase, before, moved, after⟩ := other
    simp only at made finished
    subst finished
    have silent (number : UInt32) (announcing : phase = .announcing number) : False := by
      obtain ⟨opener, member, same, opened⟩ := announcer.opened number announcing
      subst own
      rw [alone opener member number opened] at same
      exact different same.symm
    cases moves_of_step made with
    | returns resolved => exact lookup _ rfl
    | fails ends | panics ends => exact (silent _ rfl).elim

omit [DecidableEq κ] in
/-- No other access announces the key, if no key is announced twice. -/
theorem opens_once {earlier later : List (TableAccess κ ε)} {access : TableAccess κ ε} {key : κ}
    {id : UInt32} (opens : opened? access = some (key, id))
    (once : ((announcements (earlier ++ access :: later)).map Prod.fst).Nodup) :
    ∀ other ∈ earlier ++ later, ∀ otherId, opened? other ≠ some (key, otherId) := by
  intro other member otherId opensToo
  rw [announcements, List.map_filterMap] at once
  exact filterMap_once once (by rw [opens]; rfl) other member (by rw [opensToo]; rfl)

/-- All that follows an access that starts the announcement of a key. -/
structure Announced (access : TableAccess κ ε) (later : List (TableAccess κ ε))
    (final : IdTable κ) (key : κ) (id : UInt32) : Prop where
  own : access.job.key = key
  replaces : access.phase = .resolving (.replace id)
  pending : access.before.ids.find? key = some IdTable.pending
  visible : ∀ other ∈ later, other.before.find? key = some id
  found : ∀ other ∈ later, other.job.key = key → other.phase = .resolving .lookup →
    other.moved = .finished (.returned id)
  alone : ∀ other ∈ later, ∀ otherId, opened? other ≠ some (key, otherId)
  ends : ∀ other ∈ later, other.job.key = key → ∀ result, other.moved = .finished result →
    if other.turn = access.turn then result = answer access.job id else result = .returned id
  final : final.find? key = some id

/-- An announcement is the only one of its key, and the key keeps the id that is announced. -/
theorem announced_of_opens (work : List (List (KeyRequest κ ε))) (schedule : List Nat)
    (few : drawn ((Interleaving.fresh {} work).accesses procedure schedule) < 2 ^ 32)
    {earlier later : List (TableAccess κ ε)} {access : TableAccess κ ε} {key : κ} {id : UInt32}
    (same : (Interleaving.fresh {} work).accesses procedure schedule = earlier ++ access :: later)
    (made : step access.job access.phase access.before = (access.moved, access.after))
    (opens : opened? access = some (key, id)) (registered : access.after.find? key = some id) :
    Announced access later ((Interleaving.fresh {} work).run procedure schedule).shared key id := by
  obtain ⟨own, replaces, -, pending, -⟩ := opened?_eq_some made opens
  obtain ⟨grown, grownAtLast⟩ := extends_later _ schedule same
  have once := (consistent_run work schedule few).once
  have alone : ∀ other ∈ earlier ++ later, ∀ otherId, opened? other ≠ some (key, otherId) :=
    opens_once opens (same ▸ once)
  have found (other : TableAccess κ ε) (member : other ∈ later) :
      other.before.find? key = some id := (grown other member).finds key id registered
  have split (between behind : List (TableAccess κ ε)) (other : TableAccess κ ε)
      (place : later = between ++ other :: behind) :
      (Interleaving.fresh {} work).accesses procedure schedule =
          (earlier ++ access :: between) ++ other :: behind ∧
        step other.job other.phase other.before = (other.moved, other.after) := by
    have whole : (Interleaving.fresh {} work).accesses procedure schedule =
        (earlier ++ access :: between) ++ other :: behind := by
      rw [same, place, List.append_assoc, List.cons_append]
    exact ⟨whole, Interleaving.made_of_accesses procedure _ schedule whole⟩
  refine ⟨own, replaces, pending, found, ?_, ?_, ?_, grownAtLast.finds key id registered⟩
  · intro other member ownKey atLookup
    obtain ⟨between, behind, place⟩ := List.append_of_mem member
    obtain ⟨-, otherMade⟩ := split between behind other place
    exact returned_at_lookup otherMade atLookup (ownKey ▸ found other member)
  · intro other member
    exact alone other (List.mem_append_right _ member)
  · intro other member ownKey result finished
    obtain ⟨between, behind, place⟩ := List.append_of_mem member
    obtain ⟨whole, otherMade⟩ := split between behind other place
    obtain ⟨room, _, _, consistent⟩ := consistent_before work schedule few whole
    refine ends_after_announcement opens (by simp) ?_ (announcer_run work schedule whole)
      otherMade room consistent (found other member) ownKey finished
    intro opener inside otherId opensToo
    by_contra different
    refine alone opener ?_ otherId opensToo
    rw [place]
    simp only [List.mem_append, List.mem_cons] at inside ⊢
    tauto

/-- Every key is announced at most once, by the request whose access gives the key its id, and has
been announced as soon as no request is in progress. -/
theorem announced_once (work : List (List (KeyRequest κ ε))) (schedule : List Nat)
    (few : drawn ((Interleaving.fresh {} work).accesses procedure schedule) < 2 ^ 32) :
    let past := (Interleaving.fresh {} work).accesses procedure schedule
    let final := (Interleaving.fresh {} work).run procedure schedule
    ((announcements past).map Prod.fst).Nodup ∧
    (∀ earlier access later, past = earlier ++ access :: later → ∀ key id,
      (opened? access = some (key, id) ↔
        access.before.find? key = none ∧ access.after.find? key = some id) ∧
      (opened? access = some (key, id) → Announced access later final.shared key id)) ∧
    (final.underway = [] → ∀ key ∈ final.shared.ids.keys,
      ((announcements past).map Prod.fst).count key = 1) := by
  intro past final
  have atLast := consistent_run work schedule few
  have once : ((announcements past).map Prod.fst).Nodup := atLast.once
  refine ⟨once, ?_, ?_⟩
  · intro earlier access later same key id
    obtain ⟨room, front, back, consistent⟩ := consistent_before work schedule few same
    have made := Interleaving.made_of_accesses procedure _ schedule same
    have given : opened? access = some (key, id) ↔
        access.before.find? key = none ∧ access.after.find? key = some id :=
      opened?_iff made room consistent
    refine ⟨given, fun opens => ?_⟩
    exact announced_of_opens work schedule few same made opens (given.mp opens).2
  · intro idle key member
    obtain ⟨id, found⟩ := Option.isSome_iff_exists.mp ((Table.isSome_find? _ _).mpr member)
    have registered : id ≠ IdTable.pending := by
      rintro rfl
      obtain ⟨inquiry, inside, -⟩ := atLast.claimed key found
      change inquiry ∈ final.underway.map _ at inside
      rw [idle] at inside
      cases inside
    have stored := (atLast.find?_iff key id).mp (IdTable.find?_eq_some.mpr ⟨found, registered⟩)
    exact List.count_eq_one_of_mem once (List.mem_map_of_mem stored)

/-- When the race for a key is over, each key has been announced once, although one announcement
has failed. -/
theorem announced_once_race :
    let work : List (List (KeyRequest Nat String)) :=
      [[⟨7, .returned ()⟩], [⟨7, .failed "refused"⟩, ⟨8, .returned ()⟩]]
    let schedule := [0, 0, 0, 1, 1, 1, 0, 1, 1, 0, 0, 1, 1, 1, 1, 1, 1, 1, 1]
    drawn ((Interleaving.fresh {} work).accesses procedure schedule) < 2 ^ 32 ∧
      ((Interleaving.fresh {} work).run procedure schedule).underway = [] ∧
      ∀ key ∈ ((Interleaving.fresh {} work).run procedure schedule).shared.ids.keys,
        ((announcements ((Interleaving.fresh {} work).accesses procedure schedule)).map
          Prod.fst).count key = 1 := by
  intro work schedule
  have few : drawn ((Interleaving.fresh {} work).accesses procedure schedule) < 2 ^ 32 := by
    decide
  have idle : ((Interleaving.fresh {} work).run procedure schedule).underway = [] := by decide
  exact ⟨few, idle, (announced_once work schedule few).2.2 idle⟩

end Registration

end TraceRelay
