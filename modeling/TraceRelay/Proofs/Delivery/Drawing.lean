import TraceRelay.Proofs.Delivery.Writes

/-! A delivery that has a buffer completes its event, and draws its number if it needs one. -/

namespace TraceRelay

/-- The number of a sequenced event. -/
def Event.number? (event : Event) : Option UInt32 := event.stamp?.map Stamp.sequence

theorem Draft.number?_complete (draft : Draft) (current : Timestamp) (numbering : Numbering) :
    (draft.complete current numbering).1.number? =
      if draft.isSequenced then some numbering.upcoming else none := by
  cases draft <;> rfl

theorem Draft.numbering_complete (draft : Draft) (current : Timestamp) (numbering : Numbering) :
    (draft.complete current numbering).2 =
      if draft.isSequenced then numbering.draw.2 else numbering := by
  cases draft <;> rfl

namespace OpenSite

variable {π ε β δ : Type}

/-- The time that the clock shows to the reporter at an access. -/
def reading (access : SiteAccess π ε β δ) : Timestamp :=
  access.before.reporter.elapsed access.before.host.clock

/-- The delivery that completes its event with an access. -/
def stamps? (access : SiteAccess π ε β δ) : Option DeliveryId :=
  match access.phase.delivery? with
  | some (purpose, .stamping _ _) => some ⟨access.turn, purpose.stage⟩
  | _ => none

/-- The delivery that draws a number for its event with an access, and the number. -/
def draws? (access : SiteAccess π ε β δ) : Option (DeliveryId × UInt32) :=
  match access.phase.delivery? with
  | some (purpose, .stamping draft _) =>
    if draft.isSequenced then
      some (⟨access.turn, purpose.stage⟩, access.before.reporter.upcomingNumber)
    else none
  | _ => none

/-- The numbers that have been drawn, in order, with the deliveries that have drawn them. -/
def numbers (past : List (SiteAccess π ε β δ)) : List (DeliveryId × UInt32) :=
  past.filterMap draws?

theorem numbers_concat (past : List (SiteAccess π ε β δ)) (access : SiteAccess π ε β δ) :
    numbers (past ++ [access]) = numbers past ++ (draws? access).toList := by
  rw [numbers, List.filterMap_append, filterMap_singleton]
  rfl

section Views

variable {access : SiteAccess π ε β δ} {id : DeliveryId} {number : UInt32}

theorem stamps?_eq_some : stamps? access = some id ↔ ∃ purpose draft buffer,
    access.phase.delivery? = some (purpose, .stamping draft buffer) ∧
      id = ⟨access.turn, purpose.stage⟩ := by
  unfold stamps?
  constructor
  · intro stamps
    split at stamps
    · rename_i purpose draft buffer stamping
      cases stamps
      exact ⟨purpose, draft, buffer, stamping, rfl⟩
    · cases stamps
  · rintro ⟨purpose, draft, buffer, stamping, rfl⟩
    rw [stamping]

theorem stamps_of_draws (draws : draws? access = some (id, number)) : stamps? access = some id := by
  simp only [draws?] at draws
  split at draws
  · rename_i purpose draft buffer stamping
    split at draws <;> cases draws
    exact stamps?_eq_some.mpr ⟨purpose, draft, buffer, stamping, rfl⟩
  · cases draws

theorem rank_of_stamps (stamps : stamps? access = some id) :
    access.turn = id.turn ∧ access.phase.rank = id.stage.rank - 1 := by
  obtain ⟨purpose, draft, buffer, stamping, rfl⟩ := stamps?_eq_some.mp stamps
  have rank : access.phase.rank + 3 = purpose.stage.rank + 2 := rank_of_delivery stamping
  exact ⟨rfl, by simp only; omega⟩

end Views

variable [Clearable β] [BufferSupply π β] [EventEncoder ε β] {obeys : δ → π × ε → π × ε}
  {access : SiteAccess π ε β δ}

/-- No delivery completes its event twice. -/
theorem stamped_nodup (obeys : δ → π × ε → π × ε) (site : Site π ε) (work : List (List (Job δ)))
    (schedule : List Nat) :
    (((Interleaving.fresh site work).accesses (procedure obeys) schedule).filterMap
      stamps?).Nodup :=
  nodup_of_rank (ranks_fall_run obeys site work schedule) (fun stage => stage.rank - 1)
    fun _ _ => rank_of_stamps

/-- A call moves the counter on just if it completes a sequenced event. -/
theorem numbering_step (thread : Thread) (call : Call β) (site : Site π ε) :
    (call.step thread site).state.reporter.numbering =
      match call.delivery? with
      | some (_, .stamping draft _) =>
        if draft.isSequenced then site.reporter.numbering.draw.2 else site.reporter.numbering
      | _ => site.reporter.numbering := by
  cases call with
  | entering request => rfl
  | identifying | resolvingMethod | resolvingException =>
    simp only [Call.step, Call.delivery?]
    split <;> rfl
  | delivering purpose delivery =>
    cases delivery with
    | obtaining draft =>
      simp only [Call.step, Call.delivery?, Delivery.step]
      split <;> rfl
    | stamping draft buffer => exact draft.numbering_complete _ _
    | writing | returning => rfl

/-- An access moves the counter on just if it completes a sequenced event. -/
theorem numbering_access
    (made : (procedure obeys).step access.job access.phase access.before =
      (access.moved, access.after)) :
    access.after.reporter.numbering =
      match access.phase.delivery? with
      | some (_, .stamping draft _) =>
        if draft.isSequenced then access.before.reporter.numbering.draw.2
        else access.before.reporter.numbering
      | _ => access.before.reporter.numbering := by
  obtain ⟨turn, job, phase, before, moved, after⟩ := access
  simp only at made
  cases happens_of_step made with
  | goesOn siteJob thread call next stepped => exact numbering_step thread call before
  | ends siteJob thread call outcome stepped => exact numbering_step thread call before
  | changes | obeys => rfl

/-- An access either draws no number and leaves the counter as it is, or draws the upcoming one and
moves the counter on by one. -/
theorem numbering_of_step
    (made : (procedure obeys).step access.job access.phase access.before =
      (access.moved, access.after)) :
    match draws? access with
    | none => access.after.reporter.upcomingNumber = access.before.reporter.upcomingNumber
    | some (_, number) => number = access.before.reporter.upcomingNumber ∧
      access.after.reporter.upcomingNumber = access.before.reporter.upcomingNumber + 1 := by
  unfold draws? Reporter.upcomingNumber
  rw [numbering_access made]
  cases access.phase.delivery? with
  | none => rfl
  | some making =>
    obtain ⟨purpose, delivery⟩ := making
    cases delivery with
    | obtaining | writing | returning => rfl
    | stamping draft buffer =>
      cases draft with
      | methodMapping | exceptionMapping | threadMapping => rfl
      | activity | marker => exact ⟨rfl, rfl⟩

/-- The numbers count up from zero in the order in which they are drawn, and the counter stands at
the number of all that have been drawn. -/
theorem numbering_run (obeys : δ → π × ε → π × ε) (site : Site π ε)
    (new : site.reporter.numbering = {}) (work : List (List (Job δ))) (schedule : List Nat) :
    let past := (Interleaving.fresh site work).accesses (procedure obeys) schedule
    ((Interleaving.fresh site work).run (procedure obeys)
        schedule).shared.reporter.upcomingNumber = UInt32.ofNat (numbers past).length ∧
      (numbers past).map Prod.snd = (List.range (numbers past).length).map UInt32.ofNat := by
  refine Interleaving.run_induction (motive := fun traffic past =>
    traffic.shared.reporter.upcomingNumber = UInt32.ofNat (numbers past).length ∧
      (numbers past).map Prod.snd = (List.range (numbers past).length).map UInt32.ofNat)
    (procedure obeys) _ ?_ ?_ ?_ schedule
  · refine ⟨?_, rfl⟩
    change site.reporter.numbering.upcoming = 0
    rw [new]
  · intro traffic past number strand job jobs kept found idle next
    exact kept
  · rintro traffic past strand access ⟨upcoming, counts⟩ makes
    have counted := numbering_of_step makes.made
    rw [← makes.before] at upcoming
    change access.after.reporter.upcomingNumber = _ ∧ _
    rw [numbers_concat]
    cases draws : draws? access with
    | none =>
      rw [draws] at counted
      simp only [Option.toList_none, List.append_nil]
      exact ⟨counted.trans upcoming, counts⟩
    | some drawn =>
      obtain ⟨id, number⟩ := drawn
      rw [draws] at counted
      obtain ⟨rfl, moved⟩ := counted
      rw [moved, upcoming]
      simp only [Option.toList_some, List.length_append, List.length_singleton, List.map_append,
        List.map_cons, List.map_nil, List.range_succ, counts]
      exact ⟨(UInt32.ofNat_add _ 1).symm, trivial⟩

omit [Clearable β] [BufferSupply π β] [EventEncoder ε β] in
/-- As long as the counter does not wrap, a number that is drawn later is larger. -/
theorem numbers_increase {past : List (SiteAccess π ε β δ)}
    (counts : (numbers past).map Prod.snd = (List.range (numbers past).length).map UInt32.ofNat)
    (few : (numbers past).length < 2 ^ 32) :
    (numbers past).Pairwise fun first second => first.2 < second.2 := by
  apply List.pairwise_map.mp
  rw [counts]
  apply List.pairwise_map.mpr
  apply List.pairwise_lt_range.imp_of_mem
  intro first second _ inside less
  have bound := List.mem_range.mp inside
  have room := Nat.lt_trans bound few
  rw [UInt32.lt_iff_toNat_lt, UInt32.toNat_ofNat_of_lt' room,
    UInt32.toNat_ofNat_of_lt' (Nat.lt_trans less room)]
  exact less

/-- An event that is about to be written has been completed by its own delivery, with the time and
the number that there were at that moment. -/
def HasCompleted (past : List (SiteAccess π ε β δ)) (turn : Turn) :
    Option (Purpose × Delivery β) → Prop
  | some (purpose, .writing event _) => ∃ completing ∈ past, ∃ draft buffer,
    completing.turn = turn ∧
      completing.phase.delivery? = some (purpose, .stamping draft buffer) ∧
      event = (draft.complete (reading completing) completing.before.reporter.numbering).1
  | _ => True

/-- The number of the event that a delivery is about to write is the one that the delivery has
drawn. -/
def HasStamped (past : List (SiteAccess π ε β δ)) (turn : Turn) :
    Option (Purpose × Delivery β) → Prop
  | some (purpose, .writing event _) => ∃ completing ∈ past,
    stamps? completing = some ⟨turn, purpose.stage⟩ ∧
      event.number? = (draws? completing).map Prod.snd
  | _ => True

omit [Clearable β] [BufferSupply π β] [EventEncoder ε β] in
theorem HasCompleted.mono {past : List (SiteAccess π ε β δ)} {turn : Turn}
    {delivery : Option (Purpose × Delivery β)} (has : HasCompleted past turn delivery)
    (access : SiteAccess π ε β δ) : HasCompleted (past ++ [access]) turn delivery := by
  unfold HasCompleted at has ⊢
  split
  · obtain ⟨completing, member, facts⟩ := has
    exact ⟨completing, List.mem_append_left _ member, facts⟩
  · trivial

omit [Clearable β] [BufferSupply π β] [EventEncoder ε β] in
/-- A completed event bears the number that its delivery has drawn. -/
theorem HasCompleted.hasStamped {past : List (SiteAccess π ε β δ)} {turn : Turn}
    {delivery : Option (Purpose × Delivery β)} (has : HasCompleted past turn delivery) :
    HasStamped past turn delivery := by
  unfold HasCompleted at has
  unfold HasStamped
  split
  · obtain ⟨completing, member, draft, buffer, turn, stamping, completed⟩ := has
    refine ⟨completing, member, stamps?_eq_some.mpr ⟨_, draft, buffer, stamping, ?_⟩, ?_⟩
    · rw [turn]
    · simp only [completed, draws?, stamping, Draft.number?_complete]
      split <;> rfl
  · trivial

/-- An event is completed with the time and the number that there are at that moment. -/
theorem writing_of_stamping {purpose : Purpose} {draft : Draft} {buffer : β}
    (stamping : access.phase.delivery? = some (purpose, .stamping draft buffer))
    (made : (procedure obeys).step access.job access.phase access.before =
      (access.moved, access.after)) :
    (access.next?.bind fun next => next.phase.delivery?) = some (purpose, .writing
      (draft.complete (access.before.reporter.elapsed access.before.host.clock)
        access.before.reporter.numbering).1 buffer) := by
  obtain ⟨siteJob, thread, calling⟩ := calling_of_delivery stamping
  rw [calling, step_calling, Prod.mk.injEq] at made
  simp only [Access.next?, ← made.1]
  rfl

/-- At every access of a run, an event that is about to be written has been completed by its own
delivery. -/
theorem hasCompleted_run (site : Site π ε) (work : List (List (Job δ))) (schedule : List Nat)
    {earlier later : List (SiteAccess π ε β δ)}
    (same : (Interleaving.fresh site work).accesses (procedure obeys) schedule =
      earlier ++ access :: later) :
    HasCompleted earlier access.turn access.phase.delivery? := by
  refine (Interleaving.underway_induction (motive := fun past
      (engagement : Engagement (Job δ) (Phase β δ)) =>
    HasCompleted past engagement.turn engagement.phase.delivery?)
    (procedure obeys) site work ?_ ?_ ?_ schedule).2 earlier access later same
  · intro past turn job silent
    change HasCompleted past turn (job.start : Phase β δ).delivery?
    rw [delivery?_start]
    trivial
  · intro past other engagement different has
    exact has.mono other
  · intro past own next made goesOn has
    have handles := handles_of_step made
    rw [goesOn, Option.bind_some] at handles
    generalize here : own.phase.delivery? = delivery at handles
    generalize there : next.phase.delivery? = onward at handles ⊢
    cases handles with
    | nothing | opens | obtains | goesWithout | writes | returns => trivial
    | completes purpose draft buffer current =>
      have wrote := writing_of_stamping here made
      rw [goesOn, Option.bind_some, there] at wrote
      simp only [Option.some.injEq, Prod.mk.injEq, Delivery.writing.injEq, true_and,
        and_true] at wrote
      exact ⟨own, by simp, draft, buffer, (Access.turn_next goesOn).symm, here, wrote⟩

/-- At every access of a run, an event that is about to be written bears the number that its
delivery has drawn. -/
theorem hasStamped_run (site : Site π ε) (work : List (List (Job δ))) (schedule : List Nat)
    {earlier later : List (SiteAccess π ε β δ)}
    (same : (Interleaving.fresh site work).accesses (procedure obeys) schedule =
      earlier ++ access :: later) :
    HasStamped earlier access.turn access.phase.delivery? :=
  (hasCompleted_run site work schedule same).hasStamped

end OpenSite

end TraceRelay
