import TraceRelay.Proofs.Delivery.Drawing
import TraceRelay.Proofs.Stream.Course

/-! In an undisturbed run each delivery that gets a buffer ships its event. -/

namespace TraceRelay.OpenSite

/-- The drafts completed one after the other, and the counter after that. -/
def completeAll (current : DeliveryId → Timestamp) :
    Numbering → List (DeliveryId × Draft) → List (DeliveryId × Event) × Numbering
  | numbering, [] => ([], numbering)
  | numbering, (id, draft) :: rest =>
    let (event, numbering) := draft.complete (current id) numbering
    let (events, numbering) := completeAll current numbering rest
    ((id, event) :: events, numbering)

theorem completeAll_append (current : DeliveryId → Timestamp) (numbering : Numbering)
    (drafts more : List (DeliveryId × Draft)) :
    completeAll current numbering (drafts ++ more) =
      let (events, upcoming) := completeAll current numbering drafts
      let (later, last) := completeAll current upcoming more
      (events ++ later, last) := by
  induction drafts generalizing numbering with
  | nil => rfl
  | cons entry rest ih => simp only [List.cons_append, completeAll, ih]

theorem completeAll_concat (current : DeliveryId → Timestamp) (numbering : Numbering)
    (drafts : List (DeliveryId × Draft)) (id : DeliveryId) (draft : Draft) :
    completeAll current numbering (drafts ++ [(id, draft)]) =
      let (events, upcoming) := completeAll current numbering drafts
      let (event, last) := draft.complete (current id) upcoming
      (events ++ [(id, event)], last) :=
  completeAll_append current numbering drafts [(id, draft)]

section Views

variable {π ε β δ : Type} [BufferSupply π β] {past : List (SiteAccess π ε β δ)}
  {access : SiteAccess π ε β δ}

/-- The event for which a delivery gets a buffer with an access, with its delivery. -/
def grants? (access : SiteAccess π ε β δ) : Option (DeliveryId × Draft) :=
  (obtains? access).bind fun _ => access.phase.draft? access.turn

/-- The deliveries that have got a buffer, in order, each with the event to be written. -/
def granted (past : List (SiteAccess π ε β δ)) : List (DeliveryId × Draft) :=
  past.filterMap grants?

theorem granted_concat (past : List (SiteAccess π ε β δ)) (access : SiteAccess π ε β δ) :
    granted (past ++ [access]) = granted past ++ (grants? access).toList := by
  rw [granted, List.filterMap_append, filterMap_singleton]
  rfl

/-- Buffers are got by those deliveries that have asked for one and have not been refused. -/
theorem granted_eq_filter (once : (asked past).Nodup) :
    granted past = (drafts past).filter fun entry => decide (entry.1 ∈ obtained past) := by
  rw [granted, drafts, List.filter_filterMap]
  apply List.filterMap_congr
  intro access member
  have asks := asks?_eq_draft access
  unfold grants?
  cases asking : access.phase.draft? access.turn with
  | none => cases obtains? access <;> rfl
  | some entry =>
    rw [asking] at asks
    cases obtains : obtains? access with
    | none =>
      have refused := not_obtained once member asks obtains
      simp [Option.filter, refused]
    | some grant =>
      obtain ⟨id, buffer⟩ := grant
      have same := asks_of_obtains obtains
      rw [asks] at same
      cases same
      have inside : entry.1 ∈ obtained past :=
        List.mem_filterMap.mpr ⟨access, member, by rw [obtains]; rfl⟩
      simp [Option.filter, inside]

/-- The events that have been shipped, with their deliveries. -/
def delivered (past : List (SiteAccess π ε β δ)) : List (DeliveryId × Event) :=
  (shipments past).map fun shipment => (shipment.id, shipment.event)

/-- The event that a delivery in progress is about to ship, and the counter after it. -/
def inHand (current : DeliveryId → Timestamp) (past : List (SiteAccess π ε β δ))
    (numbering : Numbering) (turn : Turn) :
    Option (Purpose × Delivery β) → List (DeliveryId × Event) × Numbering
  | some (purpose, .stamping draft _) =>
    let id : DeliveryId := ⟨turn, purpose.stage⟩
    let (event, numbering) := draft.complete (current id) numbering
    ([(id, event)], numbering)
  | some (purpose, .writing event _) => ([(⟨turn, purpose.stage⟩, event)], numbering)
  | some (purpose, .returning _ _) =>
    let id : DeliveryId := ⟨turn, purpose.stage⟩
    (((chronicle past).written id).toList.map fun event => (id, event), numbering)
  | _ => ([], numbering)

/-- The granted deliveries have shipped their events, completed in the order in which the buffers
were got, but for the one in hand. The counter was `initial` before the first one. -/
def Fulfilled (initial : Numbering) (current : DeliveryId → Timestamp)
    (past : List (SiteAccess π ε β δ)) (numbering : Numbering) (turn : Turn)
    (delivery? : Option (Purpose × Delivery β)) : Prop :=
  completeAll current initial (granted past) =
    (delivered past ++ (inHand current past numbering turn delivery?).1,
      (inHand current past numbering turn delivery?).2)

theorem shipment?_eq_none (chronicle : Chronicle) {access : SiteAccess π ε β δ}
    (waiting : ∀ purpose written buffer,
      access.phase.delivery? ≠ some (purpose, .returning written buffer)) :
    chronicle.shipment? access = none := by
  have silent : delivers? access = none := by
    apply delivers?_eq_none
    intro purpose ends
    obtain ⟨buffer, returning, -⟩ := ends?_eq_shipped.mp ends
    exact waiting _ _ _ returning
  rw [Chronicle.shipment?, silent]
  rfl

end Views

section Runs

variable {π ε β δ : Type} [Clearable β] [BufferSupply π β] [EventEncoder ε β]
  {obeys : δ → π × ε → π × ε} {past : List (SiteAccess π ε β δ)} {access : SiteAccess π ε β δ}
  {initial : Numbering} {current : DeliveryId → Timestamp}

theorem delivered_concat {clock : Turn → Option Stage → Nat}
    (undisturbed : Undisturbed clock (past ++ [access])) :
    delivered (past ++ [access]) = delivered past ++
      (((chronicle past).shipment? access).map fun shipment =>
        (shipment.id, shipment.event)).toList := by
  rw [delivered, shipments_concat undisturbed.once undisturbed.first, List.map_append]
  cases (chronicle past).shipment? access <;> rfl

theorem map_snd_delivered (obeys : δ → π × ε → π × ε) (site : Site π ε)
    (work : List (List (Job δ))) (schedule : List Nat) :
    (delivered ((Interleaving.fresh site work).accesses (procedure obeys) schedule)).map Prod.snd =
      (chronicle ((Interleaving.fresh site work).accesses (procedure obeys) schedule)).stream := by
  rw [delivered, List.map_map]
  exact (stream_run obeys site work schedule).symm

/-- An access that neither gets a buffer nor gives one back leads the event in hand on. -/
theorem fulfilled_of_waiting {clock : Turn → Option Stage → Nat} {turn : Turn}
    {before after : Numbering} {delivery? next? : Option (Purpose × Delivery β)}
    (waiting : ∀ purpose written buffer,
      access.phase.delivery? ≠ some (purpose, .returning written buffer))
    (refused : grants? access = none) (undisturbed : Undisturbed clock (past ++ [access]))
    (fulfilled : Fulfilled initial current past before turn delivery?)
    (same : inHand current (past ++ [access]) after turn next? =
      inHand current past before turn delivery?) :
    Fulfilled initial current (past ++ [access]) after turn next? := by
  rw [Fulfilled, granted_concat, refused, delivered_concat undisturbed,
    shipment?_eq_none _ waiting, same]
  simpa [Fulfilled] using fulfilled

/-- An access that makes no delivery leaves the deliveries as they are. -/
theorem fulfilled_of_between {clock : Turn → Option Stage → Nat}
    (between : access.phase.delivery? = none)
    (made : (procedure obeys).step access.job access.phase access.before =
      (access.moved, access.after)) (undisturbed : Undisturbed clock (past ++ [access]))
    {turn : Turn} {delivery? : Option (Purpose × Delivery β)}
    (fulfilled : Fulfilled initial current past access.before.reporter.numbering turn delivery?) :
    Fulfilled initial current (past ++ [access]) access.after.reporter.numbering turn
      delivery? := by
  have counter := numbering_access made
  rw [between] at counter
  have written : (chronicle (past ++ [access])).written = (chronicle past).written := by
    rw [written_concat]
    simp [writes?, between]
  apply fulfilled_of_waiting (by simp [between]) _ undisturbed fulfilled
  · simp only [inHand, written, counter]
  · simp [grants?, obtains?, between]

/-- The time that a delivery finds when it completes its event. -/
def timeAt (clock : Turn → Option Stage → Nat) (createdAt : Nat) (id : DeliveryId) : Timestamp :=
  Timestamp.ofNanoseconds (clock id.turn (some id.stage) - createdAt)

theorem Undisturbed.complete {clock : Turn → Option Stage → Nat} {purpose : Purpose}
    {draft : Draft} {buffer : β} (undisturbed : Undisturbed clock past) (made : access ∈ past)
    (stamping : access.phase.delivery? = some (purpose, .stamping draft buffer)) :
    draft.complete (access.before.reporter.elapsed access.before.host.clock)
        access.before.reporter.numbering =
      draft.complete (timeAt clock access.before.reporter.createdAt ⟨access.turn, purpose.stage⟩)
        access.before.reporter.numbering := by
  cases draft with
  | methodMapping | exceptionMapping | activity | marker => rfl
  | threadMapping id name =>
    obtain ⟨siteJob, thread, calling⟩ := calling_of_delivery stamping
    have shown := undisturbed.steady access made (access.turn, some purpose.stage)
      (by simp [readsClock?, calling])
    rw [Reporter.elapsed, shown]
    rfl

/-- An access of a delivery carries the delivery on to its shipment. -/
theorem fulfilled_of_access {clock : Turn → Option Stage → Nat}
    (undisturbed : Undisturbed clock (past ++ [access]))
    (made : (procedure obeys).step access.job access.phase access.before =
      (access.moved, access.after))
    (fulfilled : Fulfilled initial (timeAt clock access.before.reporter.createdAt) past
      access.before.reporter.numbering access.turn access.phase.delivery?) :
    Fulfilled initial (timeAt clock access.before.reporter.createdAt) (past ++ [access])
      access.after.reporter.numbering access.turn
      (access.next?.bind fun next => next.phase.delivery?) := by
  have handles := handles_of_step made
  have counter := numbering_access made
  have new : access ∈ past ++ [access] := by simp
  generalize there : (access.next?.bind fun next => next.phase.delivery?) = next at handles ⊢
  generalize here : access.phase.delivery? = delivery at handles fulfilled counter
  cases handles with
  | nothing => exact fulfilled_of_between here made undisturbed fulfilled
  | opens purpose draft => exact fulfilled_of_between here made undisturbed fulfilled
  | obtains purpose draft buffer lent =>
    -- the event counts from here on, although it is completed with the next access only
    have grants : grants? access = some (⟨access.turn, purpose.stage⟩, draft) := by
      simp [grants?, obtains?, Phase.draft?, here, lent]
    have before : completeAll _ initial (granted past) =
      (delivered past ++ [], access.before.reporter.numbering) := fulfilled
    rw [Fulfilled, granted_concat, grants, Option.toList_some, completeAll_concat, before,
      delivered_concat undisturbed, shipment?_eq_none _ (by simp [here]), counter]
    simp [inHand]
  | goesWithout purpose draft kept =>
    have refused : obtains? access = none := by
      simp only [obtains?, here]
      split
      · rename_i own buffer asking lent
        exact absurd lent (kept buffer)
      · rfl
    apply fulfilled_of_waiting (by simp [here]) _ undisturbed fulfilled
    · rw [counter]
      rfl
    · rw [grants?, refused]
      rfl
  | completes purpose draft buffer time =>
    have wrote := there.symm.trans (writing_of_stamping here made)
    simp only [Option.some.injEq, Prod.mk.injEq, Delivery.writing.injEq, true_and,
      and_true] at wrote
    have drawn := counter.trans (draft.numbering_complete
      (timeAt clock access.before.reporter.createdAt ⟨access.turn, purpose.stage⟩) _).symm
    apply fulfilled_of_waiting (by simp [here]) _ undisturbed fulfilled
    · rw [wrote, undisturbed.complete new here, drawn]
      rfl
    · simp [grants?, Phase.draft?, here]
  | writes purpose event buffer =>
    have writes : writes? access = some (⟨access.turn, purpose.stage⟩, event, buffer) :=
      writes?_eq_some.mpr ⟨purpose, here, rfl⟩
    apply fulfilled_of_waiting (by simp [here]) _ undisturbed fulfilled
    · rw [counter]
      simp [inHand, written_concat, writes]
    · simp [grants?, Phase.draft?, here]
  | returns purpose written buffer =>
    have returned := undisturbed.returned rfl here
    have shipped := ok_of_isOk (undisturbed.smooth access new _ here)
    have delivers : delivers? access = some ⟨access.turn, purpose.stage⟩ :=
      delivers?_eq_some.mpr ⟨buffer, ships?_eq_some.mpr ⟨purpose, returned ▸ here, rfl, shipped⟩⟩
    have nothing : grants? access = none := by
      simp [grants?, Phase.draft?, here]
    rw [Fulfilled, granted_concat, nothing, delivered_concat undisturbed, Chronicle.shipment?,
      delivers, counter]
    simp only [Option.toList_none, List.append_nil]
    rw [fulfilled]
    cases given : (chronicle past).written ⟨access.turn, purpose.stage⟩ <;> simp [inHand, given]

/-- No access changes when the reporter was created. -/
theorem createdAt_access
    (made : (procedure obeys).step access.job access.phase access.before =
      (access.moved, access.after)) :
    access.after.reporter.createdAt = access.before.reporter.createdAt := by
  obtain ⟨turn, job, phase, before, moved, after⟩ := access
  simp only at made
  have kept (thread : Thread) (call : Call β) :
      (call.step thread before).state.reporter.createdAt = before.reporter.createdAt := by
    cases call with
    | entering request => rfl
    | identifying | resolvingMethod | resolvingException =>
      simp only [Call.step]
      split <;> rfl
    | delivering purpose delivery =>
      cases delivery with
      | obtaining draft =>
        simp only [Call.step, Delivery.step]
        split <;> rfl
      | stamping | writing | returning => rfl
  cases happens_of_step made with
  | goesOn siteJob thread call next stepped => exact kept thread call
  | ends siteJob thread call outcome stepped => exact kept thread call
  | changes | obeys => rfl

/-- In an undisturbed run all deliveries that have got a buffer ship their events, but for the one
in progress. -/
theorem fulfilled_run (obeys : δ → π × ε → π × ε) (site : Site π ε)
    (jobs : List (Job δ)) (others : List (List (Job δ))) (schedule : List Nat)
    {clock : Turn → Option Stage → Nat}
    (undisturbed : Undisturbed clock
      ((Interleaving.fresh site (jobs :: others)).accesses (procedure obeys) schedule)) :
    ∃ strand,
      ((Interleaving.fresh site (jobs :: others)).run (procedure obeys) schedule).strands[0]? =
          some strand ∧
        ((Interleaving.fresh site (jobs :: others)).run (procedure obeys)
            schedule).shared.reporter.createdAt = site.reporter.createdAt ∧
        Fulfilled site.reporter.numbering (timeAt clock site.reporter.createdAt)
          ((Interleaving.fresh site (jobs :: others)).accesses (procedure obeys) schedule)
          ((Interleaving.fresh site (jobs :: others)).run (procedure obeys)
            schedule).shared.reporter.numbering
          ⟨0, strand.ended.length⟩ (strand.going.bind fun entry => entry.2.delivery?) := by
  refine strand_induction (motive := fun strand shared past =>
    shared.reporter.createdAt = site.reporter.createdAt ∧
      Fulfilled site.reporter.numbering (timeAt clock site.reporter.createdAt) past
        shared.reporter.numbering ⟨0, strand.ended.length⟩
        (strand.going.bind fun entry => entry.2.delivery?))
    obeys site jobs others (fun _ _ => Undisturbed.before) (fun _ _ => Undisturbed.last_alone)
    ?_ ?_ ?_ ?_ schedule undisturbed
  · exact ⟨rfl, rfl⟩
  · rintro strand shared past job rest idle next ⟨created, fulfilled⟩
    rw [idle] at fulfilled
    refine ⟨created, ?_⟩
    change Fulfilled _ _ _ _ _ (job.start : Phase β δ).delivery?
    rw [delivery?_start]
    exact fulfilled
  · rintro strand past access undisturbed going turn made ⟨created, fulfilled⟩
    refine ⟨(createdAt_access made).trans created, ?_⟩
    rw [going, ← turn, ← created] at fulfilled
    have later := fulfilled_of_access undisturbed made fulfilled
    rw [created] at later
    cases moved : access.moved with
    | continues phase =>
      simp only [Access.next?, moved, turn] at later
      exact later
    | finished result =>
      -- nothing is in hand any more, so it does not matter whose turn is next
      simp only [Access.next?, moved] at later
      exact later
  · rintro strand past access undisturbed quiet made ⟨created, fulfilled⟩
    exact ⟨(createdAt_access made).trans created,
      fulfilled_of_between (delivery?_of_quiet quiet) made undisturbed fulfilled⟩

end Runs

end TraceRelay.OpenSite
