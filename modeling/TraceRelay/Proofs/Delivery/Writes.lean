import TraceRelay.Proofs.Delivery.Custody

/-! A delivery writes once, and gives back what this write has left in its buffer. -/

namespace TraceRelay.OpenSite

variable {π ε β δ : Type}

/-- The deliveries that have written, in order. -/
def wrote (past : List (SiteAccess π ε β δ)) : List DeliveryId :=
  past.filterMap fun access => (writes? access).map Prod.fst

/-- The delivery whose buffer the supply ships with an access, how its write has ended, and the
buffer. -/
def ships? [BufferSupply π β] (access : SiteAccess π ε β δ) :
    Option (DeliveryId × Outcome IoFailure Unit × β) :=
  match access.phase.delivery? with
  | some (purpose, .returning written buffer) =>
    match (BufferSupply.ship buffer access.before.reporter.supply).result with
    | .ok () => some (⟨access.turn, purpose.stage⟩, written, buffer)
    | .error _ => none
  | _ => none

/-- The delivery whose event the supply ships with an access. -/
def delivers? [BufferSupply π β] (access : SiteAccess π ε β δ) : Option DeliveryId :=
  match ships? access with
  | some (id, .returned (), _) => some id
  | _ => none

/-- The buffers that the supply has shipped, in order, each with its delivery and the end of its
write. -/
def shipped [BufferSupply π β] (past : List (SiteAccess π ε β δ)) :
    List (DeliveryId × Outcome IoFailure Unit × β) :=
  past.filterMap ships?

theorem wrote_concat (past : List (SiteAccess π ε β δ)) (access : SiteAccess π ε β δ) :
    wrote (past ++ [access]) = wrote past ++ ((writes? access).map Prod.fst).toList := by
  rw [wrote, List.filterMap_append, filterMap_singleton]
  rfl

theorem shipped_concat [BufferSupply π β] (past : List (SiteAccess π ε β δ))
    (access : SiteAccess π ε β δ) :
    shipped (past ++ [access]) = shipped past ++ (ships? access).toList := by
  rw [shipped, List.filterMap_append, filterMap_singleton]
  rfl

section Views

variable {access : SiteAccess π ε β δ} {id : DeliveryId}

theorem writes?_eq_some {event : Event} {buffer : β} :
    writes? access = some (id, event, buffer) ↔ ∃ purpose,
      access.phase.delivery? = some (purpose, .writing event buffer) ∧
        id = ⟨access.turn, purpose.stage⟩ := by
  unfold writes?
  constructor
  · intro writes
    split at writes
    · rename_i purpose event buffer writing
      cases writes
      exact ⟨purpose, writing, rfl⟩
    · cases writes
  · rintro ⟨purpose, writing, rfl⟩
    rw [writing]

theorem sends?_eq_some {buffer : β} :
    sends? access = some (id, buffer) ↔ ∃ purpose written,
      access.phase.delivery? = some (purpose, .returning written buffer) ∧
        id = ⟨access.turn, purpose.stage⟩ := by
  unfold sends?
  constructor
  · intro sends
    split at sends
    · rename_i purpose written buffer returning
      cases sends
      exact ⟨purpose, written, returning, rfl⟩
    · cases sends
  · rintro ⟨purpose, written, returning, rfl⟩
    rw [returning]

theorem ships?_eq_some [BufferSupply π β] {written : Outcome IoFailure Unit} {buffer : β} :
    ships? access = some (id, written, buffer) ↔ ∃ purpose,
      access.phase.delivery? = some (purpose, .returning written buffer) ∧
        id = ⟨access.turn, purpose.stage⟩ ∧
        (BufferSupply.ship buffer access.before.reporter.supply).result = .ok () := by
  unfold ships?
  constructor
  · intro ships
    split at ships
    · rename_i purpose written buffer returning
      split at ships
      · rename_i shipped
        cases ships
        exact ⟨purpose, returning, rfl, shipped⟩
      · cases ships
    · cases ships
  · rintro ⟨purpose, returning, rfl, shipped⟩
    simp [returning, shipped]

theorem sends_of_ships [BufferSupply π β] {written : Outcome IoFailure Unit} {buffer : β}
    (ships : ships? access = some (id, written, buffer)) : sends? access = some (id, buffer) := by
  obtain ⟨purpose, returning, named, -⟩ := ships?_eq_some.mp ships
  exact sends?_eq_some.mpr ⟨purpose, written, returning, named⟩

theorem delivers?_eq_some [BufferSupply π β] :
    delivers? access = some id ↔ ∃ buffer, ships? access = some (id, .returned (), buffer) := by
  unfold delivers?
  constructor
  · intro delivers
    split at delivers
    · rename_i buffer ships
      cases delivers
      exact ⟨buffer, ships⟩
    · cases delivers
  · rintro ⟨buffer, ships⟩
    rw [ships]

theorem rank_of_writes {event : Event} {buffer : β}
    (writes : writes? access = some (id, event, buffer)) :
    access.turn = id.turn ∧ access.phase.rank = id.stage.rank - 2 := by
  obtain ⟨purpose, writing, rfl⟩ := writes?_eq_some.mp writes
  have rank : access.phase.rank + 3 = purpose.stage.rank + 1 := rank_of_delivery writing
  exact ⟨rfl, by simp only; omega⟩

theorem rank_of_sends {buffer : β} (sends : sends? access = some (id, buffer)) :
    access.turn = id.turn ∧ access.phase.rank = id.stage.rank - 3 := by
  obtain ⟨purpose, written, returning, rfl⟩ := sends?_eq_some.mp sends
  have rank : access.phase.rank + 3 = purpose.stage.rank := rank_of_delivery returning
  exact ⟨rfl, by simp only; omega⟩

end Views

/-- No more buffers have been shipped than have been given back. -/
theorem length_shipped_le [BufferSupply π β] (past : List (SiteAccess π ε β δ)) :
    (shipped past).length ≤ (sent past).length := by
  rw [shipped, sent, List.length_filterMap_eq_countP, List.length_filterMap_eq_countP]
  refine List.countP_mono_left fun access _ ships => ?_
  obtain ⟨⟨id, written, buffer⟩, shipped⟩ := Option.isSome_iff_exists.mp ships
  rw [sends_of_ships shipped]
  rfl

variable [Clearable β] [BufferSupply π β] [EventEncoder ε β] {obeys : δ → π × ε → π × ε}
  {access : SiteAccess π ε β δ}

/-- No delivery writes twice. -/
theorem wrote_nodup (obeys : δ → π × ε → π × ε) (site : Site π ε) (work : List (List (Job δ)))
    (schedule : List Nat) :
    (wrote ((Interleaving.fresh site work).accesses (procedure obeys) schedule)).Nodup := by
  apply nodup_of_rank (ranks_fall_run obeys site work schedule) (fun stage => stage.rank - 2)
  intro access id named
  obtain ⟨⟨own, event, buffer⟩, writes, rfl⟩ := Option.map_eq_some_iff.mp named
  exact rank_of_writes writes

omit [Clearable β] [BufferSupply π β] [EventEncoder ε β] in
/-- All that a delivery is known to have written it has written with one access. -/
theorem writes_unique {past : List (SiteAccess π ε β δ)} (once : (wrote past).Nodup)
    {write other : SiteAccess π ε β δ} {id : DeliveryId} {event otherEvent : Event}
    {buffer otherBuffer : β} (made : write ∈ past) (madeOther : other ∈ past)
    (writes : writes? write = some (id, event, buffer))
    (writesOther : writes? other = some (id, otherEvent, otherBuffer)) : other = write :=
  filterMap_unique once made madeOther (by rw [writes, Option.map_some])
    (by rw [writesOther, Option.map_some])

/-- The buffer that a delivery is about to give back is what its write has left, and its write has
ended as the delivery remembers. -/
def HasWritten (past : List (SiteAccess π ε β δ)) (turn : Turn) :
    Option (Purpose × Delivery β) → Prop
  | some (purpose, .returning written left) => ∃ write ∈ past, ∃ event buffer,
    writes? write = some (⟨turn, purpose.stage⟩, event, buffer) ∧
      written = (EventEncoder.encode event write.before.reporter.encoder buffer).outcome ∧
      left = leftIn write.before.reporter.encoder event buffer
  | _ => True

omit [BufferSupply π β] in
theorem HasWritten.mono {past : List (SiteAccess π ε β δ)} {turn : Turn}
    {delivery : Option (Purpose × Delivery β)} (has : HasWritten past turn delivery)
    (access : SiteAccess π ε β δ) : HasWritten (past ++ [access]) turn delivery := by
  unfold HasWritten at has ⊢
  split
  · obtain ⟨write, member, facts⟩ := has
    exact ⟨write, List.mem_append_left _ member, facts⟩
  · trivial

/-- At every access of a run, what its delivery gives back is what its write has left. -/
theorem hasWritten_run (site : Site π ε) (work : List (List (Job δ))) (schedule : List Nat)
    {earlier later : List (SiteAccess π ε β δ)}
    (same : (Interleaving.fresh site work).accesses (procedure obeys) schedule =
      earlier ++ access :: later) :
    HasWritten earlier access.turn access.phase.delivery? := by
  refine delivery_induction obeys site work schedule (fun _ _ => trivial)
    (fun _ access _ _ has => has.mono access) ?_ same
  intro past own next? handles has
  generalize here : own.phase.delivery? = delivery at handles
  cases handles with
  | nothing | opens | obtains | goesWithout | completes | returns => trivial
  | writes purpose event buffer =>
    exact ⟨own, by simp, event, buffer, writes?_eq_some.mpr ⟨purpose, here, rfl⟩, rfl, rfl⟩

end TraceRelay.OpenSite
