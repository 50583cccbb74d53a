import TraceRelay.Proofs.Delivery.Writes
import TraceRelay.Proofs.Stream.Chronicle

/-! The events of a stream, each with its delivery and the job that it was made for. -/

namespace TraceRelay.OpenSite

variable {π ε β δ : Type}

/-- An event that has been shipped, with its delivery and the job of its call. -/
structure Shipment (δ : Type) where
  id : DeliveryId
  job : Job δ
  event : Event
deriving DecidableEq

/-- The shipment that is made with an access: a delivery whose buffer is shipped after a write that
has succeeded ships the event that it has written. -/
def Chronicle.shipment? [BufferSupply π β] (chronicle : Chronicle) (access : SiteAccess π ε β δ) :
    Option (Shipment δ) :=
  (delivers? access).bind fun id =>
    (chronicle.written id).map fun event => { id, job := access.job, event }

/-- The shipments of a run, in order. -/
def shipments [BufferSupply π β] (past : List (SiteAccess π ε β δ)) : List (Shipment δ) :=
  past.filterMap (chronicle past).shipment?

/-- What a delivery gives back with an access has been written with an earlier access. -/
def WritesFirst [Clearable β] [EventEncoder ε β] (past : List (SiteAccess π ε β δ)) : Prop :=
  ∀ earlier access later, past = earlier ++ access :: later →
    HasWritten earlier access.turn access.phase.delivery?

section Views

variable [BufferSupply π β] {past : List (SiteAccess π ε β δ)} {access : SiteAccess π ε β δ}
  {id : DeliveryId} {event : Event}

theorem ends?_eq_shipped {purpose : Purpose} :
    ends? access = some (purpose, true) ↔ ∃ buffer,
      access.phase.delivery? = some (purpose, .returning (.returned ()) buffer) ∧
        (BufferSupply.ship buffer access.before.reporter.supply).result = .ok () := by
  simp only [ends?, Option.bind_eq_some_iff, Prod.exists, Option.map_eq_some_iff, Prod.mk.injEq]
  constructor
  · rintro ⟨own, delivery, delivering, shipped, ships, rfl, rfl⟩
    cases delivery with
    | stamping | writing => cases ships
    | obtaining draft =>
      simp only [Delivery.ships?] at ships
      split at ships <;> cases ships
    | returning written buffer =>
      simp only [Delivery.ships?] at ships
      split at ships
      · rename_i taken
        exact ⟨buffer, delivering, taken⟩
      · cases ships
  · rintro ⟨buffer, delivering, taken⟩
    exact ⟨purpose, _, delivering, true, by simp [Delivery.ships?, taken], rfl, rfl⟩

/-- A delivery ends with its event shipped just if its buffer is shipped after a write that has
succeeded. -/
theorem delivers?_iff_ends : delivers? access = some id ↔ ∃ purpose,
    ends? access = some (purpose, true) ∧ id = ⟨access.turn, purpose.stage⟩ := by
  simp only [delivers?_eq_some, ships?_eq_some, ends?_eq_shipped]
  constructor
  · rintro ⟨buffer, purpose, delivering, rfl, taken⟩
    exact ⟨purpose, ⟨buffer, delivering, taken⟩, rfl⟩
  · rintro ⟨purpose, ⟨buffer, delivering, taken⟩, rfl⟩
    exact ⟨buffer, purpose, delivering, rfl, taken⟩

theorem delivers?_eq_none (unshipped : ∀ purpose, ends? access ≠ some (purpose, true)) :
    delivers? access = none := by
  cases delivers : delivers? access with
  | none => rfl
  | some id =>
    obtain ⟨purpose, ends, -⟩ := delivers?_iff_ends.mp delivers
    exact absurd ends (unshipped purpose)

/-- What a delivery has written it has written with one of the accesses. -/
theorem exists_write_of_written (written : (chronicle past).written id = some event) :
    ∃ write ∈ past, ∃ buffer, writes? write = some (id, event, buffer) := by
  induction past using List.reverseRecOn with
  | nil => cases written
  | append_singleton past access ih =>
    rw [written_concat] at written
    split at written
    · rename_i own ownEvent buffer writes
      rw [Function.update_apply] at written
      split at written
      · rename_i same
        cases written
        exact ⟨access, by simp, buffer, same ▸ writes⟩
      · obtain ⟨write, member, facts⟩ := ih written
        exact ⟨write, List.mem_append_left _ member, facts⟩
    · obtain ⟨write, member, facts⟩ := ih written
      exact ⟨write, List.mem_append_left _ member, facts⟩

/-- What a delivery writes is never written over. -/
theorem written_of_writes {write : SiteAccess π ε β δ} {buffer : β} (once : (wrote past).Nodup)
    (member : write ∈ past) (writes : writes? write = some (id, event, buffer)) :
    (chronicle past).written id = some event := by
  induction past using List.reverseRecOn with
  | nil => cases member
  | append_singleton past access ih =>
    have before : (wrote past).Nodup := by
      rw [wrote_concat] at once
      exact (List.nodup_append.mp once).1
    rw [written_concat]
    rcases List.mem_append.mp member with old | new
    · have kept := ih before old
      split
      · rename_i own ownEvent ownBuffer writesToo
        by_cases same : id = own
        · subst same
          have one := writes_unique once member (by simp) writes writesToo
          rw [one, writes] at writesToo
          cases writesToo
          exact Function.update_self ..
        · rw [Function.update_of_ne same, kept]
      · exact kept
    · rw [List.mem_singleton.mp new] at writes
      simp only [writes, Function.update_self]

theorem mem_shipments {shipment : Shipment δ} : shipment ∈ shipments past ↔
    ∃ access ∈ past, delivers? access = some shipment.id ∧ shipment.job = access.job ∧
      (chronicle past).written shipment.id = some shipment.event := by
  obtain ⟨id, job, event⟩ := shipment
  simp only [shipments, Chronicle.shipment?, List.mem_filterMap, Option.bind_eq_some_iff,
    Option.map_eq_some_iff, Shipment.mk.injEq]
  constructor
  · rintro ⟨access, member, own, delivers, ownEvent, written, rfl, rfl, rfl⟩
    exact ⟨access, member, delivers, rfl, written⟩
  · rintro ⟨access, member, delivers, rfl, written⟩
    exact ⟨access, member, id, delivers, event, written, rfl, rfl, rfl⟩

end Views

variable [Clearable β] [BufferSupply π β] [EventEncoder ε β] {past : List (SiteAccess π ε β δ)}
  {access : SiteAccess π ε β δ} {id : DeliveryId}

omit [BufferSupply π β] in
theorem WritesFirst.before (first : WritesFirst (past ++ [access])) : WritesFirst past := by
  intro earlier own later same
  exact first earlier own (later ++ [access]) (by simp [same])

theorem writesFirst_run (obeys : δ → π × ε → π × ε) (site : Site π ε) (work : List (List (Job δ)))
    (schedule : List Nat) :
    WritesFirst ((Interleaving.fresh site work).accesses (procedure obeys) schedule) :=
  fun _ _ _ same => hasWritten_run site work schedule same

/-- A delivery that ships its event has written it with an earlier access, and this write has
succeeded. -/
theorem WritesFirst.exists_write {earlier later : List (SiteAccess π ε β δ)}
    (first : WritesFirst past) (same : past = earlier ++ access :: later)
    (delivers : delivers? access = some id) : ∃ write ∈ earlier, ∃ event buffer,
      writes? write = some (id, event, buffer) ∧
        (EventEncoder.encode event write.before.reporter.encoder buffer).outcome =
          .returned () := by
  obtain ⟨left, ships⟩ := delivers?_eq_some.mp delivers
  obtain ⟨purpose, returning, rfl, -⟩ := ships?_eq_some.mp ships
  have has := first earlier access later same
  rw [returning] at has
  obtain ⟨write, before, event, buffer, writes, ended, -⟩ := has
  exact ⟨write, before, event, buffer, writes, ended.symm⟩

omit [Clearable β] [EventEncoder ε β] in
theorem written_stays {write : SiteAccess π ε β δ} {event : Event} {buffer : β}
    (once : (wrote (past ++ [access])).Nodup) (member : write ∈ past)
    (writes : writes? write = some (id, event, buffer)) :
    (chronicle (past ++ [access])).written id = (chronicle past).written id := by
  have before : (wrote past).Nodup := by
    rw [wrote_concat] at once
    exact (List.nodup_append.mp once).1
  rw [written_of_writes once (List.mem_append_left _ member) writes,
    written_of_writes before member writes]

/-- A shipment stays what it is, whatever is written later. -/
theorem shipments_concat (once : (wrote (past ++ [access])).Nodup)
    (first : WritesFirst (past ++ [access])) :
    shipments (past ++ [access]) =
      shipments past ++ ((chronicle past).shipment? access).toList := by
  have same {own : SiteAccess π ε β δ} {earlier later : List (SiteAccess π ε β δ)}
      (split : past ++ [access] = earlier ++ own :: later) (within : earlier ⊆ past) :
      (chronicle (past ++ [access])).shipment? own = (chronicle past).shipment? own := by
    unfold Chronicle.shipment?
    cases delivers : delivers? own with
    | none => rfl
    | some id =>
      obtain ⟨write, member, event, buffer, writes, -⟩ := first.exists_write split delivers
      rw [Option.bind_some, Option.bind_some, written_stays once (within member) writes]
  rw [shipments, List.filterMap_append, filterMap_singleton, same rfl (List.Subset.refl _)]
  congr 1
  apply List.filterMap_congr
  intro own member
  obtain ⟨earlier, later, rfl⟩ := List.append_of_mem member
  have split : earlier ++ own :: later ++ [access] = earlier ++ own :: (later ++ [access]) := by
    simp
  exact same split (List.subset_append_left _ _)

/-- Every shipment is made with an access, after those that come before it in the stream. -/
theorem exists_shipping (once : (wrote past).Nodup) (first : WritesFirst past)
    {earlier later : List (Shipment δ)} {shipment : Shipment δ}
    (same : shipments past = earlier ++ shipment :: later) :
    ∃ before access after, past = before ++ access :: after ∧ shipments before = earlier ∧
      (chronicle before).shipment? access = some shipment := by
  induction past using List.reverseRecOn generalizing later with
  | nil => simp [shipments] at same
  | append_singleton past access ih =>
    have onceBefore : (wrote past).Nodup := by
      rw [wrote_concat] at once
      exact (List.nodup_append.mp once).1
    have older {later : List (Shipment δ)} (own : shipments past = earlier ++ shipment :: later) :=
      ih onceBefore first.before own
    rw [shipments_concat once first] at same
    cases ships : (chronicle past).shipment? access with
    | none =>
      simp only [ships, Option.toList_none, List.append_nil] at same
      obtain ⟨before, own, after, rfl, facts⟩ := older same
      exact ⟨before, own, after ++ [access], by simp, facts⟩
    | some last =>
      rw [ships, Option.toList_some] at same
      rcases List.eq_nil_or_concat later with rfl | ⟨later, final, rfl⟩
      · obtain ⟨here, lasts⟩ := List.append_inj' same rfl
        cases lasts
        exact ⟨past, access, [], rfl, here, ships⟩
      · have split : shipments past ++ [last] = (earlier ++ shipment :: later) ++ [final] := by
          simpa using same
        obtain ⟨before, own, after, rfl, facts⟩ := older (List.append_inj' split rfl).1
        exact ⟨before, own, after ++ [access], by simp, facts⟩

/-- The stream is made of the events of the shipments. -/
theorem stream_eq_shipments (once : (wrote past).Nodup) (first : WritesFirst past) :
    (chronicle past).stream = (shipments past).map Shipment.event := by
  induction past using List.reverseRecOn with
  | nil => rfl
  | append_singleton past access ih =>
    have before : (wrote past).Nodup := by
      rw [wrote_concat] at once
      exact (List.nodup_append.mp once).1
    rw [shipments_concat once first, List.map_append, ← ih before first.before, chronicle_concat]
    simp only [Chronicle.add, Chronicle.shipment?]
    split
    · rename_i purpose ends
      have delivers := delivers?_iff_ends.mpr ⟨purpose, ends, rfl⟩
      rw [delivers, Option.bind_some]
      cases (chronicle past).written ⟨access.turn, purpose.stage⟩ <;> rfl
    · rename_i unended
      rw [delivers?_eq_none unended]
      exact (List.append_nil _).symm

theorem stream_run (obeys : δ → π × ε → π × ε) (site : Site π ε) (work : List (List (Job δ)))
    (schedule : List Nat) :
    (chronicle ((Interleaving.fresh site work).accesses (procedure obeys) schedule)).stream =
      (shipments ((Interleaving.fresh site work).accesses (procedure obeys) schedule)).map
        Shipment.event :=
  stream_eq_shipments (wrote_nodup obeys site work schedule)
    (writesFirst_run obeys site work schedule)

end TraceRelay.OpenSite
