import TraceRelay.Proofs.Stream.Archived
import TraceRelay.Proofs.Stream.Shipments
import TraceRelay.Recording.Directive

/-! What a buffer holds that goes back: what one write has put into an empty one, or nothing. -/

namespace TraceRelay

namespace OpenSite

section Archives

variable {ε δ : Type} [EventEncoder ε Transcript] {obeys : δ → Archive × ε → Archive × ε}

/-- An access adds to what an archive has delivered the transcript that it ships. -/
theorem delivered_access {access : SiteAccess Archive ε Transcript δ}
    (untouched : ∀ order archive encoder,
      (obeys order (archive, encoder)).1.delivered = archive.delivered)
    (made : (procedure obeys).step access.job access.phase access.before =
      (access.moved, access.after)) :
    access.after.reporter.supply.delivered = access.before.reporter.supply.delivered ++
      ((ships? access).map fun shipped => shipped.2.2).toList := by
  unfold ships?
  rcases supply_of_step made with ⟨order, quiet, obeyed⟩ | after
  · rw [obeyed, untouched, quiet]
    simp
  · rw [after]
    cases access.phase.delivery? with
    | none => simp
    | some making =>
      obtain ⟨purpose, delivery⟩ := making
      cases delivery with
      | stamping | writing => simp
      | obtaining draft => simp [Archive.delivered_lend]
      | returning written transcript =>
        simp only [Archive.delivered_ship]
        cases (BufferSupply.ship transcript access.before.reporter.supply).result <;> simp

/-- An archive has delivered the transcripts that have been shipped, in their order. -/
theorem delivered_run (untouched : ∀ order archive encoder,
      (obeys order (archive, encoder)).1.delivered = archive.delivered)
    (site : Site Archive ε) (empty : site.reporter.supply.delivered = [])
    (work : List (List (Job δ))) (schedule : List Nat) :
    ((Interleaving.fresh site work).run (procedure obeys)
      schedule).shared.reporter.supply.delivered =
      (shipped ((Interleaving.fresh site work).accesses (procedure obeys) schedule)).map
        fun shipped => shipped.2.2 := by
  refine Interleaving.run_induction (motive := fun traffic past =>
    traffic.shared.reporter.supply.delivered = (shipped past).map fun shipped => shipped.2.2)
    (procedure obeys) _ ?_ ?_ ?_ schedule
  · exact empty
  · intro traffic past number strand job jobs kept found idle next
    exact kept
  · intro traffic past strand access kept makes
    rw [← makes.before] at kept
    rw [shipped_concat, List.map_append, ← kept]
    refine (delivered_access untouched makes.made).trans ?_
    cases ships? access <;> rfl

end Archives

section Contents

variable {π ε β δ : Type} [Clearable β] [BufferSupply π β] [EventEncoder ε β]
  {obeys : δ → π × ε → π × ε} {access : SiteAccess π ε β δ}

/-- What an encoder is given to write into is empty, if what the supply lends is. -/
theorem empty_of_writes (site : Site π ε) (work : List (List (Job δ))) (schedule : List Nat)
    (isEmpty : β → Prop)
    (lends : ∀ access ∈ (Interleaving.fresh site work).accesses (procedure obeys) schedule,
      ∀ id buffer, obtains? access = some (id, buffer) → isEmpty buffer)
    {id : DeliveryId} {event : Event} {buffer : β}
    (member : access ∈ (Interleaving.fresh site work).accesses (procedure obeys) schedule)
    (writes : writes? access = some (id, event, buffer)) : isEmpty buffer := by
  obtain ⟨earlier, later, same⟩ := List.append_of_mem member
  obtain ⟨purpose, writing, rfl⟩ := writes?_eq_some.mp writes
  have has := hasObtained_run site work schedule same
  rw [writing] at has
  obtain ⟨grant, before, obtains⟩ := has
  exact lends grant (same ▸ List.mem_append_left _ before) _ buffer obtains

omit [BufferSupply π β] in
/-- What a write leaves in an empty buffer to be given back. -/
theorem leftIn_of_outcome {isEmpty : β → Prop}
    (clears : ∀ buffer : β, isEmpty (Clearable.clear buffer)) (encoder : ε) (event : Event)
    (buffer : β) :
    let attempt := EventEncoder.encode event encoder buffer
    (attempt.outcome = .returned () → leftIn encoder event buffer = attempt.buffer) ∧
      (attempt.outcome ≠ .returned () → isEmpty (leftIn encoder event buffer)) := by
  constructor
  · intro succeeds
    simp only [leftIn, succeeds, if_true]
  · intro fails
    simp only [leftIn, fails, if_false]
    exact clears _

/-- A delivery gives back the buffer of its one write. -/
theorem write_of_sends (site : Site π ε) (work : List (List (Job δ))) (schedule : List Nat)
    {earlier later : List (SiteAccess π ε β δ)} {id : DeliveryId} {left : β}
    (same : (Interleaving.fresh site work).accesses (procedure obeys) schedule =
      earlier ++ access :: later)
    (sends : sends? access = some (id, left)) : ∃ write ∈ earlier, ∃ event buffer,
      writes? write = some (id, event, buffer) ∧
        left = leftIn write.before.reporter.encoder event buffer ∧
        ∀ written, ships? access = some (id, written, left) →
          written = (EventEncoder.encode event write.before.reporter.encoder buffer).outcome := by
  obtain ⟨purpose, written, returning, rfl⟩ := sends?_eq_some.mp sends
  have has := hasWritten_run site work schedule same
  rw [returning] at has
  obtain ⟨write, before, event, buffer, writes, ended, rest⟩ := has
  refine ⟨write, before, event, buffer, writes, rest, fun own ships => ?_⟩
  obtain ⟨_, delivering, -, -⟩ := ships?_eq_some.mp ships
  rw [returning] at delivering
  cases delivering
  exact ended

end Contents

section Transcripts

variable {δ : Type} {obeys : δ → Archive × Scribe → Archive × Scribe}

/-- An archive lends empty transcripts to deliveries. -/
theorem fresh_of_obtains {ε : Type} {access : SiteAccess Archive ε Transcript δ} {id : DeliveryId}
    {transcript : Transcript} (obtains : obtains? access = some (id, transcript)) :
    transcript = {} := by
  simp only [obtains?] at obtains
  split at obtains
  · rename_i lent
    cases obtains
    exact Archive.lend_fresh lent
  · cases obtains

/-- A transcript that is shipped holds the event of its delivery, if the write has succeeded, and
nothing otherwise. -/
theorem entries_of_ships (site : Site Archive Scribe) (work : List (List (Job δ)))
    (schedule : List Nat) {id : DeliveryId} {written : Outcome IoFailure Unit}
    {transcript : Transcript}
    (member : (id, written, transcript) ∈
      shipped ((Interleaving.fresh site work).accesses (procedure obeys) schedule)) :
    ∃ event, (chronicle ((Interleaving.fresh site work).accesses (procedure obeys)
        schedule)).written id = some event ∧
      transcript.entries = if written = .returned () then [.complete event] else [] := by
  obtain ⟨access, inside, ships⟩ := List.mem_filterMap.mp member
  obtain ⟨purpose, returning, rfl, -⟩ := ships?_eq_some.mp ships
  obtain ⟨earlier, later, same⟩ := List.append_of_mem inside
  have sends : sends? access = some (⟨access.turn, purpose.stage⟩, transcript) :=
    sends?_eq_some.mpr ⟨purpose, written, returning, rfl⟩
  obtain ⟨write, before, event, buffer, writes, rfl, ended⟩ :=
    write_of_sends site work schedule same sends
  have made : write ∈ (Interleaving.fresh site work).accesses (procedure obeys) schedule :=
    same ▸ List.mem_append_left _ before
  have fresh : buffer = {} := empty_of_writes site work schedule (· = {})
    (fun _ _ _ _ => fresh_of_obtains) made writes
  refine ⟨event, written_of_writes (wrote_nodup obeys site work schedule) made writes, ?_⟩
  rw [ended written ships, fresh]
  exact Scribe.leftIn_fresh _ event

/-- An archive that has delivered what has been shipped holds the events of the shipments, and a
blank transcript for every write that has not succeeded. -/
theorem archived_of_shipped (site : Site Archive Scribe) (work : List (List (Job δ)))
    (schedule : List Nat) {archive : Archive}
    (holds : archive.delivered =
      (shipped ((Interleaving.fresh site work).accesses (procedure obeys) schedule)).map
        fun shipped => shipped.2.2) :
    (∀ transcript ∈ archive.delivered, transcript.entries.length ≤ 1) ∧
      archive.blanks = ((shipped ((Interleaving.fresh site work).accesses (procedure obeys)
        schedule)).filter fun shipped => shipped.2.1 ≠ .returned ()).length ∧
      archive.entries = (shipments ((Interleaving.fresh site work).accesses (procedure obeys)
        schedule)).map fun shipment => .complete shipment.event := by
  refine ⟨?_, ?_, ?_⟩
  · intro transcript member
    rw [holds] at member
    obtain ⟨⟨id, written, transcript⟩, inside, rfl⟩ := List.mem_map.mp member
    obtain ⟨event, -, entries⟩ := entries_of_ships site work schedule inside
    rw [entries]
    split <;> simp
  · rw [Archive.blanks, holds, List.filter_map, List.length_map]
    congr 1
    apply List.filter_congr
    rintro ⟨id, written, transcript⟩ inside
    obtain ⟨event, -, entries⟩ := entries_of_ships site work schedule inside
    by_cases succeeded : written = .returned () <;> simp [entries, succeeded]
  · rw [Archive.entries, holds, List.flatMap_map, shipped, shipments,
      List.filterMap_eq_flatMap_toList, List.filterMap_eq_flatMap_toList, List.flatMap_assoc,
      List.map_flatMap]
    apply List.flatMap_congr
    intro access inside
    unfold Chronicle.shipment? delivers?
    cases ships : ships? access with
    | none => rfl
    | some own =>
      obtain ⟨id, written, transcript⟩ := own
      obtain ⟨event, wrote, entries⟩ := entries_of_ships site work schedule
        (List.mem_filterMap.mpr ⟨access, inside, ships⟩)
      cases written <;> simp [entries, wrote]

end Transcripts

variable {π ε β δ : Type} [Clearable β] [BufferSupply π β] [EventEncoder ε β]

/-- If a supply lends empty buffers, each one that comes back holds what a single write has put
there, or nothing if that write has not succeeded. -/
theorem buffers_unmixed (obeys : δ → π × ε → π × ε) (site : Site π ε)
    (work : List (List (Job δ))) (schedule : List Nat) (isEmpty : β → Prop)
    (clears : ∀ buffer : β, isEmpty (Clearable.clear buffer))
    (lends : ∀ access ∈ (Interleaving.fresh site work).accesses (procedure obeys) schedule,
      ∀ id buffer, obtains? access = some (id, buffer) → isEmpty buffer) :
    let past := (Interleaving.fresh site work).accesses (procedure obeys) schedule
    (wrote past).Nodup ∧
    (∀ earlier access later, past = earlier ++ access :: later → ∀ id left,
      sends? access = some (id, left) →
      ∃ write ∈ earlier, ∃ event empty, writes? write = some (id, event, empty) ∧ isEmpty empty ∧
        let attempt := EventEncoder.encode event write.before.reporter.encoder empty
        (attempt.outcome = .returned () → left = attempt.buffer) ∧
          (attempt.outcome ≠ .returned () → isEmpty left) ∧
          ∀ written, ships? access = some (id, written, left) → written = attempt.outcome) ∧
    ∀ (ζ : Type) (directs : ζ → Archive × Scribe → Archive × Scribe),
      (∀ order archive scribe,
        (directs order (archive, scribe)).1.delivered = archive.delivered) →
      ∀ (office : Site Archive Scribe), office.reporter.supply.delivered = [] →
      ∀ (orders : List (List (Job ζ))) (turns : List Nat),
      let archive := ((Interleaving.fresh office orders).run (procedure directs)
        turns).shared.reporter.supply
      let told := (Interleaving.fresh office orders).accesses (procedure directs) turns
      (∀ entry ∈ archive.entries, ∃ event, entry = .complete event) ∧
      (∀ transcript ∈ archive.delivered, transcript.entries.length ≤ 1) ∧
      archive.blanks =
        ((shipped told).filter fun shipped => shipped.2.1 ≠ .returned ()).length ∧
      archive.entries = (shipments told).map fun shipment => .complete shipment.event := by
  intro past
  refine ⟨wrote_nodup obeys site work schedule, ?_, ?_⟩
  · intro earlier access later same id left sends
    obtain ⟨write, before, event, buffer, writes, rfl, ended⟩ :=
      write_of_sends site work schedule same sends
    have made : write ∈ past := same ▸ List.mem_append_left _ before
    have empty := empty_of_writes site work schedule isEmpty lends made writes
    obtain ⟨succeeds, fails⟩ :=
      leftIn_of_outcome clears write.before.reporter.encoder event buffer
    exact ⟨write, before, event, buffer, writes, empty, succeeds, fails, ended⟩
  · intro ζ directs untouched office atFirst orders turns archive told
    have holds : archive.delivered = (shipped told).map fun shipped => shipped.2.2 :=
      delivered_run untouched office atFirst orders turns
    obtain ⟨single, blanks, entries⟩ := archived_of_shipped office orders turns holds
    refine ⟨?_, single, blanks, entries⟩
    intro entry member
    rw [entries] at member
    obtain ⟨shipment, -, rfl⟩ := List.mem_map.mp member
    exact ⟨shipment.event, rfl⟩

/-- A call whose own write is to be spoilt, and another one whose transcript is to be swallowed. -/
def spoiltCalls : List (List (Job Directive)) :=
  [[.order (.spoil (.write .entry)), .atSite (.request ⟨0⟩ (.report (.entry "run")))],
    [.atSite (.request ⟨0⟩ (.marker "phase" "start")), .order (.failShipping true),
      .atSite (.request ⟨0⟩ (.marker "phase" "end")), .order (.failShipping false)]]

/-- The second strand makes its calls after the first one has got the transcript for its own
event. -/
def spoiltTurns : List Nat :=
  List.replicate 20 0 ++ List.replicate 20 1 ++ List.replicate 4 0

/-- The spoilt write leaves a blank transcript, and the swallowed one leaves nothing. -/
theorem buffers_unmixed_nested :
    let past := (Interleaving.fresh recordingSite spoiltCalls).accesses
      (procedure Directive.obeyed) spoiltTurns
    let archive := ((Interleaving.fresh recordingSite spoiltCalls).run
      (procedure Directive.obeyed) spoiltTurns).shared.reporter.supply
    (wrote past).Nodup ∧ (wrote past).length = 5 ∧ archive.blanks = 1 ∧
      ((shipped past).filter fun shipped => shipped.2.1 ≠ .returned ()).length = 1 ∧
      archive.entries = (shipments past).map (fun shipment => .complete shipment.event) ∧
      archive.entries = [.complete (.threadMapping 0 0 "main"),
        .complete (.methodMapping 1 "run"), .complete (.marker ⟨0, 0⟩ "phase" "start")] := by
  have unmixed := buffers_unmixed Directive.obeyed recordingSite spoiltCalls spoiltTurns (· = {})
    (fun _ => rfl) (fun _ _ _ _ => fresh_of_obtains)
  have archived := unmixed.2.2 Directive Directive.obeyed Directive.delivered_obeyed recordingSite
    rfl spoiltCalls spoiltTurns
  refine ⟨unmixed.1, by rfl, ?_, ?_, archived.2.2.2, by rfl⟩
  · rfl
  · rw [← archived.2.2.1]
    rfl

end OpenSite

end TraceRelay
