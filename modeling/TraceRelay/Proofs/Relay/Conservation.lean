import TraceRelay.Proofs.Relay.Conveyance
import TraceRelay.Proofs.Relay.Lines
import TraceRelay.Proofs.Stream.Contents
import TraceRelay.Proofs.Stream.Outline

/-! The sink of a relay gets the line of each event for which there was a buffer. -/

namespace TraceRelay.Relay

open OpenSite (Smooth obtains? sends? ships? writes? delivers? asked obtained shipped sent held
  shipments chronicle)

variable {β σ : Type} [ByteBuffer β] [PatientSink β] [PatientSink σ] {fine : σ → Prop}
  {buffers : List β} {sink : σ} {relay : Relay β (ObservedSink σ)} {access : RelayAccess β σ}

/-- The conveyor of a fresh relay whose sink keeps a record. -/
abbrev conveyor (buffers : List β) (sink : σ) : Conveyor β (ObservedSink σ) :=
  Conveyor.start buffers { sink }

omit [ByteBuffer β] [PatientSink β] [PatientSink σ] in
theorem senders_conveyor : (conveyor buffers sink).pool.senders ≠ 0 := Nat.succ_ne_zero 1

omit [PatientSink β] in
theorem works_conveyance (obliging : Obliging fine) (good : fine sink) (buffers : List β)
    (past : List (RelayAccess β σ)) : ∃ heard, Conveyor.Works fine
      (conveyance (conveyor buffers sink) past).past
      (conveyance (conveyor buffers sink) past).state heard := by
  have works (pool : CirculatingPool β) (idle : pool.queued = [])
      (alive : pool.hasReceiver = true) :=
    Conveyor.works_follow obliging idle alive good (past.filterMap act?)
  exact works (conveyor buffers sink).pool rfl rfl

section Runs

variable (obliging : Obliging fine) (good : fine sink)
  (supplied : relay.reporter.supply = conveyor buffers sink)
  (work : List (List Job)) (schedule : List Nat)

include obliging good supplied

/-- As long as calls go on, the consumer is at work. -/
theorem hears_of_access
    (member : access ∈ (Interleaving.fresh relay work).accesses procedure schedule) :
    access.before.reporter.supply.pool.hasReceiver = true := by
  obtain ⟨earlier, later, same⟩ := List.append_of_mem member
  obtain ⟨first, -, -, strand, -, rfl, makes, -, -⟩ :=
    Interleaving.exists_makes procedure _ schedule earlier later access same
  have mirrors := mirrors_run supplied senders_conveyor work first
  obtain ⟨heard, works⟩ := works_conveyance obliging good buffers
    ((Interleaving.fresh relay work).accesses procedure first)
  have hears := works.hears_of_unsummoned (mirrors.unsummoned senders_conveyor)
  rw [makes.before, mirrors.supply]
  exact hears

/-- In a relay with growing buffers no delivery meets a failure. -/
theorem smooth_of_access (growing : Growing β)
    (member : access ∈ (Interleaving.fresh relay work).accesses procedure schedule) :
    Smooth access := by
  rintro ⟨purpose, delivery⟩ delivering
  have hears := hears_of_access obliging good supplied work schedule member
  cases delivery with
  | obtaining draft =>
    obtain ⟨buffer?, lent, -⟩ := lend_perform access.before.reporter.supply
    simp [Delivery.Smooth, lent, Except.isOk, Except.toBool]
  | stamping draft buffer => trivial
  | writing event buffer => exact (growing.encode event _ buffer).1
  | returning written buffer =>
    simp [Delivery.Smooth, BufferSupply.ship, CirculatingPool.enqueue, hears, Except.isOk,
      Except.toBool]

/-- Whenever the guard of the consumer is let go in the course of a run, everything that has been
shipped gets into the sink, and its buffers go back to the pool. -/
theorem release_of_run :
    let past := (Interleaving.fresh relay work).accesses procedure schedule
    let final := ((Interleaving.fresh relay work).run procedure schedule).shared.stop
    final.guard.consumer = .inr (.returned ()) ∧
      final.guard.sink.received =
        ByteBuffer.joined ((shipped past).map fun shipped => shipped.2.2) ∧
      (past.filterMap fun access => (obtains? access).map Prod.snd) ++ final.pool.free =
        buffers ++ ((shipped past).map fun shipped => shipped.2.2).map Clearable.clear ∧
      (asked past).length = (obtained past).length + final.pool.misses := by
  intro past final
  have mirrors := mirrors_run supplied senders_conveyor work schedule
  have unsummoned := mirrors.unsummoned senders_conveyor
  have buffersSent : Conveyor.buffersSent (conveyance (conveyor buffers sink) past).past =
      (shipped past).map fun shipped => shipped.2.2 := by
    rw [Conveyor.buffersSent, mirrors.sent, List.filterMap_map]
    exact congrFun List.filterMap_eq_map _
  have released (pool : CirculatingPool β) (idle : pool.queued = [])
      (alive : pool.hasReceiver = true) :=
    Conveyor.release_complete obliging idle alive good (past.filterMap act?)
  have room : ∀ earlier, earlier <+: (conveyance (conveyor buffers sink) past).past →
      buffers.length + (Conveyor.buffersSent earlier).length ≤
        max buffers.length 1 + (Conveyor.lent earlier).length :=
    fun earlier inside => Nat.add_le_add (Nat.le_max_left _ _) (mirrors.fewer earlier inside)
  obtain ⟨ended, received, ledger, misses⟩ :=
    released (conveyor buffers sink).pool rfl rfl unsummoned room
  have final_eq : final.reporter.supply =
      (conveyance (conveyor buffers sink) past).state.release :=
    congrArg Conveyor.release mirrors.supply
  simp only [Relay.guard, Relay.pool, final_eq]
  refine ⟨ended, ?_, ?_, ?_⟩
  · rw [← buffersSent]
    exact received
  · rw [← mirrors.lent]
    refine ledger.trans (congrArg (buffers ++ ·) ?_)
    exact congrArg (List.map Clearable.clear) buffersSent
  · rw [mirrors.missed]
    exact congrArg ((obtained past).length + ·) (misses.trans (Nat.zero_add _)).symm

/-- Whatever a delivery gives back is shipped. -/
theorem shipped_eq_sent :
    let past := (Interleaving.fresh relay work).accesses procedure schedule
    (shipped past).map Prod.fst = sent past := by
  intro past
  rw [shipped, sent, List.map_filterMap]
  refine List.filterMap_congr fun access member => ?_
  cases sends : sends? access with
  | none =>
    have silent : ships? access = none := by
      refine Option.eq_none_iff_forall_ne_some.mpr ?_
      rintro ⟨id, written, buffer⟩ ships
      simp [OpenSite.sends_of_ships ships] at sends
    rw [silent]
    rfl
  | some own =>
    obtain ⟨id, buffer⟩ := own
    obtain ⟨purpose, written, returning, named⟩ := OpenSite.sends?_eq_some.mp sends
    have ships : ships? access = some (id, written, buffer) := by
      refine OpenSite.ships?_eq_some.mpr ⟨purpose, returning, named, ?_⟩
      simp [BufferSupply.ship, CirculatingPool.enqueue,
        hears_of_access obliging good supplied work schedule member]
    rw [ships]
    rfl

variable (growing : Growing β) (empty : ∀ buffer ∈ buffers, ByteBuffer.contents buffer = [])

include growing empty

omit obliging good supplied in
/-- The buffers of the pool are empty, whether they have been sent before or not. -/
theorem empty_of_pooled {sentBefore : List β} {buffer : β}
    (member : buffer ∈ buffers ++ sentBefore.map Clearable.clear) :
    ByteBuffer.contents buffer = [] := by
  rcases List.mem_append.mp member with first | back
  · exact empty buffer first
  · obtain ⟨earlier, -, rfl⟩ := List.mem_map.mp back
    exact growing.clear earlier

/-- The pool lends empty buffers. -/
theorem empty_of_obtains
    (member : access ∈ (Interleaving.fresh relay work).accesses procedure schedule)
    {id : DeliveryId} {buffer : β} (obtains : obtains? access = some (id, buffer)) :
    ByteBuffer.contents buffer = [] := by
  obtain ⟨-, -, ledger, -⟩ := release_of_run obliging good supplied work schedule
  have lent : buffer ∈ ((Interleaving.fresh relay work).accesses procedure schedule).filterMap
      fun access => (obtains? access).map Prod.snd :=
    List.mem_filterMap.mpr ⟨access, member, by rw [obtains]; rfl⟩
  refine empty_of_pooled growing empty (ledger ▸ List.mem_append_left _ lent)

/-- A buffer that is shipped holds the line of the event of its delivery. -/
theorem line_of_ships
    (member : access ∈ (Interleaving.fresh relay work).accesses procedure schedule)
    {id : DeliveryId} {written : Outcome IoFailure Unit} {buffer : β}
    (ships : ships? access = some (id, written, buffer)) :
    written = .returned () ∧ ∃ event,
      (chronicle ((Interleaving.fresh relay work).accesses procedure schedule)).written id =
        some event ∧ ByteBuffer.contents buffer = textBytes event.line := by
  obtain ⟨earlier, later, same⟩ := List.append_of_mem member
  obtain ⟨write, before, event, given, writes, left, ended⟩ :=
    OpenSite.write_of_sends relay work schedule same (OpenSite.sends_of_ships ships)
  have made : write ∈ (Interleaving.fresh relay work).accesses procedure schedule :=
    same ▸ List.mem_append_left _ before
  have blank : ByteBuffer.contents given = [] :=
    OpenSite.empty_of_writes relay work schedule (fun buffer => ByteBuffer.contents buffer = [])
      (fun _ member _ _ =>
        empty_of_obtains obliging good supplied work schedule growing empty member)
      made writes
  obtain ⟨succeeds, contents⟩ := growing.encode event write.before.reporter.encoder given
  refine ⟨(ended written ships).trans succeeds, event,
    OpenSite.written_of_writes (OpenSite.wrote_nodup turn relay work schedule) made writes, ?_⟩
  rw [left, OpenSite.leftIn, if_pos succeeds, contents, blank, List.nil_append]

/-- What is shipped is a shipment, and its buffer holds the line of the event. -/
theorem shipment_of_ships
    (member : access ∈ (Interleaving.fresh relay work).accesses procedure schedule)
    {id : DeliveryId} {written : Outcome IoFailure Unit} {buffer : β}
    (ships : ships? access = some (id, written, buffer)) : ∃ event,
      (chronicle ((Interleaving.fresh relay work).accesses procedure schedule)).shipment? access =
        some { id, job := access.job, event } ∧
      ByteBuffer.contents buffer = textBytes event.line := by
  obtain ⟨rfl, event, wrote, contents⟩ :=
    line_of_ships obliging good supplied work schedule growing empty member ships
  have delivers := OpenSite.delivers?_eq_some.mpr ⟨buffer, ships⟩
  refine ⟨event, ?_, contents⟩
  rw [OpenSite.Chronicle.shipment?, delivers, Option.bind_some, wrote]
  rfl

/-- The shipments are those of all buffers that are shipped, and their lines are what these hold. -/
theorem shipments_of_run :
    let past := (Interleaving.fresh relay work).accesses procedure schedule
    (shipments past).map OpenSite.Shipment.id = (shipped past).map Prod.fst ∧
      ByteBuffer.joined ((shipped past).map fun shipped => shipped.2.2) =
        (shipments past).flatMap fun shipment => textBytes shipment.event.line := by
  intro past
  have unshipped {access : RelayAccess β σ} (silent : ships? access = none) :
      (chronicle past).shipment? access = none := by
    simp [OpenSite.Chronicle.shipment?, delivers?, silent]
  constructor
  · rw [shipments, shipped, List.map_filterMap, List.map_filterMap]
    refine List.filterMap_congr fun access member => ?_
    cases ships : ships? access with
    | none => rw [unshipped ships]; rfl
    | some own =>
      obtain ⟨id, written, buffer⟩ := own
      obtain ⟨event, shipment, -⟩ :=
        shipment_of_ships obliging good supplied work schedule growing empty member ships
      rw [shipment]
      rfl
  · rw [ByteBuffer.joined, shipped, shipments, List.flatMap_map, List.filterMap_eq_flatMap_toList,
      List.filterMap_eq_flatMap_toList, List.flatMap_assoc, List.flatMap_assoc]
    refine List.flatMap_congr fun access member => ?_
    cases ships : ships? access with
    | none => rw [unshipped ships]; rfl
    | some own =>
      obtain ⟨id, written, buffer⟩ := own
      obtain ⟨event, shipment, contents⟩ :=
        shipment_of_ships obliging good supplied work schedule growing empty member ships
      rw [shipment]
      simp [contents]

end Runs

/-- No call on a fresh relay fails, and once the consumer is stopped, its sink holds the lines of
the events that have got a buffer, and the pool has counted the others. -/
theorem events_conserved (growing : Growing β) (obliging : Obliging fine) (good : fine sink)
    (empty : ∀ buffer ∈ buffers, ByteBuffer.contents buffer = []) (names : NameSource) (host : Host)
    (work : List (List Job)) (schedule : List Nat) :
    let relay := start buffers ({ sink } : ObservedSink σ) names host
    let past := (Interleaving.fresh relay work).accesses procedure schedule
    let traffic := (Interleaving.fresh relay work).run procedure schedule
    (∀ thread request result, (.atSite (.request thread request), result) ∈ traffic.results →
      result = some (.returned ())) ∧
    (∀ number jobs, work[number]? = some jobs → 31 * jobs.length ≤ schedule.count number →
      ∃ done, traffic.strands[number]? = some done ∧ done.jobs = [] ∧ done.going = none ∧
        done.results.map Prod.fst = jobs) ∧
    ((∀ engagement ∈ traffic.underway, engagement.phase.call? = none) →
      let final := traffic.shared.stop
      final.guard.consumer = .inr (.returned ()) ∧
        final.guard.sink.received =
          ((shipments past).flatMap fun shipment => textBytes shipment.event.line) ∧
        (shipments past).map OpenSite.Shipment.id = sent past ∧
        (obtained past).Perm (sent past) ∧
        (asked past).length = (shipments past).length + final.pool.misses ∧
        final.pool.free.length = buffers.length ∧
        ∀ buffer ∈ final.pool.free, ByteBuffer.contents buffer = []) := by
  intro relay past traffic
  have supplied : relay.reporter.supply = conveyor buffers sink := rfl
  refine ⟨fun thread request result member => ?_, fun number jobs listed enough => ?_, ?_⟩
  · exact OpenSite.returned_run turn relay work schedule
      (fun access member => smooth_of_access obliging good supplied work schedule growing member)
      member
  · exact OpenSite.exists_done turn relay work listed schedule enough
  intro idle final
  have nothingHeld : held traffic = [] := by
    refine List.filterMap_eq_nil_iff.mpr fun engagement member => ?_
    simp [OpenSite.holds?, OpenSite.Phase.delivery?, idle engagement member, OpenSite.holding]
  have custody : (obtained past).Perm (sent past ++ held traffic) :=
    OpenSite.custody_run relay work schedule
  rw [nothingHeld, List.append_nil] at custody
  obtain ⟨ended, received, ledger, misses⟩ :=
    release_of_run obliging good supplied work schedule
  obtain ⟨inOrder, lines⟩ :=
    shipments_of_run obliging good supplied work schedule growing empty
  have all : (shipped past).map Prod.fst = sent past :=
    shipped_eq_sent obliging good supplied work schedule
  have shippedAll : (shipped past).length = (obtained past).length := by
    rw [custody.length_eq, ← all, List.length_map]
  have shipmentsAll : (shipments past).length = (shipped past).length := by
    simpa using congrArg List.length inOrder
  refine ⟨ended, received.trans lines, inOrder.trans all, custody, ?_, ?_, fun buffer member => ?_⟩
  · rw [shipmentsAll, shippedAll]
    exact misses
  · have balance : (past.filterMap fun access => (obtains? access).map Prod.snd).length +
        final.pool.free.length = buffers.length + (shipped past).length := by
      simpa using congrArg List.length ledger
    rw [length_obtained, shippedAll] at balance
    omega
  · exact empty_of_pooled growing empty (ledger ▸ List.mem_append_right _ member)

/-- A call that brings two mappings with it, another one that is made while the first of them is on
its way, and the steps of the consumer. -/
def crowdedWork : List (List Job) :=
  [[.atSite (.request ⟨0⟩ (.report (.entry "run")))],
    [.atSite (.request ⟨1⟩ (.marker "phase" "start"))], List.replicate 9 .write]

/-- The second call comes when the first one has got its buffer. -/
def crowdedTurns : List Nat :=
  List.replicate 7 0 ++ List.replicate 4 1 ++ (List.replicate 24 [0, 2, 2]).flatten

/-- With one buffer in the pool the mappings get through, and the events of both calls do not. -/
theorem events_conserved_crowded :
    let relay := start [({} : GrowingBuffer)] ({ sink := {} } : ObservedSink ScriptedSink) .given {}
    let past := (Interleaving.fresh relay crowdedWork).accesses procedure crowdedTurns
    let final := ((Interleaving.fresh relay crowdedWork).run procedure crowdedTurns).shared.stop
    (asked past).length = (shipments past).length + final.pool.misses ∧ (asked past).length = 4 ∧
      final.pool.misses = 2 ∧ final.guard.sink.received =
        ((shipments past).flatMap fun shipment => textBytes shipment.event.line) ∧
      (shipments past).map OpenSite.Shipment.event =
        [.threadMapping 0 0 "main", .methodMapping 1 "run"] := by
  intro relay past final
  -- The recursion of `writeAll` does not compute, so the runs are evaluated with the encoder that
  -- the one of the relay is equal to.
  have atOnce : (procedure : Procedure (Relay GrowingBuffer (ObservedSink ScriptedSink)) _ _ _) =
      @OpenSite.procedure _ _ _ _ _ _ { encode event encoder buffer :=
        { outcome := .returned (), encoder
          buffer := { bytes := buffer.bytes ++ textBytes event.line } } } turn := by
    rw [procedure, encoder_growingBuffer]
  have idle : ((Interleaving.fresh relay crowdedWork).run procedure crowdedTurns).underway = [] := by
    rw [atOnce]
    decide +kernel
  have asks : (asked past).length = 4 := by
    simp only [past, atOnce]
    decide +kernel
  have events : (shipments past).map OpenSite.Shipment.event =
      [.threadMapping 0 0 "main", .methodMapping 1 "run"] := by
    simp only [past, atOnce]
    decide +kernel
  have willing : Conveyor.Willing {} := ⟨rfl, by decide, rfl, rfl⟩
  obtain ⟨-, -, complete⟩ := events_conserved growing_growingBuffer Conveyor.obliging_willing willing
    (fun buffer (given : buffer ∈ [{}]) => List.mem_singleton.mp given ▸ rfl) .given {} crowdedWork
    crowdedTurns
  obtain ⟨-, received, -, -, conserved, -⟩ :=
    complete fun engagement member => absurd (idle ▸ member) List.not_mem_nil
  have two : (shipments past).length = 2 := by
    rw [← List.length_map, events]
    rfl
  have misses : 4 = 2 + final.pool.misses := by
    rw [← asks, ← two]
    exact conserved
  exact ⟨conserved, asks, by omega, received, events⟩

end TraceRelay.Relay
