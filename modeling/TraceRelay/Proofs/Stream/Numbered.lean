import TraceRelay.Proofs.Delivery.Drawing
import TraceRelay.Proofs.Interleaving.Order
import TraceRelay.Proofs.Stream.Shipments
import TraceRelay.Recording.Directive

/-! A number is missing from the stream just if its delivery has lost it or is in progress. -/

namespace TraceRelay.OpenSite

variable {π ε β δ : Type}

/-- The numbers of the sequenced events of a stream, in order. -/
def sequence (stream : List Event) : List UInt32 := stream.filterMap Event.number?

/-- The turn of the call that a thread enters with an access. -/
def enters? (thread : Thread) (access : SiteAccess π ε β δ) : Option Turn :=
  match access.phase with
  | .atSite _ (.calling caller (.entering _)) =>
    if caller = thread then some access.turn else none
  | _ => none

/-- The turns of the calls of a thread, in the order in which they have been entered. -/
def calls (thread : Thread) (past : List (SiteAccess π ε β δ)) : List Turn :=
  past.filterMap (enters? thread)

/-- The delivery has written its event, and the write has failed or panicked. -/
def Spoils [EventEncoder ε β] (past : List (SiteAccess π ε β δ)) (id : DeliveryId) : Prop :=
  ∃ access ∈ past, ∃ event buffer, writes? access = some (id, event, buffer) ∧
    (EventEncoder.encode event access.before.reporter.encoder buffer).outcome ≠ .returned ()

/-- The delivery has given its buffer back, and the supply has failed to ship it. -/
def Strands [BufferSupply π β] (past : List (SiteAccess π ε β δ)) (id : DeliveryId) : Prop :=
  ∃ access ∈ past, ∃ buffer, sends? access = some (id, buffer) ∧ ships? access = none

section Views

variable [BufferSupply π β] {past : List (SiteAccess π ε β δ)} {access : SiteAccess π ε β δ}
  {id : DeliveryId} {number : UInt32}

theorem sends_of_delivers (delivers : delivers? access = some id) :
    ∃ buffer, sends? access = some (id, buffer) := by
  obtain ⟨buffer, ships⟩ := delivers?_eq_some.mp delivers
  obtain ⟨purpose, returning, rfl, -⟩ := ships?_eq_some.mp ships
  exact ⟨buffer, sends?_eq_some.mpr ⟨purpose, _, returning, rfl⟩⟩

theorem rank_of_delivers (delivers : delivers? access = some id) :
    access.turn = id.turn ∧ access.phase.rank = id.stage.rank - 3 := by
  obtain ⟨buffer, sends⟩ := sends_of_delivers delivers
  exact rank_of_sends sends

omit [BufferSupply π β] in
theorem enters?_eq_some {thread : Thread} {turn : Turn} :
    enters? thread access = some turn ↔ turn = access.turn ∧ ∃ siteJob request,
      access.phase = .atSite siteJob (.calling thread (.entering request)) := by
  unfold enters?
  constructor
  · intro enters
    split at enters
    · rename_i siteJob caller request calling
      split at enters <;> cases enters
      rename_i same
      exact ⟨rfl, siteJob, request, same ▸ calling⟩
    · cases enters
  · rintro ⟨rfl, siteJob, request, calling⟩
    simp [calling]

omit [BufferSupply π β] in
theorem rank_of_enters {thread : Thread} {turn : Turn}
    (enters : enters? thread access = some turn) :
    access.turn = turn ∧ access.phase.rank = 29 := by
  obtain ⟨rfl, siteJob, request, calling⟩ := enters?_eq_some.mp enters
  exact ⟨rfl, by rw [calling]; rfl⟩

end Views

variable [Clearable β] [BufferSupply π β] [EventEncoder ε β]

section Runs

variable (obeys : δ → π × ε → π × ε) (site : Site π ε) (work : List (List (Job δ)))
  (schedule : List Nat)

/-- The event that a delivery has written bears the number that the delivery has drawn. -/
theorem number?_of_written {id : DeliveryId} {event : Event}
    (written : (chronicle ((Interleaving.fresh site work).accesses (procedure obeys)
      schedule)).written id = some event) (number : UInt32) :
    event.number? = some number ↔
      (id, number) ∈
        numbers ((Interleaving.fresh site work).accesses (procedure obeys) schedule) := by
  obtain ⟨write, made, buffer, writes⟩ := exists_write_of_written written
  obtain ⟨purpose, writing, rfl⟩ := writes?_eq_some.mp writes
  obtain ⟨earlier, later, same⟩ := List.append_of_mem made
  have has := hasStamped_run site work schedule same
  rw [writing] at has
  obtain ⟨completing, before, stamps, bears⟩ := has
  have inside : completing ∈ (Interleaving.fresh site work).accesses (procedure obeys) schedule :=
    same ▸ List.mem_append_left _ before
  rw [bears, Option.map_eq_some_iff]
  constructor
  · rintro ⟨⟨own, drawn⟩, draws, rfl⟩
    cases stamps.symm.trans (stamps_of_draws draws)
    exact List.mem_filterMap.mpr ⟨completing, inside, draws⟩
  · intro member
    obtain ⟨other, insideOther, draws⟩ := List.mem_filterMap.mp member
    cases filterMap_unique (stamped_nodup obeys site work schedule) inside insideOther stamps
      (stamps_of_draws draws)
    exact ⟨_, draws, rfl⟩

/-- Every shipped event bears the number that its delivery has drawn. -/
theorem mem_numbers_of_shipment {shipment : Shipment δ} {number : UInt32}
    (member : shipment ∈ shipments ((Interleaving.fresh site work).accesses (procedure obeys)
      schedule))
    (bears : shipment.event.number? = some number) :
    (shipment.id, number) ∈
      numbers ((Interleaving.fresh site work).accesses (procedure obeys) schedule) := by
  obtain ⟨access, -, -, -, written⟩ := mem_shipments.mp member
  exact (number?_of_written obeys site work schedule written number).mp bears

/-- A delivery that has drawn a number has got a buffer. -/
theorem obtained_of_draws {id : DeliveryId} {number : UInt32}
    (member : (id, number) ∈
      numbers ((Interleaving.fresh site work).accesses (procedure obeys) schedule)) :
    id ∈ obtained ((Interleaving.fresh site work).accesses (procedure obeys) schedule) := by
  obtain ⟨access, inside, draws⟩ := List.mem_filterMap.mp member
  obtain ⟨earlier, later, same⟩ := List.append_of_mem inside
  obtain ⟨purpose, draft, buffer, stamping, rfl⟩ := stamps?_eq_some.mp (stamps_of_draws draws)
  have has := hasObtained_run site work schedule same
  rw [stamping] at has
  obtain ⟨grant, before, obtains⟩ := has
  exact List.mem_filterMap.mpr ⟨grant, same ▸ List.mem_append_left _ before, by rw [obtains]; rfl⟩

/-- No delivery draws two numbers. -/
theorem drew_nodup :
    ((numbers ((Interleaving.fresh site work).accesses (procedure obeys) schedule)).map
      Prod.fst).Nodup := by
  rw [numbers, List.map_filterMap]
  apply nodup_of_rank (ranks_fall_run obeys site work schedule) (fun stage => stage.rank - 1)
  intro access id named
  obtain ⟨⟨own, number⟩, draws, rfl⟩ := Option.map_eq_some_iff.mp named
  exact rank_of_stamps (stamps_of_draws draws)

/-- What a delivery gives back is its event, unless the write has failed or the supply does not ship
it. -/
theorem delivers_of_sends {access : SiteAccess π ε β δ} {id : DeliveryId} {left : β}
    (made : access ∈ (Interleaving.fresh site work).accesses (procedure obeys) schedule)
    (sends : sends? access = some (id, left)) :
    delivers? access = some id ∨
      Spoils ((Interleaving.fresh site work).accesses (procedure obeys) schedule) id ∨
      ships? access = none := by
  obtain ⟨purpose, written, returning, rfl⟩ := sends?_eq_some.mp sends
  obtain ⟨earlier, later, same⟩ := List.append_of_mem made
  have has := writesFirst_run obeys site work schedule earlier access later same
  rw [returning] at has
  obtain ⟨write, before, event, empty, writes, ended, -⟩ := has
  cases ships : ships? access with
  | none => exact .inr (.inr rfl)
  | some shipped =>
    obtain ⟨own, ownWritten, buffer⟩ := shipped
    obtain ⟨_, delivering, rfl, -⟩ := ships?_eq_some.mp ships
    cases returning.symm.trans delivering
    by_cases succeeded : written = .returned ()
    · rw [succeeded] at ships
      exact .inl (delivers?_eq_some.mpr ⟨_, ships⟩)
    · exact .inr (.inl ⟨write, same ▸ List.mem_append_left _ before, event, empty, writes,
        ended ▸ succeeded⟩)

/-- An event whose write has failed is not delivered. -/
theorem Spoils.undelivered {access : SiteAccess π ε β δ} {id : DeliveryId}
    (spoils : Spoils ((Interleaving.fresh site work).accesses (procedure obeys) schedule) id)
    (made : access ∈ (Interleaving.fresh site work).accesses (procedure obeys) schedule) :
    delivers? access ≠ some id := by
  intro delivers
  obtain ⟨write, wrote, event, empty, writes, fails⟩ := spoils
  obtain ⟨earlier, later, same⟩ := List.append_of_mem made
  obtain ⟨own, before, ownEvent, ownBuffer, ownWrites, succeeds⟩ :=
    (writesFirst_run obeys site work schedule).exists_write same delivers
  cases writes_unique (wrote_nodup obeys site work schedule) wrote
    (same ▸ List.mem_append_left _ before) writes ownWrites
  cases writes.symm.trans ownWrites
  exact fails succeeds

/-- A delivery that has got a buffer has not delivered its event just if its write has failed, its
buffer has not been shipped, or it is still in progress. -/
theorem undelivered_iff {id : DeliveryId}
    (got : id ∈ obtained ((Interleaving.fresh site work).accesses (procedure obeys) schedule)) :
    (∀ access ∈ (Interleaving.fresh site work).accesses (procedure obeys) schedule,
      delivers? access ≠ some id) ↔
      Spoils ((Interleaving.fresh site work).accesses (procedure obeys) schedule) id ∨
        Strands ((Interleaving.fresh site work).accesses (procedure obeys) schedule) id ∨
        id ∈ held ((Interleaving.fresh site work).run (procedure obeys) schedule) := by
  have custody : (obtained ((Interleaving.fresh site work).accesses (procedure obeys)
      schedule)).Perm
      (sent ((Interleaving.fresh site work).accesses (procedure obeys) schedule) ++
        held ((Interleaving.fresh site work).run (procedure obeys) schedule)) :=
    custody_run site work schedule
  obtain ⟨sentOnce, -, apart⟩ :=
    List.nodup_append.mp (custody_nodup obeys site work schedule)
  constructor
  · intro undelivered
    rcases List.mem_append.mp (custody.mem_iff.mp got) with gave | holds
    · obtain ⟨access, made, named⟩ := List.mem_filterMap.mp gave
      obtain ⟨⟨own, left⟩, sends, rfl⟩ := Option.map_eq_some_iff.mp named
      rcases delivers_of_sends obeys site work schedule made sends with
        delivers | spoils | unshipped
      · exact absurd delivers (undelivered access made)
      · exact .inl spoils
      · exact .inr (.inl ⟨access, made, left, sends, unshipped⟩)
    · exact .inr (.inr holds)
  · intro lost access made delivers
    obtain ⟨buffer, sends⟩ := sends_of_delivers delivers
    rcases lost with spoils | ⟨other, madeOther, left, sendsOther, unshipped⟩ | holds
    · exact Spoils.undelivered obeys site work schedule spoils made delivers
    · cases filterMap_unique sentOnce made madeOther (by rw [sends]; rfl) (by rw [sendsOther]; rfl)
      obtain ⟨_, ships⟩ := delivers?_eq_some.mp delivers
      rw [unshipped] at ships
      cases ships
    · have gave : id ∈ sent ((Interleaving.fresh site work).accesses (procedure obeys) schedule) :=
        List.mem_filterMap.mpr ⟨access, made, by rw [sends]; rfl⟩
      exact apart id gave id holds rfl

/-- The numbers of a stream stand in a relation if those of deliveries that follow each other do. -/
theorem sequence_pairwise {related : UInt32 → UInt32 → Prop}
    (ordered : ∀ first second, Precedes ((Interleaving.fresh site work).accesses (procedure obeys)
        schedule) first second →
      ∀ own next, delivers? first = some own → delivers? second = some next → ∀ one two,
        (own, one) ∈
          numbers ((Interleaving.fresh site work).accesses (procedure obeys) schedule) →
        (next, two) ∈
          numbers ((Interleaving.fresh site work).accesses (procedure obeys) schedule) →
        related one two) :
    (sequence (chronicle ((Interleaving.fresh site work).accesses (procedure obeys)
      schedule)).stream).Pairwise related := by
  rw [stream_run, sequence, List.filterMap_map, shipments, List.filterMap_filterMap]
  refine List.pairwise_filterMap.mpr (pairwise_of_precedes fun first second before => ?_)
  have drawn (access : SiteAccess π ε β δ) (number : UInt32)
      (bears : ((chronicle ((Interleaving.fresh site work).accesses (procedure obeys)
        schedule)).shipment? access).bind (Event.number? ∘ Shipment.event) = some number) :
      ∃ id, delivers? access = some id ∧ (id, number) ∈
        numbers ((Interleaving.fresh site work).accesses (procedure obeys) schedule) := by
    obtain ⟨shipment, ships, numbered⟩ := Option.bind_eq_some_iff.mp bears
    obtain ⟨id, delivers, made⟩ := Option.bind_eq_some_iff.mp ships
    obtain ⟨event, written, rfl⟩ := Option.map_eq_some_iff.mp made
    exact ⟨id, delivers,
      (number?_of_written obeys site work schedule written number).mp numbered⟩
  intro one bearsOne two bearsTwo
  obtain ⟨own, delivers, drew⟩ := drawn first one bearsOne
  obtain ⟨next, deliversNext, drewNext⟩ := drawn second two bearsTwo
  exact ordered first second before own next delivers deliversNext one two drew drewNext

end Runs

section Order

variable {past : List (SiteAccess π ε β δ)}
  (increase : (numbers past).Pairwise fun first second => first.2 < second.2)

omit [Clearable β] [BufferSupply π β] [EventEncoder ε β] in
include increase in
/-- A number is drawn once. -/
theorem drawn_unique {first second : DeliveryId} {number : UInt32}
    (member : (first, number) ∈ numbers past) (memberToo : (second, number) ∈ numbers past) :
    first = second := by
  have once : ((numbers past).map Prod.snd).Nodup :=
    List.pairwise_map.mpr (increase.imp fun less => UInt32.ne_of_lt less)
  exact congrArg Prod.fst (List.inj_on_of_nodup_map once member memberToo rfl)

omit [Clearable β] [BufferSupply π β] [EventEncoder ε β] in
include increase in
/-- The numbers of two turns are in the order in which these have been drawn. -/
theorem number_lt_of_precedes {first second : SiteAccess π ε β δ} {own next : DeliveryId × UInt32}
    (before : Precedes past first second) (draws : draws? first = some own)
    (drawsNext : draws? second = some next) : own.2 < next.2 :=
  before.of_pairwise (List.pairwise_filterMap.mp increase) own draws next drawsNext

omit [Clearable β] [BufferSupply π β] [EventEncoder ε β] in
theorem exists_draws {drawn : DeliveryId × UInt32} (member : drawn ∈ numbers past) :
    ∃ access ∈ past, draws? access = some drawn ∧ access.turn = drawn.1.turn ∧
      access.phase.rank = drawn.1.stage.rank - 1 := by
  obtain ⟨access, made, draws⟩ := List.mem_filterMap.mp member
  exact ⟨access, made, draws, rank_of_stamps (stamps_of_draws draws)⟩

omit [Clearable β] [BufferSupply π β] [EventEncoder ε β] in
include increase in
/-- Of two turns that do not overlap, the later one draws the larger numbers. -/
theorem number_lt_of_turns {kind : Turn → Prop} {first second : SiteAccess π ε β δ}
    {own next : DeliveryId × UInt32} (unbroken : Unbroken kind past)
    (before : Precedes past first second) (ownFirst : kind first.turn)
    (ownSecond : kind second.turn) (differ : first.turn ≠ second.turn)
    (member : own ∈ numbers past) (memberNext : next ∈ numbers past)
    (turn : own.1.turn = first.turn) (turnNext : next.1.turn = second.turn) :
    own.2 < next.2 := by
  obtain ⟨early, madeEarly, draws, sameEarly, -⟩ := exists_draws member
  obtain ⟨late, madeLate, drawsNext, sameLate, -⟩ := exists_draws memberNext
  have drawnBefore := unbroken.precedes before ownFirst ownSecond differ madeEarly madeLate
    (sameEarly.trans turn) (sameLate.trans turnNext)
  exact number_lt_of_precedes increase drawnBefore draws drawsNext

omit [Clearable β] [BufferSupply π β] [EventEncoder ε β] in
include increase in
/-- Of two deliveries of one turn, the later one draws the larger number. -/
theorem number_lt_of_stages
    (falls : past.Pairwise fun first second =>
      first.turn = second.turn → second.phase.rank < first.phase.rank)
    {own next : DeliveryId × UInt32} (member : own ∈ numbers past)
    (memberNext : next ∈ numbers past) (turn : own.1.turn = next.1.turn)
    (later : next.1.stage.rank < own.1.stage.rank) : own.2 < next.2 := by
  obtain ⟨early, madeEarly, draws, sameEarly, rankEarly⟩ := exists_draws member
  obtain ⟨late, madeLate, drawsNext, sameLate, rankLate⟩ := exists_draws memberNext
  have sameTurn : late.turn = early.turn := sameLate.trans (turn.symm.trans sameEarly.symm)
  rcases precedes_total madeEarly madeLate with rfl | before | reversed
  · rw [draws] at drawsNext
    cases drawsNext
    exact absurd later (Nat.lt_irrefl _)
  · exact number_lt_of_precedes increase before draws drawsNext
  · have lower := reversed.of_pairwise falls sameTurn
    omega

end Order

section Calls

omit [Clearable β] [BufferSupply π β] [EventEncoder ε β] in
theorem mem_calls {past : List (SiteAccess π ε β δ)} {access : SiteAccess π ε β δ}
    {siteJob : Site.Job} {thread : Thread} {request : Request} (made : access ∈ past)
    (calling : access.phase = .atSite siteJob (.calling thread (.entering request))) :
    access.turn ∈ calls thread past :=
  List.mem_filterMap.mpr ⟨access, made, enters?_eq_some.mpr ⟨rfl, siteJob, request, calling⟩⟩

/-- What holds of a call when it has been entered, and is kept by its further accesses, holds of it
at every access after the first one. -/
theorem call_induction {motive : SiteAccess π ε β δ → Call β → Prop} (obeys : δ → π × ε → π × ε)
    (site : Site π ε) (work : List (List (Job δ))) (schedule : List Nat)
    (entered : ∀ (entry : SiteAccess π ε β δ) request, motive entry
      (Call.enter (entry.before.reporter.elapsed entry.before.host.clock) request))
    (kept : ∀ entry thread (call next : Call β) (shared : Site π ε),
      (∀ request, call ≠ .entering request) →
      (call.step thread shared).result = .continues next → motive entry call → motive entry next)
    {earlier later : List (SiteAccess π ε β δ)} {access : SiteAccess π ε β δ}
    (same : (Interleaving.fresh site work).accesses (procedure obeys) schedule =
      earlier ++ access :: later)
    {siteJob : Site.Job} {thread : Thread} {call : Call β}
    (calling : access.phase = .atSite siteJob (.calling thread call))
    (onward : ∀ request, call ≠ .entering request) :
    ∃ entry ∈ earlier, enters? thread entry = some access.turn ∧ motive entry call := by
  refine (Interleaving.underway_induction (motive := fun past
      (engagement : Engagement (Job δ) (Phase β δ)) =>
    ∀ siteJob thread call, engagement.phase = .atSite siteJob (.calling thread call) →
      (∀ request, call ≠ .entering request) →
      ∃ entry ∈ past, enters? thread entry = some engagement.turn ∧ motive entry call)
    (procedure obeys) site work ?_ ?_ ?_ schedule).2 earlier access later same siteJob thread call
      calling onward
  · intro past turn job silent siteJob thread call calling onward
    cases job with
    | order wanted => cases calling
    | atSite own =>
      cases own with
      | change wanted => cases calling
      | request caller wanted =>
        cases calling
        exact absurd rfl (onward wanted)
  · intro past other engagement different holds siteJob thread call calling onward
    obtain ⟨entry, before, facts⟩ := holds siteJob thread call calling onward
    exact ⟨entry, List.mem_append_left _ before, facts⟩
  · rintro past ⟨turn, job, phase, before, moved, after⟩ next stepped goesOn holds siteJob thread
      call calling -
    simp only at stepped
    cases happens_of_step stepped with
    | ends | changes | obeys => cases goesOn
    | goesOn ownJob caller own next progressed =>
      cases goesOn
      cases calling
      by_cases first : ∃ request, own = .entering request
      · obtain ⟨request, rfl⟩ := first
        cases progressed
        exact ⟨_, List.mem_append_right _ (List.mem_singleton.mpr rfl),
          enters?_eq_some.mpr ⟨rfl, _, request, rfl⟩, entered _ request⟩
      · have onward := not_exists.mp first
        obtain ⟨entry, inside, enters, holds⟩ := holds _ _ _ rfl onward
        exact ⟨entry, List.mem_append_left _ inside, enters,
          kept entry _ own _ before onward progressed holds⟩

/-- Every call that makes an access has been entered. -/
theorem mem_calls_run (obeys : δ → π × ε → π × ε) (site : Site π ε) (work : List (List (Job δ)))
    (schedule : List Nat) {access : SiteAccess π ε β δ} {siteJob : Site.Job} {thread : Thread}
    {call : Call β}
    (made : access ∈ (Interleaving.fresh site work).accesses (procedure obeys) schedule)
    (calling : access.phase = .atSite siteJob (.calling thread call)) : access.turn ∈
      calls thread ((Interleaving.fresh site work).accesses (procedure obeys) schedule) := by
  by_cases first : ∃ request, call = .entering request
  · obtain ⟨request, rfl⟩ := first
    exact mem_calls made calling
  · obtain ⟨earlier, later, same⟩ := List.append_of_mem made
    obtain ⟨entry, inside, enters, -⟩ := call_induction (motive := fun _ _ => True) obeys site work
      schedule (fun _ _ => trivial) (fun _ _ _ _ _ _ _ _ => trivial) same calling
      (not_exists.mp first)
    rw [same]
    exact List.mem_filterMap.mpr ⟨entry, List.mem_append_left _ inside, enters⟩

end Calls

section Accounts

variable (obeys : δ → π × ε → π × ε) (site : Site π ε) (work : List (List (Job δ)))
  (schedule : List Nat)
  (increase : (numbers ((Interleaving.fresh site work).accesses (procedure obeys)
    schedule)).Pairwise fun first second => first.2 < second.2)

/-- The numbers of a stream are those of its shipments. -/
theorem mem_sequence {number : UInt32} : number ∈ sequence (chronicle
      ((Interleaving.fresh site work).accesses (procedure obeys) schedule)).stream ↔
    ∃ shipment ∈ shipments ((Interleaving.fresh site work).accesses (procedure obeys) schedule),
      shipment.event.number? = some number := by
  rw [stream_run, sequence, List.mem_filterMap]
  constructor
  · rintro ⟨event, inside, bears⟩
    obtain ⟨shipment, member, rfl⟩ := List.mem_map.mp inside
    exact ⟨shipment, member, bears⟩
  · rintro ⟨shipment, member, bears⟩
    exact ⟨shipment.event, List.mem_map_of_mem member, bears⟩

include increase in
/-- A number is missing from the stream just if the delivery that has drawn it has lost its event or
is still in progress. -/
theorem missing_iff {id : DeliveryId} {number : UInt32}
    (member : (id, number) ∈
      numbers ((Interleaving.fresh site work).accesses (procedure obeys) schedule)) :
    number ∉ sequence (chronicle ((Interleaving.fresh site work).accesses (procedure obeys)
        schedule)).stream ↔
      Spoils ((Interleaving.fresh site work).accesses (procedure obeys) schedule) id ∨
        Strands ((Interleaving.fresh site work).accesses (procedure obeys) schedule) id ∨
        id ∈ held ((Interleaving.fresh site work).run (procedure obeys) schedule) := by
  have granted := obtained_of_draws obeys site work schedule member
  rw [← undelivered_iff obeys site work schedule granted, mem_sequence]
  constructor
  · intro missing access made delivers
    obtain ⟨earlier, later, same⟩ := List.append_of_mem made
    obtain ⟨write, before, event, buffer, writes, -⟩ :=
      (writesFirst_run obeys site work schedule).exists_write same delivers
    have written := written_of_writes (wrote_nodup obeys site work schedule)
      (same ▸ List.mem_append_left _ before) writes
    have bears := (number?_of_written obeys site work schedule written number).mpr member
    exact missing ⟨{ id, job := access.job, event },
      mem_shipments.mpr ⟨access, made, delivers, rfl, written⟩, bears⟩
  · rintro undelivered ⟨shipment, shipped, bears⟩
    have drew := mem_numbers_of_shipment obeys site work schedule shipped bears
    rw [drawn_unique increase member drew] at undelivered
    obtain ⟨access, made, delivers, -⟩ := mem_shipments.mp shipped
    exact undelivered access made delivers

include increase in
/-- Calls that do not overlap draw their numbers in the order in which they have been entered. -/
theorem calls_ordered {thread : Thread}
    (unbroken : Unbroken (fun turn => turn ∈ calls thread ((Interleaving.fresh site work).accesses
        (procedure obeys) schedule))
      ((Interleaving.fresh site work).accesses (procedure obeys) schedule)) :
    (calls thread ((Interleaving.fresh site work).accesses (procedure obeys) schedule)).Pairwise
      fun first second =>
        ∀ own ∈ numbers ((Interleaving.fresh site work).accesses (procedure obeys) schedule),
        ∀ next ∈ numbers ((Interleaving.fresh site work).accesses (procedure obeys) schedule),
          own.1.turn = first → next.1.turn = second → own.2 < next.2 := by
  refine List.pairwise_filterMap.mpr (pairwise_of_precedes fun first second before => ?_)
  intro turn enters later entersLater own member next memberNext sameTurn sameLater
  obtain ⟨rfl, siteJob, request, calling⟩ := enters?_eq_some.mp enters
  obtain ⟨rfl, siteJobLater, requestLater, callingLater⟩ := enters?_eq_some.mp entersLater
  have differ : first.turn ≠ second.turn := by
    intro met
    have lower := before.of_pairwise (ranks_fall_run obeys site work schedule) met
    rw [(rank_of_enters enters).2, (rank_of_enters entersLater).2] at lower
    exact Nat.lt_irrefl _ lower
  exact number_lt_of_turns increase unbroken before (mem_calls before.mem_left calling)
    (mem_calls before.mem_right callingLater) differ member memberNext sameTurn sameLater

include increase in
/-- If no calls overlap, the numbers increase along the stream. -/
theorem sequence_increases
    (unbroken : Unbroken (fun turn => ∃ thread, turn ∈ calls thread
        ((Interleaving.fresh site work).accesses (procedure obeys) schedule))
      ((Interleaving.fresh site work).accesses (procedure obeys) schedule)) :
    (sequence (chronicle ((Interleaving.fresh site work).accesses (procedure obeys)
      schedule)).stream).Pairwise fun first second => first < second := by
  have falls := ranks_fall_run obeys site work schedule
  have called {access : SiteAccess π ε β δ} {id : DeliveryId}
      (made : access ∈ (Interleaving.fresh site work).accesses (procedure obeys) schedule)
      (delivers : delivers? access = some id) : ∃ thread, access.turn ∈ calls thread
        ((Interleaving.fresh site work).accesses (procedure obeys) schedule) := by
    obtain ⟨buffer, ships⟩ := delivers?_eq_some.mp delivers
    obtain ⟨purpose, returning, -, -⟩ := ships?_eq_some.mp ships
    obtain ⟨siteJob, thread, calling⟩ := calling_of_delivery returning
    exact ⟨thread, mem_calls_run obeys site work schedule made calling⟩
  apply sequence_pairwise
  intro first second before own next delivers deliversNext one two member memberNext
  obtain ⟨turn, rank⟩ := rank_of_delivers delivers
  obtain ⟨turnNext, rankNext⟩ := rank_of_delivers deliversNext
  by_cases met : first.turn = second.turn
  · have lower := before.of_pairwise falls met
    rw [rank, rankNext] at lower
    exact number_lt_of_stages increase falls member memberNext
      (turn.symm.trans (met.trans turnNext)) (by simp only; omega)
  · exact number_lt_of_turns increase unbroken before (called before.mem_left delivers)
      (called before.mem_right deliversNext) met member memberNext turn.symm turnNext.symm

end Accounts

/-- Numbers count up from zero, one for each delivery that begins to write a sequenced event, and
one is missing from the stream just if its delivery has lost it or is still in progress. -/
theorem numbers_accounted (obeys : δ → π × ε → π × ε) (site : Site π ε)
    (new : site.reporter.numbering = {}) (work : List (List (Job δ))) (schedule : List Nat)
    (few : (numbers
      ((Interleaving.fresh site work).accesses (procedure obeys) schedule)).length < 2 ^ 32) :
    let past := (Interleaving.fresh site work).accesses (procedure obeys) schedule
    let traffic := (Interleaving.fresh site work).run (procedure obeys) schedule
    let stream := (chronicle past).stream
    traffic.shared.reporter.upcomingNumber.toNat = (numbers past).length ∧
    (numbers past).map Prod.snd = (List.range (numbers past).length).map UInt32.ofNat ∧
    ((numbers past).map Prod.fst).Nodup ∧
    (∀ id number, (id, number) ∈ numbers past → id ∈ obtained past) ∧
    (∀ access ∈ past, draws? access = none →
      access.after.reporter.upcomingNumber = access.before.reporter.upcomingNumber) ∧
    (∀ shipment ∈ shipments past, ∀ number, shipment.event.number? = some number →
      (shipment.id, number) ∈ numbers past) ∧
    (sequence stream).Nodup ∧
    (∀ number ∈ sequence stream, number < traffic.shared.reporter.upcomingNumber) ∧
    (∀ id number, (id, number) ∈ numbers past →
      (number ∉ sequence stream ↔ Spoils past id ∨ Strands past id ∨ id ∈ held traffic)) ∧
    (∀ thread, Unbroken (fun turn => turn ∈ calls thread past) past →
      (calls thread past).Pairwise fun first second =>
        ∀ own ∈ numbers past, ∀ next ∈ numbers past,
          own.1.turn = first → next.1.turn = second → own.2 < next.2) ∧
    (Unbroken (fun turn => ∃ thread, turn ∈ calls thread past) past →
      (sequence stream).Pairwise fun first second => first < second) ∧
    ∀ access ∈ past, Supplied obeys access := by
  intro past traffic stream
  obtain ⟨upcoming, counts⟩ := numbering_run obeys site new work schedule
  have increase := numbers_increase counts few
  have drawn (number : UInt32) (inside : number ∈ sequence stream) :
      number ∈ (numbers past).map Prod.snd := by
    obtain ⟨shipment, member, bears⟩ := (mem_sequence obeys site work schedule).mp inside
    exact List.mem_map_of_mem (mem_numbers_of_shipment obeys site work schedule member bears)
  refine ⟨?_, counts, drew_nodup obeys site work schedule,
    fun id number => obtained_of_draws obeys site work schedule, ?_,
    fun shipment member number => mem_numbers_of_shipment obeys site work schedule member, ?_, ?_,
    fun id number => missing_iff obeys site work schedule increase,
    fun thread => calls_ordered obeys site work schedule increase,
    sequence_increases obeys site work schedule increase,
    supplied_run obeys site work schedule⟩
  · rw [upcoming]
    exact UInt32.toNat_ofNat_of_lt' few
  · intro access made silent
    obtain ⟨earlier, later, same⟩ := List.append_of_mem made
    have counted :=
      numbering_of_step (Interleaving.made_of_accesses (procedure obeys) _ schedule same)
    rw [silent] at counted
    exact counted
  · apply sequence_pairwise
    rintro first second before own next delivers deliversNext one two member memberNext rfl
    have once : (past.filterMap delivers?).Nodup :=
      nodup_of_rank (ranks_fall_run obeys site work schedule) (fun stage => stage.rank - 3)
        fun _ _ => rank_of_delivers
    have differ := before.of_pairwise (List.pairwise_filterMap.mp once) own delivers next
      deliversNext
    exact differ (drawn_unique increase member memberNext)
  · intro number inside
    have among := drawn number inside
    rw [counts] at among
    obtain ⟨index, inRange, rfl⟩ := List.mem_map.mp among
    have bound := List.mem_range.mp inRange
    rw [upcoming, UInt32.lt_iff_toNat_lt, UInt32.toNat_ofNat_of_lt' few,
      UInt32.toNat_ofNat_of_lt' (Nat.lt_trans bound few)]
    exact bound

/-- Two threads make two calls each. The next write of a marker is to be spoilt, and the last buffer
of the second thread is to be swallowed. -/
def numberedCalls : List (List (Job Directive)) :=
  [[.order (.spoil (.write .marker)), .atSite (.request ⟨0⟩ (.marker "phase" "start")),
      .atSite (.request ⟨0⟩ (.marker "phase" "end"))],
    [.atSite (.request ⟨1⟩ (.marker "pass" "start")), .order (.failShipping true),
      .atSite (.request ⟨1⟩ (.marker "pass" "end"))]]

/-- The second thread makes its first call in the middle of one of the first thread, whose last call
does not come to its end. -/
def numberedTurns : List Nat :=
  List.replicate 6 0 ++ List.replicate 6 1 ++ List.replicate 2 0 ++ List.replicate 8 1 ++
    List.replicate 4 0

/-- Four numbers are drawn and one is delivered: one is spoilt, one is swallowed, and one is still
on its way. -/
theorem numbers_accounted_nested :
    let past := (Interleaving.fresh recordingSite numberedCalls).accesses
      (procedure Directive.obeyed) numberedTurns
    let traffic := (Interleaving.fresh recordingSite numberedCalls).run
      (procedure Directive.obeyed) numberedTurns
    traffic.shared.reporter.upcomingNumber.toNat = 4 ∧
    numbers past = [(⟨⟨0, 1⟩, .answer⟩, 0), (⟨⟨1, 0⟩, .answer⟩, 1), (⟨⟨1, 2⟩, .answer⟩, 2),
      (⟨⟨0, 2⟩, .answer⟩, 3)] ∧
    sequence (chronicle past).stream = [0] ∧
    (∀ id number, (id, number) ∈ numbers past → number ≠ 0 →
      Spoils past id ∨ Strands past id ∨ id ∈ held traffic) ∧
    calls ⟨0⟩ past = [⟨0, 1⟩, ⟨0, 2⟩] ∧
    (calls ⟨0⟩ past).Pairwise fun first second =>
      ∀ own ∈ numbers past, ∀ next ∈ numbers past,
        own.1.turn = first → next.1.turn = second → own.2 < next.2 := by
  intro past traffic
  have drawn : numbers past = [(⟨⟨0, 1⟩, .answer⟩, 0), (⟨⟨1, 0⟩, .answer⟩, 1),
      (⟨⟨1, 2⟩, .answer⟩, 2), (⟨⟨0, 2⟩, .answer⟩, 3)] := by
    rfl
  have delivered : sequence (chronicle past).stream = [0] := by
    rfl
  have entered : calls ⟨0⟩ past = [⟨0, 1⟩, ⟨0, 2⟩] := by
    rfl
  have few : (numbers past).length < 2 ^ 32 := by
    rw [drawn]
    decide
  have alone (turn : Turn) (member : turn ∈ calls ⟨0⟩ past) : turn.strand = 0 := by
    rw [entered] at member
    simp only [List.mem_cons, List.not_mem_nil, or_false] at member
    rcases member with rfl | rfl <;> rfl
  have unbroken : Unbroken (fun turn => turn ∈ calls ⟨0⟩ past) past :=
    Interleaving.unbroken_of_strand (procedure Directive.obeyed) recordingSite numberedCalls
      numberedTurns alone
  obtain ⟨counted, -, -, -, -, -, -, -, missing, ordered, -⟩ :=
    numbers_accounted Directive.obeyed recordingSite rfl numberedCalls numberedTurns few
  refine ⟨?_, drawn, delivered, ?_, entered, ordered ⟨0⟩ unbroken⟩
  · exact counted.trans (by rw [drawn]; rfl)
  · intro id number member later
    apply (missing id number member).mp
    rw [delivered]
    simpa using later

end TraceRelay.OpenSite
