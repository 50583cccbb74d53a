import TraceRelay.Proofs.Delivery.Drawing
import TraceRelay.Proofs.Stream.Outline
import TraceRelay.Transport.PoolOrder

/-! Calls on a reporter whose pool has lost its consumer. -/

namespace TraceRelay.OpenSite

variable {ε β δ : Type}

/-- An access at a site whose buffers circulate. -/
abbrev PoolAccess (ε β δ : Type) := SiteAccess (CirculatingPool β) ε β (PoolOrder β δ)

/-- The failure to ship with which an access ends a request. -/
def sendFailure? {π : Type} (access : SiteAccess π ε β δ) : Option TransportFailure :=
  match access.moved with
  | .finished (some (.failed (.send error))) => some error
  | _ => none

variable [Clearable β] {access : PoolAccess ε β δ}

/-- No order brings back a consumer that has gone away, or what only the consumer can put back. -/
theorem obeyed_of_gone (told : δ → ε → ε) (order : PoolOrder β δ) (pool : CirculatingPool β)
    (encoder : ε) (gone : pool.hasReceiver = false) :
    ∃ senders, (order.obeyed told (pool, encoder)).1 = { pool with senders } := by
  have absent : ¬ pool.hasReceiver = true := by simp [gone]
  cases order with
  | consumer move => exact ⟨pool.senders, if_neg absent⟩
  | stop =>
    refine ⟨pool.senders, ?_⟩
    rw [PoolOrder.obeyed, CirculatingPool.enqueue, if_neg absent]
  | attach | detach | encoding => exact ⟨_, rfl⟩

omit [Clearable β] in
/-- Whatever is sent to a consumer that has gone away fails and changes nothing. -/
theorem ship_of_gone {pool : CirculatingPool β} (gone : pool.hasReceiver = false) (buffer : β) :
    BufferSupply.ship buffer pool = { result := .error .disconnected, state := pool } := by
  simp [BufferSupply.ship, CirculatingPool.enqueue, gone]

omit [Clearable β] in
/-- A pool without free buffers counts a miss and lends none. -/
theorem lend_of_empty {pool : CirculatingPool β} (empty : pool.free = []) :
    (BufferSupply.lend pool).result = .ok none ∧
      (BufferSupply.lend pool).state = { pool with misses := pool.misses + 1 } := by
  simp [BufferSupply.lend, CirculatingPool.lend, empty]

/-- What an access takes from a pool without a consumer: the buffer that it obtains leaves the free
ones, and a request for a buffer that obtains none is a miss. -/
structure Consumes (access : PoolAccess ε β δ) (before after : CirculatingPool β) : Prop where
  gone : after.hasReceiver = false
  queued : after.queued = before.queued
  free : after.free <:+ before.free
  lent : (obtains? access).toList.length + after.free.length = before.free.length
  misses : after.misses + (obtains? access).toList.length =
    before.misses + (asks? access).toList.length

variable [EventEncoder ε β] {told : δ → ε → ε}

theorem consumes_of_step
    (made : (procedure (PoolOrder.obeyed told)).step access.job access.phase access.before =
      (access.moved, access.after))
    (gone : access.before.reporter.supply.hasReceiver = false) :
    Consumes access access.before.reporter.supply access.after.reporter.supply := by
  rcases supply_of_step made with ⟨order, quiet, obeyed⟩ | after
  · obtain ⟨senders, same⟩ := obeyed_of_gone told order _ access.before.reporter.encoder gone
    rw [obeyed, same]
    exact ⟨gone, rfl, List.suffix_refl _, by simp [obtains?, quiet],
      by simp [obtains?, asks?, quiet]⟩
  · rw [after]
    cases here : access.phase.delivery? with
    | none =>
      exact ⟨gone, rfl, List.suffix_refl _, by simp [obtains?, here],
        by simp [obtains?, asks?, here]⟩
    | some making =>
      obtain ⟨purpose, delivery⟩ := making
      cases delivery with
      | stamping | writing =>
        exact ⟨gone, rfl, List.suffix_refl _, by simp [obtains?, here],
          by simp [obtains?, asks?, here]⟩
      | returning written buffer =>
        simp only [ship_of_gone gone]
        exact ⟨gone, rfl, List.suffix_refl _, by simp [obtains?, here],
          by simp [obtains?, asks?, here]⟩
      | obtaining draft =>
        cases queue : access.before.reporter.supply.free with
        | nil =>
          obtain ⟨refused, left⟩ := lend_of_empty queue
          simp only [left]
          exact ⟨gone, rfl, List.suffix_refl _, by simp [obtains?, here, refused],
            by simp [obtains?, asks?, here, refused]⟩
        | cons buffer rest =>
          have lent : BufferSupply.lend access.before.reporter.supply =
              { result := .ok (some buffer)
                state := { access.before.reporter.supply with free := rest } } := by
            simp [BufferSupply.lend, CirculatingPool.lend, queue]
          simp only [lent]
          refine ⟨gone, rfl, ?_, ?_, ?_⟩
          · rw [queue]
            exact List.suffix_cons _ _
          · simp only [obtains?, here, lent, queue, Option.toList_some, List.length_cons,
              List.length_nil]
            omega
          · simp [obtains?, asks?, here, lent]

/-- What has become of the buffers that were free in `pool` and of those that were in hand, `hands`
in number, since the consumer has gone away. -/
structure Dwindles (pool : CirculatingPool β) (hands : Nat)
    (traffic : Traffic (CirculatingPool β) ε β (PoolOrder β δ)) (past : List (PoolAccess ε β δ)) :
    Prop where
  gone : traffic.shared.reporter.supply.hasReceiver = false
  queued : traffic.shared.reporter.supply.queued = pool.queued
  free : traffic.shared.reporter.supply.free <:+ pool.free
  lent : (obtained past).length + traffic.shared.reporter.supply.free.length = pool.free.length
  hands : (sent past).length + (held traffic).length = hands + (obtained past).length
  misses : traffic.shared.reporter.supply.misses + (obtained past).length =
    pool.misses + (asked past).length
  alone : ∀ access ∈ past, access.before.reporter.supply.hasReceiver = false

theorem Dwindles.after_access {pool : CirculatingPool β} {hands : Nat}
    {traffic : Traffic (CirculatingPool β) ε β (PoolOrder β δ)} {past : List (PoolAccess ε β δ)}
    {strand : SiteStrand β (PoolOrder β δ)} (dwindles : Dwindles pool hands traffic past)
    (makes : traffic.Makes (procedure (PoolOrder.obeyed told)) strand access) :
    Dwindles pool hands (traffic.afterAccess strand access) (past ++ [access]) := by
  have gone : access.before.reporter.supply.hasReceiver = false := makes.before ▸ dwindles.gone
  have consumes := consumes_of_step makes.made gone
  rw [makes.before] at consumes
  obtain ⟨earlier, later, heldBefore, heldAfter⟩ := held_afterAccess makes
  have custody := congrArg List.length (custody_access makes.made)
  have hands := dwindles.hands
  have askedNow : asked (past ++ [access]) = asked past ++ (asks? access).toList := by
    rw [asked, List.filterMap_append, filterMap_singleton]
    rfl
  simp only [heldBefore, List.length_append, Option.length_toList, Option.isSome_map]
    at custody hands
  refine ⟨consumes.gone, consumes.queued.trans dwindles.queued, consumes.free.trans dwindles.free,
    ?_, ?_, ?_, ?_⟩
  · have lent := consumes.lent
    have before := dwindles.lent
    simp only [obtained_concat, List.length_append, Option.length_toList, Option.isSome_map]
      at lent ⊢
    change _ + (access.after.reporter.supply.free).length = _
    omega
  · simp only [obtained_concat, sent_concat, heldAfter, List.length_append, Option.length_toList,
      Option.isSome_map]
    omega
  · have misses := consumes.misses
    have before := dwindles.misses
    simp only [obtained_concat, askedNow, List.length_append, Option.length_toList,
      Option.isSome_map] at misses ⊢
    change access.after.reporter.supply.misses + _ = _
    omega
  · intro other member
    rcases List.mem_append.mp member with old | new
    · exact dwindles.alone other old
    · exact List.mem_singleton.mp new ▸ gone

theorem dwindles_run (traffic : Traffic (CirculatingPool β) ε β (PoolOrder β δ))
    (gone : traffic.shared.reporter.supply.hasReceiver = false) (schedule : List Nat) :
    Dwindles traffic.shared.reporter.supply (held traffic).length
      (traffic.run (procedure (PoolOrder.obeyed told)) schedule)
      (traffic.accesses (procedure (PoolOrder.obeyed told)) schedule) := by
  refine Interleaving.run_induction (motive := fun now past =>
    Dwindles traffic.shared.reporter.supply (held traffic).length now past) _ _ ?_ ?_ ?_ schedule
  · exact ⟨gone, rfl, List.suffix_refl _, by simp [obtained], by simp [obtained, sent],
      by simp [obtained, asked], by simp⟩
  · intro now past number strand job jobs dwindles found idle next
    refine ⟨dwindles.gone, dwindles.queued, dwindles.free, dwindles.lent, ?_, dwindles.misses,
      dwindles.alone⟩
    rw [held_afterStart job jobs found idle]
    exact dwindles.hands
  · intro now past strand access dwindles makes
    exact dwindles.after_access makes

/-- A request that ends with a failure to ship has given a buffer back. -/
theorem sends_of_sendFailure {π : Type} [BufferSupply π β] {obeys : δ → π × ε → π × ε}
    {access : SiteAccess π ε β δ}
    (made : (procedure obeys).step access.job access.phase access.before =
      (access.moved, access.after)) (failed : (sendFailure? access).isSome) :
    (sends? access).isSome := by
  obtain ⟨turn, job, phase, before, moved, after⟩ := access
  dsimp only at made
  cases happens_of_step made with
  | goesOn | changes | obeys => cases failed
  | ends siteJob thread call outcome stepped =>
    cases call with
    | entering => cases stepped
    | identifying | resolvingMethod | resolvingException =>
      simp only [Call.step] at stepped
      split at stepped <;> cases stepped
    | delivering purpose delivery =>
      cases delivery with
      | stamping | writing => cases stepped
      | returning written buffer => rfl
      | obtaining draft =>
        simp only [Call.step, Delivery.step] at stepped
        cases lent : (BufferSupply.lend before.reporter.supply).result with
        | error failure =>
          simp only [lent] at stepped
          cases stepped
          cases failed
        | ok found =>
          cases found with
          | some buffer => simp [lent] at stepped
          | none =>
            simp only [lent] at stepped
            cases purpose <;> cases stepped
            cases failed

section Barren

variable (made : (procedure (PoolOrder.obeyed told)).step access.job access.phase access.before =
    (access.moved, access.after))
  (empty : access.before.reporter.supply.free = []) (handless : holds? access.engagement = none)

omit [Clearable β] [EventEncoder ε β] in
include handless in
/-- A delivery that has no buffer in hand is about to ask for one. -/
theorem obtaining_of_handless {purpose : Purpose} {delivery : Delivery β}
    (delivering : access.phase.delivery? = some (purpose, delivery)) :
    ∃ draft, delivery = .obtaining draft := by
  have nothing : holding access.turn access.phase.delivery? = none := handless
  rw [delivering] at nothing
  cases delivery with
  | obtaining draft => exact ⟨draft, rfl⟩
  | stamping | writing | returning => cases nothing

include made empty handless

/-- A request that ends without a buffer to spare has met no failure. -/
theorem returned_of_barren (outcome : Outcome DeliveryFailure Unit)
    (finished : access.moved = .finished (some outcome)) : outcome = .returned () := by
  obtain ⟨turn, job, phase, before, moved, after⟩ := access
  dsimp only at made finished
  subst finished
  cases happens_of_step made with
  | ends siteJob thread call outcome stepped =>
    refine Call.returned_of_finished stepped ?_ ?_
    · intro purpose delivery delivering
      obtain ⟨draft, rfl⟩ := obtaining_of_handless handless delivering
      simp [Delivery.Smooth, lend_of_empty empty, Except.isOk, Except.toBool]
    · intro purpose ended own delivering
      obtain ⟨draft, same⟩ := obtaining_of_handless handless delivering
      cases same

/-- Without a buffer to spare no number is drawn, nobody gets a buffer, and a request for one is a
miss. -/
theorem numbering_of_barren :
    access.after.reporter.numbering = access.before.reporter.numbering ∧
      access.next?.bind holds? = none ∧
      ((asks? access).isSome → access.after.reporter.supply.misses =
        access.before.reporter.supply.misses + 1) := by
  have custody := congrArg List.length (custody_access made)
  rw [handless] at custody
  refine ⟨?_, ?_, ?_⟩
  · rw [numbering_access made]
    split
    · rename_i purpose draft buffer stamping
      obtain ⟨other, same⟩ := obtaining_of_handless handless stamping
      cases same
    · rfl
  · have refused : obtains? access = none := by
      unfold obtains?
      split
      · rename_i lent
        rw [(lend_of_empty empty).1] at lent
        cases lent
      · rfl
    rw [refused] at custody
    cases left : access.next?.bind holds? with
    | none => rfl
    | some id => simp [left] at custody
  · intro asks
    rcases supply_of_step made with ⟨order, quiet, -⟩ | after
    · simp [asks?, quiet] at asks
    · rw [after]
      cases delivering : access.phase.delivery? with
      | none => simp [asks?, delivering] at asks
      | some making =>
        obtain ⟨purpose, delivery⟩ := making
        obtain ⟨draft, rfl⟩ := obtaining_of_handless handless delivering
        simp [(lend_of_empty empty).2]

end Barren

/-- What holds of a run in which no buffer is free or in hand: no request fails, each delivery is a
miss, and the counter stands still. -/
structure Barren (numbering : Numbering) (traffic : Traffic (CirculatingPool β) ε β (PoolOrder β δ))
    (past : List (PoolAccess ε β δ)) : Prop where
  held : held traffic = []
  numbering : traffic.shared.reporter.numbering = numbering
  accesses : ∀ access ∈ past,
    (∀ outcome, access.moved = .finished (some outcome) → outcome = .returned ()) ∧
      ((asks? access).isSome → access.after.reporter.supply.misses =
        access.before.reporter.supply.misses + 1)

theorem barren_run (told : δ → ε → ε) (traffic : Traffic (CirculatingPool β) ε β (PoolOrder β δ))
    (gone : traffic.shared.reporter.supply.hasReceiver = false)
    (empty : traffic.shared.reporter.supply.free = []) (handless : held traffic = [])
    (schedule : List Nat) :
    Barren traffic.shared.reporter.numbering
      (traffic.run (procedure (PoolOrder.obeyed told)) schedule)
      (traffic.accesses (procedure (PoolOrder.obeyed told)) schedule) := by
  refine (Interleaving.run_induction (motive := fun now past =>
    Dwindles traffic.shared.reporter.supply 0 now past ∧
      Barren traffic.shared.reporter.numbering now past) _ _ ?_ ?_ ?_ schedule).2
  · exact ⟨⟨gone, rfl, List.suffix_refl _, by simp [obtained], by simp [obtained, sent, handless],
      by simp [obtained, asked], by simp⟩, handless, rfl, by simp⟩
  · rintro now past number strand job jobs ⟨dwindles, barren⟩ found idle next
    have same : held (now.afterStart (procedure (PoolOrder.obeyed told)) number strand job jobs) =
        held now := held_afterStart job jobs found idle
    refine ⟨{ dwindles with hands := same ▸ dwindles.hands }, same.trans barren.held,
      barren.numbering, barren.accesses⟩
  · rintro now past strand access ⟨dwindles, barren⟩ makes
    have emptyNow : access.before.reporter.supply.free = [] := by
      rw [makes.before]
      exact List.suffix_nil.mp (empty ▸ dwindles.free)
    obtain ⟨earlier, later, heldBefore, heldAfter⟩ := held_afterAccess makes
    have nobody := heldBefore.symm.trans barren.held
    simp only [List.append_eq_nil_iff, Option.toList_eq_nil_iff] at nobody
    obtain ⟨⟨rfl, own⟩, rfl⟩ := nobody
    obtain ⟨numbering, handless, misses⟩ := numbering_of_barren makes.made emptyNow own
    refine ⟨dwindles.after_access makes, ?_, ?_, ?_⟩
    · rw [heldAfter, handless]
      rfl
    · change access.after.reporter.numbering = _
      rw [numbering, makes.before]
      exact barren.numbering
    · intro other member
      rcases List.mem_append.mp member with old | new
      · exact barren.accesses other old
      · rw [List.mem_singleton.mp new]
        exact ⟨returned_of_barren makes.made emptyNow own, misses⟩

/-- When the consumer of a pool has gone away, no more requests fail to send than there were buffers
left, nothing is shipped, and in the end every request returns and counts its misses. -/
theorem disconnection_silences (told : δ → ε → ε) (site : Site (CirculatingPool β) ε)
    (work : List (List (Job (PoolOrder β δ)))) (schedule later : List Nat) :
    let traffic := (Interleaving.fresh site work).run (procedure (PoolOrder.obeyed told)) schedule
    let pool := traffic.shared.reporter.supply
    let after := traffic.accesses (procedure (PoolOrder.obeyed told)) later
    let final := traffic.run (procedure (PoolOrder.obeyed told)) later
    let left := final.shared.reporter.supply
    pool.hasReceiver = false →
      (obtained after).length ≤ pool.free.length ∧
      (sent after).length ≤ pool.free.length + (held traffic).length ∧
      (∀ access ∈ after, ∀ id buffer, sends? access = some (id, buffer) →
        (BufferSupply.ship buffer access.before.reporter.supply).result = .error .disconnected) ∧
      shipped after = [] ∧ left.queued = pool.queued ∧
      left.free <:+ pool.free ∧ left.hasReceiver = false ∧
      (after.filterMap sendFailure?).length ≤ pool.free.length + (held traffic).length ∧
      (pool.free = [] → held traffic = [] →
        (∀ access ∈ after, ∀ outcome, access.moved = .finished (some outcome) →
          outcome = .returned ()) ∧
        final.shared.reporter.numbering = traffic.shared.reporter.numbering ∧
        left.misses = pool.misses + (asked after).length ∧
        ∀ access ∈ after, (asks? access).isSome → access.after.reporter.supply.misses =
          access.before.reporter.supply.misses + 1) ∧
      ∀ number jobs, work[number]? = some jobs →
        31 * jobs.length ≤ (schedule ++ later).count number →
        ∃ done, final.strands[number]? = some done ∧ done.jobs = [] ∧ done.going = none ∧
          done.results.map Prod.fst = jobs := by
  intro traffic pool after final left gone
  have dwindles : Dwindles pool (held traffic).length final after := dwindles_run traffic gone later
  have fails (access : PoolAccess ε β δ) (member : access ∈ after) (buffer : β) :
      (BufferSupply.ship buffer access.before.reporter.supply).result = .error .disconnected := by
    rw [ship_of_gone (dwindles.alone access member)]
  have lent := dwindles.lent
  have hands := dwindles.hands
  have sends : (sent after).length ≤ pool.free.length + (held traffic).length := by omega
  refine ⟨by omega, sends, fun access member _ buffer _ => fails access member buffer, ?_,
    dwindles.queued, dwindles.free, dwindles.gone, ?_, ?_, ?_⟩
  · apply List.filterMap_eq_nil_iff.mpr
    intro access member
    cases ships : ships? access with
    | none => rfl
    | some shipment =>
      obtain ⟨id, written, buffer⟩ := shipment
      obtain ⟨purpose, -, -, worked⟩ := ships?_eq_some.mp ships
      rw [fails access member buffer] at worked
      cases worked
  · refine Nat.le_trans ?_ sends
    have made (access : PoolAccess ε β δ) (member : access ∈ after) :
        (sendFailure? access).isSome → (sends? access).isSome := by
      obtain ⟨before, behind, split⟩ := List.append_of_mem member
      exact sends_of_sendFailure (Interleaving.made_of_accesses _ _ later split)
    rw [sent, List.length_filterMap_eq_countP, List.length_filterMap_eq_countP]
    refine List.countP_mono_left fun access member failed => ?_
    simpa using made access member failed
  · intro empty handless
    have barren := barren_run told traffic gone empty handless later
    refine ⟨fun access member => (barren.accesses access member).1, barren.numbering, ?_,
      fun access member => (barren.accesses access member).2⟩
    have misses := dwindles.misses
    rw [empty, List.length_nil] at lent
    change final.shared.reporter.supply.misses = _
    omega
  · intro number jobs listed enough
    have same : final =
        (Interleaving.fresh site work).run (procedure (PoolOrder.obeyed told))
          (schedule ++ later) :=
      (Interleaving.run_append _ _ _ _).symm
    rw [same]
    exact exists_done (PoolOrder.obeyed told) site work listed (schedule ++ later) enough

/-- A new reporter that writes into two circulating transcripts. -/
def pooledSite : Site (CirculatingPool Transcript) Scribe where
  reporter := {
    supply := { free := [{}, {}], places := 2 }
    encoder := {}
    createdAt := 0
    tracker := { key := 0 } }
  host := { memos := { upcoming := 1 } }

/-- The consumer goes away while a call has one of the two buffers in hand, so two calls fail and
the last one goes without a buffer. -/
theorem disconnection_silences_later :
    let work : List (List (Job (PoolOrder Transcript Unit))) :=
      [[.atSite (.request ⟨0⟩ (.marker "phase" "start"))],
        [.order (.consumer .hangUp), .atSite (.request ⟨1⟩ (.marker "phase" "middle")),
          .atSite (.request ⟨1⟩ (.marker "phase" "end"))]]
    let obeys := PoolOrder.obeyed fun (_ : Unit) (encoder : Scribe) => encoder
    let traffic := (Interleaving.fresh pooledSite work).run (procedure obeys) [0, 0, 0, 1, 1]
    let later := [0, 0, 0] ++ List.replicate 9 1
    let after := traffic.accesses (procedure obeys) later
    traffic.shared.reporter.supply.free.length = 1 ∧ (held traffic).length = 1 ∧
      (after.filterMap sendFailure?).length = 2 ∧ shipped after = [] ∧
      ((traffic.run (procedure obeys) later).results.map Prod.snd).getLast? =
        some (some (.returned ())) := by
  intro work obeys traffic later after
  obtain ⟨-, -, -, nothing, -⟩ := disconnection_silences (fun (_ : Unit) encoder => encoder)
    pooledSite work [0, 0, 0, 1, 1] later (by decide +kernel)
  exact ⟨by decide +kernel, by decide +kernel, by decide +kernel, nothing, by decide +kernel⟩

end TraceRelay.OpenSite
