import TraceRelay.Proofs.Delivery.Handling
import TraceRelay.Recording.Archive
import TraceRelay.Recording.Scribe

/-! Deliveries give back each buffer that they get, once, whatever goes wrong on the way. -/

namespace TraceRelay.OpenSite

section Deliveries

variable {π ε β δ : Type}

/-- The delivery that asks the supply for a buffer with an access. -/
def asks? (access : SiteAccess π ε β δ) : Option DeliveryId :=
  match access.phase.delivery? with
  | some (purpose, .obtaining _) => some ⟨access.turn, purpose.stage⟩
  | _ => none

/-- The delivery that writes with an access, the event that it writes, and the buffer that it writes
into. -/
def writes? (access : SiteAccess π ε β δ) : Option (DeliveryId × Event × β) :=
  match access.phase.delivery? with
  | some (purpose, .writing event buffer) => some (⟨access.turn, purpose.stage⟩, event, buffer)
  | _ => none

/-- The delivery that gives a buffer back to the supply with an access, and that buffer. -/
def sends? (access : SiteAccess π ε β δ) : Option (DeliveryId × β) :=
  match access.phase.delivery? with
  | some (purpose, .returning _ buffer) => some (⟨access.turn, purpose.stage⟩, buffer)
  | _ => none

/-- The delivery that gets a buffer from the supply with an access, and that buffer. -/
def obtains? [BufferSupply π β] (access : SiteAccess π ε β δ) : Option (DeliveryId × β) :=
  match access.phase.delivery?, (BufferSupply.lend access.before.reporter.supply).result with
  | some (purpose, .obtaining _), .ok (some buffer) => some (⟨access.turn, purpose.stage⟩, buffer)
  | _, _ => none

/-- The delivery in a phase of a turn that has a buffer in hand. -/
def holding (turn : Turn) : Option (Purpose × Delivery β) → Option DeliveryId
  | some (purpose, delivery) => delivery.buffer?.map fun _ => ⟨turn, purpose.stage⟩
  | none => none

/-- The delivery of a call in progress that has a buffer in hand. -/
def holds? (engagement : Engagement (Job δ) (Phase β δ)) : Option DeliveryId :=
  holding engagement.turn engagement.phase.delivery?

/-- The deliveries that have asked for a buffer, in order. -/
def asked (past : List (SiteAccess π ε β δ)) : List DeliveryId := past.filterMap asks?

/-- The deliveries that have got a buffer, in order. -/
def obtained [BufferSupply π β] (past : List (SiteAccess π ε β δ)) : List DeliveryId :=
  past.filterMap fun access => (obtains? access).map Prod.fst

/-- The deliveries that have given a buffer back, in order. -/
def sent (past : List (SiteAccess π ε β δ)) : List DeliveryId :=
  past.filterMap fun access => (sends? access).map Prod.fst

/-- The deliveries in progress that have a buffer in hand. -/
def held (traffic : Traffic π ε β δ) : List DeliveryId := traffic.underway.filterMap holds?

variable [Clearable β] [BufferSupply π β] [EventEncoder ε β]
  {obeys : δ → π × ε → π × ε} {access : SiteAccess π ε β δ}

omit [Clearable β] [BufferSupply π β] [EventEncoder ε β] in
theorem next_holds (access : SiteAccess π ε β δ) : access.next?.bind holds? =
    holding access.turn (access.next?.bind fun next => next.phase.delivery?) := by
  cases moved : access.moved <;> simp [Access.next?, moved, holds?, holding]

/-- A buffer that is obtained with an access is in hand after it, and one that is in hand before an
access stays in hand unless it is given back. -/
theorem custody_access
    (made : (procedure obeys).step access.job access.phase access.before =
      (access.moved, access.after)) :
    (holds? access.engagement).toList ++ ((obtains? access).map Prod.fst).toList =
      ((sends? access).map Prod.fst).toList ++ (access.next?.bind holds?).toList := by
  have handles := handles_of_step made
  rw [next_holds]
  unfold obtains? sends? holds?
  simp only [Access.engagement]
  generalize access.phase.delivery? = here at handles ⊢
  generalize (access.next?.bind fun next => next.phase.delivery?) = there at handles ⊢
  cases handles with
  | obtains purpose draft buffer lent => simp [lent, holding, Delivery.buffer?]
  | goesWithout purpose draft kept =>
    cases refused : (BufferSupply.lend access.before.reporter.supply).result with
    | error failure => simp [holding, Delivery.buffer?]
    | ok found =>
      cases found with
      | none => simp [holding, Delivery.buffer?]
      | some buffer => exact absurd refused (kept buffer)
  | nothing | opens | completes | writes | returns => simp [holding, Delivery.buffer?]

omit [Clearable β] [EventEncoder ε β] in
theorem obtained_concat (past : List (SiteAccess π ε β δ)) (access : SiteAccess π ε β δ) :
    obtained (past ++ [access]) = obtained past ++ ((obtains? access).map Prod.fst).toList := by
  rw [obtained, List.filterMap_append, filterMap_singleton]
  rfl

omit [Clearable β] [BufferSupply π β] [EventEncoder ε β] in
theorem sent_concat (past : List (SiteAccess π ε β δ)) (access : SiteAccess π ε β δ) :
    sent (past ++ [access]) = sent past ++ ((sends? access).map Prod.fst).toList := by
  rw [sent, List.filterMap_append, filterMap_singleton]
  rfl

theorem held_afterStart {traffic : Traffic π ε β δ} {number : Nat}
    {strand : SiteStrand β δ} (job : Job δ)
    (jobs : List (Job δ)) (found : traffic.strands[number]? = some strand)
    (idle : strand.going = none) :
    held (traffic.afterStart (procedure obeys) number strand job jobs) = held traffic := by
  obtain ⟨earlier, later, before, after⟩ :=
    Interleaving.underway_afterStart (procedure obeys) job jobs found idle
  have start : holds? ⟨⟨number, strand.ended.length⟩, job, (procedure obeys).start job⟩ =
      none := by
    change holding _ (job.start : Phase β δ).delivery? = none
    rw [delivery?_start]
    rfl
  simp only [held, before, after, List.filterMap_append, List.filterMap_cons, start,
    List.filterMap_nil]

theorem held_afterAccess {traffic : Traffic π ε β δ}
    {strand : SiteStrand β δ}
    (makes : traffic.Makes (procedure obeys) strand access) : ∃ earlier later,
      held traffic = earlier ++ (holds? access.engagement).toList ++ later ∧
        held (traffic.afterAccess strand access) =
          earlier ++ (access.next?.bind holds?).toList ++ later := by
  obtain ⟨earlier, later, before, after⟩ := makes.underway
  refine ⟨earlier.filterMap holds?, later.filterMap holds?, ?_, ?_⟩
  · simp only [held, before, List.filterMap_append, filterMap_singleton]
  · simp only [held, after, List.filterMap_append, filterMap_toList]

/-- An access keeps it that every buffer obtained has been given back or is in hand. -/
theorem custody_afterAccess {traffic : Traffic π ε β δ} {strand : SiteStrand β δ}
    {past : List (SiteAccess π ε β δ)} (kept : (obtained past).Perm (sent past ++ held traffic))
    (makes : traffic.Makes (procedure obeys) strand access) :
    (obtained (past ++ [access])).Perm
      (sent (past ++ [access]) ++ held (traffic.afterAccess strand access)) := by
  obtain ⟨earlier, later, heldBefore, heldAfter⟩ := held_afterAccess makes
  have own := custody_access makes.made
  rw [obtained_concat, sent_concat, heldAfter]
  rw [heldBefore] at kept
  apply List.perm_iff_count.mpr
  intro id
  have countKept := kept.count_eq id
  have countOwn := congrArg (List.count id) own
  simp only [List.count_append] at countKept countOwn ⊢
  omega

/-- Every buffer that has been obtained has been given back or is in hand. -/
theorem custody_run (site : Site π ε) (work : List (List (Job δ))) (schedule : List Nat) :
    (obtained ((Interleaving.fresh site work).accesses (procedure obeys) schedule)).Perm
      (sent ((Interleaving.fresh site work).accesses (procedure obeys) schedule) ++
        held ((Interleaving.fresh site work).run (procedure obeys) schedule)) := by
  refine Interleaving.run_induction (motive := fun traffic past =>
    (obtained past).Perm (sent past ++ held traffic)) (procedure obeys) _ ?_ ?_ ?_ schedule
  · simp [obtained, sent, held]
  · intro traffic past number strand job jobs kept found idle next
    rwa [held_afterStart job jobs found idle]
  · intro traffic past strand access kept makes
    exact custody_afterAccess kept makes

omit [Clearable β] [BufferSupply π β] [EventEncoder ε β] in
/-- How far a call has come is told by the stage of its delivery and how far that has come. -/
theorem rank_of_delivery {purpose : Purpose} {delivery : Delivery β}
    (delivering : access.phase.delivery? = some (purpose, delivery)) :
    access.phase.rank + 3 = purpose.stage.rank + delivery.rank := by
  obtain ⟨siteJob, thread, calling⟩ := calling_of_delivery delivering
  simp only [Phase.rank, calling, Phase.call?, Option.map_some, Option.getD_some]
  cases purpose <;> simp only [Call.rank, Purpose.stage, Stage.rank] <;> omega

/-- The accesses of one turn have falling ranks. -/
theorem ranks_fall_run (obeys : δ → π × ε → π × ε) (site : Site π ε) (work : List (List (Job δ)))
    (schedule : List Nat) :
    ((Interleaving.fresh site work).accesses (procedure obeys) schedule).Pairwise
      fun first second => first.turn = second.turn → second.phase.rank < first.phase.rank :=
  Interleaving.ranks_fall (procedure obeys) site work Phase.rank
    (fun _ _ made goesOn => rank_lt_of_step made goesOn) schedule

omit [Clearable β] [BufferSupply π β] [EventEncoder ε β] in
/-- What a call does at one rank only, it does once. -/
theorem nodup_of_fixed {ι : Type} {past : List (SiteAccess π ε β δ)}
    {find : SiteAccess π ε β δ → Option ι}
    (falls : past.Pairwise fun first second =>
      first.turn = second.turn → second.phase.rank < first.phase.rank)
    (turn : ι → Turn) (rank : ι → Nat) (fixed : ∀ access place, find access = some place →
      access.turn = turn place ∧ access.phase.rank = rank place) :
    (past.filterMap find).Nodup := by
  apply List.pairwise_filterMap.mpr
  apply falls.imp
  intro first second lower place own other met same
  obtain ⟨turnFirst, rankFirst⟩ := fixed first place own
  obtain ⟨turnSecond, rankSecond⟩ := fixed second other met
  have less := lower (by rw [turnFirst, turnSecond, same])
  rw [rankFirst, rankSecond, same] at less
  exact Nat.lt_irrefl _ less

omit [Clearable β] [BufferSupply π β] [EventEncoder ε β] in
/-- What a delivery does at one rank of its call only, it does once. -/
theorem nodup_of_rank {past : List (SiteAccess π ε β δ)}
    {find : SiteAccess π ε β δ → Option DeliveryId}
    (falls : past.Pairwise fun first second =>
      first.turn = second.turn → second.phase.rank < first.phase.rank)
    (rank : Stage → Nat) (fixed : ∀ access id, find access = some id →
      access.turn = id.turn ∧ access.phase.rank = rank id.stage) :
    (past.filterMap find).Nodup :=
  nodup_of_fixed falls DeliveryId.turn (fun id => rank id.stage) fixed

omit [Clearable β] [BufferSupply π β] [EventEncoder ε β] in
theorem rank_of_asks {id : DeliveryId} (asks : asks? access = some id) :
    access.turn = id.turn ∧ access.phase.rank = id.stage.rank := by
  simp only [asks?] at asks
  split at asks
  · rename_i purpose draft asking
    cases asks
    exact ⟨rfl, Nat.add_right_cancel (rank_of_delivery asking)⟩
  · cases asks

/-- No delivery asks for a buffer twice. -/
theorem asked_nodup (site : Site π ε) (work : List (List (Job δ))) (schedule : List Nat) :
    (asked ((Interleaving.fresh site work).accesses (procedure obeys) schedule)).Nodup :=
  nodup_of_rank (ranks_fall_run obeys site work schedule) Stage.rank fun _ _ => rank_of_asks

/-- Where the buffer comes from that a delivery has in hand: it is the one that the delivery has
obtained, as its write has left it once the write is over. -/
def HasObtained (past : List (SiteAccess π ε β δ)) (turn : Turn) :
    Option (Purpose × Delivery β) → Prop
  | some (purpose, .stamping _ buffer) =>
    ∃ grant ∈ past, obtains? grant = some (⟨turn, purpose.stage⟩, buffer)
  | some (purpose, .writing _ buffer) =>
    ∃ grant ∈ past, obtains? grant = some (⟨turn, purpose.stage⟩, buffer)
  | some (purpose, .returning _ left) => ∃ grant ∈ past, ∃ write ∈ past, ∃ event buffer,
    obtains? grant = some (⟨turn, purpose.stage⟩, buffer) ∧
      writes? write = some (⟨turn, purpose.stage⟩, event, buffer) ∧
      left = leftIn write.before.reporter.encoder event buffer
  | _ => True

theorem HasObtained.mono {past : List (SiteAccess π ε β δ)} {turn : Turn}
    {delivery : Option (Purpose × Delivery β)} (has : HasObtained past turn delivery)
    (access : SiteAccess π ε β δ) : HasObtained (past ++ [access]) turn delivery := by
  have older {other : SiteAccess π ε β δ} (member : other ∈ past) : other ∈ past ++ [access] :=
    List.mem_append_left _ member
  cases delivery with
  | none => trivial
  | some making =>
    obtain ⟨purpose, delivery⟩ := making
    cases delivery with
    | obtaining draft => trivial
    | stamping | writing =>
      obtain ⟨grant, member, obtains⟩ := has
      exact ⟨grant, older member, obtains⟩
    | returning written left =>
      obtain ⟨grant, granted, write, wrote, facts⟩ := has
      exact ⟨grant, older granted, write, older wrote, facts⟩

/-- At every access of a run, the buffer that its delivery has in hand is the one that it has
obtained. -/
theorem hasObtained_run (site : Site π ε) (work : List (List (Job δ))) (schedule : List Nat)
    {earlier later : List (SiteAccess π ε β δ)}
    (same : (Interleaving.fresh site work).accesses (procedure obeys) schedule =
      earlier ++ access :: later) :
    HasObtained earlier access.turn access.phase.delivery? := by
  refine delivery_induction obeys site work schedule (fun _ _ => trivial)
    (fun _ access _ _ has => has.mono access) ?_ same
  intro past own next? handles has
  have last : own ∈ past ++ [own] := List.mem_append_right _ (List.mem_singleton.mpr rfl)
  generalize here : own.phase.delivery? = delivery at handles has
  cases handles with
  | nothing | opens | goesWithout | returns => trivial
  | obtains purpose draft buffer lent =>
    exact ⟨own, last, by simp [obtains?, here, lent]⟩
  | completes purpose draft buffer current =>
    obtain ⟨grant, member, obtains⟩ := has
    exact ⟨grant, List.mem_append_left _ member, obtains⟩
  | writes purpose event buffer =>
    obtain ⟨grant, member, obtains⟩ := has
    exact ⟨grant, List.mem_append_left _ member, own, last, event, buffer, obtains,
      by simp [writes?, here], rfl⟩

omit [Clearable β] [EventEncoder ε β] in
theorem asks_of_obtains {id : DeliveryId} {buffer : β}
    (obtains : obtains? access = some (id, buffer)) : asks? access = some id := by
  simp only [obtains?] at obtains
  split at obtains
  · rename_i asking lent
    cases obtains
    simp [asks?, asking]
  · cases obtains

omit [Clearable β] [EventEncoder ε β] in
theorem obtained_nodup {past : List (SiteAccess π ε β δ)} (once : (asked past).Nodup) :
    (obtained past).Nodup := by
  apply List.pairwise_filterMap.mpr
  apply (List.pairwise_filterMap.mp once).imp
  intro first second differ id obtainsFirst other obtainsSecond
  obtain ⟨⟨_, _⟩, first, rfl⟩ := Option.map_eq_some_iff.mp obtainsFirst
  obtain ⟨⟨_, _⟩, second, rfl⟩ := Option.map_eq_some_iff.mp obtainsSecond
  exact differ _ (asks_of_obtains first) _ (asks_of_obtains second)

omit [Clearable β] [EventEncoder ε β] in
/-- A delivery that has asked in vain has not obtained a buffer with any other access. -/
theorem not_obtained {past : List (SiteAccess π ε β δ)} {id : DeliveryId}
    (once : (asked past).Nodup) (inside : access ∈ past) (asks : asks? access = some id)
    (refused : obtains? access = none) : id ∉ obtained past := by
  intro member
  obtain ⟨grant, granted, named⟩ := List.mem_filterMap.mp member
  obtain ⟨⟨_, buffer⟩, obtains, rfl⟩ := Option.map_eq_some_iff.mp named
  obtain ⟨earlier, later, rfl⟩ := List.append_of_mem inside
  have elsewhere : grant ∈ earlier ++ later := by
    simp only [List.mem_append, List.mem_cons] at granted ⊢
    rcases granted with before | rfl | behind
    · exact .inl before
    · rw [refused] at obtains
      cases obtains
    · exact .inr behind
  exact filterMap_once once asks grant elsewhere (asks_of_obtains obtains)

/-- No buffer is given back twice, and none that is in hand has been given back. -/
theorem custody_nodup (obeys : δ → π × ε → π × ε) (site : Site π ε) (work : List (List (Job δ)))
    (schedule : List Nat) :
    (sent ((Interleaving.fresh site work).accesses (procedure obeys) schedule) ++
      held ((Interleaving.fresh site work).run (procedure obeys) schedule)).Nodup :=
  (custody_run site work schedule).nodup_iff.mp
    (obtained_nodup (asked_nodup site work schedule))

end Deliveries

section Archives

variable {ε δ : Type} [EventEncoder ε Transcript] {obeys : δ → Archive × ε → Archive × ε}

/-- An access changes the count of an archive by the transcripts that it obtains and sends. -/
theorem lent_access {access : SiteAccess Archive ε Transcript δ}
    (untouched : ∀ order archive encoder,
      (obeys order (archive, encoder)).1.lent = archive.lent)
    (made : (procedure obeys).step access.job access.phase access.before =
      (access.moved, access.after)) :
    access.after.reporter.supply.lent + UInt64.ofNat (sends? access).toList.length =
      access.before.reporter.supply.lent + UInt64.ofNat (obtains? access).toList.length := by
  unfold sends? obtains?
  rcases supply_of_step made with ⟨order, quiet, obeyed⟩ | after
  · have same := untouched order access.before.reporter.supply access.before.reporter.encoder
    simp [obeyed, quiet, same]
  · rw [after]
    cases access.phase.delivery? with
    | none => rfl
    | some making =>
      obtain ⟨purpose, delivery⟩ := making
      cases delivery with
      | stamping | writing => rfl
      | returning written buffer =>
        have counted := Archive.lent_ship buffer access.before.reporter.supply
        simpa using counted
      | obtaining draft =>
        have counted := Archive.lent_lend access.before.reporter.supply
        simp only
        rw [counted]
        cases (BufferSupply.lend access.before.reporter.supply).result with
        | error failure => rfl
        | ok found => cases found <;> simp

/-- The archive counts the transcripts that are in the hands of deliveries. -/
theorem lent_run (untouched : ∀ order archive encoder,
      (obeys order (archive, encoder)).1.lent = archive.lent)
    (site : Site Archive ε) (atFirst : site.reporter.supply.lent = 0) (work : List (List (Job δ)))
    (schedule : List Nat) :
    ((Interleaving.fresh site work).run (procedure obeys) schedule).shared.reporter.supply.lent =
      UInt64.ofNat
        (held ((Interleaving.fresh site work).run (procedure obeys) schedule)).length := by
  refine Interleaving.run_induction (motive := fun traffic _ =>
    traffic.shared.reporter.supply.lent = UInt64.ofNat (held traffic).length)
    (procedure obeys) _ ?_ ?_ ?_ schedule
  · rw [held, Interleaving.underway_fresh]
    exact atFirst
  · intro traffic past number strand job jobs kept found idle next
    rw [held_afterStart job jobs found idle]
    exact kept
  · intro traffic past strand access kept makes
    obtain ⟨earlier, later, heldBefore, heldAfter⟩ := held_afterAccess makes
    have balance := congrArg List.length (custody_access makes.made)
    have counted := lent_access untouched makes.made
    rw [makes.before, kept, heldBefore, ← UInt64.ofNat_add] at counted
    rw [heldAfter]
    apply (UInt64.add_left_inj (UInt64.ofNat (sends? access).toList.length)).mp
    rw [← UInt64.ofNat_add]
    refine counted.trans (congrArg UInt64.ofNat ?_)
    simp only [List.length_append, Option.length_toList, Option.isSome_map] at balance ⊢
    omega

end Archives

variable {π ε β δ : Type} [Clearable β] [BufferSupply π β] [EventEncoder ε β]

/-- The buffers given back and those in hand are together the buffers obtained, each of them once
and as the write of its own delivery has left it. -/
theorem buffers_return_once (obeys : δ → π × ε → π × ε) (site : Site π ε)
    (work : List (List (Job δ))) (schedule : List Nat) :
    let past := (Interleaving.fresh site work).accesses (procedure obeys) schedule
    let traffic := (Interleaving.fresh site work).run (procedure obeys) schedule
    (asked past).Nodup ∧
    (obtained past).Perm (sent past ++ held traffic) ∧
    (sent past).length = (obtained past).length - (held traffic).length ∧
    (held traffic).length ≤ (obtained past).length ∧
    (sent past).Nodup ∧
    (∀ access ∈ past, ∀ id, asks? access = some id → obtains? access = none →
      id ∉ obtained past ∧ id ∉ sent past ∧ id ∉ held traffic) ∧
    (∀ earlier access later, past = earlier ++ access :: later → ∀ id left,
      sends? access = some (id, left) →
      ∃ grant ∈ earlier, ∃ write ∈ earlier, ∃ event buffer,
        obtains? grant = some (id, buffer) ∧ writes? write = some (id, event, buffer) ∧
          left = leftIn write.before.reporter.encoder event buffer) ∧
    ∀ (η ζ : Type) [EventEncoder η Transcript] (directs : ζ → Archive × η → Archive × η),
      (∀ order archive encoder, (directs order (archive, encoder)).1.lent = archive.lent) →
      ∀ (office : Site Archive η), office.reporter.supply.lent = 0 →
      ∀ (orders : List (List (Job ζ))) (turns : List Nat),
      let later := (Interleaving.fresh office orders).run (procedure directs) turns
      later.shared.reporter.supply.lent = UInt64.ofNat (held later).length ∧
        ((∀ engagement ∈ later.underway, engagement.phase.call? = none) →
          later.shared.reporter.supply.lent = 0) := by
  intro past traffic
  have once : (asked past).Nodup := asked_nodup site work schedule
  have custody : (obtained past).Perm (sent past ++ held traffic) :=
    custody_run site work schedule
  have lengths : (obtained past).length = (sent past).length + (held traffic).length := by
    rw [custody.length_eq, List.length_append]
  have distinct : (sent past ++ held traffic).Nodup := custody_nodup obeys site work schedule
  refine ⟨once, custody, by omega, by omega, distinct.sublist (List.sublist_append_left _ _),
    ?_, ?_, ?_⟩
  · intro access member id asks refused
    have without := not_obtained once member asks refused
    rw [custody.mem_iff, List.mem_append, not_or] at without
    exact ⟨not_obtained once member asks refused, without⟩
  · intro earlier access later same id left sends
    have has := hasObtained_run site work schedule same
    simp only [sends?] at sends
    split at sends
    · rename_i purpose written buffer returning
      cases sends
      rw [returning] at has
      exact has
    · cases sends
  · intro η ζ _ directs untouched office atFirst orders turns later
    have counted := lent_run untouched office atFirst orders turns
    refine ⟨counted, fun idle => counted.trans ?_⟩
    have empty : held later = [] := by
      apply List.filterMap_eq_nil_iff.mpr
      intro engagement member
      simp [holds?, Phase.delivery?, idle engagement member, holding]
    change UInt64.ofNat (held later).length = 0
    rw [empty]
    rfl

/-- An archive that is told whether to swallow what comes back. -/
def swallows (fails : Bool) (collaborators : Archive × Scribe) : Archive × Scribe :=
  (collaborators.1.setShipping fails, collaborators.2)

/-- A new reporter that writes into transcripts of a new archive. -/
def recordingSite : Site Archive Scribe where
  reporter := { supply := {}, encoder := {}, createdAt := 0, tracker := { key := 0 } }
  host := { memos := { upcoming := 1 } }

/-- A call, and another one before which the archive is told to swallow all. -/
def nestedCalls : List (List (Job Bool)) :=
  [[.atSite (.request ⟨0⟩ (.report (.entry "run")))],
    [.order true, .atSite (.request ⟨0⟩ (.marker "phase" "start"))]]

/-- A call is made in the middle of the write of another one, and the archive swallows what both of
them give back. -/
theorem buffers_return_once_nested :
    let during := (Interleaving.fresh recordingSite nestedCalls).run (procedure swallows)
      [0, 0, 0, 0, 0, 0]
    let later := (Interleaving.fresh recordingSite nestedCalls).run (procedure swallows)
      [0, 0, 0, 0, 0, 0, 1, 1, 1, 1, 1, 1, 1, 1, 0, 0]
    during.shared.reporter.supply.lent = UInt64.ofNat (held during).length ∧
      (held during).length = 1 ∧ later.underway = [] ∧ later.shared.reporter.supply.lent = 0 := by
  have counts := (buffers_return_once swallows recordingSite nestedCalls []).2.2.2.2.2.2.2 Scribe
    Bool swallows (fun _ _ _ => rfl) recordingSite rfl nestedCalls
  have idle : ((Interleaving.fresh recordingSite nestedCalls).run (procedure swallows)
      [0, 0, 0, 0, 0, 0, 1, 1, 1, 1, 1, 1, 1, 1, 0, 0]).underway = [] := by
    rfl
  refine ⟨(counts _).1, by rfl, idle, (counts _).2 ?_⟩
  rw [idle]
  intro engagement member
  cases member

end TraceRelay.OpenSite
