import TraceRelay.Proofs.Delivery.Writes
import TraceRelay.Proofs.Transport.Release
import TraceRelay.Reporting.Relay

/-! A run of calls on a relay is a session with its conveyor. -/

namespace TraceRelay.Relay

open OpenSite (obtains? ships? asks? obtained shipped asked sent held supply_step happens_of_step
  length_shipped_le)

variable {β σ : Type} [ByteBuffer β] [PatientSink β] [PatientSink σ]

/-- An access on a relay whose sink keeps a record. -/
abbrev RelayAccess (β σ : Type) :=
  OpenSite.SiteAccess (Conveyor β (ObservedSink σ)) LineEncoder β Unit

/-- The act on the conveyor that an access is. -/
def act? (access : RelayAccess β σ) : Option (Conveyor.Act β) :=
  match access.phase.delivery? with
  | some (_, .obtaining _) => some .lend
  | some (_, .returning _ buffer) => some (.send buffer)
  | some _ => none
  | none =>
    match access.phase with
    | .ordering _ => some .turn
    | .atSite _ _ => none

/-- The act on the conveyor that an access is, and its answer. -/
def exchange? (access : RelayAccess β σ) : Option (Conveyor.Act β × Conveyor.Answer β) :=
  (act? access).map fun act => (act, (Conveyor.perform act access.before.reporter.supply).1)

/-- The session with the conveyor in which the accesses have been made. -/
def conveyance (start : Conveyor β (ObservedSink σ)) (past : List (RelayAccess β σ)) :
    Session (Conveyor β (ObservedSink σ)) (Conveyor.Act β) (Conveyor.Answer β) :=
  Session.follow Conveyor.perform start (past.filterMap act?)

omit [PatientSink β] in
theorem lend_perform (conveyor : Conveyor β (ObservedSink σ)) :
    ∃ buffer?, (BufferSupply.lend conveyor).result = .ok buffer? ∧
      Conveyor.perform .lend conveyor = (.lent buffer?, (BufferSupply.lend conveyor).state) := by
  cases queue : conveyor.pool.free with
  | nil => exact ⟨none, by simp [BufferSupply.lend, Conveyor.perform, CirculatingPool.lend, queue]⟩
  | cons buffer rest =>
    exact ⟨some buffer, by
      simp [BufferSupply.lend, Conveyor.perform, CirculatingPool.lend, queue]⟩

omit [PatientSink β] in
theorem send_perform {conveyor : Conveyor β (ObservedSink σ)} (sendable : conveyor.pool.senders ≠ 0)
    (buffer : β) :
    Conveyor.perform (.send buffer) conveyor =
      (.sent (.buffer buffer) (BufferSupply.ship buffer conveyor).result,
        (BufferSupply.ship buffer conveyor).state) := by
  simp [BufferSupply.ship, Conveyor.perform, Conveyor.dispatch, sendable]

/-- An access does to the conveyor what its act does. -/
theorem supply_access {access : RelayAccess β σ}
    (made : procedure.step access.job access.phase access.before = (access.moved, access.after))
    (sendable : access.before.reporter.supply.pool.senders ≠ 0) :
    access.after.reporter.supply =
      match act? access with
      | some act => (Conveyor.perform act access.before.reporter.supply).2
      | none => access.before.reporter.supply := by
  obtain ⟨turn, job, phase, before, moved, after⟩ := access
  dsimp only at made sendable ⊢
  have called (thread : Thread) (call : Call β) (siteJob : Site.Job) :
      (call.step thread before).state.reporter.supply =
        match act? (⟨turn, job, .atSite siteJob (.calling thread call), before, moved, after⟩ :
          RelayAccess β σ) with
        | some act => (Conveyor.perform act before.reporter.supply).2
        | none => before.reporter.supply := by
    rw [supply_step]
    simp only [act?, OpenSite.Phase.delivery?, OpenSite.Phase.call?, Option.bind_some]
    cases call.delivery? with
    | none => rfl
    | some making =>
      obtain ⟨purpose, delivery⟩ := making
      cases delivery with
      | stamping | writing => rfl
      | obtaining draft =>
        obtain ⟨buffer?, -, performed⟩ := lend_perform before.reporter.supply
        simp [performed]
      | returning written buffer => simp [send_perform sendable]
  cases happens_of_step made with
  | goesOn siteJob thread call next stepped => exact called thread call siteJob
  | ends siteJob thread call outcome stepped => exact called thread call siteJob
  | changes | obeys => rfl

omit [PatientSink β] in
/-- The calls on a relay neither let go of a sending end nor wait for the consumer. -/
theorem senders_act {access : RelayAccess β σ} {act : Conveyor.Act β}
    (own : act? access = some act) (conveyor : Conveyor β (ObservedSink σ)) :
    (Conveyor.perform act conveyor).2.pool.senders = conveyor.pool.senders := by
  have listed : act = .turn ∨ act = .lend ∨ ∃ buffer, act = .send buffer := by
    unfold act? at own
    split at own
    · exact .inr (.inl (Option.some.inj own).symm)
    · exact .inr (.inr ⟨_, (Option.some.inj own).symm⟩)
    · cases own
    · split at own
      · exact .inl (Option.some.inj own).symm
      · cases own
  rcases listed with rfl | rfl | ⟨buffer, rfl⟩
  · rcases Conveyor.pool_turn conveyor with ⟨buffer, -, put⟩ | ⟨-, queued, hasReceiver, kept⟩
    · simp only [Conveyor.perform, put, CirculatingPool.putBack]
      split <;> rfl
    · simp only [Conveyor.perform, kept]
  · cases queue : conveyor.pool.free <;>
      simp [Conveyor.perform, CirculatingPool.lend, queue]
  · simp only [Conveyor.perform, Conveyor.dispatch, CirculatingPool.enqueue]
    split
    · rfl
    · split <;> rfl

section Views

variable {access : RelayAccess β σ}

omit [PatientSink β] in
/-- The buffer that the pool lends with an access. -/
theorem lent_exchange :
    Conveyor.lent (exchange? access).toList = ((obtains? access).map Prod.snd).toList := by
  unfold exchange? act? obtains?
  cases access.phase.delivery? with
  | none =>
    dsimp only
    split <;> rfl
  | some making =>
    obtain ⟨purpose, delivery⟩ := making
    cases delivery with
    | stamping | writing => rfl
    | returning written buffer =>
      simp only [Option.map_some, Option.toList_some, Conveyor.perform, Conveyor.dispatch]
      split <;> rfl
    | obtaining draft =>
      obtain ⟨buffer?, lent, performed⟩ := lend_perform access.before.reporter.supply
      simp only [Option.map_some, Option.toList_some, performed, lent]
      cases buffer? <;> rfl

omit [PatientSink β] in
/-- The buffer that is sent over the channel with an access. -/
theorem sent_exchange (sendable : access.before.reporter.supply.pool.senders ≠ 0) :
    Conveyor.sent (exchange? access).toList =
      ((ships? access).map fun shipped => Message.buffer shipped.2.2).toList := by
  unfold exchange? act? ships?
  cases access.phase.delivery? with
  | none =>
    dsimp only
    split <;> rfl
  | some making =>
    obtain ⟨purpose, delivery⟩ := making
    cases delivery with
    | stamping | writing => rfl
    | returning written buffer =>
      simp only [Option.map_some, Option.toList_some, send_perform sendable]
      cases (BufferSupply.ship buffer access.before.reporter.supply).result <;> rfl
    | obtaining draft =>
      obtain ⟨buffer?, lent, performed⟩ := lend_perform access.before.reporter.supply
      simp only [Option.map_some, Option.toList_some, performed]
      rfl

omit [PatientSink β] in
/-- A delivery that asks for a buffer gets one, or finds none. -/
theorem missed_exchange : (asks? access).toList.length =
    (obtains? access).toList.length + Conveyor.missed (exchange? access).toList := by
  unfold exchange? act? obtains? asks?
  cases access.phase.delivery? with
  | none =>
    dsimp only
    split <;> rfl
  | some making =>
    obtain ⟨purpose, delivery⟩ := making
    cases delivery with
    | stamping | writing => rfl
    | returning written buffer =>
      simp only [Option.map_some, Option.toList_some, Conveyor.perform, Conveyor.dispatch]
      split <;> rfl
    | obtaining draft =>
      obtain ⟨buffer?, lent, performed⟩ := lend_perform access.before.reporter.supply
      simp only [Option.map_some, Option.toList_some, performed, lent]
      cases buffer? <;> rfl

end Views

section Sessions

variable {start : Conveyor β (ObservedSink σ)} {past : List (RelayAccess β σ)}
  {access : RelayAccess β σ}

omit [PatientSink β] in
theorem state_conveyance (start : Conveyor β (ObservedSink σ)) (past : List (RelayAccess β σ))
    (access : RelayAccess β σ) : (conveyance start (past ++ [access])).state =
      match act? access with
      | some act => (Conveyor.perform act (conveyance start past).state).2
      | none => (conveyance start past).state := by
  rw [conveyance, List.filterMap_append, filterMap_singleton]
  cases act? access with
  | none => rw [Option.toList_none, List.append_nil]; rfl
  | some act => rw [Option.toList_some, Session.follow_concat]; rfl

omit [PatientSink β] in
theorem past_conveyance (met : access.before.reporter.supply = (conveyance start past).state) :
    (conveyance start (past ++ [access])).past =
      (conveyance start past).past ++ (exchange? access).toList := by
  rw [conveyance, List.filterMap_append, filterMap_singleton, exchange?, met]
  cases act? access with
  | none => simp [conveyance]
  | some act => rw [Option.toList_some, Session.follow_concat]; rfl

/-- The calls on a relay know of the same buffers as the session with its conveyor. -/
structure Mirrors (start : Conveyor β (ObservedSink σ))
    (traffic : OpenSite.Traffic (Conveyor β (ObservedSink σ)) LineEncoder β Unit)
    (past : List (RelayAccess β σ)) : Prop where
  supply : traffic.shared.reporter.supply = (conveyance start past).state
  senders : (conveyance start past).state.pool.senders = start.pool.senders
  custody : (obtained past).Perm (sent past ++ held traffic)
  lent : Conveyor.lent (conveyance start past).past =
    past.filterMap fun access => (obtains? access).map Prod.snd
  sent : Conveyor.sent (conveyance start past).past =
    (shipped past).map fun shipped => Message.buffer shipped.2.2
  missed : (asked past).length =
    (obtained past).length + Conveyor.missed (conveyance start past).past
  fewer : ∀ earlier, earlier <+: (conveyance start past).past →
    (Conveyor.buffersSent earlier).length ≤ (Conveyor.lent earlier).length

omit [ByteBuffer β] [PatientSink β] [PatientSink σ] in
theorem length_obtained (past : List (RelayAccess β σ)) :
    (past.filterMap fun access => (obtains? access).map Prod.snd).length =
      (obtained past).length := by
  rw [obtained, List.length_filterMap_eq_countP, List.length_filterMap_eq_countP]
  simp

omit [ByteBuffer β] [PatientSink β] [PatientSink σ] in
/-- If the conveyor knows of the buffers that have been lent and sent, it has been sent no more of
them than it has lent. -/
theorem length_sent_le {traffic : OpenSite.Traffic (Conveyor β (ObservedSink σ)) LineEncoder β Unit}
    {session : List (Conveyor.Act β × Conveyor.Answer β)}
    (custody : (obtained past).Perm (sent past ++ held traffic))
    (lentAll : Conveyor.lent session = past.filterMap fun access => (obtains? access).map Prod.snd)
    (sentAll : Conveyor.sent session =
      (shipped past).map fun shipped => Message.buffer shipped.2.2) :
    (Conveyor.buffersSent session).length ≤ (Conveyor.lent session).length :=
  calc (Conveyor.buffersSent session).length
    _ ≤ (Conveyor.sent session).length := List.length_filterMap_le _ _
    _ = (shipped past).length := by rw [sentAll, List.length_map]
    _ ≤ (sent past).length := length_shipped_le past
    _ ≤ (sent past).length + (held traffic).length := Nat.le_add_right _ _
    _ = (obtained past).length := by rw [custody.length_eq, List.length_append]
    _ = (Conveyor.lent session).length := by rw [lentAll, length_obtained]

/-- An access keeps it that the session has all buffers that the calls have. -/
theorem Mirrors.afterAccess
    {traffic : OpenSite.Traffic (Conveyor β (ObservedSink σ)) LineEncoder β Unit}
    {strand : OpenSite.SiteStrand β Unit} (sendable : start.pool.senders ≠ 0)
    (mirrors : Mirrors start traffic past) (makes : traffic.Makes procedure strand access) :
    Mirrors start (traffic.afterAccess strand access) (past ++ [access]) := by
  have met : access.before.reporter.supply = (conveyance start past).state := by
    rw [makes.before, mirrors.supply]
  have canSend : access.before.reporter.supply.pool.senders ≠ 0 := by
    rwa [met, mirrors.senders]
  have added := past_conveyance met
  have custody := OpenSite.custody_afterAccess mirrors.custody makes
  have lentAll : Conveyor.lent (conveyance start (past ++ [access])).past =
      (past ++ [access]).filterMap fun access => (obtains? access).map Prod.snd := by
    rw [added, Conveyor.lent, List.filterMap_append, List.filterMap_append, filterMap_singleton]
    exact congrArg₂ (· ++ ·) mirrors.lent lent_exchange
  have sentAll : Conveyor.sent (conveyance start (past ++ [access])).past =
      (shipped (past ++ [access])).map fun shipped => Message.buffer shipped.2.2 := by
    rw [added, Conveyor.sent, List.filterMap_append, OpenSite.shipped_concat, List.map_append]
    refine congrArg₂ (· ++ ·) mirrors.sent ((sent_exchange canSend).trans ?_)
    cases ships? access <;> rfl
  refine ⟨?_, ?_, custody, lentAll, sentAll, ?_, ?_⟩
  · rw [state_conveyance, ← met]
    exact supply_access makes.made canSend
  · rw [state_conveyance, ← mirrors.senders]
    cases own : act? access with
    | none => rfl
    | some act => exact senders_act own _
  · rw [added, Conveyor.missed, List.countP_append, asked, List.filterMap_append,
      filterMap_singleton, List.length_append, OpenSite.obtained_concat, List.length_append]
    have before := mirrors.missed
    have own : (asks? access).toList.length = (obtains? access).toList.length +
        Conveyor.missed (exchange? access).toList := missed_exchange
    simp only [asked, Conveyor.missed] at before own ⊢
    rw [before, own]
    simp only [Option.length_toList, Option.isSome_map]
    omega
  · intro earlier inside
    have all := length_sent_le custody lentAll sentAll
    rw [added] at inside all
    cases own : exchange? access with
    | none =>
      rw [own, Option.toList_none, List.append_nil] at inside
      exact mirrors.fewer earlier inside
    | some entry =>
      rw [own, Option.toList_some] at inside all
      rcases List.prefix_concat_iff.mp inside with rfl | before
      · exact all
      · exact mirrors.fewer earlier before

/-- Every run of a relay is a session with its conveyor. -/
theorem mirrors_run {relay : Relay β (ObservedSink σ)} (supplied : relay.reporter.supply = start)
    (sendable : start.pool.senders ≠ 0) (work : List (List Job)) (schedule : List Nat) :
    Mirrors start ((Interleaving.fresh relay work).run procedure schedule)
      ((Interleaving.fresh relay work).accesses procedure schedule) := by
  refine Interleaving.run_induction (motive := Mirrors start) procedure _ ?_ ?_
    (fun _ _ _ _ mirrors makes => mirrors.afterAccess sendable makes) schedule
  · refine ⟨supplied, rfl, by simp [obtained, sent, held], rfl, rfl, rfl, fun earlier inside => ?_⟩
    have nothing : earlier = [] := List.prefix_nil.mp inside
    exact nothing ▸ Nat.le_refl _
  · intro traffic past number strand job jobs mirrors found idle next
    have kept : held (traffic.afterStart procedure number strand job jobs) = held traffic :=
      OpenSite.held_afterStart job jobs found idle
    exact { mirrors with supply := mirrors.supply, custody := kept ▸ mirrors.custody }

omit [PatientSink β] in
/-- The calls on a relay do not tell the consumer to stop. -/
theorem Mirrors.unsummoned
    {traffic : OpenSite.Traffic (Conveyor β (ObservedSink σ)) LineEncoder β Unit}
    (mirrors : Mirrors start traffic past) (sendable : start.pool.senders ≠ 0) :
    ¬ Conveyor.Summoned (conveyance start past).past (conveyance start past).state := by
  rintro (told | alone)
  · rw [mirrors.sent] at told
    obtain ⟨shipped, -, same⟩ := List.mem_map.mp told
    cases same
  · exact sendable (mirrors.senders ▸ alone)

end Sessions

end TraceRelay.Relay
