import TraceRelay.Proofs.Transport.Feeding

/-! A consumer at work on a sink that never fails. -/

namespace TraceRelay.Conveyor

variable {β σ : Type} [ByteBuffer β]

/-- The consumer has ended as it should: all of `returned` is written and put back, the sink is
flushed once and after that left alone, and the end is logged. -/
structure Ended (returned : List β) (calls : List SinkCall) (log : List LogEntry)
    (outcome : Outcome IoFailure Unit) : Prop where
  outcome : outcome = .returned ()
  calls : ∃ writes, calls = writes ++ [.flush (.returned ())] ∧
    Written writes (ByteBuffer.joined returned)
  log : log = [.consumerStarted, .consumerFinished (ByteBuffer.joined returned).length]

/-- How the consumer stands in a phase when it has taken the messages `heard` from the channel and
put the buffers `returned` back. -/
def Stands (heard : List (Message β)) (closed : Prop) (returned : List β) (calls : List SinkCall)
    (log : List LogEntry) : Consumer β ⊕ Outcome IoFailure Unit → Prop
  | .inl .starting => heard = [] ∧ returned = [] ∧ calls = [] ∧ log = []
  | .inl (.receiving stopping handled) =>
    heard.filterMap Message.buffer? = returned ∧ Written calls (ByteBuffer.joined returned) ∧
      handled = (ByteBuffer.joined returned).length ∧ log = [.consumerStarted] ∧
      (stopping = true ↔ .stop ∈ heard)
  | .inl (.writing stopping handled buffer left) =>
    heard.filterMap Message.buffer? = returned ++ [buffer] ∧
      (∃ portion, portion ++ left = ByteBuffer.contents buffer ∧
        Written calls (ByteBuffer.joined returned ++ portion)) ∧
      handled = (ByteBuffer.joined returned).length ∧ log = [.consumerStarted] ∧
      (stopping = true ↔ .stop ∈ heard)
  | .inl (.flushing handled) =>
    heard.filterMap Message.buffer? = returned ∧ Written calls (ByteBuffer.joined returned) ∧
      handled = (ByteBuffer.joined returned).length ∧ log = [.consumerStarted] ∧ closed
  | .inl (.closing outcome) =>
    heard.filterMap Message.buffer? = returned ∧ Ended returned calls log outcome ∧ closed
  | .inr outcome =>
    heard.filterMap Message.buffer? = returned ∧ Ended returned calls log outcome ∧ closed

/-- What holds of every conveyor whose sink never fails. -/
structure Works (fine : σ → Prop) (past : List (Act β × Answer β))
    (conveyor : Conveyor β (ObservedSink σ)) (heard : List (Message β)) : Prop where
  inOrder : heard <+: sent past
  channel : conveyor.pool.hasReceiver → sent past = heard ++ conveyor.pool.queued
  hears : ∀ phase, conveyor.guard.consumer = .inl phase → conveyor.pool.hasReceiver = true
  fine : fine conveyor.guard.sink.sink
  stands : Stands heard (Over past heard conveyor.pool.senders) (returned past)
    conveyor.guard.sink.calls conveyor.guard.log conveyor.guard.consumer

/-- The sink is fine, and no call of it has failed. -/
structure Sound (fine : σ → Prop) (observed : ObservedSink σ) : Prop where
  fine : fine observed.sink
  well : ∀ call ∈ observed.calls, call.failure? = none
  flushes : ∀ outcome, .flush outcome ∈ observed.calls → outcome = .returned ()

/-- No call of a fine sink fails. -/
theorem Sound.after_turn [PatientSink σ] {fine : σ → Prop} (obliging : Obliging fine)
    {conveyor : Conveyor β (ObservedSink σ)} (sound : Sound fine conveyor.guard.sink) :
    Sound fine conveyor.turn.guard.sink := by
  obtain ⟨good, well, flushes⟩ := sound
  rcases sink_turn conveyor with same | ⟨first, rest, written⟩ | flushed
  · rw [same]
    exact ⟨good, well, flushes⟩
  · obtain ⟨stays, answers⟩ := obliging.write (first :: rest) _ good (by simp)
    rw [written]
    refine ⟨stays, ?_, by simpa using flushes⟩
    have answered : (SinkCall.write (first :: rest)
        (ByteSink.write (first :: rest) conveyor.guard.sink.sink).1).failure? = none := by
      rcases answers with interrupted | ⟨count, -, accepted⟩ <;> simp [SinkCall.failure?, *]
    simpa [or_imp, forall_and, answered] using well
  · obtain ⟨stays, outcome⟩ := obliging.flush _ good
    rw [flushed]
    refine ⟨stays, ?_, ?_⟩
    · simpa [or_imp, forall_and, SinkCall.failure?] using well
    · simpa [or_imp, forall_and, outcome] using flushes

theorem Sound.after_act [PatientSink σ] {fine : σ → Prop} (obliging : Obliging fine)
    {conveyor : Conveyor β (ObservedSink σ)} (sound : Sound fine conveyor.guard.sink)
    (act : Act β) : Sound fine (perform act conveyor).2.guard.sink := by
  by_cases own : act = .turn
  · subst own
    exact sound.after_turn obliging
  · rw [guard_of_ne_turn conveyor own]
    exact sound

/-- Of what a consumer can come to, a sink that has not failed leaves the good end only. -/
theorem Stage.stands {fine : σ → Prop} {heard : List (Message β)} {closed : Prop}
    {returned : List β} {observed : ObservedSink σ} {log : List LogEntry}
    {consumer : Consumer β ⊕ Outcome IoFailure Unit}
    (stage : Stage heard closed returned observed.calls log consumer)
    (sound : Sound fine observed) : Stands heard closed returned observed.calls log consumer := by
  have finished {outcome : Outcome IoFailure Unit}
      (finish : Flushed heard closed returned observed.calls log outcome ∨
        ∃ buffer portion left,
          Broken heard returned observed.calls log outcome buffer portion left) :
      heard.filterMap Message.buffer? = returned ∧ Ended returned observed.calls log outcome ∧
        closed := by
    rcases finish with ⟨handled, ⟨writes, calls, fed⟩, logged, holds⟩ | ⟨_, _, _, broken⟩
    · obtain rfl := sound.flushes outcome (by simp [calls])
      exact ⟨handled, ⟨rfl, ⟨writes, calls, fed.toWritten⟩, by simpa using logged⟩, holds⟩
    · obtain ⟨writes, answer, calls, failed, -⟩ := broken.calls
      have well := sound.well _ (calls ▸ List.mem_append_right _ (List.mem_singleton_self _))
      rw [well] at failed
      cases failed
  rcases consumer with (_ | _ | _ | _ | _) | outcome
  case inl.starting => exact stage
  case inl.receiving | inl.flushing =>
    obtain ⟨received, fed, rest⟩ := stage
    exact ⟨received, fed.toWritten, rest⟩
  case inl.writing =>
    obtain ⟨received, ⟨portion, split, fed⟩, rest⟩ := stage
    exact ⟨received, ⟨portion, split, fed.toWritten⟩, rest⟩
  case inl.closing | inr => exact finished stage

theorem Feeds.works {fine : σ → Prop} {past : List (Act β × Answer β)}
    {conveyor : Conveyor β (ObservedSink σ)} {heard : List (Message β)}
    (feeds : Feeds past conveyor heard) (sound : Sound fine conveyor.guard.sink) :
    Works fine past conveyor heard where
  inOrder := feeds.inOrder
  channel := feeds.channel
  hears _ working := feeds.hears working
  fine := sound.fine
  stands := feeds.stage.stands sound

/-- What holds of every conveyor whose sink never fails holds after every session. -/
theorem works_follow [PatientSink σ] {fine : σ → Prop} (obliging : Obliging fine)
    {pool : CirculatingPool β} (idle : pool.queued = []) (alive : pool.hasReceiver = true)
    {sink : σ} (good : fine sink) (acts : List (Act β)) :
    let session := Session.follow perform
      ({ pool, guard := { sink := { sink } } } : Conveyor β (ObservedSink σ)) acts
    ∃ heard, Works fine session.past session.state heard := by
  intro session
  have sound : Sound fine session.state.guard.sink :=
    Session.follow_induction
      (motive := fun _ (conveyor : Conveyor β (ObservedSink σ)) => Sound fine conveyor.guard.sink)
      perform ⟨good, by simp, by simp⟩ (fun _ _ act sound => sound.after_act obliging act) acts
  obtain ⟨heard, feeds⟩ := feeds_follow idle alive sink acts
  exact ⟨heard, feeds.works sound⟩

end TraceRelay.Conveyor
