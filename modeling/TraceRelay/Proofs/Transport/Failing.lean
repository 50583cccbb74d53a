import Mathlib.Data.List.Induction
import TraceRelay.Proofs.Transport.Release

/-! A sink has taken what was sent, in order and without a gap, up to the call that fails. -/

namespace TraceRelay

variable {β σ : Type}

/-- A write that fails does not return. -/
theorem SinkCall.ne_returned_of_failure {call : SinkCall} {outcome : Outcome IoFailure Unit}
    (failed : call.failure? = some outcome) : outcome ≠ .returned () := by
  rintro rfl
  unfold failure? at failed
  split at failed <;> cases failed

/-- The outcome to which the consumer's work has come, also before the consumer has gone away. -/
def Guard.outcome? (guard : Guard β σ) : Option (Outcome IoFailure Unit) :=
  match guard.consumer with
  | .inl (.closing outcome) | .inr outcome => some outcome
  | _ => none

/-- A guard that is let go logs how its consumer has ended. -/
theorem Guard.log_release [ByteBuffer β] [PatientSink σ] {guard : Guard β σ}
    {pool : CirculatingPool β} {outcome : Outcome IoFailure Unit}
    (ended : (guard.release pool).result.consumer = .inr outcome) :
    (guard.release pool).log = Consumer.stopLog outcome := by
  simp only [release] at ended ⊢
  rw [ended]

namespace Conveyor

variable [ByteBuffer β] {past : List (Act β × Answer β)} {conveyor : Conveyor β (ObservedSink σ)}
  {heard : List (Message β)}

/-- The consumer has taken the messages `heard` from the channel, and their contents are in the
sink, up to some place. -/
structure Unbroken (past : List (Act β × Answer β)) (conveyor : Conveyor β (ObservedSink σ))
    (heard : List (Message β)) : Prop where
  inOrder : heard <+: sent past
  channel : conveyor.pool.hasReceiver = true → sent past = heard ++ conveyor.pool.queued
  received : conveyor.guard.sink.received <+: ByteBuffer.joined (heard.filterMap Message.buffer?)
  /-- If the consumer returns or fails in the flush only, it has written and put back all that it
  has taken, and it was told to stop or nobody is left who could send. -/
  drained : ∀ outcome, conveyor.guard.outcome? = some outcome →
    outcome = .returned () ∨ .flush outcome ∈ conveyor.guard.sink.calls →
      Over past heard conveyor.pool.senders ∧ returned past = heard.filterMap Message.buffer? ∧
        conveyor.guard.sink.received = ByteBuffer.joined (heard.filterMap Message.buffer?)
  /-- The first write call that fails is the last call, and the consumer's work ends with it. The
  buffer in hand is not put back, the ones before it are. -/
  failing : ∀ before call after outcome, conveyor.guard.sink.calls = before ++ call :: after →
    call.failure? = some outcome →
      after = [] ∧
      (∀ earlier ∈ before,
        earlier.failure? = none ∧ ∃ bytes answer, earlier = .write bytes answer) ∧
      conveyor.guard.outcome? = some outcome ∧
      ∃ buffer portion left answer, call = .write left answer ∧
        portion ++ left = ByteBuffer.contents buffer ∧
        heard.filterMap Message.buffer? = returned past ++ [buffer] ∧
        conveyor.guard.sink.received = ByteBuffer.joined (returned past) ++ portion

/-- As long as the consumer works, no call has failed. When its work has come to an outcome, it has
flushed the sink or a write call has failed. -/
theorem Feeds.fed_or_finished (feeds : Feeds past conveyor heard) :
    (conveyor.guard.outcome? = none ∧ ∃ bytes, Fed conveyor.guard.sink.calls bytes ∧
      bytes <+: ByteBuffer.joined (heard.filterMap Message.buffer?)) ∨
    ∃ outcome, conveyor.guard.outcome? = some outcome ∧
      (Flushed heard (Over past heard conveyor.pool.senders) (returned past)
          conveyor.guard.sink.calls conveyor.guard.log outcome ∨
        ∃ buffer portion left, Broken heard (returned past) conveyor.guard.sink.calls
          conveyor.guard.log outcome buffer portion left) := by
  obtain ⟨pool, consumer, sink, log⟩ := conveyor
  have stage := feeds.stage
  rcases consumer with (_ | _ | _ | _ | outcome) | outcome
  case inl.starting =>
    obtain ⟨-, -, silent, -⟩ := stage
    exact .inl ⟨rfl, [], silent ▸ .nil, List.nil_prefix⟩
  case inl.receiving | inl.flushing =>
    obtain ⟨received, fed, -⟩ := stage
    exact .inl ⟨rfl, _, fed, received ▸ List.prefix_refl _⟩
  case inl.writing =>
    obtain ⟨received, ⟨portion, split, fed⟩, -⟩ := stage
    refine .inl ⟨rfl, _, fed, ?_⟩
    rw [received, ByteBuffer.joined_append, ByteBuffer.joined_singleton, ← split]
    exact ⟨_, List.append_assoc _ _ _⟩
  case inl.closing | inr => exact .inr ⟨outcome, rfl, stage⟩

theorem Flushed.received {closed : Prop} {returned : List β} {observed : ObservedSink σ}
    {log : List LogEntry} {outcome : Outcome IoFailure Unit}
    (flushed : Flushed heard closed returned observed.calls log outcome) :
    observed.received = ByteBuffer.joined returned := by
  obtain ⟨writes, calls, fed⟩ := flushed.calls
  simp [ObservedSink.received, calls, fed.taken, SinkCall.taken]

theorem Broken.received {returned : List β} {observed : ObservedSink σ} {log : List LogEntry}
    {outcome : Outcome IoFailure Unit} {buffer : β} {portion left : List UInt8}
    (broken : Broken heard returned observed.calls log outcome buffer portion left) :
    observed.received = ByteBuffer.joined returned ++ portion := by
  obtain ⟨writes, answer, calls, -, nothing, fed⟩ := broken.calls
  simp [ObservedSink.received, calls, fed.taken, nothing]

/-- A call that has failed is the last one. -/
theorem Broken.last {returned : List β} {calls : List SinkCall} {log : List LogEntry}
    {outcome : Outcome IoFailure Unit} {buffer : β} {portion left : List UInt8}
    (broken : Broken heard returned calls log outcome buffer portion left)
    {before after : List SinkCall} {call : SinkCall} {other : Outcome IoFailure Unit}
    (split : calls = before ++ call :: after) (failed : call.failure? = some other) :
    after = [] ∧ other = outcome ∧ (∃ answer, call = .write left answer) ∧
      ∃ bytes, Fed before bytes := by
  obtain ⟨writes, answer, ends, failure, -, fed⟩ := broken.calls
  rcases List.eq_nil_or_concat after with rfl | ⟨between, last, rfl⟩
  · obtain ⟨rfl, same⟩ := List.append_inj' (split.symm.trans ends) rfl
    obtain rfl := List.singleton_inj.mp same
    exact ⟨rfl, Option.some.inj (failed.symm.trans failure), ⟨answer, rfl⟩, _, fed⟩
  · have whole : (before ++ call :: between) ++ [last] = writes ++ [.write left answer] := by
      rw [← ends, split]
      simp
    obtain ⟨rfl, -⟩ := List.append_inj' whole rfl
    rw [fed.well call (by simp)] at failed
    cases failed

theorem Feeds.unbroken (feeds : Feeds past conveyor heard) : Unbroken past conveyor heard where
  inOrder := feeds.inOrder
  channel := feeds.channel
  received := by
    rcases feeds.fed_or_finished with ⟨-, bytes, fed, inside⟩ |
      ⟨outcome, -, flushed | ⟨buffer, portion, left, broken⟩⟩
    · have received : conveyor.guard.sink.received = bytes := fed.taken
      exact received ▸ inside
    · rw [flushed.received]
      exact flushed.handled ▸ List.prefix_refl _
    · rw [broken.received, broken.hand, ByteBuffer.joined_append, ByteBuffer.joined_singleton,
        ← broken.split]
      exact ⟨left, List.append_assoc _ _ _⟩
  drained outcome finished well := by
    rcases feeds.fed_or_finished with ⟨unfinished, -⟩ |
      ⟨other, same, flushed | ⟨buffer, portion, left, broken⟩⟩
    · rw [unfinished] at finished
      cases finished
    · exact ⟨flushed.closed, flushed.handled.symm, flushed.handled ▸ flushed.received⟩
    · obtain ⟨writes, answer, calls, failed, -, fed⟩ := broken.calls
      obtain rfl := Option.some.inj (finished.symm.trans same)
      rcases well with returns | flushes
      · exact absurd returns (SinkCall.ne_returned_of_failure failed)
      · rw [calls] at flushes
        rcases List.mem_append.mp flushes with earlier | last
        · obtain ⟨_, _, _, write⟩ := fed.writes _ earlier
          cases write
        · cases List.mem_singleton.mp last
  failing before call after outcome calls failed := by
    have among : call ∈ conveyor.guard.sink.calls := by simp [calls]
    rcases feeds.fed_or_finished with ⟨-, bytes, fed, -⟩ |
      ⟨other, same, flushed | ⟨buffer, portion, left, broken⟩⟩
    · rw [fed.well call among] at failed
      cases failed
    · obtain ⟨writes, ends, fed⟩ := flushed.calls
      rw [ends] at among
      rcases List.mem_append.mp among with earlier | last
      · rw [fed.well call earlier] at failed
        cases failed
      · rw [List.mem_singleton.mp last] at failed
        cases failed
    · obtain ⟨last, rfl, ⟨answer, write⟩, bytes, fed⟩ := broken.last calls failed
      refine ⟨last, fun earlier member => ⟨fed.well earlier member, ?_⟩, same, buffer, portion,
        left, answer, write, broken.split, broken.hand, broken.received⟩
      obtain ⟨first, rest, answer, written⟩ := fed.writes earlier member
      exact ⟨_, _, written⟩

variable [ByteSink σ]

/-- A consumer whose work has come to an outcome calls its sink no more and puts nothing back; with
its next step it goes away. -/
theorem perform_of_outcome {outcome : Outcome IoFailure Unit}
    (finished : conveyor.guard.outcome? = some outcome) (act : Act β) :
    let after := (perform act conveyor).2
    after.guard.outcome? = some outcome ∧ after.guard.sink = conveyor.guard.sink ∧
      returned [(act, (perform act conveyor).1)] = [] ∧ after.pool.free <:+ conveyor.pool.free ∧
      (act = .turn → after.guard.consumer = .inr outcome) := by
  by_cases own : act = .turn
  · subst own
    obtain ⟨pool, consumer, sink, log⟩ := conveyor
    rcases consumer with (_ | _ | _ | _ | other) | other
    case inl.closing | inr =>
      cases finished
      exact ⟨rfl, rfl, rfl, List.suffix_refl _, fun _ => rfl⟩
    all_goals cases finished
  · refine ⟨by rw [guard_of_ne_turn conveyor own]; exact finished,
      by rw [guard_of_ne_turn conveyor own], ?_, ?_, fun turns => absurd turns own⟩
    all_goals
      cases act with
      | turn => exact absurd rfl own
      | lend =>
        cases queue : conveyor.pool.free <;>
          simp [perform, CirculatingPool.lend, queue, returned]
      | send | stop =>
        simp only [perform, dispatch, CirculatingPool.enqueue]
        split
        · simp [returned]
        · split <;> simp [returned]
      | join =>
        simp only [perform]
        split <;> simp [returned, CirculatingPool.dropSender]
      | leave => simp [perform, returned, CirculatingPool.dropSender]

theorem follow_of_outcome (start : Conveyor β (ObservedSink σ)) (acts later : List (Act β))
    {outcome : Outcome IoFailure Unit}
    (finished : (Session.follow perform start acts).state.guard.outcome? = some outcome) :
    let session := Session.follow perform start acts
    let further := Session.follow perform start (acts ++ later)
    further.state.guard.outcome? = some outcome ∧
      further.state.guard.sink = session.state.guard.sink ∧
      returned further.past = returned session.past ∧
      further.state.pool.free <:+ session.state.pool.free ∧
      (session.state.guard.consumer = .inr outcome ∨ .turn ∈ later →
        further.state.guard.consumer = .inr outcome) := by
  intro session further
  induction later using List.reverseRecOn with
  | nil => simpa [further, session] using finished
  | append_singleton later act ih =>
    obtain ⟨still, sink, kept, free, ended⟩ := ih
    have more : further = (Session.follow perform start (acts ++ later)).extend perform act := by
      simp only [further]
      rw [← List.append_assoc, Session.follow_concat]
    obtain ⟨stillAfter, sinkAfter, nothing, freeAfter, turns⟩ := perform_of_outcome still act
    rw [more]
    refine ⟨stillAfter, sinkAfter.trans sink, ?_, freeAfter.trans free, fun reason => ?_⟩
    · rw [Session.extend, returned_concat, nothing, List.append_nil, kept]
    · have now : (Session.follow perform start (acts ++ later)).state.guard.consumer =
          .inr outcome ∨ act = .turn := by
        simp only [List.mem_append, List.mem_singleton] at reason
        rcases reason with before | among | own
        · exact .inl (ended (.inl before))
        · exact .inl (ended (.inr among))
        · exact .inr own.symm
      rcases now with before | own
      · exact (congrArg Guard.consumer (guard_perform before act)).trans before
      · exact turns own

omit [ByteSink σ] in
/-- When the consumer has ended, nobody is there to receive. -/
theorem Feeds.disconnected (feeds : Feeds past conveyor heard) {outcome : Outcome IoFailure Unit}
    (ended : conveyor.guard.consumer = .inr outcome) (message : Message β) :
    (conveyor.pool.enqueue message).result = .error .disconnected := by
  have gone : conveyor.pool.hasReceiver = false := by
    rw [feeds.receiver, ended]
    rfl
  simp [CirculatingPool.enqueue, gone]

omit [ByteSink σ] in
/-- The consumer warns of nothing itself. -/
theorem Feeds.calm (feeds : Feeds past conveyor heard) {outcome : Outcome IoFailure Unit}
    (ended : conveyor.guard.consumer = .inr outcome) :
    conveyor.guard.log.filter (fun entry => entry.level = .warn) = [] := by
  have stage := feeds.stage
  rw [ended] at stage
  rcases stage with flushed | ⟨_, _, _, broken⟩
  · rw [flushed.log]
    split <;> simp [LogEntry.level]
  · simp [broken.log, LogEntry.level]

/-- Whoever lets go of the guard waits for the consumer's end, which comes. -/
theorem ended_of_release {τ : Type} [PatientSink τ] {pool : CirculatingPool β}
    (idle : pool.queued = []) (alive : pool.hasReceiver = true) (sink : τ) (acts : List (Act β)) :
    let start : Conveyor β (ObservedSink τ) := { pool, guard := { sink := { sink } } }
    (Session.follow perform start acts).state.pool.senders ≠ 0 →
      ∃ count outcome,
        let full := Session.follow perform start (acts ++ .stop :: List.replicate count .turn)
        full.state.guard.consumer = .inr outcome ∧
          (Session.follow perform start acts).state.release =
            { pool := full.state.pool.dropSender, guard := full.state.guard } := by
  intro start sendable
  obtain ⟨count, released, waits⟩ := exists_release start acts sendable
  refine ⟨count, ?_⟩
  cases ended : (Session.follow perform start (acts ++ .stop :: List.replicate count .turn)).state
      |>.guard.consumer with
  | inr outcome => exact ⟨outcome, ended, released⟩
  | inl phase =>
    cases before : (Session.follow perform start acts).state.guard.consumer with
    | inr outcome =>
      have finished : (Session.follow perform start acts).state.guard.outcome? = some outcome := by
        simp [Guard.outcome?, before]
      have still := (follow_of_outcome start acts (.stop :: List.replicate count .turn)
        finished).2.2.2.2 (.inl before)
      rw [ended] at still
      cases still
    | inl earlier =>
      obtain ⟨heard, feeds⟩ := feeds_follow idle alive sink acts
      obtain ⟨later, split, -⟩ := past_of_release start acts count sendable (feeds.hears before)
      obtain ⟨heardAll, feedsAll⟩ :=
        feeds_follow idle alive sink (acts ++ .stop :: List.replicate count .turn)
      have told : Summoned
          (Session.follow perform start (acts ++ .stop :: List.replicate count .turn)).past
          (Session.follow perform start (acts ++ .stop :: List.replicate count .turn)).state :=
        .inl (by simp [split, sent])
      exact absurd (waits phase ended) (feedsAll.not_waits told ended)

/-- A sink has taken the first bytes of what was sent, in order and up to the first write call that
fails, of which whoever sends or lets go of the guard later learns. -/
theorem output_unbroken {pool : CirculatingPool β} (idle : pool.queued = [])
    (alive : pool.hasReceiver = true) :
    (∀ (σ : Type) [ByteSink σ] (sink : σ) (acts : List (Act β)),
      let start : Conveyor β (ObservedSink σ) := { pool, guard := { sink := { sink } } }
      let session := Session.follow perform start acts
      session.state.guard.sink.received <+: ByteBuffer.joined (buffersSent session.past) ∧
        (∃ heard, Unbroken session.past session.state heard) ∧
        ((∀ earlier, earlier <+: session.past →
            pool.free.length + (buffersSent earlier).length ≤
              pool.places + (lent earlier).length) →
          lent session.past ++ session.state.pool.free =
            pool.free ++ (returned session.past).map Clearable.clear) ∧
        ∀ outcome, session.state.guard.outcome? = some outcome → ∀ later,
          let further := Session.follow perform start (acts ++ later)
          further.state.guard.outcome? = some outcome ∧
            further.state.guard.sink = session.state.guard.sink ∧
            returned further.past = returned session.past ∧
            further.state.pool.free <:+ session.state.pool.free ∧
            (session.state.guard.consumer = .inr outcome ∨ .turn ∈ later →
              further.state.guard.consumer = .inr outcome ∧
                ∀ buffer, (BufferSupply.ship buffer further.state).result =
                  .error .disconnected)) ∧
    ∀ (σ : Type) [PatientSink σ] (sink : σ) (acts : List (Act β)),
      let start : Conveyor β (ObservedSink σ) := { pool, guard := { sink := { sink } } }
      let session := Session.follow perform start acts
      session.state.pool.senders ≠ 0 →
        let released := session.state.guard.release session.state.pool
        ∃ outcome, released.result.consumer = .inr outcome ∧
          (∀ earlier, session.state.guard.outcome? = some earlier → outcome = earlier) ∧
          (released.result.log ++ released.log).filter (fun entry => entry.level = .warn) =
            match outcome with
            | .returned () => []
            | .failed error => [.consumerFailed error]
            | .panicked _ => [.consumerPanicked] := by
  refine ⟨fun σ _ sink acts => ?_, fun σ _ sink acts => ?_⟩
  · intro start session
    obtain ⟨heard, feeds⟩ := feeds_follow idle alive sink acts
    have unbroken : Unbroken session.past session.state heard := feeds.unbroken
    refine ⟨?_, ⟨heard, unbroken⟩, ledger_follow idle alive sink acts, ?_⟩
    · obtain ⟨rest, split⟩ := unbroken.inOrder
      refine unbroken.received.trans ?_
      rw [buffersSent, ← split, List.filterMap_append, ByteBuffer.joined_append]
      exact List.prefix_append _ _
    · intro outcome finished later further
      obtain ⟨still, same, kept, free, ended⟩ := follow_of_outcome start acts later finished
      obtain ⟨_, feedsLater⟩ := feeds_follow idle alive sink (acts ++ later)
      exact ⟨still, same, kept, free, fun reason =>
        ⟨ended reason, fun buffer => feedsLater.disconnected (ended reason) (.buffer buffer)⟩⟩
  · intro start session sendable released
    obtain ⟨count, outcome, ended, left⟩ := ended_of_release idle alive sink acts sendable
    have guard : released.result =
        (Session.follow perform start (acts ++ .stop :: List.replicate count .turn)).state.guard :=
      congrArg Conveyor.guard left
    obtain ⟨_, feeds⟩ := feeds_follow idle alive sink (acts ++ .stop :: List.replicate count .turn)
    refine ⟨outcome, guard ▸ ended, fun earlier finished => ?_, ?_⟩
    · have still := (follow_of_outcome start acts (.stop :: List.replicate count .turn) finished).1
      rw [Guard.outcome?, ended] at still
      exact Option.some.inj still
    · have own : released.result.log.filter (fun entry => entry.level = .warn) = [] := by
        rw [guard]
        exact feeds.calm ended
      have warned : released.log = Consumer.stopLog outcome :=
        Guard.log_release (guard ▸ ended)
      rw [List.filter_append, own, warned, List.nil_append]
      cases outcome <;> rfl

/-- The sink runs full in the middle of the second of three buffers. -/
theorem output_unbroken_midway :
    let pool : CirculatingPool GrowingBuffer := { free := [], places := 3, senders := 2 }
    let sink : ScriptedSink := { capacity := some 5, chunk := some 3 }
    let acts := [.send { bytes := [1, 2, 3] }, .send { bytes := [4, 5, 6] },
      .send { bytes := [7] }] ++ List.replicate 9 .turn
    let session := Session.follow perform
      ({ pool, guard := { sink := { sink } } } : Conveyor GrowingBuffer (ObservedSink ScriptedSink))
      acts
    let released := session.state.guard.release session.state.pool
    session.state.guard.sink.received = [1, 2, 3, 4, 5] ∧
      session.state.pool.free = [{ bytes := [] }] ∧
      (∃ heard, Unbroken session.past session.state heard) ∧
      (released.result.log ++ released.log).filter (fun entry => entry.level = .warn) =
        [.consumerFailed { message := "sink full" }] := by
  intro pool sink acts
  have always := output_unbroken (rfl : pool.queued = []) rfl
  obtain ⟨outcome, -, same, warned⟩ := always.2 ScriptedSink sink acts (by decide +kernel)
  obtain rfl := same (.failed { message := "sink full" }) (by decide +kernel)
  exact ⟨by decide +kernel, by decide +kernel, (always.1 ScriptedSink sink acts).2.1, warned⟩

end Conveyor

end TraceRelay
