import TraceRelay.Proofs.Transport.Acts
import TraceRelay.Transport.ObservedSink

/-! A consumer at work while others send, whatever its sink does. -/

namespace TraceRelay

variable {β σ : Type}

/-- The bytes in buffers, one buffer after the other. -/
def ByteBuffer.joined [ByteBuffer β] (buffers : List β) : List UInt8 :=
  buffers.flatMap ByteBuffer.contents

@[simp] theorem ByteBuffer.joined_nil [ByteBuffer β] : joined ([] : List β) = [] := rfl

@[simp] theorem ByteBuffer.joined_append [ByteBuffer β] (buffers later : List β) :
    joined (buffers ++ later) = joined buffers ++ joined later := by
  simp [joined]

@[simp] theorem ByteBuffer.joined_singleton [ByteBuffer β] (buffer : β) :
    joined [buffer] = contents buffer := by
  simp [joined]

/-- The calls have put the given bytes into their sink, and each of them was asked to write some. -/
structure Written (calls : List SinkCall) (bytes : List UInt8) : Prop where
  taken : calls.flatMap SinkCall.taken = bytes
  writes : ∀ call ∈ calls, ∃ first rest answer, call = .write (first :: rest) answer

theorem Written.nil : Written [] [] := ⟨rfl, by simp⟩

/-- The calls have put the given bytes into their sink, and none of them has failed. -/
structure Fed (calls : List SinkCall) (bytes : List UInt8) : Prop extends Written calls bytes where
  well : ∀ call ∈ calls, call.failure? = none

theorem Fed.nil : Fed [] [] := ⟨.nil, by simp⟩

/-- One more write call puts into the sink what it takes. -/
theorem Fed.concat {calls : List SinkCall} {bytes : List UInt8} (fed : Fed calls bytes)
    {first : UInt8} {rest : List UInt8} {answer : SinkAnswer}
    (well : (SinkCall.write (first :: rest) answer).failure? = none) :
    Fed (calls ++ [.write (first :: rest) answer])
      (bytes ++ (SinkCall.write (first :: rest) answer).taken) where
  taken := by simp [fed.taken]
  writes call member := by
    rcases List.mem_append.mp member with old | new
    · exact fed.writes call old
    · exact ⟨first, rest, answer, List.mem_singleton.mp new⟩
  well call member := by
    rcases List.mem_append.mp member with old | new
    · exact fed.well call old
    · exact List.mem_singleton.mp new ▸ well

@[simp] theorem ObservedSink.calls_write [ByteSink σ] (bytes : List UInt8)
    (observed : ObservedSink σ) : (observed.write bytes).2.calls =
      observed.calls ++ [.write bytes (ByteSink.write bytes observed.sink).1] := rfl

@[simp] theorem ObservedSink.calls_flush [ByteSink σ] (observed : ObservedSink σ) :
    observed.flush.2.calls = observed.calls ++ [.flush (ByteSink.flush observed.sink).1] := rfl

/-- A write call either leaves the bytes that it has not taken, or it fails and has taken none. -/
theorem ObservedSink.push_cases [ByteSink σ] (bytes : List UInt8) (observed : ObservedSink σ) :
    let call := SinkCall.write bytes (ByteSink.write bytes observed.sink).1
    (∃ left, ByteSink.push bytes observed = (.continues left, (observed.write bytes).2) ∧
        call.failure? = none ∧ call.taken ++ left = bytes) ∨
      ∃ outcome, ByteSink.push bytes observed = (.finished outcome, (observed.write bytes).2) ∧
        call.failure? = some outcome ∧ call.taken = [] := by
  have called : ByteSink.write bytes observed = observed.write bytes := rfl
  intro call
  cases answered : (ByteSink.write bytes observed.sink).1 with
  | accepted count =>
    cases count with
    | zero =>
      refine .inr ⟨.failed .writeZero, ?_⟩
      simp [ByteSink.push, called, ObservedSink.write, call, SinkCall.failure?, SinkCall.taken,
        answered]
    | succ count =>
      refine .inl ⟨bytes.drop (count + 1), ?_⟩
      simp [ByteSink.push, called, ObservedSink.write, call, SinkCall.failure?, SinkCall.taken,
        answered]
  | interrupted =>
    refine .inl ⟨bytes, ?_⟩
    simp [ByteSink.push, called, ObservedSink.write, call, SinkCall.failure?, SinkCall.taken,
      answered]
  | failed error =>
    refine .inr ⟨.failed error, ?_⟩
    simp [ByteSink.push, called, ObservedSink.write, call, SinkCall.failure?, SinkCall.taken,
      answered]
  | panicked message =>
    refine .inr ⟨.panicked message, ?_⟩
    simp [ByteSink.push, called, ObservedSink.write, call, SinkCall.failure?, SinkCall.taken,
      answered]

namespace Conveyor

variable [ByteBuffer β]

/-- The consumer has handled all that it has taken from the channel, flushed the sink, and come to
`outcome` with that. -/
structure Flushed (heard : List (Message β)) (closed : Prop) (returned : List β)
    (calls : List SinkCall) (log : List LogEntry) (outcome : Outcome IoFailure Unit) : Prop where
  handled : heard.filterMap Message.buffer? = returned
  calls : ∃ writes, calls = writes ++ [.flush outcome] ∧ Fed writes (ByteBuffer.joined returned)
  log : log = .consumerStarted ::
    if outcome = .returned () then [.consumerFinished (ByteBuffer.joined returned).length] else []
  closed : closed

/-- A write call has failed with `outcome` when `portion` of the buffer in hand was written and
`left` was to be. -/
structure Broken (heard : List (Message β)) (returned : List β) (calls : List SinkCall)
    (log : List LogEntry) (outcome : Outcome IoFailure Unit) (buffer : β)
    (portion left : List UInt8) : Prop where
  hand : heard.filterMap Message.buffer? = returned ++ [buffer]
  split : portion ++ left = ByteBuffer.contents buffer
  some_left : left ≠ []
  calls : ∃ writes answer, calls = writes ++ [.write left answer] ∧
    (SinkCall.write left answer).failure? = some outcome ∧
    (SinkCall.write left answer).taken = [] ∧ Fed writes (ByteBuffer.joined returned ++ portion)
  log : log = [.consumerStarted]

/-- How the consumer stands in a phase when it has taken the messages `heard` from the channel and
put the buffers `returned` back. -/
def Stage (heard : List (Message β)) (closed : Prop) (returned : List β) (calls : List SinkCall)
    (log : List LogEntry) : Consumer β ⊕ Outcome IoFailure Unit → Prop
  | .inl .starting => heard = [] ∧ returned = [] ∧ calls = [] ∧ log = []
  | .inl (.receiving stopping handled) =>
    heard.filterMap Message.buffer? = returned ∧ Fed calls (ByteBuffer.joined returned) ∧
      handled = (ByteBuffer.joined returned).length ∧ log = [.consumerStarted] ∧
      (stopping = true ↔ .stop ∈ heard)
  | .inl (.writing stopping handled buffer left) =>
    heard.filterMap Message.buffer? = returned ++ [buffer] ∧
      (∃ portion, portion ++ left = ByteBuffer.contents buffer ∧
        Fed calls (ByteBuffer.joined returned ++ portion)) ∧
      handled = (ByteBuffer.joined returned).length ∧ log = [.consumerStarted] ∧
      (stopping = true ↔ .stop ∈ heard)
  | .inl (.flushing handled) =>
    heard.filterMap Message.buffer? = returned ∧ Fed calls (ByteBuffer.joined returned) ∧
      handled = (ByteBuffer.joined returned).length ∧ log = [.consumerStarted] ∧ closed
  | .inl (.closing outcome) | .inr outcome =>
    Flushed heard closed returned calls log outcome ∨
      ∃ buffer portion left, Broken heard returned calls log outcome buffer portion left

theorem Stage.mono {heard : List (Message β)} {closed closed' : Prop} {returned : List β}
    {calls : List SinkCall} {log : List LogEntry} {consumer : Consumer β ⊕ Outcome IoFailure Unit}
    (stage : Stage heard closed returned calls log consumer) (still : closed → closed') :
    Stage heard closed' returned calls log consumer := by
  rcases consumer with (_ | _ | _ | _ | _) | outcome
  case inl.starting | inl.receiving | inl.writing => exact stage
  case inl.flushing =>
    obtain ⟨received, fed, counted, logged, holds⟩ := stage
    exact ⟨received, fed, counted, logged, still holds⟩
  case inl.closing | inr =>
    exact stage.imp_left fun flushed => { flushed with closed := still flushed.closed }

/-- The consumer has been told to stop, or it has taken everything and nobody is left who could
send. -/
def Over (past : List (Act β × Answer β)) (heard : List (Message β)) (senders : Nat) : Prop :=
  .stop ∈ heard ∨ sent past = heard ∧ senders = 0

/-- What holds of every conveyor, whatever its sink does. -/
structure Feeds (past : List (Act β × Answer β)) (conveyor : Conveyor β (ObservedSink σ))
    (heard : List (Message β)) : Prop where
  inOrder : heard <+: sent past
  channel : conveyor.pool.hasReceiver → sent past = heard ++ conveyor.pool.queued
  receiver : conveyor.pool.hasReceiver = conveyor.guard.consumer.isLeft
  stage : Stage heard (Over past heard conveyor.pool.senders) (returned past)
    conveyor.guard.sink.calls conveyor.guard.log conveyor.guard.consumer

theorem feeds_start {pool : CirculatingPool β} {sink : σ} (idle : pool.queued = [])
    (alive : pool.hasReceiver = true) : Feeds [] { pool, guard := { sink := { sink } } } [] where
  inOrder := List.nil_prefix
  channel _ := by simp [idle, sent]
  receiver := alive
  stage := ⟨rfl, rfl, rfl, rfl⟩

variable {past : List (Act β × Answer β)} {conveyor : Conveyor β (ObservedSink σ)}
  {heard : List (Message β)}

/-- A consumer that has not ended is there to receive. -/
theorem Feeds.hears (feeds : Feeds past conveyor heard) {phase : Consumer β}
    (working : conveyor.guard.consumer = .inl phase) : conveyor.pool.hasReceiver = true := by
  rw [feeds.receiver, working]
  rfl

/-- An act of a producer leaves the consumer as it is. -/
theorem Feeds.after_sending (feeds : Feeds past conveyor heard) {entry : Act β × Answer β}
    {pool : CirculatingPool β} (silent : returned [entry] = [])
    (alive : pool.hasReceiver = conveyor.pool.hasReceiver)
    (queued : pool.hasReceiver → pool.queued = conveyor.pool.queued ++ sent [entry])
    (last : conveyor.pool.senders = 0 → sent [entry] = [] ∧ pool.senders = 0) :
    Feeds (past ++ [entry]) { conveyor with pool } heard where
  inOrder := by
    rw [sent_concat]
    exact feeds.inOrder.trans (List.prefix_append _ _)
  channel hears := by
    rw [sent_concat, feeds.channel (alive ▸ hears), queued hears, List.append_assoc]
  receiver := alive.trans feeds.receiver
  stage := by
    rw [returned_concat, silent, List.append_nil]
    refine feeds.stage.mono ?_
    rintro (told | ⟨all, alone⟩)
    · exact .inl told
    · obtain ⟨nothing, still⟩ := last alone
      rw [Over, sent_concat, nothing, List.append_nil]
      exact .inr ⟨all, still⟩

/-- What a step of the consumer has to establish. -/
theorem Feeds.of_turn {pool : CirculatingPool β} {guard : Guard β (ObservedSink σ)}
    {returned? : Option β} (inOrder : heard <+: sent past)
    (channel : pool.hasReceiver → sent past = heard ++ pool.queued)
    (receiver : pool.hasReceiver = guard.consumer.isLeft)
    (stage : Stage heard (Over past heard pool.senders) (returned past ++ returned?.toList)
      guard.sink.calls guard.log guard.consumer) :
    Feeds (past ++ [(.turn, .turned returned?)]) { pool, guard } heard := by
  have sentSame : sent (past ++ [(.turn, .turned returned?)]) = sent past := by simp [sent]
  have returnedNow :
      returned (past ++ [(.turn, .turned returned?)]) = returned past ++ returned?.toList := by
    cases returned? <;> simp [returned]
  refine ⟨sentSame ▸ inOrder, fun alive => sentSame ▸ channel alive, receiver, ?_⟩
  rw [Over, sentSame, returnedNow]
  exact stage

variable [ByteSink σ] {pool : CirculatingPool β} {sink : ObservedSink σ} {log : List LogEntry}

/-- The consumer takes the next message, waits for one, or goes on to its end. -/
theorem Feeds.after_receiving {stopping : Bool} {handled : Nat}
    (feeds : Feeds past
      { pool, guard := { consumer := .inl (.receiving stopping handled), sink, log } } heard) :
    ∃ heardAfter, Feeds (past ++ [(.turn, .turned none)])
      (turn { pool, guard := { consumer := .inl (.receiving stopping handled), sink, log } })
      heardAfter := by
  have alive : pool.hasReceiver = true := feeds.hears rfl
  obtain ⟨inOrder, channel, -, received, fed, counted, logged, told⟩ := feeds
  have all := channel alive
  dsimp only at all received fed counted logged
  cases queued : pool.queued with
  | cons message rest =>
    rw [queued] at all
    have next := CirculatingPool.receive_of_cons queued
    have whole : sent past = (heard ++ [message]) ++ rest := by simpa using all
    refine ⟨heard ++ [message], ?_⟩
    cases message with
    | buffer buffer =>
      simp only [turn, Guard.turn, Consumer.step, next]
      refine .of_turn ⟨rest, whole.symm⟩ (fun _ => whole) alive ?_
      refine ⟨by simp [received], ⟨[], rfl, by simpa using fed⟩, ?_, by simpa using logged, ?_⟩
      · simpa using counted
      · simpa using told
    | stop =>
      simp only [turn, Guard.turn, Consumer.step, next]
      refine .of_turn ⟨rest, whole.symm⟩ (fun _ => whole) alive ?_
      refine ⟨by simp [received, List.filterMap_cons], by simpa using fed, ?_,
        by simpa using logged, by simp⟩
      simpa using counted
  | nil =>
    rw [queued, List.append_nil] at all
    refine ⟨heard, ?_⟩
    have next := CirculatingPool.receive_of_nil queued
    by_cases alone : pool.senders = 0
    · rw [if_pos alone] at next
      simp only [turn, Guard.turn, Consumer.step, next]
      refine .of_turn inOrder channel alive ?_
      exact ⟨by simpa using received, by simpa using fed, by simpa using counted,
        by simpa using logged, .inr ⟨all, alone⟩⟩
    · rw [if_neg alone] at next
      simp only [turn, Guard.turn, Consumer.step, next]
      cases stopping with
      | true =>
        refine .of_turn inOrder channel alive ?_
        exact ⟨by simpa using received, by simpa using fed, by simpa using counted,
          by simpa using logged, .inl (told.mp rfl)⟩
      | false =>
        refine .of_turn inOrder channel alive ?_
        exact ⟨by simpa using received, by simpa using fed, by simpa using counted,
          by simpa using logged, told⟩

/-- The consumer writes some more of the buffer in its hand, fails to, or puts the buffer back. -/
theorem Feeds.after_writing {stopping : Bool} {handled : Nat} {buffer : β} {left : List UInt8}
    (feeds : Feeds past
      { pool, guard := { consumer := .inl (.writing stopping handled buffer left), sink, log } }
      heard) :
    let conveyor : Conveyor β (ObservedSink σ) :=
      { pool, guard := { consumer := .inl (.writing stopping handled buffer left), sink, log } }
    Feeds (past ++ [(.turn, .turned conveyor.returning?)]) conveyor.turn heard := by
  have alive : pool.hasReceiver = true := feeds.hears rfl
  obtain ⟨inOrder, channel, -, received, ⟨portion, split, fed⟩, counted, logged, told⟩ := feeds
  dsimp only at received fed counted logged channel
  cases left with
  | nil =>
    rw [List.append_nil] at split
    have same : (pool.putBack buffer).queued = pool.queued ∧
        (pool.putBack buffer).senders = pool.senders ∧
        (pool.putBack buffer).hasReceiver = pool.hasReceiver := by
      unfold CirculatingPool.putBack
      split <;> exact ⟨rfl, rfl, rfl⟩
    simp only [turn, Guard.turn, Consumer.step, returning?]
    refine .of_turn inOrder ?_ (same.2.2.trans alive) ?_
    · rw [same.1, same.2.2]
      exact channel
    · refine ⟨received, ?_, ?_, by simpa using logged, told⟩
      · simpa [split] using fed
      · simp [counted]
  | cons first rest =>
    rcases sink.push_cases (first :: rest) with ⟨left, pushed, well, whole⟩ |
      ⟨outcome, pushed, failed, nothing⟩
    · simp only [turn, Guard.turn, Consumer.step, returning?, pushed]
      refine .of_turn inOrder channel alive ?_
      refine ⟨by simpa using received, ⟨portion ++ _, ?_, by simpa using fed.concat well⟩,
        by simpa using counted, by simpa using logged, told⟩
      rw [List.append_assoc, whole, split]
    · simp only [turn, Guard.turn, Consumer.step, returning?, pushed]
      refine .of_turn inOrder channel alive (.inr ⟨buffer, portion, first :: rest, ?_⟩)
      exact {
        hand := by simpa using received
        split
        some_left := List.cons_ne_nil _ _
        calls := ⟨sink.calls, _, rfl, failed, nothing, by simpa using fed⟩
        log := by simpa using logged }

/-- The consumer flushes the sink once. -/
theorem Feeds.after_flushing {handled : Nat}
    (feeds : Feeds past
      { pool, guard := { consumer := .inl (.flushing handled), sink, log } } heard) :
    Feeds (past ++ [(.turn, .turned none)])
      (turn { pool, guard := { consumer := .inl (.flushing handled), sink, log } }) heard := by
  have alive : pool.hasReceiver = true := feeds.hears rfl
  obtain ⟨inOrder, channel, -, received, fed, counted, logged, closed⟩ := feeds
  dsimp only at received fed counted logged channel
  simp only [turn, Guard.turn, Consumer.step]
  refine .of_turn inOrder channel alive (.inl ?_)
  exact {
    handled := by simpa using received
    calls := ⟨sink.calls, rfl, by simpa using fed⟩
    log := by simp [logged, counted]
    closed }

/-- A step of the consumer, phase by phase. -/
theorem Feeds.after_turn (feeds : Feeds past conveyor heard) :
    ∃ heardAfter,
      Feeds (past ++ [(.turn, .turned conveyor.returning?)]) conveyor.turn heardAfter := by
  obtain ⟨pool, consumer, sink, log⟩ := conveyor
  rcases consumer with (_ | ⟨stopping, handled⟩ | ⟨stopping, handled, buffer, left⟩ | handled |
    outcome) | outcome
  case inl.starting =>
    have alive : pool.hasReceiver = true := feeds.hears rfl
    obtain ⟨inOrder, channel, -, nothing, fresh, silent, unlogged⟩ := feeds
    have stage : Stage heard (Over past heard pool.senders)
        (returned past ++ (Option.none : Option β).toList) sink.calls (log ++ [.consumerStarted])
        (.inl (.receiving false 0)) := by
      dsimp only at fresh silent unlogged
      simp [Stage, fresh, silent, unlogged, nothing, Fed.nil]
    exact ⟨heard, .of_turn inOrder channel alive stage⟩
  case inl.receiving => exact feeds.after_receiving
  case inl.writing => exact ⟨heard, feeds.after_writing⟩
  case inl.flushing => exact ⟨heard, feeds.after_flushing⟩
  case inl.closing =>
    obtain ⟨inOrder, channel, -, finish⟩ := feeds
    have stage : Stage heard (Over past heard pool.senders)
        (returned past ++ (Option.none : Option β).toList) sink.calls (log ++ [])
        (.inr outcome) := by
      simpa [Stage] using finish
    exact ⟨heard, .of_turn inOrder nofun rfl stage⟩
  case inr =>
    obtain ⟨inOrder, channel, receiver, finish⟩ := feeds
    have stage : Stage heard (Over past heard pool.senders)
        (returned past ++ (Option.none : Option β).toList) sink.calls log (.inr outcome) := by
      simpa [Stage] using finish
    exact ⟨heard, .of_turn inOrder channel receiver stage⟩

omit [ByteSink σ] in
/-- A message that is sent waits for the consumer behind all others, if it is sent at all. -/
theorem Feeds.after_dispatch (feeds : Feeds past conveyor heard) (act : Act β)
    (message : Message β) :
    Feeds (past ++ [(act, (conveyor.dispatch message).1)]) (conveyor.dispatch message).2
      heard := by
  unfold dispatch
  split
  · rename_i alone
    exact feeds.after_sending rfl rfl (by simp [sent]) (fun _ => ⟨rfl, alone⟩)
  · rename_i sendable
    unfold CirculatingPool.enqueue
    split
    · exact feeds.after_sending rfl rfl (fun _ => rfl) (fun alone => absurd alone sendable)
    · exact feeds.after_sending rfl rfl (by simp [sent]) (fun alone => absurd alone sendable)

/-- Every act keeps what holds of a conveyor. -/
theorem Feeds.after_act (feeds : Feeds past conveyor heard) (act : Act β) :
    ∃ heardAfter,
      Feeds (past ++ [(act, (perform act conveyor).1)]) (perform act conveyor).2 heardAfter := by
  cases act with
  | lend =>
    refine ⟨heard, ?_⟩
    simp only [perform, CirculatingPool.lend]
    split
    · exact feeds.after_sending rfl (by split <;> rfl) (by split <;> simp [sent])
        (fun alone => ⟨rfl, by split <;> exact alone⟩)
    · exact feeds.after_sending rfl rfl (by simp [sent]) (fun alone => ⟨rfl, alone⟩)
  | send buffer => exact ⟨heard, feeds.after_dispatch _ _⟩
  | stop => exact ⟨heard, feeds.after_dispatch _ _⟩
  | join =>
    refine ⟨heard, ?_⟩
    simp only [perform]
    split
    · exact feeds.after_sending rfl rfl (by simp [sent]) (fun alone => ⟨rfl, alone⟩)
    · exact feeds.after_sending rfl rfl (by simp [sent, CirculatingPool.dropSender])
        (fun alone => ⟨rfl, by simp [CirculatingPool.dropSender, alone]⟩)
  | leave =>
    refine ⟨heard, feeds.after_sending rfl rfl ?_ fun alone => ⟨rfl, ?_⟩⟩
    · simp [sent, perform, CirculatingPool.dropSender]
    · simp [CirculatingPool.dropSender, alone]
  | turn => exact feeds.after_turn

/-- With a step the consumer calls its sink at most once. -/
theorem sink_turn (conveyor : Conveyor β (ObservedSink σ)) :
    let sink := conveyor.guard.sink
    conveyor.turn.guard.sink = sink ∨
      (∃ first rest, conveyor.turn.guard.sink = (sink.write (first :: rest)).2) ∨
      conveyor.turn.guard.sink = sink.flush.2 := by
  obtain ⟨pool, consumer, sink, log⟩ := conveyor
  rcases consumer with (_ | _ | ⟨stopping, handled, buffer, left⟩ | _ | _) | _
  case inl.receiving =>
    left
    simp only [turn, Guard.turn, Consumer.step]
    split <;> rfl
  case inl.writing =>
    cases left with
    | nil => exact .inl rfl
    | cons first rest =>
      refine .inr (.inl ⟨first, rest, ?_⟩)
      rcases sink.push_cases (first :: rest) with ⟨left, pushed, -⟩ | ⟨outcome, pushed, -⟩ <;>
        simp [turn, Guard.turn, Consumer.step, pushed]
  case inl.flushing => exact .inr (.inr rfl)
  all_goals exact .inl rfl

/-- What holds of every conveyor holds after every session. -/
theorem feeds_follow (idle : pool.queued = []) (alive : pool.hasReceiver = true) (sink : σ)
    (acts : List (Act β)) :
    let session := Session.follow perform
      ({ pool, guard := { sink := { sink } } } : Conveyor β (ObservedSink σ)) acts
    ∃ heard, Feeds session.past session.state heard :=
  Session.follow_induction (motive := fun past conveyor => ∃ heard, Feeds past conveyor heard)
    perform ⟨[], feeds_start idle alive⟩ (fun _ _ act ⟨_, feeds⟩ => feeds.after_act act) acts

omit [ByteSink σ] in
/-- A buffer that the consumer puts back has been sent, and was not put back before. -/
theorem Feeds.returned_lt (feeds : Feeds past conveyor heard)
    (returning : conveyor.returning? ≠ none) :
    (returned past).length < (buffersSent past).length := by
  obtain ⟨pool, consumer, sink, log⟩ := conveyor
  unfold returning? at returning
  split at returning
  · rename_i stopping handled buffer working
    cases working
    obtain ⟨inOrder, -, -, hand, -⟩ := feeds
    have within := (inOrder.filterMap Message.buffer?).length_le
    rw [hand, List.length_append] at within
    exact within
  · exact absurd rfl returning

/-- As long as no more buffers have been sent than the pool has lent and has had places for, those
that come back find a place. -/
theorem ledger_follow (idle : pool.queued = []) (alive : pool.hasReceiver = true) (sink : σ)
    (acts : List (Act β)) :
    let session := Session.follow perform
      ({ pool, guard := { sink := { sink } } } : Conveyor β (ObservedSink σ)) acts
    (∀ earlier, earlier <+: session.past →
      pool.free.length + (buffersSent earlier).length ≤ pool.places + (lent earlier).length) →
    Ledger pool.free session.past session.state.pool := by
  refine (Session.follow_induction (motive := fun past conveyor =>
    (∃ heard, Feeds past conveyor heard) ∧ conveyor.pool.places = pool.places ∧
      ((∀ earlier, earlier <+: past → pool.free.length + (buffersSent earlier).length ≤
        pool.places + (lent earlier).length) → Ledger pool.free past conveyor.pool))
    perform ?_ ?_ acts).2.2
  · exact ⟨⟨[], feeds_start idle alive⟩, rfl, fun _ => by simp [Ledger, lent, returned]⟩
  · rintro past conveyor act ⟨⟨heard, feeds⟩, places, kept⟩
    refine ⟨feeds.after_act act, (places_perform act conveyor).trans places, ?_⟩
    intro bounded
    have ledger := kept fun earlier inside =>
      bounded earlier (inside.trans (List.prefix_append _ _))
    refine ledger.after_act (fun returning => ?_) act
    have sentMore := feeds.returned_lt returning
    have now := bounded past (List.prefix_append _ _)
    have balance := congrArg List.length ledger
    simp only [List.length_append, List.length_map] at balance
    omega

end Conveyor

end TraceRelay
