import TraceRelay.Proofs.Transport.Conveying
import TraceRelay.Transport.ScriptedSink

/-! Consumers that are told to stop, or whose producers go away. -/

namespace TraceRelay.Conveyor

variable {β σ : Type} [ByteBuffer β] [PatientSink σ] {fine : σ → Prop}
  {past : List (Act β × Answer β)} {conveyor : Conveyor β (ObservedSink σ)}
  {heard : List (Message β)}

/-- The consumer has been told to stop, or nobody is left who could send. -/
def Summoned (past : List (Act β × Answer β)) (conveyor : Conveyor β (ObservedSink σ)) : Prop :=
  .stop ∈ sent past ∨ conveyor.pool.senders = 0

theorem Summoned.after_act (summoned : Summoned past conveyor) (act : Act β) :
    Summoned (past ++ [(act, (perform act conveyor).1)]) (perform act conveyor).2 := by
  rcases summoned with told | alone
  · exact .inl (by simp [sent_concat, told])
  · exact .inr (senders_perform act conveyor alone)

/-- A consumer that has been summoned does not wait. -/
theorem Feeds.not_waits (feeds : Feeds past conveyor heard)
    (summoned : Summoned past conveyor) {phase : Consumer β}
    (working : conveyor.guard.consumer = .inl phase) :
    (phase.step { pool := conveyor.pool, sink := conveyor.guard.sink }).result ≠ .waits := by
  intro waits
  obtain ⟨⟨handled, rfl⟩, empty, sendable⟩ := idle_of_waits waits
  have all := feeds.channel (feeds.hears working)
  have stage := feeds.stage
  rw [working] at stage
  obtain ⟨-, -, -, -, told⟩ := stage
  dsimp only at empty
  rw [empty, List.append_nil] at all
  rcases summoned with stopped | alone
  · exact absurd (told.mpr (all ▸ stopped)) (by simp)
  · exact absurd alone sendable

/-- What a consumer in a phase has still to do: the messages queued, the phases to come, the bytes
left of the buffer in its hand, and the interruptions to come. -/
def effort (conveyor : Conveyor β (ObservedSink σ)) (phase : Consumer β) : Nat × Nat × Nat × Nat :=
  (conveyor.pool.queued.length, phase.rank, phase.left.length,
    PatientSink.patience conveyor.guard.sink)

/-- A consumer that has been summoned does not wait with its step. Either it ends, or it comes
nearer to its end. -/
theorem Feeds.turn_of_summoned (feeds : Feeds past conveyor heard)
    (summoned : Summoned past conveyor) {phase : Consumer β}
    (working : conveyor.guard.consumer = .inl phase) :
    (∃ outcome, conveyor.turn.guard.consumer = .inr outcome) ∨
      ∃ next, conveyor.turn.guard.consumer = .inl next ∧
        WellFoundedRelation.rel (conveyor.turn.effort next) (conveyor.effort phase) := by
  obtain ⟨pool, consumer, sink, log⟩ := conveyor
  cases working
  cases moved : (phase.step { pool, sink }).result with
  | continues next =>
    refine .inr ⟨next, by simp [turn, Guard.turn, moved], ?_⟩
    simp only [effort, turn, Guard.turn]
    rcases Consumer.step_decreases moved with
      fewer | ⟨same, later | ⟨rank, shorter | ⟨left, calmer⟩⟩⟩
    · exact Prod.Lex.left _ _ fewer
    · rw [same]
      exact Prod.Lex.right _ (Prod.Lex.left _ _ later)
    · rw [same, rank]
      exact Prod.Lex.right _ (Prod.Lex.right _ (Prod.Lex.left _ _ shorter))
    · rw [same, rank, left]
      exact Prod.Lex.right _ (Prod.Lex.right _ (Prod.Lex.right _ calmer))
  | ends outcome => exact .inl ⟨outcome, by simp [turn, Guard.turn, moved]⟩
  | waits => exact absurd moved (feeds.not_waits summoned rfl)

section Endless

variable {start : Conveyor β (ObservedSink σ)} {acts : Nat → Act β} {last : Nat}

theorem summoned_later {count later : Nat} (order : count ≤ later)
    (summoned : Summoned (Session.upTo perform start acts count).past
      (Session.upTo perform start acts count).state) :
    Summoned (Session.upTo perform start acts later).past
      (Session.upTo perform start acts later).state := by
  obtain ⟨gap, rfl⟩ := Nat.exists_eq_add_of_le order
  clear order
  induction gap with
  | zero => exact summoned
  | succ gap ih =>
    rw [← Nat.add_assoc, Session.upTo_succ]
    exact ih.after_act (acts (count + gap))

variable
  (quiet : ∀ count ≥ last, acts count ≠ .stop ∧ ∀ buffer, acts count ≠ .send buffer)
  (turns : ∀ count, ∃ gap, acts (count + gap) = .turn)

include quiet

variable (start) in
/-- When nobody sends any more, the next step of the consumer finds what there is now. -/
theorem exists_turn {count gap : Nat} (late : last ≤ count) (turns : acts (count + gap) = .turn) :
    ∃ later ≥ count, acts later = .turn ∧
      (Session.upTo perform start acts later).state.guard =
        (Session.upTo perform start acts count).state.guard ∧
      (Session.upTo perform start acts later).state.pool.queued =
        (Session.upTo perform start acts count).state.pool.queued := by
  induction gap generalizing count with
  | zero => exact ⟨count, Nat.le_refl count, turns, rfl, rfl⟩
  | succ gap ih =>
    by_cases own : acts count = .turn
    · exact ⟨count, Nat.le_refl count, own, rfl, rfl⟩
    · have same :=
        quiet_perform (Session.upTo perform start acts count).state (quiet count late) own
      have next : acts (count + 1 + gap) = .turn := by rwa [Nat.add_assoc, Nat.add_comm 1 gap]
      obtain ⟨later, order, found, guard, queued⟩ := ih (Nat.le_succ_of_le late) next
      rw [Session.upTo_succ] at guard queued
      exact ⟨later, Nat.le_of_succ_le order, found, guard.trans same.1, queued.trans same.2⟩

include turns

/-- A consumer that has been summoned ends, if its steps do not cease to come. -/
theorem exists_ended
    (kept : ∀ count, ∃ heard, Feeds (Session.upTo perform start acts count).past
      (Session.upTo perform start acts count).state heard)
    (count : Nat) (late : last ≤ count)
    (summoned : Summoned (Session.upTo perform start acts count).past
      (Session.upTo perform start acts count).state)
    {phase : Consumer β}
    (working : (Session.upTo perform start acts count).state.guard.consumer = .inl phase) :
    ∃ later outcome,
      (Session.upTo perform start acts later).state.guard.consumer = .inr outcome := by
  obtain ⟨gap, next⟩ := turns count
  obtain ⟨turned, order, found, sameGuard, sameQueue⟩ :=
    exists_turn start quiet late next
  have after : (Session.upTo perform start acts (turned + 1)).state =
      (Session.upTo perform start acts turned).state.turn := by
    rw [Session.upTo_succ, found]
    rfl
  obtain ⟨heard, feeds⟩ := kept turned
  rcases feeds.turn_of_summoned (summoned_later order summoned) (sameGuard ▸ working) with
    ⟨outcome, ended⟩ | ⟨nextPhase, goesOn, nearer⟩
  · exact ⟨turned + 1, outcome, after ▸ ended⟩
  · exact exists_ended kept (turned + 1) (by omega) (summoned_later (by omega) summoned)
      (after ▸ goesOn)
termination_by (Session.upTo perform start acts count).state.effort phase
decreasing_by
  have same : (Session.upTo perform start acts turned).state.effort phase =
      (Session.upTo perform start acts count).state.effort phase := by
    simp only [effort, sameGuard, sameQueue]
  rw [after, ← same]
  exact nearer

end Endless

/-- The consumer that has ended with `outcome` has handled the first `count` of the buffers sent. -/
structure Delivers (past : List (Act β × Answer β)) (guard : Guard β (ObservedSink σ))
    (outcome : Outcome IoFailure Unit) (count : Nat) : Prop where
  outcome : outcome = .returned ()
  /-- All buffers are among them that were sent before the first request to stop. -/
  covers : ((sent past).takeWhile fun message => message.buffer?.isSome).length ≤ count
  /-- All are, if there was no such request. -/
  whole : .stop ∉ sent past → count = (buffersSent past).length
  received : guard.sink.received = ByteBuffer.joined ((buffersSent past).take count)
  /-- The sink was flushed once, after it had been written to, and never asked to write nothing. -/
  calls : ∃ writes, guard.sink.calls = writes ++ [.flush (.returned ())] ∧
    ∀ call ∈ writes, ∃ first rest answer, call = .write (first :: rest) answer
  returned : returned past = (buffersSent past).take count
  log : guard.log = [.consumerStarted, .consumerFinished guard.sink.received.length]

omit [PatientSink σ] [ByteBuffer β] in
/-- What comes before the first request to stop has been heard when the request has. -/
theorem length_before_stop {messages : List (Message β)} (inOrder : heard <+: messages)
    (closed : .stop ∈ heard ∨ messages = heard) :
    (messages.takeWhile fun message => message.buffer?.isSome).length ≤
      (heard.filterMap Message.buffer?).length := by
  obtain ⟨rest, rfl⟩ := inOrder
  induction heard with
  | nil =>
    have nothing : rest = [] := by simpa using closed
    simp [nothing]
  | cons message heard ih =>
    cases message with
    | stop => simp
    | buffer buffer =>
      have shorter := ih (by simpa using closed)
      simpa [List.takeWhile_cons, List.filterMap_cons] using shorter

omit [PatientSink σ] in
/-- What was sent before the first request to stop has been handled. -/
theorem Delivers.covers_earlier {guard : Guard β (ObservedSink σ)}
    {outcome : Outcome IoFailure Unit} {count : Nat} (delivers : Delivers past guard outcome count)
    {earlier later : List (Act β × Answer β)}
    (split : past = earlier ++ (.stop, .sent .stop (.ok ())) :: later)
    (first : .stop ∉ sent earlier) : (buffersSent earlier).length ≤ count := by
  have atFirst : (sent past).takeWhile (fun message => message.buffer?.isSome) = sent earlier := by
    have sentSplit : sent past = sent earlier ++ .stop :: sent later := by simp [split, sent]
    rw [sentSplit, List.takeWhile_append_of_pos]
    · simp
    · rintro (buffer | _) member
      · rfl
      · exact absurd member first
  calc (buffersSent earlier).length ≤ (sent earlier).length := List.length_filterMap_le _ _
    _ ≤ count := atFirst ▸ delivers.covers

omit [PatientSink σ] in
theorem Works.delivers (works : Works fine past conveyor heard)
    {outcome : Outcome IoFailure Unit} (ended : conveyor.guard.consumer = .inr outcome) :
    ∃ count, Delivers past conveyor.guard outcome count := by
  obtain ⟨pool, consumer, sink, log⟩ := conveyor
  cases ended
  obtain ⟨inOrder, -, -, -, handled, ⟨well, ⟨writes, calls, written⟩, logged⟩, closed⟩ := works
  dsimp only at calls logged closed
  have handledFirst : returned past <+: buffersSent past := by
    rw [← handled]
    exact inOrder.filterMap _
  have firsts := List.prefix_iff_eq_take.mp handledFirst
  have received : sink.received = ByteBuffer.joined (returned past) := by
    simp [ObservedSink.received, calls, written.taken, SinkCall.taken]
  refine ⟨(returned past).length, well, ?_, fun unstopped => ?_, firsts ▸ received,
    ⟨writes, calls, written.writes⟩, firsts, received ▸ logged⟩
  · rw [← handled]
    exact length_before_stop inOrder (closed.imp_right And.left)
  · rcases closed with told | ⟨all, -⟩
    · exact absurd (inOrder.subset told) unstopped
    · rw [← handled, buffersSent, all]

variable {pool : CirculatingPool β} {sink : σ}

/-- A consumer that is told to stop or whose producers go away ends well, and its sink has the
contents of the first buffers sent, among them all that were sent before the request to stop. -/
theorem buffers_delivered (obliging : Obliging fine) (idle : pool.queued = [])
    (alive : pool.hasReceiver = true) (good : fine sink) :
    let start : Conveyor β (ObservedSink σ) := { pool, guard := { sink := { sink } } }
    (∀ acts : Nat → Act β,
      (∃ last, ∀ count ≥ last, acts count ≠ .stop ∧ ∀ buffer, acts count ≠ .send buffer) →
      (∀ count, ∃ gap, acts (count + gap) = .turn) →
      (∃ count, Summoned (Session.upTo perform start acts count).past
        (Session.upTo perform start acts count).state) →
      ∃ count, (Session.upTo perform start acts count).state.guard.consumer =
        .inr (.returned ())) ∧
    ∀ acts : List (Act β),
      let session := Session.follow perform start acts
      let guard := session.state.guard
      (∀ outcome, guard.consumer = .inr outcome →
        ∃ count, Delivers session.past guard outcome count) ∧
      ((∀ earlier, earlier <+: session.past →
          pool.free.length + (buffersSent earlier).length ≤ pool.places + (lent earlier).length) →
        lent session.past ++ session.state.pool.free =
          pool.free ++ (returned session.past).map Clearable.clear) ∧
      ∀ earlier later outcome,
        session.past = earlier ++ (.stop, .sent .stop (.ok ())) :: later →
        .stop ∉ sent earlier → (.join, .joined outcome) ∈ later →
        ByteBuffer.joined (buffersSent earlier) <+: guard.sink.received := by
  intro start
  have kept (acts : List (Act β)) :
      ∃ heard, Works fine (Session.follow perform start acts).past
        (Session.follow perform start acts).state heard :=
      works_follow obliging idle alive good acts
  refine ⟨?_, fun acts => ?_⟩
  · rintro acts ⟨last, quiet⟩ turns ⟨count, summoned⟩
    have ends : ∃ later outcome,
        (Session.upTo perform start acts later).state.guard.consumer = .inr outcome := by
      cases now : (Session.upTo perform start acts (max last count)).state.guard.consumer with
      | inl phase =>
        exact exists_ended quiet turns (fun count => feeds_follow idle alive sink _)
          (max last count) (Nat.le_max_left _ _)
          (summoned_later (Nat.le_max_right _ _) summoned) now
      | inr outcome => exact ⟨_, outcome, now⟩
    obtain ⟨later, outcome, ended⟩ := ends
    obtain ⟨heard, works⟩ := kept ((List.range later).map acts)
    obtain ⟨delivered, delivers⟩ := works.delivers ended
    exact ⟨later, delivers.outcome ▸ ended⟩
  · intro session guard
    obtain ⟨heard, works⟩ := kept acts
    refine ⟨fun outcome ended => works.delivers ended,
      ledger_follow idle alive sink acts, ?_⟩
    intro earlier later outcome split first joined
    have inside : (.join, .joined outcome) ∈ session.past := by simp [split, joined]
    obtain ⟨count, delivers⟩ := works.delivers (ended_of_joined start acts inside)
    have covered := delivers.covers_earlier split first
    rw [delivers.received, split, buffersSent_append, List.take_append,
      List.take_of_length_le covered, ByteBuffer.joined_append]
    exact List.prefix_append _ _

/-- A scripted sink is told nothing that makes it fail. It may take few bytes at a time, and it may
interrupt. -/
def Willing (sink : ScriptedSink) : Prop :=
  sink.capacity = none ∧ sink.chunk ≠ some 0 ∧ sink.panicAt = none ∧ sink.flushFails = false

theorem obliging_willing : Obliging Willing where
  write bytes sink willing some_bytes := by
    obtain ⟨capacity, chunk, panicAt, flushFails⟩ := willing
    have length_pos := List.length_pos_iff.mpr some_bytes
    change Willing (sink.write bytes).2 ∧ ((sink.write bytes).1 = .interrupted ∨
      ∃ count < bytes.length, (sink.write bytes).1 = .accepted (count + 1))
    have room : 0 < sink.room bytes.length ∧ sink.room bytes.length ≤ bytes.length := by
      unfold ScriptedSink.room
      rw [capacity]
      cases asked : sink.chunk with
      | none => exact ⟨length_pos, Nat.le_refl _⟩
      | some most =>
        have some_asked : most ≠ 0 := fun nothing => chunk (by rw [asked, nothing])
        simp only
        omega
    by_cases interrupts : sink.interrupts (sink.writes + 1) = true
    · simp [ScriptedSink.write, Willing, *]
    · refine ⟨by simp [ScriptedSink.write, Willing, ScriptedSink.isFull, *], .inr ?_⟩
      refine ⟨sink.room bytes.length - 1, by omega, ?_⟩
      have some_taken : sink.room bytes.length - 1 + 1 = sink.room bytes.length := by omega
      simp [ScriptedSink.write, ScriptedSink.isFull, *]
  flush sink willing := by
    obtain ⟨capacity, chunk, panicAt, flushFails⟩ := willing
    change Willing sink.flush.2 ∧ sink.flush.1 = .returned ()
    simp [ScriptedSink.flush, Willing, *]

/-- One buffer is sent before the request to stop and another one behind it, before the consumer has
come that far. -/
theorem buffers_delivered_late :
    let pool : CirculatingPool GrowingBuffer := { free := [], places := 2, senders := 2 }
    let sink : ScriptedSink := { chunk := some 3, interruptEvery := some 2 }
    let acts := [.send { bytes := [1, 2, 3, 4] }, .turn, .stop, .send { bytes := [5] }] ++
      List.replicate 14 .turn ++ [.join]
    let session := Session.follow perform
      ({ pool, guard := { sink := { sink } } } : Conveyor GrowingBuffer (ObservedSink ScriptedSink))
      acts
    session.state.guard.sink.received = [1, 2, 3, 4, 5] ∧
      ∃ count, Delivers session.past session.state.guard (.returned ()) count := by
  intro pool sink acts
  have willing : Willing sink := ⟨rfl, by decide, rfl, rfl⟩
  have delivered := (buffers_delivered obliging_willing (rfl : pool.queued = []) rfl willing).2 acts
  exact ⟨by decide +kernel, delivered.1 (.returned ()) (by decide +kernel)⟩

end TraceRelay.Conveyor
