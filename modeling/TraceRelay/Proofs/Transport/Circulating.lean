import Mathlib.Data.List.Perm.Basic
import TraceRelay.Transport.ByteBuffer
import TraceRelay.Transport.Circulation

/-! No buffer of a pool in circulation is ever in two places or nowhere. -/

namespace TraceRelay

theorem Numbered.perm_of_pick {β : Type} {number : Nat} {buffers rest : List (Numbered β)}
    {buffer : Numbered β} (picked : pick number buffers = some (buffer, rest)) :
    buffers.Perm (buffer :: rest) := by
  simp only [pick, Option.map_eq_some_iff, Prod.mk.injEq] at picked
  obtain ⟨found, first, rfl, rfl⟩ := picked
  obtain ⟨bears, earlier, later, rfl, apart⟩ := List.find?_eq_some_iff_append.mp first
  have others : ∀ other ∈ earlier, ¬ decide (other.number = number) = true := by
    intro other member
    simpa using apart other member
  rw [List.eraseP_append_right _ others, List.eraseP_cons_of_pos (by exact bears)]
  exact List.perm_middle

namespace Circulation

variable {β : Type}

/-- What an act does to a circulation, and its answer. A buffer that leaves a pair of hands is named
together with those that stay there. -/
inductive Does [Clearable β] (circulation : Circulation β) :
    Act β → Answer β → Circulation β → Prop
  | refuses (act : Act β) : Does circulation act .refused circulation
  | lends {buffer : Numbered β} {rest : List (Numbered β)}
      (free : circulation.pool.free = buffer :: rest) :
      Does circulation .obtain (.obtained (some buffer))
        { circulation with
          pool := { circulation.pool with free := rest }, lent := circulation.lent ++ [buffer] }
  | misses (free : circulation.pool.free = []) :
      Does circulation .obtain (.obtained none)
        { circulation with
          pool := { circulation.pool with misses := circulation.pool.misses + 1 } }
  | writes (number : Nat) (change : β → β) {buffer : Numbered β} {lent : List (Numbered β)}
      (taken : circulation.lent.Perm (buffer :: lent)) :
      Does circulation (.write number change) .done
        { circulation with lent := { buffer with buffer := change buffer.buffer } :: lent }
  | sends (number : Nat) {buffer : Numbered β} {lent : List (Numbered β)}
      (taken : circulation.lent.Perm (buffer :: lent)) (hears : circulation.pool.hasReceiver) :
      Does circulation (.send number) (.sent (.buffer buffer) (.ok ()))
        { circulation with
          pool := { circulation.pool with queued := circulation.pool.queued ++ [.buffer buffer] }
          lent }
  | loses (number : Nat) {buffer : Numbered β} {lent : List (Numbered β)}
      (taken : circulation.lent.Perm (buffer :: lent))
      (deaf : circulation.pool.hasReceiver = false) :
      Does circulation (.send number) (.sent (.buffer buffer) (.error .disconnected))
        { circulation with lent }
  | discards (number : Nat) {buffer : Numbered β} {lent : List (Numbered β)}
      (taken : circulation.lent.Perm (buffer :: lent)) :
      Does circulation (.discard number) (.dropped [buffer]) { circulation with lent }
  | stops (hears : circulation.pool.hasReceiver) :
      Does circulation .stop (.sent .stop (.ok ()))
        { circulation with
          pool := { circulation.pool with queued := circulation.pool.queued ++ [.stop] } }
  | stopsInVain (deaf : circulation.pool.hasReceiver = false) :
      Does circulation .stop (.sent .stop (.error .disconnected)) circulation
  | leaves : Does circulation .leave .done { circulation with pool := circulation.pool.dropSender }
  | receives {message : Message (Numbered β)} {rest : List (Message (Numbered β))}
      (hears : circulation.pool.hasReceiver) (next : circulation.pool.queued = message :: rest) :
      Does circulation .receive (.received (.message message))
        { circulation with
          pool := { circulation.pool with queued := rest }
          received := circulation.received ++ message.buffer?.toList }
  | waits : Does circulation .receive (.received .nothingYet) circulation
  | findsEnd : Does circulation .receive (.received .disconnected) circulation
  | receivesAll (hears : circulation.pool.hasReceiver) :
      Does circulation .receiveAll (.receivedAll circulation.pool.queued)
        { circulation with
          pool := { circulation.pool with queued := [] }
          received :=
            circulation.received ++ circulation.pool.queued.filterMap Message.buffer? }
  | recycles (number : Nat) {buffer : Numbered β} {received : List (Numbered β)}
      (taken : circulation.received.Perm (buffer :: received)) :
      Does circulation (.recycle number) .done
        { circulation with pool := circulation.pool.putBack buffer, received }
  | forgoes (number : Nat) {buffer : Numbered β} {received : List (Numbered β)}
      (taken : circulation.received.Perm (buffer :: received)) :
      Does circulation (.forgo number) (.dropped [buffer]) { circulation with received }
  | hangsUp :
      Does circulation .hangUp (.dropped (circulation.pool.queued.filterMap Message.buffer?))
        { circulation with pool := circulation.pool.dropReceiver }

/-- What holds of a refusal and of every use of a buffer holds of an attempt to use one. -/
theorem useLent_cases {motive : Answer β × Circulation β → Prop} {number : Nat}
    {circulation : Circulation β} {use : Numbered β → Circulation β → Answer β × Circulation β}
    (refused : motive (.refused, circulation))
    (used : ∀ buffer lent, circulation.lent.Perm (buffer :: lent) →
      motive (use buffer { circulation with lent })) :
    motive (circulation.useLent number use) := by
  unfold useLent
  split
  · exact refused
  · rename_i buffer lent picked
    exact used buffer lent (Numbered.perm_of_pick picked)

theorem useReceived_cases {motive : Answer β × Circulation β → Prop} {number : Nat}
    {circulation : Circulation β} {use : Numbered β → Circulation β → Answer β × Circulation β}
    (refused : motive (.refused, circulation))
    (used : ∀ buffer received, circulation.received.Perm (buffer :: received) →
      motive (use buffer { circulation with received })) :
    motive (circulation.useReceived number use) := by
  unfold useReceived
  split
  · exact refused
  · rename_i buffer received picked
    exact used buffer received (Numbered.perm_of_pick picked)

variable [Clearable β]

/-- Every act does one of the things that an act can do. -/
theorem does_perform (act : Act β) (circulation : Circulation β) :
    Does circulation act (perform act circulation).1 (perform act circulation).2 := by
  cases act with
  | obtain =>
    simp only [perform]
    split
    · exact .refuses _
    · cases free : circulation.pool.free with
      | nil => simpa [CirculatingPool.lend, free] using Does.misses free
      | cons buffer rest => simpa [CirculatingPool.lend, free] using Does.lends free
  | write number change =>
    exact useLent_cases (motive := fun made => Does circulation _ made.1 made.2)
      (.refuses _) fun _ _ taken => .writes number change taken
  | send number =>
    simp only [perform]
    split
    · exact .refuses _
    · refine useLent_cases (motive := fun made => Does circulation _ made.1 made.2)
        (.refuses _) fun buffer lent taken => ?_
      unfold dispatch CirculatingPool.enqueue
      dsimp only
      split
      · exact .sends number taken ‹_›
      · exact .loses number taken (Bool.eq_false_iff.mpr ‹_›)
  | discard number =>
    exact useLent_cases (motive := fun made => Does circulation _ made.1 made.2)
      (.refuses _) fun _ _ taken => .discards number taken
  | stop =>
    simp only [perform]
    split
    · exact .refuses _
    · unfold dispatch CirculatingPool.enqueue
      split
      · exact .stops ‹_›
      · exact .stopsInVain (Bool.eq_false_iff.mpr ‹_›)
  | leave => exact .leaves
  | receive =>
    simp only [perform]
    split
    · rename_i hears
      unfold CirculatingPool.receive
      cases next : circulation.pool.queued with
      | cons message rest => exact .receives hears next
      | nil =>
        by_cases alone : circulation.pool.senders = 0
        · simpa [alone] using Does.findsEnd
        · simpa [alone] using Does.waits
    · exact .refuses _
  | receiveAll =>
    simp only [perform]
    split
    · exact .receivesAll ‹_›
    · exact .refuses _
  | recycle number =>
    simp only [perform]
    split
    · exact useReceived_cases (motive := fun made => Does circulation _ made.1 made.2)
        (.refuses _) fun _ _ taken => .recycles number taken
    · exact .refuses _
  | forgo number =>
    exact useReceived_cases (motive := fun made => Does circulation _ made.1 made.2)
      (.refuses _) fun _ _ taken => .forgoes number taken
  | hangUp =>
    simp only [perform]
    split
    · exact .hangsUp
    · exact .refuses _

omit [Clearable β] in
theorem lost_concat (past : List (Act β × Answer β)) (entry : Act β × Answer β) :
    lost (past ++ [entry]) = lost past ++ lost [entry] := by
  simp [lost]

omit [Clearable β] in
theorem heard_concat (past : List (Act β × Answer β)) (entry : Act β × Answer β) :
    heard (past ++ [entry]) = heard past ++ heard [entry] := by
  simp [heard]

omit [Clearable β] in
theorem sent_concat (past : List (Act β × Answer β)) (entry : Act β × Answer β) :
    sent (past ++ [entry]) = sent past ++ sent [entry] := by
  simp [sent]

omit [Clearable β] in
theorem obtained_concat (past : List (Act β × Answer β)) (entry : Act β × Answer β) :
    obtained (past ++ [entry]) = obtained past ++ obtained [entry] := by
  simp [obtained]

variable {circulation after : Circulation β} {act : Act β} {answer : Answer β}

/-- An act moves buffers from place to place, and it loses those that its answer says. -/
theorem whereabouts_of_does (does : Does circulation act answer after)
    (room : circulation.received ≠ [] → circulation.pool.free.length < circulation.pool.places) :
    (after.whereabouts ++ (lost [(act, answer)]).map (·.number)).Perm circulation.whereabouts := by
  apply List.perm_iff_count.mpr
  intro number
  cases does with
  | refuses | stopsInVain | waits | findsEnd | misses | leaves =>
    simp [whereabouts, lost, CirculatingPool.dropSender]
  | lends free => simp [whereabouts, lost, free, List.count_cons]; omega
  | writes _ _ taken | sends _ taken | loses _ taken | discards _ taken =>
    have counted := (taken.map (·.number)).count_eq number
    simp [whereabouts, lost, List.count_cons] at counted ⊢
    omega
  | stops => simp [whereabouts, lost, List.filterMap_cons]
  | receives hears next =>
    rename_i message _
    cases message <;> simp [whereabouts, lost, next, List.filterMap_cons, List.count_cons]; omega
  | receivesAll => simp [whereabouts, lost]; omega
  | recycles _ taken =>
    have counted := (taken.map (·.number)).count_eq number
    have held : circulation.received ≠ [] := fun none => by simpa [none] using taken.length_eq
    simp [whereabouts, lost, CirculatingPool.putBack, room held, Clearable.clear,
      List.count_cons] at counted ⊢
    omega
  | forgoes _ taken =>
    have counted := (taken.map (·.number)).count_eq number
    simp [whereabouts, lost, List.count_cons] at counted ⊢
    omega
  | hangsUp => simp [whereabouts, lost, CirculatingPool.dropReceiver]; omega

/-- As long as the consumer is there, what an act puts on the channel comes behind what is queued,
and what the act takes from it was queued before all else. -/
theorem channel_of_does (does : Does circulation act answer after)
    (hears : after.pool.hasReceiver) :
    circulation.pool.hasReceiver ∧ circulation.pool.queued ++ sent [(act, answer)] =
      heard [(act, answer)] ++ after.pool.queued := by
  cases does with
  | recycles =>
    unfold CirculatingPool.putBack at hears ⊢
    split at hears
    · exact ⟨hears, by simp [sent, heard, *]⟩
    · exact ⟨hears, by simp [sent, heard, *]⟩
  | hangsUp => cases hears
  | receives _ next => exact ⟨hears, by simp [sent, heard, next]⟩
  | _ => exact ⟨hears, by simp [sent, heard, CirculatingPool.dropSender]⟩

/-- The consumer hears nothing but what was queued for it. -/
theorem heard_of_does (does : Does circulation act answer after) :
    heard [(act, answer)] = [] ∨
      circulation.pool.hasReceiver ∧ heard [(act, answer)] <+: circulation.pool.queued := by
  cases does with
  | receives hears next => exact .inr ⟨hears, by simp [heard, next]⟩
  | receivesAll hears => exact .inr ⟨hears, by simp [heard]⟩
  | _ => exact .inl rfl

/-- What every session with a pool of `count` buffers keeps. -/
structure Conserves (count : Nat) (past : List (Act β × Answer β)) (circulation : Circulation β) :
    Prop where
  whole : (circulation.whereabouts ++ (lost past).map (·.number)).Perm (List.range count)
  places : circulation.pool.places = max count 1
  misses : circulation.pool.misses = (obtained past).countP (·.isNone)
  inOrder : heard past <+: sent past
  channel : circulation.pool.hasReceiver → sent past = heard past ++ circulation.pool.queued

variable {count : Nat} {past : List (Act β × Answer β)}

omit [Clearable β] in
theorem conserves_start (buffers : List β) : Conserves buffers.length [] (start buffers) where
  whole := by
    have numbers : buffers.zipIdx.map Prod.snd = List.range buffers.length := by
      rw [List.range_eq_range', List.zipIdx_map_snd]
    simp [whereabouts, start, CirculatingPool.ofBuffers, lost, Function.comp_def, ← numbers]
  places := by simp [start, CirculatingPool.ofBuffers]
  misses := by simp [start, CirculatingPool.ofBuffers, obtained]
  inOrder := List.nil_prefix
  channel _ := by simp [start, CirculatingPool.ofBuffers, heard, sent]

omit [Clearable β] in
/-- There are no more buffers free and in the hands of the consumer than the pool has. -/
theorem Conserves.bounded (conserves : Conserves count past circulation) :
    circulation.pool.free.length + circulation.received.length ≤ count := by
  have lengths := conserves.whole.length_eq
  simp only [whereabouts, List.length_append, List.length_map, List.length_range] at lengths
  omega

omit [Clearable β] in
/-- There is a place for a buffer that the consumer holds. -/
theorem Conserves.room (conserves : Conserves count past circulation)
    (holds : circulation.received ≠ []) :
    circulation.pool.free.length < circulation.pool.places := by
  have bounded := conserves.bounded
  have some_held := List.length_pos_iff.mpr holds
  rw [conserves.places]
  omega

/-- An act keeps what every session keeps. -/
theorem Conserves.after_does (conserves : Conserves count past circulation)
    (does : Does circulation act answer after) :
    Conserves count (past ++ [(act, answer)]) after where
  whole := by
    have moved := whereabouts_of_does does conserves.room
    rw [lost_concat, List.map_append]
    refine List.Perm.trans ?_ conserves.whole
    refine List.Perm.trans ?_ (moved.append_right _)
    rw [List.append_assoc]
    exact List.perm_append_comm.append_left _
  places := by
    rw [← conserves.places]
    cases does with
    | recycles =>
      unfold CirculatingPool.putBack
      split <;> rfl
    | _ => rfl
  misses := by
    have kept := conserves.misses
    rw [obtained_concat, List.countP_append]
    cases does with
    | recycles =>
      unfold CirculatingPool.putBack
      split <;> simpa [obtained] using kept
    | _ => simpa [obtained, CirculatingPool.dropSender, CirculatingPool.dropReceiver] using kept
  inOrder := by
    rw [heard_concat, sent_concat]
    rcases heard_of_does does with silent | ⟨hears, taken⟩
    · rw [silent, List.append_nil]
      exact conserves.inOrder.trans (List.prefix_append _ _)
    · rw [conserves.channel hears, List.append_assoc]
      exact (List.prefix_append_right_inj _).mpr (taken.trans (List.prefix_append _ _))
  channel := by
    intro hearsAfter
    obtain ⟨hears, moved⟩ := channel_of_does does hearsAfter
    rw [heard_concat, sent_concat, conserves.channel hears, List.append_assoc, moved,
      List.append_assoc]

/-- What every session keeps holds of every session. -/
theorem conserves_follow (buffers : List β) (acts : List (Act β)) :
    Conserves buffers.length (Session.follow perform (start buffers) acts).past
      (Session.follow perform (start buffers) acts).state :=
  Session.follow_induction perform (conserves_start buffers)
    (fun _ _ act kept => kept.after_does (does_perform act _)) acts

/-- The buffers that producers can obtain, and those that they have obtained, are empty. -/
structure Emptied (empty : β → Prop) (past : List (Act β × Answer β))
    (circulation : Circulation β) : Prop where
  free : ∀ buffer ∈ circulation.pool.free, empty buffer.buffer
  obtained : ∀ buffer, some buffer ∈ obtained past → empty buffer.buffer

theorem Emptied.after_does {empty : β → Prop} (cleared : ∀ buffer, empty (Clearable.clear buffer))
    (emptied : Emptied empty past circulation) (does : Does circulation act answer after) :
    Emptied empty (past ++ [(act, answer)]) after where
  free := by
    cases does with
    | lends free =>
      intro buffer member
      exact emptied.free buffer (free ▸ List.mem_cons_of_mem _ member)
    | recycles number taken =>
      rename_i returned _
      intro buffer member
      simp only [CirculatingPool.putBack] at member
      split at member
      · rcases List.mem_append.mp member with old | new
        · exact emptied.free buffer old
        · rw [List.mem_singleton.mp new]
          exact cleared returned.buffer
      · exact emptied.free buffer member
    | _ => exact emptied.free
  obtained := by
    intro buffer member
    rw [obtained_concat, List.mem_append] at member
    rcases member with old | new
    · exact emptied.obtained buffer old
    · cases does with
      | lends free =>
        simp only [Circulation.obtained, List.filterMap_cons, List.filterMap_nil,
          List.mem_singleton, Option.some.injEq] at new
        exact emptied.free buffer (by simp [free, new])
      | _ => simp [Circulation.obtained] at new

/-- Each buffer of a pool is free, on the channel, in somebody's hands or lost, and what the
consumer receives is what was sent, in its order. -/
theorem buffers_conserved (buffers : List β) (acts : List (Act β)) :
    let session := Session.follow perform (start buffers) acts
    let pool := session.state.pool
    (session.state.whereabouts ++ (lost session.past).map (·.number)).Perm
        (List.range buffers.length) ∧
      pool.free.length ≤ buffers.length ∧
      (∀ buffer ∈ session.state.received,
        (pool.putBack buffer).free = pool.free ++ [Clearable.clear buffer]) ∧
      (∀ empty : β → Prop, (∀ buffer, empty (Clearable.clear buffer)) →
        (∀ buffer ∈ buffers, empty buffer) →
        (∀ buffer ∈ pool.free, empty buffer.buffer) ∧
          ∀ buffer, some buffer ∈ obtained session.past → empty buffer.buffer) ∧
      heard session.past <+: sent session.past ∧
      (pool.hasReceiver → sent session.past = heard session.past ++ pool.queued) ∧
      (pool.senders ≠ 0 →
        ((perform .obtain session.state).1 = .obtained none ↔ pool.free = [])) ∧
      pool.misses = (obtained session.past).countP (·.isNone) := by
  intro session pool
  have conserves : Conserves buffers.length session.past session.state :=
    conserves_follow buffers acts
  refine ⟨conserves.whole, Nat.le_of_add_right_le conserves.bounded, ?_, ?_, conserves.inOrder,
    conserves.channel, ?_, conserves.misses⟩
  · intro buffer member
    have room := conserves.room (List.ne_nil_of_mem member)
    simp only [CirculatingPool.putBack, pool, if_pos room]
  · intro empty cleared made
    have emptied : Emptied empty session.past session.state := by
      refine Session.follow_induction perform ?_
        (fun _ _ act kept => kept.after_does cleared (does_perform act _)) acts
      refine ⟨fun buffer member => ?_, fun buffer member => (List.not_mem_nil member).elim⟩
      simp only [start, CirculatingPool.ofBuffers, List.mem_map, Prod.exists] at member
      obtain ⟨content, number, listed, rfl⟩ := member
      exact made content (List.fst_mem_of_mem_zipIdx listed)
    exact ⟨emptied.free, emptied.obtained⟩
  · intro sendable
    cases free : pool.free with
    | nil => simp [perform, sendable, CirculatingPool.lend, free, pool]
    | cons buffer rest => simp [perform, sendable, CirculatingPool.lend, free, pool]

/-- The first of two buffers goes round while the second one is lent, so a third request for a
buffer finds none. -/
theorem buffers_conserved_round :
    let session := Session.follow perform (start [({} : GrowingBuffer), {}])
      [.obtain, .write 0 fun buffer => { bytes := 7 :: buffer.bytes }, .send 0, .obtain, .obtain,
        .receive, .recycle 0]
    session.state.whereabouts = [0, 1] ∧ session.state.pool.misses = 1 ∧
      heard session.past = [.buffer { number := 0, buffer := { bytes := [7] } }] ∧
      ∀ buffer ∈ session.state.pool.free, buffer.buffer.bytes = [] := by
  refine ⟨by decide, by decide, by decide, ?_⟩
  have conserved := buffers_conserved [({} : GrowingBuffer), {}]
    [.obtain, .write 0 fun buffer => { bytes := 7 :: buffer.bytes }, .send 0, .obtain, .obtain,
      .receive, .recycle 0]
  exact (conserved.2.2.2.1 (fun buffer => buffer.bytes = []) (fun _ => rfl) (by simp)).1

end Circulation

end TraceRelay
