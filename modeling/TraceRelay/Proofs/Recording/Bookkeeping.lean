import Mathlib.Algebra.Group.Int.Defs
import TraceRelay.Recording.Dealings

/-! All that an archive counts, keeps and answers can be told from the dealings with it. -/

namespace TraceRelay.Archive

open Session

/-- What an act does to an archive, and its answer. -/
inductive Does (archive : Archive) : Act → Answer → Archive → Prop
  | turnsDown (count : Nat) :
    Does archive (.turnDown count) .told { archive with refusals := count }
  | setsLending (fails : Bool) :
    Does archive (.setLending fails) .told { archive with failsToLend := fails }
  | setsShipping (fails : Bool) :
    Does archive (.setShipping fails) .told { archive with failsToShip := fails }
  | fails (failing : archive.failsToLend = true) :
    Does archive .lend (.lent (.error (.obtain "injected failure"))) archive
  | refuses {refusals : Nat} (working : archive.failsToLend = false)
      (left : archive.refusals = refusals + 1) :
    Does archive .lend (.lent (.ok none)) { archive with refusals }
  | lends (working : archive.failsToLend = false) (spent : archive.refusals = 0) :
    Does archive .lend (.lent (.ok (some {}))) { archive with lent := archive.lent + 1 }
  | swallows (transcript : Transcript) (failing : archive.failsToShip = true) :
    Does archive (.ship transcript) (.shipped (.error .disconnected))
      { archive with lent := archive.lent - 1 }
  | delivers (transcript : Transcript) (working : archive.failsToShip = false) :
    Does archive (.ship transcript) (.shipped (.ok ()))
      { archive with lent := archive.lent - 1, shipped := transcript :: archive.shipped }

/-- Every act does one of the things that an act can do. -/
theorem does_perform (act : Act) (archive : Archive) :
    Does archive act (perform act archive).1 (perform act archive).2 := by
  cases act with
  | turnDown count => exact .turnsDown count
  | setLending fails => exact .setsLending fails
  | setShipping fails => exact .setsShipping fails
  | lend =>
    exact lend_cases
      (motive := fun request => Does archive .lend (.lent request.result) request.state)
      .fails (fun _ => .refuses) .lends
  | ship transcript =>
    exact ship_cases
      (motive := fun shipment =>
        Does archive (.ship transcript) (.shipped shipment.result) shipment.state)
      (.swallows transcript) (.delivers transcript)

variable {past : List (Act × Answer)} {archive after : Archive} {act : Act} {answer : Answer}

theorem isOn_concat (switch : Act → Option Bool) (past : List (Act × Answer))
    (entry : Act × Answer) :
    isOn switch (past ++ [entry]) = (switch entry.1).getD (isOn switch past) := by
  unfold isOn
  cases set : switch entry.1 with
  | none =>
    rw [latest?_concat_none past set]
    cases latest? (fun entry => switch entry.1) past <;> rfl
  | some fails =>
    rw [latest?_concat_some past set]
    rfl

theorem standingOrder_turnDown (past : List (Act × Answer)) (count : Nat) (answer : Answer) :
    standingOrder (past ++ [(.turnDown count, answer)]) = (count, []) := by
  have told : (Act.turnDown count).refusals? = some count := rfl
  unfold standingOrder
  rw [latest?_concat_some past told]
  rfl

theorem standingOrder_concat (past : List (Act × Answer)) {entry : Act × Answer}
    (silent : entry.1.refusals? = none) :
    standingOrder (past ++ [entry]) =
      ((standingOrder past).1, (standingOrder past).2 ++ [entry]) := by
  unfold standingOrder
  rw [latest?_concat_none past silent]
  cases latest? (fun entry => entry.1.refusals?) past <;> rfl

theorem kept_ship (past : List (Act × Answer)) (transcript : Transcript) (answer : Answer) :
    kept (past ++ [(.ship transcript, answer)]) =
      if isOn Act.shipping? past then kept past else kept past ++ [transcript] := by
  unfold kept
  rw [moments_concat, List.filterMap_append]
  cases switch : isOn Act.shipping? past <;> simp [switch]

theorem kept_concat (past : List (Act × Answer)) {entry : Act × Answer}
    (silent : receives entry = false) : kept (past ++ [entry]) = kept past := by
  unfold kept
  rw [moments_concat, List.filterMap_append]
  obtain ⟨act, answer⟩ := entry
  cases act with
  | ship => cases silent
  | turnDown | setLending | setShipping | lend => exact List.append_nil _

/-- The books of an archive agree with the dealings so far. -/
structure Booked (past : List (Act × Answer)) (archive : Archive) : Prop where
  lending : archive.failsToLend = isOn Act.lending? past
  shipping : archive.failsToShip = isOn Act.shipping? past
  refusals : archive.refusals = (standingOrder past).1 - (standingOrder past).2.countP serves
  lent : (archive.lent.toNat : Int) = ((past.countP lends : Int) - past.countP receives) % 2 ^ 64
  delivered : archive.delivered = kept past

theorem booked_start : Booked [] {} where
  lending := rfl
  shipping := rfl
  refusals := rfl
  lent := rfl
  delivered := rfl

/-- An act keeps the books in agreement with the dealings. -/
theorem Booked.after_does (booked : Booked past archive) (does : Does archive act answer after) :
    Booked (past ++ [(act, answer)]) after where
  lending := by
    rw [isOn_concat]
    cases does with
    | setsLending => rfl
    | turnsDown | setsShipping | fails | refuses | lends | swallows | delivers =>
      exact booked.lending
  shipping := by
    rw [isOn_concat]
    cases does with
    | setsShipping => rfl
    | turnsDown | setsLending | fails | refuses | lends | swallows | delivers =>
      exact booked.shipping
  refusals := by
    -- A request that is served uses up one refusal, or there is none left to use up.
    have left := booked.refusals
    cases does with
    | turnsDown => rw [standingOrder_turnDown]; rfl
    | setsLending | setsShipping | fails | swallows | delivers =>
      rw [standingOrder_concat past rfl, List.countP_append]
      exact left
    | refuses working some_left =>
      have served : [(Act.lend, Answer.lent (.ok none))].countP serves = 1 := rfl
      rw [standingOrder_concat past rfl, List.countP_append, served]
      dsimp only
      omega
    | lends working spent =>
      have served : [(Act.lend, Answer.lent (.ok (some {})))].countP serves = 1 := rfl
      rw [standingOrder_concat past rfl, List.countP_append, served]
      dsimp only
      omega
  lent := by
    -- The counter goes round at both ends, so the difference is kept as a remainder.
    have counted := booked.lent
    rw [List.countP_append, List.countP_append]
    cases does with
    | turnsDown | setsLending | setsShipping | fails | refuses => exact counted
    | lends =>
      have lent : [(Act.lend, Answer.lent (.ok (some {})))].countP Archive.lends = 1 := rfl
      have received : [(Act.lend, Answer.lent (.ok (some {})))].countP receives = 0 := rfl
      have more := UInt64.toNat_add archive.lent 1
      rw [UInt64.toNat_one] at more
      rw [lent, received, more]
      omega
    | swallows transcript | delivers transcript =>
      have lent (answer : Answer) : [(Act.ship transcript, answer)].countP Archive.lends = 0 := rfl
      have received (answer : Answer) : [(Act.ship transcript, answer)].countP receives = 1 := rfl
      have few := archive.lent.toNat_lt
      have fewer := UInt64.toNat_sub archive.lent 1
      rw [UInt64.toNat_one] at fewer
      rw [lent, received, fewer]
      omega
  delivered := by
    have same := booked.delivered
    cases does with
    | turnsDown | setsLending | setsShipping | fails | refuses | lends =>
      rw [kept_concat past rfl]
      exact same
    | swallows transcript failing =>
      rw [kept_ship, ← booked.shipping, failing]
      exact same
    | delivers transcript working =>
      rw [kept_ship, ← booked.shipping, working, ← same]
      simp [Archive.delivered]

/-- The books agree with the dealings in every session. -/
theorem booked_follow (acts : List Act) :
    Booked (follow perform ({} : Archive) acts).past (follow perform ({} : Archive) acts).state :=
  follow_induction perform booked_start
    (fun _ _ act booked => booked.after_does (does_perform act _)) acts

/-- A request is answered as the orders and the requests before it tell. -/
theorem Booked.answers_request (booked : Booked past archive)
    (does : Does archive .lend answer after) :
    answer = .lent
      (if isOn Act.lending? past then .error (.obtain "injected failure")
        else if (standingOrder past).2.countP serves < (standingOrder past).1 then .ok none
        else .ok (some {})) := by
  have left := booked.refusals
  rw [← booked.lending]
  cases does with
  | fails failing => rw [failing]; rfl
  | refuses working some_left =>
    have due : (standingOrder past).2.countP serves < (standingOrder past).1 := by omega
    rw [working, if_pos due]
    rfl
  | lends working spent =>
    have settled : ¬ (standingOrder past).2.countP serves < (standingOrder past).1 := by omega
    rw [working, if_neg settled]
    rfl

/-- A request that fails changes nothing. -/
theorem Does.unchanged (does : Does archive .lend answer after)
    (failing : archive.failsToLend = true) : after = archive := by
  cases does with
  | fails => rfl
  | refuses working | lends working => exact absurd failing (by simp [working])

/-- A transcript is swallowed just while the archive is told so. -/
theorem Booked.answers_shipment (booked : Booked past archive) {transcript : Transcript}
    (does : Does archive (.ship transcript) answer after) :
    answer = .shipped (if isOn Act.shipping? past then .error .disconnected else .ok ()) := by
  rw [← booked.shipping]
  cases does with
  | swallows _ failing => rw [failing]; rfl
  | delivers _ working => rw [working]; rfl

/-- Whatever is done to an archive, what it counts, how it answers a request and what it has
delivered can be told from the dealings with it. -/
theorem dealings_booked (acts : List Act) :
    let session := follow perform ({} : Archive) acts
    let past := session.past
    let archive := session.state
    let (ordered, since) := standingOrder past
    (archive.lent.toNat : Int) = ((past.countP lends : Int) - past.countP receives) % 2 ^ 64 ∧
      (perform .lend archive).1 = .lent
        (if isOn Act.lending? past then .error (.obtain "injected failure")
          else if since.countP serves < ordered then .ok none
          else .ok (some {})) ∧
      (isOn Act.lending? past = true → (perform .lend archive).2 = archive) ∧
      (∀ transcript, (perform (.ship transcript) archive).1 =
        .shipped (if isOn Act.shipping? past then .error .disconnected else .ok ())) ∧
      archive.entries = (kept past).flatMap (·.entries) ∧
      archive.delivered.length = (kept past).length ∧
      archive.blanks = (kept past).countP (·.entries.isEmpty) := by
  intro session past archive
  have booked : Booked past archive := booked_follow acts
  refine ⟨booked.lent, booked.answers_request (does_perform .lend archive), ?_, ?_, ?_, ?_, ?_⟩
  · intro failing
    exact (does_perform .lend archive).unchanged (booked.lending.trans failing)
  · intro transcript
    exact booked.answers_shipment (does_perform (.ship transcript) archive)
  · rw [entries, booked.delivered]
  · rw [booked.delivered]
  · rw [blanks, booked.delivered, List.countP_eq_length_filter]

/-- An order to turn requests down is replaced while it runs, a request that fails in between uses
up nothing of it, and more transcripts come back than were lent, one of them swallowed. -/
theorem dealings_booked_overdrawn :
    let event : Event := .exceptionMapping 1 "E"
    let acts : List Act :=
      [.turnDown 3, .lend, .turnDown 1, .setLending true, .lend, .setLending false, .lend, .lend,
        .ship { entries := [.complete event] }, .setShipping true, .ship {}, .setShipping false,
        .ship {}, .setLending true]
    let session := follow perform ({} : Archive) acts
    session.past.map Prod.snd =
        [.told, .lent (.ok none), .told, .told, .lent (.error (.obtain "injected failure")), .told,
          .lent (.ok none), .lent (.ok (some {})), .shipped (.ok ()), .told,
          .shipped (.error .disconnected), .told, .shipped (.ok ()), .told] ∧
      (session.state.lent.toNat : Int) = -2 % 2 ^ 64 ∧
      isOn Act.lending? session.past = true ∧
      (perform .lend session.state).2 = session.state ∧
      session.state.entries = [.complete event] ∧
      session.state.delivered.length = 2 ∧ session.state.blanks = 1 := by
  intro event acts session
  have failing : isOn Act.lending? session.past = true := by decide
  obtain ⟨lent, -, unchanged, -, entries, count, blanks⟩ := dealings_booked acts
  exact ⟨rfl, lent, failing, unchanged failing, entries, count, blanks⟩

end TraceRelay.Archive
