import Mathlib.Logic.Function.Basic
import TraceRelay.Proofs.Delivery.Custody
import TraceRelay.Proofs.Stream.Mappings

/-! The events that reach the reader of a stream, and what their calls were asked to report. -/

namespace TraceRelay

/-- Whether a delivery ends with its next access and, if it does, whether its event is shipped. -/
def Delivery.ships? {π β : Type} [BufferSupply π β] (supply : π) : Delivery β → Option Bool
  | .obtaining _ =>
    match (BufferSupply.lend supply).result with
    | .ok (some _) => none
    | _ => some false
  | .returning written buffer =>
    match written, (BufferSupply.ship buffer supply).result with
    | .returned (), .ok () => some true
    | _, _ => some false
  | _ => none

namespace OpenSite

variable {π ε β δ : Type}

/-- The purpose of the delivery that ends with an access, and whether its event is shipped. -/
def ends? [BufferSupply π β] (access : SiteAccess π ε β δ) : Option (Purpose × Bool) :=
  access.phase.delivery?.bind fun (purpose, delivery) =>
    (delivery.ships? access.before.reporter.supply).map (purpose, ·)

/-- The turn of the call whose own event is shipped with an access. -/
def answers? [BufferSupply π β] (access : SiteAccess π ε β δ) : Option Turn :=
  match ends? access with
  | some (.answer, true) => some access.turn
  | _ => none

/-- The name that a call reads with an access. -/
def readsName? (access : SiteAccess π ε β δ) : Option String :=
  match access.phase with
  | .atSite _ (.calling thread (.identifying _ _ .readName)) =>
    some ((access.before.host.nameOf access.before.reporter.tracker.names thread).getD "")
  | _ => none

/-- What a run has done so far. -/
structure Chronicle where
  /-- The event that each delivery has written. -/
  written : DeliveryId → Option Event := fun _ => none
  /-- The name that each call has read. -/
  named : Turn → Option String := fun _ => none
  /-- The events that have been shipped, in order. -/
  stream : List Event := []
  /-- The calls whose own events have been shipped, in order, with what they reported. -/
  answered : List (Turn × Report) := []

namespace Chronicle

/-- What the call of a turn reports. An activity is reported under the name that its call has
read. -/
def report? (chronicle : Chronicle) (turn : Turn) : Job δ → Option Report
  | .atSite (.request _ (.report activity)) =>
    (chronicle.named turn).map fun name => .activity name activity
  | .atSite (.request _ (.marker key value)) => some (.marker key value)
  | _ => none

/-- The chronicle with one more access. -/
def add [BufferSupply π β] (chronicle : Chronicle) (access : SiteAccess π ε β δ) : Chronicle where
  written :=
    match writes? access with
    | some (id, event, _) => Function.update chronicle.written id (some event)
    | none => chronicle.written
  named :=
    match readsName? access with
    | some name => Function.update chronicle.named access.turn (some name)
    | none => chronicle.named
  stream :=
    match ends? access with
    | some (purpose, true) =>
      chronicle.stream ++ (chronicle.written ⟨access.turn, purpose.stage⟩).toList
    | _ => chronicle.stream
  answered :=
    match ends? access with
    | some (.answer, true) => chronicle.answered ++
      ((chronicle.report? access.turn access.job).map (access.turn, ·)).toList
    | _ => chronicle.answered

/-- What a reader of the stream has learnt. -/
def legend (chronicle : Chronicle) : Legend := Legend.ofEvents chronicle.stream

end Chronicle

/-- The chronicle of the accesses of a run. -/
def chronicle [BufferSupply π β] (past : List (SiteAccess π ε β δ)) : Chronicle :=
  past.foldl Chronicle.add {}

theorem chronicle_concat [BufferSupply π β] (past : List (SiteAccess π ε β δ))
    (access : SiteAccess π ε β δ) :
    chronicle (past ++ [access]) = (chronicle past).add access := by
  simp [chronicle]

theorem ends?_of_delivering [BufferSupply π β] {access : SiteAccess π ε β δ} {siteJob : Site.Job}
    {thread : Thread} {purpose : Purpose} {delivery : Delivery β}
    (calling : access.phase = .atSite siteJob (.calling thread (.delivering purpose delivery))) :
    ends? access = (delivery.ships? access.before.reporter.supply).map (purpose, ·) := by
  simp [ends?, Phase.delivery?, Phase.call?, calling, Call.delivery?]

theorem written_concat [BufferSupply π β] (past : List (SiteAccess π ε β δ))
    (access : SiteAccess π ε β δ) : (chronicle (past ++ [access])).written =
      match writes? access with
      | some (id, event, _) => Function.update (chronicle past).written id (some event)
      | none => (chronicle past).written := by
  rw [chronicle_concat]
  rfl

/-- What the deliveries of other turns have written stays as it is. -/
theorem written_other [BufferSupply π β] (past : List (SiteAccess π ε β δ))
    {access : SiteAccess π ε β δ} {turn : Turn} (different : access.turn ≠ turn) (stage : Stage) :
    (chronicle (past ++ [access])).written ⟨turn, stage⟩ =
      (chronicle past).written ⟨turn, stage⟩ := by
  rw [written_concat]
  split
  · rename_i id event buffer writes
    have own : id.turn = access.turn := by
      simp only [writes?] at writes
      split at writes <;> cases writes
      rfl
    apply Function.update_of_ne
    intro met
    rw [← met] at own
    exact different own.symm
  · rfl

/-- A delivery does not end with its write. -/
theorem writes?_of_ends [BufferSupply π β] {access : SiteAccess π ε β δ} {ended : Purpose × Bool}
    (ends : ends? access = some ended) : writes? access = none := by
  obtain ⟨⟨purpose, delivery⟩, delivering, ships⟩ := Option.bind_eq_some_iff.mp ends
  cases delivery with
  | writing => cases ships
  | obtaining | stamping | returning => simp [writes?, delivering]

/-- Nothing is shipped by an access that ends no delivery. -/
theorem unshipped_concat [BufferSupply π β] (past : List (SiteAccess π ε β δ))
    {access : SiteAccess π ε β δ} (unended : ends? access = none) :
    (chronicle (past ++ [access])).stream = (chronicle past).stream ∧
      (chronicle (past ++ [access])).answered = (chronicle past).answered := by
  rw [chronicle_concat]
  simp [Chronicle.add, unended]

theorem named_concat [BufferSupply π β] (past : List (SiteAccess π ε β δ))
    {access : SiteAccess π ε β δ} (silent : readsName? access = none) :
    (chronicle (past ++ [access])).named = (chronicle past).named := by
  rw [chronicle_concat]
  simp [Chronicle.add, silent]

/-- An access that ships an event adds it to the stream. -/
theorem stream_shipped [BufferSupply π β] {past : List (SiteAccess π ε β δ)}
    {access : SiteAccess π ε β δ} {purpose : Purpose} {event : Event}
    (shipped : ends? access = some (purpose, true))
    (written : (chronicle past).written ⟨access.turn, purpose.stage⟩ = some event) :
    (chronicle (past ++ [access])).stream = (chronicle past).stream ++ [event] := by
  rw [chronicle_concat]
  simp [Chronicle.add, shipped, written]

/-- A stream only grows. -/
theorem stream_concat [BufferSupply π β] (past : List (SiteAccess π ε β δ))
    (access : SiteAccess π ε β δ) :
    ∃ more, (chronicle (past ++ [access])).stream = (chronicle past).stream ++ more := by
  rw [chronicle_concat]
  simp only [Chronicle.add]
  split
  · exact ⟨_, rfl⟩
  · exact ⟨[], (List.append_nil _).symm⟩

theorem answered_concat [BufferSupply π β] (past : List (SiteAccess π ε β δ))
    (access : SiteAccess π ε β δ) : (chronicle (past ++ [access])).answered =
      (chronicle past).answered ++ ((answers? access).bind fun turn =>
        ((chronicle past).report? turn access.job).map (turn, ·)).toList := by
  rw [chronicle_concat]
  simp only [Chronicle.add, answers?]
  split <;> simp

/-- The name that a call has read stays as it is, unless the call reads one. -/
theorem named_apart [BufferSupply π β] (past : List (SiteAccess π ε β δ))
    {access : SiteAccess π ε β δ} {turn : Turn}
    (apart : readsName? access = none ∨ turn ≠ access.turn) :
    (chronicle (past ++ [access])).named turn = (chronicle past).named turn := by
  rw [chronicle_concat]
  cases reads : readsName? access with
  | none => simp only [Chronicle.add, reads]
  | some name =>
    have different : turn ≠ access.turn := by
      rcases apart with silent | different
      · rw [silent] at reads
        cases reads
      · exact different
    simp only [Chronicle.add, reads]
    exact Function.update_of_ne different _ _

/-- The name that a call has read stays as it is once the call has moved on. -/
theorem named_append [BufferSupply π β] {turn : Turn} (past later : List (SiteAccess π ε β δ))
    (silent : ∀ access ∈ later, readsName? access = none ∨ turn ≠ access.turn) :
    (chronicle (past ++ later)).named turn = (chronicle past).named turn := by
  induction later using List.reverseRecOn with
  | nil => rw [List.append_nil]
  | append_singleton later access ih =>
    rw [← List.append_assoc, named_apart _ (silent access (by simp))]
    exact ih fun other member => silent other (List.mem_append_left _ member)

/-- What other calls report does not depend on an access. -/
theorem report?_concat [BufferSupply π β] {past : List (SiteAccess π ε β δ)}
    {access : SiteAccess π ε β δ} {turn : Turn}
    (apart : readsName? access = none ∨ turn ≠ access.turn) (job : Job δ) :
    (chronicle (past ++ [access])).report? turn job = (chronicle past).report? turn job := by
  have named := named_apart past apart
  unfold Chronicle.report?
  split <;> simp only [named]

end OpenSite

end TraceRelay
