import TraceRelay.Proofs.Reporting.Lookups
import TraceRelay.Proofs.Stream.Series
import TraceRelay.Proofs.Text.Numerals

/-! Runs of reports that need more ids than there are. -/

namespace TraceRelay

/-- A supply that makes a buffer for each request and an encoder that never fails. Neither keeps
anything, and nor does a buffer. -/
structure Ample
deriving DecidableEq, Repr

instance : Clearable Ample where
  clear := id

instance : BufferSupply Ample Ample where
  lend supply := { result := .ok (some {}), state := supply }
  ship _ supply := { result := .ok (), state := supply }

instance : EventEncoder Ample Ample where
  encode _ encoder buffer := { outcome := .returned (), encoder, buffer }

/-- The mappings of the events that complete drafts are known from the drafts. -/
theorem Register.mapping?_complete (register : Register) (draft : Draft) (current : Timestamp)
    (numbering : Numbering) : register.mapping? (draft.complete current numbering).1 =
      register.mapping? (draft.complete 0 {}).1 := by
  cases register <;> cases draft <;> rfl

namespace OpenSite

theorem mappings_completeAll (register : Register) (current : DeliveryId → Timestamp)
    (numbering : Numbering) (drafts : List (DeliveryId × Draft)) :
    register.mappings ((completeAll current numbering drafts).1.map Prod.snd) =
      drafts.filterMap fun entry => register.mapping? (entry.2.complete 0 {}).1 := by
  induction drafts generalizing numbering with
  | nil => rfl
  | cons entry rest ih =>
    have first := register.mapping?_complete entry.2 (current entry.1) numbering
    have later := ih (entry.2.complete (current entry.1) numbering).2
    simp only [Register.mappings, completeAll, List.map_cons, List.filterMap_cons] at later ⊢
    rw [first, later]

section Ample

variable {δ : Type}

theorem smooth_ample (access : SiteAccess Ample Ample Ample δ) : Smooth access := by
  rintro ⟨purpose, delivery⟩ delivering
  cases delivery with
  | obtaining | writing | returning => rfl
  | stamping => trivial

theorem obtains_ample {access : SiteAccess Ample Ample Ample δ}
    (asks : (asks? access).isSome = true) : (obtains? access).isSome = true := by
  unfold asks? at asks
  split at asks
  · rename_i purpose draft obtaining
    simp only [obtains?, obtaining]
    rfl
  · cases asks

end Ample

/-- A new site with such a supply and such an encoder. -/
def ampleSite : Site Ample Ample := Site.create {} {} .given {}

/-- Reports that are made there one after the other. -/
def reportsRun (observations : List Observation) : Traffic Ample Ample Ample Empty :=
  (Interleaving.fresh ampleSite [reporting observations]).run (procedure Empty.elim)
    (List.replicate (31 * observations.length) 0)

/-- The accesses of these reports. -/
def reportsPast (observations : List Observation) : List (SiteAccess Ample Ample Ample Empty) :=
  (Interleaving.fresh ampleSite [reporting observations]).accesses (procedure Empty.elim)
    (List.replicate (31 * observations.length) 0)

/-- The reports return, and lead the site and the stream where their course leads. -/
theorem exists_course (observations : List Observation) :
    ∃ strand, (reportsRun observations).strands[0]? = some strand ∧ strand.isDone = true ∧
      strand.ended = allReturned observations ∧
      (reportsRun observations).shared.outline 0 =
        (afterReports observations (ampleSite.outline 0)).outline 0 ∧
      ∃ clock : Turn → Option Stage → Nat, (chronicle (reportsPast observations)).stream =
        (completeAll (timeAt clock 0) {} (asksOfAll (fun turn => clock turn none) 0
          (ampleSite.outline 0) observations)).1.map Prod.snd := by
  obtain ⟨clock, steady⟩ := exists_clock Empty.elim ampleSite [reporting observations]
    (List.replicate (31 * observations.length) 0)
  have undisturbed : Undisturbed clock (reportsPast observations) :=
    undisturbed_run Empty.elim ampleSite (reporting observations) (by simp) _
      (fun access _ => smooth_ample access) steady
  have enough : 31 * (reporting observations : List (Job Empty)).length ≤
      (List.replicate (31 * observations.length) 0).count 0 := by
    simp [reporting]
  obtain ⟨strand, found, done, ended, left, completed⟩ :=
    concludes undisturbed (fun access _ => obtains_ample) enough
      (leads_reports (fun turn => clock turn none) observations (ampleSite.outline 0) [] [])
      rfl rfl rfl
  refine ⟨strand, found, done, ended.trans (List.append_nil _), left, clock, ?_⟩
  have streamed : (chronicle (reportsPast observations)).stream =
      (delivered (reportsPast observations)).map Prod.snd :=
    (map_snd_delivered Empty.elim ampleSite _ _).symm
  rw [streamed]
  exact congrArg (fun events => events.1.map Prod.snd) completed.symm

/-- None of these reports loses an event on its way. -/
theorem ends_reports {observations : List Observation}
    {access : SiteAccess Ample Ample Ample Empty} (made : access ∈ reportsPast observations)
    {purpose : Purpose} {shipped : Bool} (ends : ends? access = some (purpose, shipped)) :
    shipped = true := by
  obtain ⟨⟨own, delivery⟩, delivering, ships⟩ := Option.bind_eq_some_iff.mp ends
  obtain ⟨answer, ships, same⟩ := Option.map_eq_some_iff.mp ships
  cases same
  cases delivery with
  | obtaining | stamping | writing => cases ships
  | returning written buffer =>
    obtain ⟨earlier, later, split⟩ := List.append_of_mem made
    cases (writesFirst_run Empty.elim ampleSite _ _).returned
      (fun access _ => smooth_ample access) split delivering
    cases ships
    rfl

/-- When the reports have been made no call is in progress, and all of them have returned. -/
theorem rests_reports (observations : List Observation) :
    Rests (reportsRun observations) ∧ ∀ observation ∈ observations,
      (.atSite (.request observation.1 (.report observation.2)), some (.returned ())) ∈
        (reportsRun observations).results := by
  obtain ⟨strand, found, done, ended, -⟩ := exists_course observations
  refine ⟨fun engagement member => ?_, fun observation member => ?_⟩
  · obtain ⟨own, foundOwn, going, -⟩ := Interleaving.mem_underway.mp member
    have listed : [reporting observations][engagement.turn.strand]? = some _ :=
      Interleaving.work_of_strand (procedure Empty.elim) ampleSite _ _ foundOwn
    have first : engagement.turn.strand = 0 := by
      simpa using (List.getElem?_eq_some_iff.mp listed).1
    rw [first, found] at foundOwn
    cases foundOwn
    simp [Strand.isDone, going] at done
  · refine List.mem_flatMap.mpr ⟨strand, List.mem_of_getElem? found, ?_⟩
    rw [Strand.results, ended, allReturned, List.reverse_reverse, reporting, List.map_map]
    exact List.mem_map_of_mem member

section Methods

/-- Signatures, told apart by their numbers. -/
def signature (number : Nat) : String := Decimal.ofNat number

theorem signature_injective : Function.Injective signature := by
  intro first second same
  have digits := congrArg String.toList same
  rw [signature, signature, Decimal.toList_ofNat, Decimal.toList_ofNat] at digits
  rw [← Decimal.value_digits first, digits, Decimal.value_digits]

/-- The main thread enters one method after the other. -/
def entries (count : Nat) : List Observation :=
  (List.range count).map fun number => (⟨0⟩, .entry (signature number))

theorem entries_succ (count : Nat) :
    entries (count + 1) = entries count ++ [(⟨0⟩, .entry (signature count))] := by
  simp [entries, List.range_succ]

/-- Each method gets the next id. -/
theorem methods_entries (count : Nat) :
    let table := (afterReports (entries count) (ampleSite.outline 0)).reporter.methods
    table.upcoming = UInt32.ofNat (count + 1) ∧
      ∀ number, table.ids.find? (signature number) =
        if number < count then some (UInt32.ofNat (number + 1)) else none := by
  induction count with
  | zero => exact ⟨rfl, fun number => rfl⟩
  | succ count ih =>
    obtain ⟨upcoming, ids⟩ := ih
    rw [entries_succ, afterReports_concat]
    generalize afterReports (entries count) (ampleSite.outline 0) = site at upcoming ids
    change (site.reporter.methods.registered (signature count)).upcoming = _ ∧ ∀ number,
      (site.reporter.methods.registered (signature count)).ids.find? (signature number) = _
    have absent : site.reporter.methods.find? (signature count) = none := by
      rw [IdTable.find?, ids, if_neg (Nat.lt_irrefl _)]
      rfl
    rw [IdTable.registered_of_absent absent, upcoming]
    refine ⟨(UInt32.ofNat_add _ 1).symm, fun number => ?_⟩
    simp only [Table.find?_insert, ids, signature_injective.eq_iff]
    grind

theorem find?_entries (count : Nat) :
    (afterReports (entries count) (ampleSite.outline 0)).reporter.methods.find? (signature count) =
      none := by
  rw [IdTable.find?, (methods_entries count).2, if_neg (Nat.lt_irrefl _)]
  rfl

/-- The mappings of methods for which an entry asks for buffers. -/
theorem methods_asksOf {π ε : Type} (clock : Turn → Nat) (number : Nat) (site : Site π ε)
    (thread : Thread) (method : String) :
    (asksOf clock number site (thread, .entry method)).filterMap
        (fun entry => Register.methods.mapping? (entry.2.complete 0 {}).1) =
      if (site.reporter.methods.find? method).isSome then []
      else [(method, site.reporter.methods.idOf method)] := by
  by_cases told : site.tracked.announced? thread = some (site.tracked.nameOf thread) <;>
    cases known : (site.reporter.methods.find? method).isSome <;>
    simp only [asksOf, mappingsDue, threadDue, mappingDue, Activity.method, told, known,
      Bool.false_eq_true, if_true, if_false] <;> rfl

/-- Each method is mapped by the call that enters it. -/
theorem mapped_entries (clock : Turn → Nat) (count : Nat) :
    (asksOfAll clock 0 (ampleSite.outline 0) (entries count)).filterMap
        (fun entry => Register.methods.mapping? (entry.2.complete 0 {}).1) =
      (List.range count).map fun number => (signature number, UInt32.ofNat (number + 1)) := by
  induction count with
  | zero => rfl
  | succ count ih =>
    have absent := find?_entries count
    rw [entries_succ, asksOfAll_concat, List.filterMap_append, ih, methods_asksOf, absent,
      IdTable.idOf_of_absent absent, (methods_entries count).1, List.range_succ, List.map_append]
    rfl

/-- The main thread enters the last of the methods once more. -/
def entriesAgain (count : Nat) : List Observation :=
  entries count ++ [(⟨0⟩, .entry (signature (count - 1)))]

/-- A method that has got the mark of pending keys as its id has none, and gets the first id. -/
theorem find?_entries_pending {count : Nat} (positive : count ≠ 0)
    (wraps : UInt32.ofNat count = IdTable.pending) :
    let table := (afterReports (entries count) (ampleSite.outline 0)).reporter.methods
    table.find? (signature (count - 1)) = none ∧ table.idOf (signature (count - 1)) = 1 := by
  intro table
  obtain ⟨upcoming, ids⟩ := methods_entries count
  have absent : table.find? (signature (count - 1)) = none := by
    rw [IdTable.find?, ids, if_pos (Nat.sub_one_lt positive),
      Nat.sub_one_add_one positive, wraps]
    rfl
  refine ⟨absent, (IdTable.idOf_of_absent absent).trans (upcoming.trans ?_)⟩
  rw [UInt32.ofNat_add, wraps]
  rfl

/-- Such a method is mapped once more by its next call, and that to an id that another method
has. -/
theorem mappings_entriesAgain {count : Nat} (positive : count ≠ 0)
    (wraps : UInt32.ofNat count = IdTable.pending) :
    let mappings := Register.methods.mappings (chronicle (reportsPast (entriesAgain count))).stream
    ¬ (mappings.map Prod.fst).Nodup ∧ ¬ (mappings.map Prod.snd).Nodup := by
  intro mappings
  obtain ⟨strand, -, -, -, -, clock, streamed⟩ := exists_course (entriesAgain count)
  obtain ⟨absent, next⟩ := find?_entries_pending positive wraps
  have listed : mappings =
      ((List.range count).map fun number => (signature number, UInt32.ofNat (number + 1))) ++
        [(signature (count - 1), 1)] := by
    rw [show mappings = Register.methods.mappings _ from congrArg _ streamed, mappings_completeAll,
      entriesAgain, asksOfAll_concat, List.filterMap_append, mapped_entries, methods_asksOf, absent,
      next]
    rfl
  have mapped (number : Nat) (counted : number < count) :
      (signature number, UInt32.ofNat (number + 1)) ∈
        (List.range count).map fun number => (signature number, UInt32.ofNat (number + 1)) :=
    List.mem_map_of_mem (List.mem_range.mpr counted)
  rw [listed, List.map_append, List.map_append]
  refine ⟨fun once => ?_, fun once => ?_⟩
  · exact (List.nodup_append.mp once).2.2 _
      (List.mem_map_of_mem (mapped (count - 1) (Nat.sub_one_lt positive))) _
      (List.mem_singleton.mpr rfl) rfl
  · exact (List.nodup_append.mp once).2.2 _
      (List.mem_map_of_mem (mapped 0 (Nat.pos_of_ne_zero positive))) _
      (List.mem_singleton.mpr rfl) rfl

end Methods

section Threads

theorem nameOf_recognized (tracked : TrackedHost) (thread other : Thread) :
    (tracked.recognized thread).nameOf other = tracked.nameOf other := by
  unfold TrackedHost.recognized TrackedHost.enrol
  split
  · rfl
  · split <;> rfl

theorem upcoming_recognized {tracked : TrackedHost} {thread : Thread}
    (new : tracked.memo? thread = none) :
    (tracked.recognized thread).tracker.upcoming = tracked.tracker.upcoming + 1 := by
  simp [TrackedHost.recognized, TrackedHost.announced?, TrackedHost.enrol, new,
    TrackedHost.remember]

/-- One thread after the other makes its first call. -/
def debuts (count : Nat) : List Observation :=
  (List.range count).map fun number => (⟨number⟩, .entry "run")

theorem debuts_succ (count : Nat) :
    debuts (count + 1) = debuts count ++ [(⟨count⟩, .entry "run")] := by
  simp [debuts, List.range_succ]

/-- Each thread gets the next id. -/
theorem tracked_debuts (count : Nat) :
    let tracked := (afterReports (debuts count) (ampleSite.outline 0)).tracked
    tracked.tracker.upcoming = UInt32.ofNat count ∧
      (∀ thread, tracked.nameOf thread = ampleSite.tracked.nameOf thread) ∧
      ∀ thread, tracked.memo? thread = if thread.number < count then
        some { id := UInt32.ofNat thread.number
               announced := some (ampleSite.tracked.nameOf thread) } else none := by
  induction count with
  | zero => exact ⟨rfl, fun _ => rfl, fun _ => rfl⟩
  | succ count ih =>
    obtain ⟨upcoming, names, memos⟩ := ih
    rw [debuts_succ, afterReports_concat]
    generalize afterReports (debuts count) (ampleSite.outline 0) = site at upcoming names memos
    change (site.tracked.recognized ⟨count⟩).tracker.upcoming = _ ∧
      (∀ thread, (site.tracked.recognized ⟨count⟩).nameOf thread = _) ∧
      ∀ thread, (site.tracked.recognized ⟨count⟩).memo? thread = _
    have new : site.tracked.memo? ⟨count⟩ = none := by
      rw [memos, if_neg (Nat.lt_irrefl _)]
    have own : site.tracked.idOf ⟨count⟩ = UInt32.ofNat count := by
      rw [TrackedHost.idOf, new, upcoming]
      rfl
    refine ⟨?_, fun thread => ?_, fun thread => ?_⟩
    · rw [upcoming_recognized new, upcoming]
      exact (UInt32.ofNat_add _ 1).symm
    · rw [nameOf_recognized, names]
    · rw [TrackedHost.memo?_recognized, memos, own, names]
      obtain ⟨number⟩ := thread
      simp only [Thread.mk.injEq]
      grind

/-- A thread that gets the first id once more shares it with the main thread. -/
theorem memos_debuts {count : Nat} (wraps : UInt32.ofNat count = 0) {thread : Thread}
    (first : thread.number = 0 ∨ thread.number = count) :
    ∃ memo, (reportsRun (debuts (count + 1))).shared.tracked.memo? thread = some memo ∧
      memo.id = 0 := by
  obtain ⟨strand, -, -, -, left, -⟩ := exists_course (debuts (count + 1))
  obtain ⟨-, -, memos⟩ := tracked_debuts (count + 1)
  have same := congrArg (fun site => site.tracked.memo? thread) left
  have found := same.trans (memos thread)
  rw [if_pos (by omega)] at found
  refine ⟨_, found, ?_⟩
  rcases first with main | last
  · simp [main]
  · simpa [last] using wraps

/-- The method that all threads enter gets its id with the first call. -/
theorem methods_debuts (count : Nat) :
    (afterReports (debuts (count + 1)) (ampleSite.outline 0)).reporter.methods =
      ({} : IdTable String).registered "run" := by
  induction count with
  | zero => rfl
  | succ count ih =>
    rw [debuts_succ, afterReports_concat]
    change IdTable.registered (afterReports _ _).reporter.methods "run" = _
    rw [ih]
    rfl

/-- The events for which the entry of a known method asks for buffers. -/
theorem asksOf_of_known {π ε : Type} (clock : Turn → Nat) (number : Nat) {site : Site π ε}
    (thread : Thread) {method : String} {id : MethodId}
    (known : site.reporter.methods.find? method = some id) :
    asksOf clock number site (thread, .entry method) =
      (threadDue site.tracked thread).map (fun entry => (⟨⟨0, number⟩, entry.1⟩, entry.2)) ++
        [(⟨⟨0, number⟩, .answer⟩, .activity (site.reporter.elapsed (clock ⟨0, number⟩))
          (site.tracked.idOf thread) (.entry id))] := by
  have own : site.reporter.methods.idOf method = id := IdTable.idOf_of_found known
  simp [asksOf, mappingsDue, mappingDue, Activity.method, Activity.raised?, Activity.map, known,
    own]

/-- One more thread comes, and then the main thread makes another call. -/
def debutsAgain (count : Nat) : List Observation := debuts (count + 1) ++ [(⟨0⟩, .entry "run")]

/-- A thread that gets the first id once more takes it from the main thread: the next event of the
main thread is read under the empty name. -/
theorem stream_debutsAgain {count : Nat} (positive : count ≠ 0) (wraps : UInt32.ofNat count = 0) :
    ∃ before stamp,
      (chronicle (reportsPast (debutsAgain count))).stream =
        before ++ [.activity stamp 0 (.entry 1)] ∧
      (Legend.ofEvents before).threads.find? 0 = some "" := by
  obtain ⟨count, rfl⟩ := Nat.exists_eq_succ_of_ne_zero positive
  obtain ⟨strand, -, -, -, -, clock, streamed⟩ := exists_course (debutsAgain (count + 1))
  have known (earlier : Nat) : (afterReports (debuts (earlier + 1))
      (ampleSite.outline 0)).reporter.methods.find? "run" = some 1 := by
    rw [methods_debuts]
    rfl
  obtain ⟨upcoming, names, memos⟩ := tracked_debuts (count + 1)
  have unnamed : ampleSite.tracked.nameOf ⟨count + 1⟩ = "" := rfl
  have newcomer : threadDue (afterReports (debuts (count + 1)) (ampleSite.outline 0)).tracked
      ⟨count + 1⟩ = [(.thread, .threadMapping 0 "")] := by
    simp [threadDue, TrackedHost.announced?, TrackedHost.idOf, memos, upcoming, wraps, names,
      unnamed]
  obtain ⟨-, namesLater, memosLater⟩ := tracked_debuts (count + 2)
  have main : threadDue (afterReports (debuts (count + 2)) (ampleSite.outline 0)).tracked ⟨0⟩ =
      [] := by
    simp [threadDue, TrackedHost.announced?, memosLater, namesLater]
  have ownId : (afterReports (debuts (count + 2)) (ampleSite.outline 0)).tracked.idOf ⟨0⟩ = 0 := by
    simp [TrackedHost.idOf, memosLater]
  rw [debutsAgain, asksOfAll_concat, debuts_succ (count + 1), asksOfAll_concat, ← debuts_succ,
    asksOf_of_known _ _ _ (known count), asksOf_of_known _ _ _ (known (count + 1)), newcomer, main,
    ownId, completeAll_append, completeAll_append] at streamed
  generalize completeAll (timeAt clock 0) {} (asksOfAll (fun turn => clock turn none) 0
    (ampleSite.outline 0) (debuts (count + 1))) = earlier at streamed
  obtain ⟨events, number⟩ := earlier
  simp only [completeAll, Draft.complete, List.map_cons, List.map_nil, List.nil_append,
    List.cons_append, List.map_append] at streamed
  refine ⟨_, _, streamed, ?_⟩
  simp [Legend.ofEvents, Legend.learn, Table.find?_insert]

end Threads

/-- An id of 32 bits that has been drawn `2 ^ 32` times comes back to the mark of pending keys. -/
theorem ofNat_exhausted : UInt32.ofNat (2 ^ 32) = IdTable.pending := rfl

end OpenSite

end TraceRelay
