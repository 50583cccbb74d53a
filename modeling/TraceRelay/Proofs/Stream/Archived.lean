import TraceRelay.Proofs.Stream.Chronicle

/-! An archive holds just the events of the stream, in their order. -/

namespace TraceRelay

/-- A scribe leaves its event in a fresh transcript, or nothing if it spoils the write. -/
theorem Scribe.leftIn_fresh (scribe : Scribe) (event : Event) :
    (OpenSite.leftIn scribe event ({} : Transcript)).entries =
      if (EventEncoder.encode event scribe ({} : Transcript)).outcome = .returned () then
        [.complete event]
      else [] := by
  simp only [OpenSite.leftIn, EventEncoder.encode, encode]
  split
  · rfl
  · split <;> rfl
  · rfl

namespace OpenSite

variable {δ : Type} {obeys : δ → Archive × Scribe → Archive × Scribe}

/-- The transcript that a delivery has in hand holds what the delivery has written, if the write has
succeeded. -/
def Holds (chronicle : Chronicle) (turn : Turn) : Option (Purpose × Delivery Transcript) → Prop
  | some (_, .stamping _ transcript) => transcript = {}
  | some (_, .writing _ transcript) => transcript = {}
  | some (purpose, .returning (.returned ()) transcript) =>
    ∃ event, chronicle.written ⟨turn, purpose.stage⟩ = some event ∧
      transcript.entries = [.complete event]
  | some (_, .returning _ transcript) => transcript.entries = []
  | _ => True

/-- What other deliveries write stays as it is. -/
theorem Holds.other {past : List (SiteAccess Archive Scribe Transcript δ)}
    {access : SiteAccess Archive Scribe Transcript δ} {turn : Turn}
    {delivery : Option (Purpose × Delivery Transcript)}
    (holds : Holds (chronicle past) turn delivery) (different : access.turn ≠ turn) :
    Holds (chronicle (past ++ [access])) turn delivery := by
  have same := written_other past different
  cases delivery with
  | none => trivial
  | some making =>
    obtain ⟨purpose, delivery⟩ := making
    cases delivery with
    | obtaining => trivial
    | stamping | writing => exact holds
    | returning written transcript =>
      cases written with
      | failed | panicked => exact holds
      | returned value =>
        obtain ⟨event, wrote, entries⟩ := holds
        exact ⟨event, (same purpose.stage).trans wrote, entries⟩

/-- An access leaves in the transcript what it writes. -/
theorem Holds.own {past : List (SiteAccess Archive Scribe Transcript δ)}
    {access : SiteAccess Archive Scribe Transcript δ}
    (holds : Holds (chronicle past) access.turn access.phase.delivery?)
    (made : (procedure obeys).step access.job access.phase access.before =
      (access.moved, access.after)) :
    Holds (chronicle (past ++ [access])) access.turn
      (access.next?.bind fun next => next.phase.delivery?) := by
  have handles := handles_of_step made
  generalize there : (access.next?.bind fun next => next.phase.delivery?) = next at handles ⊢
  generalize here : access.phase.delivery? = delivery at handles holds
  cases handles with
  | nothing | opens | goesWithout | returns => trivial
  | obtains purpose draft transcript lent => exact Archive.lend_fresh lent
  | completes purpose draft transcript current => exact holds
  | writes purpose event transcript =>
    have fresh : transcript = {} := holds
    subst fresh
    have left := Scribe.leftIn_fresh access.before.reporter.encoder event
    have wrote : (chronicle (past ++ [access])).written ⟨access.turn, purpose.stage⟩ =
        some event := by
      rw [written_concat]
      simp [writes?, here]
    cases ended : (EventEncoder.encode event access.before.reporter.encoder
        ({} : Transcript)).outcome with
    | returned value =>
      rw [ended, if_pos rfl] at left
      exact ⟨event, wrote, left⟩
    | failed error =>
      rw [ended, if_neg (by simp)] at left
      exact left
    | panicked message =>
      rw [ended, if_neg (by simp)] at left
      exact left

/-- An access adds to the archive what it adds to the stream. -/
theorem entries_access {past : List (SiteAccess Archive Scribe Transcript δ)}
    {access : SiteAccess Archive Scribe Transcript δ}
    (untouched : ∀ order archive scribe,
      (obeys order (archive, scribe)).1.entries = archive.entries)
    (made : (procedure obeys).step access.job access.phase access.before =
      (access.moved, access.after))
    (holds : Holds (chronicle past) access.turn access.phase.delivery?)
    (kept : access.before.reporter.supply.entries = (chronicle past).stream.map .complete) :
    access.after.reporter.supply.entries =
      (chronicle (past ++ [access])).stream.map .complete := by
  rw [chronicle_concat]
  simp only [Chronicle.add, ends?]
  rcases supply_of_step made with ⟨order, quiet, obeyed⟩ | after
  · rw [obeyed, untouched, quiet]
    exact kept
  · rw [after]
    cases delivering : access.phase.delivery? with
    | none => exact kept
    | some making =>
      obtain ⟨purpose, delivery⟩ := making
      rw [delivering] at holds
      cases delivery with
      | stamping | writing => exact kept
      | obtaining draft =>
        simp only [Option.bind_some, Delivery.ships?]
        rw [Archive.entries_lend]
        cases (BufferSupply.lend access.before.reporter.supply).result with
        | error failure => exact kept
        | ok found => cases found <;> exact kept
      | returning written transcript =>
        simp only [Option.bind_some, Delivery.ships?]
        rw [Archive.entries_ship]
        cases (BufferSupply.ship transcript access.before.reporter.supply).result with
        | error failure => cases written <;> exact kept
        | ok value =>
          cases written with
          | failed | panicked =>
            have blank : transcript.entries = [] := holds
            simpa [blank] using kept
          | returned value =>
            obtain ⟨event, wrote, entries⟩ := holds
            simp [kept, entries, wrote]

/-- An archive holds the events of the stream, complete and in their order, however the calls that
write them are interleaved. -/
theorem entries_run
    (untouched : ∀ order archive scribe,
      (obeys order (archive, scribe)).1.entries = archive.entries)
    (site : Site Archive Scribe) (empty : site.reporter.supply.entries = [])
    (work : List (List (Job δ))) (schedule : List Nat) :
    ((Interleaving.fresh site work).run (procedure obeys)
      schedule).shared.reporter.supply.entries =
      (chronicle ((Interleaving.fresh site work).accesses (procedure obeys)
        schedule)).stream.map .complete := by
  have kept := Interleaving.run_induction (motive := fun traffic past =>
    (∀ engagement ∈ traffic.underway,
      Holds (chronicle past) engagement.turn engagement.phase.delivery?) ∧
      traffic.shared.reporter.supply.entries = (chronicle past).stream.map .complete)
    (procedure obeys) (Interleaving.fresh site work) ?_ ?_ ?_ schedule
  · exact kept.2
  · refine ⟨?_, empty⟩
    intro engagement member
    rw [Interleaving.underway_fresh] at member
    cases member
  · rintro traffic past number strand job jobs ⟨holds, entries⟩ found idle next
    refine ⟨?_, entries⟩
    intro engagement member
    rcases Interleaving.mem_underway_afterStart found idle member with rfl | old
    · cases job with
      | order wanted => trivial
      | atSite siteJob => cases siteJob <;> trivial
    · exact holds engagement old
  · rintro traffic past strand access ⟨holds, entries⟩ makes
    have own := holds access.engagement makes.mem_underway
    rw [← makes.before] at entries
    refine ⟨?_, entries_access untouched makes.made own entries⟩
    intro engagement member
    rcases Interleaving.mem_underway_afterAccess makes member with next | ⟨old, different⟩
    · have after := own.own makes.made
      rw [next, ← Access.turn_next next] at after
      exact after
    · exact (holds engagement old).other fun same => different (same ▸ rfl)

end OpenSite

end TraceRelay
