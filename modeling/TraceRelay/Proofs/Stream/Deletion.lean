import TraceRelay.Proofs.Stream.Fulfilment
import TraceRelay.Proofs.Stream.Reading
import TraceRelay.Recording.Directive

/-! A refused buffer deletes its event from the stream and changes nothing else. -/

namespace TraceRelay

namespace OpenSite

/-- What decides how a sequence of calls is carried out: the supply and the encoder with the orders
that they obey, the quiet jobs beside the calls, and the schedule. -/
structure Rendition (π ε δ : Type) where
  supply : π
  encoder : ε
  obeys : δ → π × ε → π × ε
  others : List (List (Job δ))
  schedule : List Nat

namespace Rendition

variable {π ε β δ : Type} [Clearable β] [BufferSupply π β] [EventEncoder ε β]

/-- The calls are made on the first strand of a site with a new reporter. -/
def initial (rendition : Rendition π ε δ) (names : NameSource) (host : Host)
    (jobs : List (Job δ)) : Traffic π ε β δ :=
  .fresh (Site.create rendition.supply rendition.encoder names host) (jobs :: rendition.others)

/-- What the accesses of the calls and of the quiet jobs are. -/
def accesses (rendition : Rendition π ε δ) (names : NameSource) (host : Host)
    (jobs : List (Job δ)) : List (SiteAccess π ε β δ) :=
  (rendition.initial names host jobs).accesses (procedure rendition.obeys) rendition.schedule

/-- What the calls and the quiet jobs lead to. -/
def final (rendition : Rendition π ε δ) (names : NameSource) (host : Host)
    (jobs : List (Job δ)) : Traffic π ε β δ :=
  (rendition.initial names host jobs).run (procedure rendition.obeys) rendition.schedule

/-- The other strands are quiet, the first one has turns enough, no delivery meets an error or a
panic, and the clock shows at each place where it is read what it has to show there. -/
structure Regular (clock : Turn → Option Stage → Nat) (names : NameSource) (host : Host)
    (jobs : List (Job δ)) (rendition : Rendition π ε δ) : Prop where
  quiet : ∀ list ∈ rendition.others, ∀ job ∈ list, job.isQuiet = true
  enough : 31 * jobs.length ≤ rendition.schedule.count 0
  smooth : ∀ access ∈ rendition.accesses names host jobs, Smooth access
  steady : ∀ access ∈ rendition.accesses names host jobs, ∀ place ∈ readsClock? access,
    access.before.host.clock = clock place.1 place.2

variable {clock : Turn → Option Stage → Nat} {names : NameSource} {host : Host}
  {jobs : List (Job δ)} {rendition : Rendition π ε δ}

theorem Regular.undisturbed (regular : rendition.Regular clock names host jobs) :
    Undisturbed clock (rendition.accesses names host jobs) :=
  undisturbed_run rendition.obeys _ jobs regular.quiet rendition.schedule regular.smooth
    regular.steady

/-- The calls of a regular rendition end, and leave nothing in hand. -/
theorem Regular.exists_done (regular : rendition.Regular clock names host jobs) :
    ∃ strand, (rendition.final names host jobs).strands[0]? = some strand ∧
      strand.jobs = [] ∧ strand.going = none ∧ strand.results.map Prod.fst = jobs :=
  OpenSite.exists_done rendition.obeys _ _ rfl rendition.schedule regular.enough

/-- In the end the outline of a regular rendition is complete, and all deliveries that have got a
buffer have shipped their events. -/
theorem Regular.complete (regular : rendition.Regular clock names host jobs) :
    ∃ strand steps, (rendition.final names host jobs).strands[0]? = some strand ∧
      strand.jobs = [] ∧ strand.going = none ∧ strand.results.map Prod.fst = jobs ∧
      outline strand (rendition.final names host jobs).shared
          (rendition.accesses names host jobs) =
        (Outline.advance fun turn => clock turn none)^[steps]
          { strand := { jobs }
            site := (Site.create rendition.supply rendition.encoder names host).outline 0 } ∧
      delivered (rendition.accesses names host jobs) =
        (completeAll (timeAt clock host.clock) {}
          ((drafts (rendition.accesses names host jobs)).filter fun entry =>
            decide (entry.1 ∈ obtained (rendition.accesses names host jobs)))).1 := by
  obtain ⟨strand, found, finished, idle, complete⟩ := regular.exists_done
  obtain ⟨own, foundOwn, steps, same⟩ := outline_run rendition.obeys
    (Site.create rendition.supply rendition.encoder names host) jobs rendition.others
    rendition.schedule clock regular.undisturbed
  cases found.symm.trans foundOwn
  obtain ⟨own, foundOwn, -, fulfilled⟩ := fulfilled_run rendition.obeys
    (Site.create rendition.supply rendition.encoder names host) jobs rendition.others
    rendition.schedule regular.undisturbed
  cases found.symm.trans foundOwn
  refine ⟨strand, steps, found, finished, idle, complete, same, ?_⟩
  have once : (asked (rendition.accesses names host jobs)).Nodup := asked_nodup _ _ _
  rw [← granted_eq_filter once]
  rw [idle] at fulfilled
  have shipped := congrArg Prod.fst fulfilled
  exact (shipped.trans (List.append_nil _)).symm

end Rendition

end OpenSite

end TraceRelay
