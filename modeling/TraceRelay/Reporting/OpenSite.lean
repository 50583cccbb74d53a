import TraceRelay.Reporting.Call

/-! A site whose supply and encoder take orders from outside while calls are going on. -/

namespace TraceRelay.OpenSite

/-- What can happen at an open site: something at the site, or an order from outside. -/
inductive Job (δ : Type) where
  | atSite (job : Site.Job)
  | order (order : δ)
deriving DecidableEq, Repr

/-- The phases of a job at an open site. -/
inductive Phase (β δ : Type) where
  | atSite (job : Site.Job) (phase : Site.Phase β)
  | ordering (order : δ)
deriving DecidableEq, Repr

/-- The first phase of a job. -/
def Job.start {β δ : Type} : Job δ → Phase β δ
  | .atSite job => .atSite job job.start
  | .order wanted => .ordering wanted

/-- The site after its supply and its encoder have obeyed an order. -/
def obey {π ε δ : Type} (obeys : δ → π × ε → π × ε) (order : δ) (site : Site π ε) : Site π ε :=
  let (supply, encoder) := obeys order (site.reporter.supply, site.reporter.encoder)
  { site with reporter := { site.reporter with supply, encoder } }

/-- Jobs at an open site. A request has an outcome, all else has none. -/
def procedure {π ε β δ : Type} [Clearable β] [BufferSupply π β] [EventEncoder ε β]
    (obeys : δ → π × ε → π × ε) :
    Procedure (Site π ε) (Job δ) (Phase β δ) (Option (Outcome DeliveryFailure Unit)) where
  start := Job.start
  step
    | _, .atSite job phase, site =>
      match Site.procedure.step job phase site with
      | (.continues phase, site) => (.continues (.atSite job phase), site)
      | (.finished result, site) => (.finished result, site)
    | _, .ordering order, site => (.finished none, obey obeys order site)

end TraceRelay.OpenSite
