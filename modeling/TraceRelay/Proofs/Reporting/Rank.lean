import TraceRelay.Reporting.Call

/-! Every access brings a call nearer to its end, whatever the shared state is. -/

namespace TraceRelay

/-- An upper bound for the accesses that a delivery still makes after the next one. -/
def Delivery.rank {β : Type} : Delivery β → Nat
  | .returning _ _ => 0
  | .writing _ _ => 1
  | .stamping _ _ => 2
  | .obtaining _ => 3

/-- The phases of a lookup from the last one up, with room for a delivery before `conclude`. -/
def Resolution.rank : Resolution → Nat
  | .conclude _ => 0
  | .reuse _ => 0
  | .replace _ => 5
  | .draw => 6
  | .claim => 7
  | .lookup => 8

/-- The phases of a lookup from the last one up, with room for a delivery before `settle`. -/
def Identification.rank : Identification → Nat
  | .settle _ => 0
  | .consult _ => 5
  | .readName => 6

namespace Call

variable {π ε β : Type}

/-- The rank of a call falls with every access: the call's own event comes last, before it the
lookup of the exception, then that of the method, and that of the thread comes first. -/
def rank : Call β → Nat
  | .delivering .answer delivery => delivery.rank
  | .resolvingException _ _ _ _ _ phase => 4 + phase.rank
  | .delivering (.announceException _ _ _ _ _ _) delivery => 5 + delivery.rank
  | .resolvingMethod _ _ _ phase => 13 + phase.rank
  | .delivering (.announceMethod _ _ _ _) delivery => 14 + delivery.rank
  | .identifying _ _ phase => 22 + phase.rank
  | .delivering (.announceThread _ _ _) delivery => 23 + delivery.rank
  | .entering _ => 29

variable [Clearable β] [BufferSupply π β] [EventEncoder ε β]

theorem rank_step_delivery {now : Nat} {delivery next : Delivery β}
    {reporter : Reporter π ε}
    (moved : (delivery.step now reporter).result = .continues next) :
    next.rank < delivery.rank := by
  cases delivery with
  | obtaining draft =>
    simp only [Delivery.step] at moved
    split at moved <;> cases moved
    exact Nat.lt_succ_self 2
  | stamping draft buffer => cases moved; exact Nat.lt_succ_self 1
  | writing event buffer => cases moved; exact Nat.lt_succ_self 0
  | returning written buffer => cases moved

theorem rank_step_resolution {κ : Type} [DecidableEq κ] {key : κ} {phase : Resolution}
    {table : IdTable κ} :
    (∀ next, (phase.step key table).1 = .continues next → next.rank < phase.rank) ∧
      ∀ id, (phase.step key table).1 = .announces id → 4 < phase.rank := by
  cases phase <;> grind [Resolution.step, Resolution.rank]

theorem rank_step_identification {thread : Thread} {phase : Identification}
    {tracked : TrackedHost} :
    (∀ next, (phase.step thread tracked).1 = .continues next → next.rank < phase.rank) ∧
      ∀ announcement,
        (phase.step thread tracked).1 = .announces announcement → 4 < phase.rank := by
  cases phase <;> grind [Identification.step, Identification.rank]

theorem rank_step_lt {thread : Thread} {call next : Call β} {site : Site π ε}
    (moved : (call.step thread site).result = .continues next) : next.rank < call.rank := by
  cases call with
  | entering request =>
    cases moved
    cases request <;> simp [enter, answering, rank, Delivery.rank, Identification.rank]
  | identifying activity entered phase =>
    simp only [step] at moved
    split at moved <;> rename_i found <;> cases moved
    · have falls := rank_step_identification.1 _ found
      simp only [rank]
      omega
    · have room := rank_step_identification.2 _ found
      simp only [rank, Delivery.rank]
      omega
    · simp only [withThread, rank, Resolution.rank]
      omega
  | resolvingMethod activity entered thread phase =>
    simp only [step] at moved
    split at moved <;> rename_i found <;> cases moved
    · have falls := rank_step_resolution.1 _ found
      simp only [rank]
      omega
    · have room := rank_step_resolution.2 _ found
      simp only [rank, Delivery.rank]
      omega
    · cases activity <;>
        simp only [withMethod, answering, rank, Delivery.rank, Resolution.rank] <;> omega
  | resolvingException activity entered thread method raised phase =>
    simp only [step] at moved
    split at moved <;> rename_i found <;> cases moved
    · have falls := rank_step_resolution.1 _ found
      simp only [rank]
      omega
    · have room := rank_step_resolution.2 _ found
      simp only [rank, Delivery.rank]
      omega
    · simp only [withIds, answering, rank, Delivery.rank]
      omega
  | delivering purpose delivery =>
    simp only [step] at moved
    split at moved
    · rename_i next delivered
      have falls := rank_step_delivery delivered
      cases moved
      cases purpose <;> simp only [rank] <;> omega
    · cases purpose <;> cases moved <;>
        simp only [rank, Identification.rank, Resolution.rank] <;> omega
    · cases moved

end Call

end TraceRelay
