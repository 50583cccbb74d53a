/-! Sessions with a system that answers one act after the other. -/

namespace TraceRelay

/-- A system after the acts of a session, and what it has answered. -/
structure Session (σ α ρ : Type) where
  /-- The acts with their answers, the latest last. -/
  past : List (α × ρ) := []
  state : σ
deriving Repr

namespace Session

variable {σ α ρ : Type} (perform : α → σ → ρ × σ)

/-- One more act. -/
def extend (session : Session σ α ρ) (act : α) : Session σ α ρ :=
  let (answer, state) := perform act session.state
  { past := session.past ++ [(act, answer)], state }

/-- The session in which the acts are performed one after the other. -/
def follow (state : σ) (acts : List α) : Session σ α ρ := acts.foldl (extend perform) { state }

@[simp] theorem follow_nil (state : σ) : follow perform state [] = { state } := rfl

theorem follow_append (state : σ) (acts later : List α) :
    follow perform state (acts ++ later) =
      later.foldl (extend perform) (follow perform state acts) :=
  List.foldl_append

theorem follow_concat (state : σ) (acts : List α) (act : α) :
    follow perform state (acts ++ [act]) = (follow perform state acts).extend perform act := by
  simp [follow]

/-- The session with the first ones of an endless sequence of acts. -/
def upTo (state : σ) (acts : Nat → α) (count : Nat) : Session σ α ρ :=
  follow perform state ((List.range count).map acts)

theorem upTo_succ (state : σ) (acts : Nat → α) (count : Nat) :
    upTo perform state acts (count + 1) =
      (upTo perform state acts count).extend perform (acts count) := by
  rw [upTo, List.range_succ, List.map_append, List.map_singleton, follow_concat]
  rfl

/-- What more acts lead to depends on the state only. -/
theorem state_foldl (session : Session σ α ρ) (acts : List α) :
    (acts.foldl (extend perform) session).state =
      acts.foldl (fun state act => (perform act state).2) session.state := by
  induction acts generalizing session with
  | nil => rfl
  | cons act acts ih => exact ih _

/-- More acts add their answers to those that the session has. -/
theorem past_foldl (session : Session σ α ρ) (acts : List α) :
    ∃ later, (acts.foldl (extend perform) session).past = session.past ++ later ∧
      ∀ entry ∈ later, entry.1 ∈ acts ∧ ∃ state, entry.2 = (perform entry.1 state).1 := by
  induction acts generalizing session with
  | nil => exact ⟨[], by simp⟩
  | cons act acts ih =>
    obtain ⟨later, past, answers⟩ := ih (session.extend perform act)
    refine ⟨(act, (perform act session.state).1) :: later, ?_, ?_⟩
    · rw [List.foldl_cons, past]
      simp [extend]
    · intro entry member
      rcases List.mem_cons.mp member with rfl | behind
      · exact ⟨List.mem_cons_self, session.state, rfl⟩
      · exact ⟨List.mem_cons_of_mem _ (answers entry behind).1, (answers entry behind).2⟩

/-- What holds of a session and is kept by every act holds of the session with more acts. -/
theorem foldl_induction {motive : List (α × ρ) → σ → Prop} {session : Session σ α ρ}
    (before : motive session.past session.state)
    (performed : ∀ past state act, motive past state →
      motive (past ++ [(act, (perform act state).1)]) (perform act state).2) (acts : List α) :
    motive (acts.foldl (extend perform) session).past
      (acts.foldl (extend perform) session).state := by
  induction acts generalizing session with
  | nil => exact before
  | cons act acts ih => exact ih (performed _ _ act before)

/-- What holds at first and is kept by every act holds of every session. -/
theorem follow_induction {motive : List (α × ρ) → σ → Prop} {initial : σ}
    (atFirst : motive [] initial)
    (performed : ∀ past state act, motive past state →
      motive (past ++ [(act, (perform act state).1)]) (perform act state).2) (acts : List α) :
    motive (follow perform initial acts).past (follow perform initial acts).state := by
  let first : Session σ α ρ := { state := initial }
  have before : motive first.past first.state := atFirst
  exact foldl_induction perform before performed acts

section Pasts

variable {ε β : Type}

/-- The latest entry of a past in which `pick` finds something: what it finds there, and the entries
that have come since. -/
def latest? (pick : ε → Option β) : List ε → Option (β × List ε)
  | [] => none
  | entry :: later => (latest? pick later).or ((pick entry).map fun found => (found, later))

theorem latest?_eq_none {pick : ε → Option β} {past : List ε} :
    latest? pick past = none ↔ ∀ entry ∈ past, pick entry = none := by
  induction past with
  | nil => simp [latest?]
  | cons entry later ih =>
    rw [latest?, Option.or_eq_none_iff, ih, Option.map_eq_none_iff, List.forall_mem_cons]
    exact and_comm

/-- What `latest?` finds stands in an entry behind which `pick` finds nothing. -/
theorem latest?_eq_some {pick : ε → Option β} {past since : List ε} {found : β} :
    latest? pick past = some (found, since) ↔
      ∃ earlier entry, past = earlier ++ entry :: since ∧ pick entry = some found ∧
        ∀ later ∈ since, pick later = none := by
  constructor
  · intro latest
    induction past with
    | nil => cases latest
    | cons entry later ih =>
      rcases Option.or_eq_some_iff.mp latest with behind | ⟨silent, here⟩
      · obtain ⟨earlier, picked, rfl, last⟩ := ih behind
        exact ⟨entry :: earlier, picked, rfl, last⟩
      · obtain ⟨value, picks, same⟩ := Option.map_eq_some_iff.mp here
        cases same
        exact ⟨[], entry, rfl, picks, latest?_eq_none.mp silent⟩
  · rintro ⟨earlier, entry, rfl, picks, silent⟩
    induction earlier with
    | nil => simp [latest?, latest?_eq_none.mpr silent, picks]
    | cons first earlier ih =>
      rw [List.cons_append, latest?, ih]
      rfl

theorem latest?_concat_some {pick : ε → Option β} (past : List ε) {entry : ε} {found : β}
    (picks : pick entry = some found) : latest? pick (past ++ [entry]) = some (found, []) :=
  latest?_eq_some.mpr ⟨past, entry, rfl, picks, fun _ none_later => nomatch none_later⟩

theorem latest?_concat_none {pick : ε → Option β} (past : List ε) {entry : ε}
    (silent : pick entry = none) :
    latest? pick (past ++ [entry]) =
      (latest? pick past).map fun (found, since) => (found, since ++ [entry]) := by
  induction past with
  | nil => simp [latest?, silent]
  | cons first past ih =>
    rw [List.cons_append, latest?, latest?, ih]
    cases latest? pick past with
    | none => cases pick first <;> rfl
    | some found => rfl

/-- The entries that come after `earlier`, each with all that came before it. -/
def momentsAfter (earlier : List ε) : List ε → List (List ε × ε)
  | [] => []
  | entry :: later => (earlier, entry) :: momentsAfter (earlier ++ [entry]) later

/-- Every entry of a past with what came before it. -/
def moments (past : List ε) : List (List ε × ε) := momentsAfter [] past

theorem momentsAfter_concat (earlier past : List ε) (entry : ε) :
    momentsAfter earlier (past ++ [entry]) =
      momentsAfter earlier past ++ [(earlier ++ past, entry)] := by
  induction past generalizing earlier with
  | nil => simp [momentsAfter]
  | cons first past ih => simp [momentsAfter, ih]

theorem moments_concat (past : List ε) (entry : ε) :
    moments (past ++ [entry]) = moments past ++ [(past, entry)] :=
  momentsAfter_concat [] past entry

end Pasts

end Session

end TraceRelay
