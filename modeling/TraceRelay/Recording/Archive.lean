import TraceRelay.Recording.Transcript

/-! A supply of transcripts that keeps every one it gets back. -/

namespace TraceRelay

/-- The archive lends fresh transcripts and keeps those that come back. -/
structure Archive where
  /-- The transcripts that were delivered, the latest first. -/
  shipped : List Transcript := []
  /-- The number of requests for a transcript that the archive still turns down. It is set to a
  32-bit number and only falls after that, so it needs no wrapping. -/
  refusals : Nat := 0
  /-- The number of transcripts lent and not given back yet. It wraps below zero. -/
  lent : UInt64 := 0
  /-- Requests for a transcript fail. -/
  failsToLend : Bool := false
  /-- Transcripts that come back are swallowed. -/
  failsToShip : Bool := false
deriving DecidableEq, Repr, Inhabited

namespace Archive

/-- The transcripts that were delivered, the oldest first. -/
def delivered (archive : Archive) : List Transcript := archive.shipped.reverse

/-- The entries of all delivered transcripts, the oldest first. -/
def entries (archive : Archive) : List TranscriptEntry := archive.delivered.flatMap (·.entries)

/-- The number of delivered transcripts without any entry. -/
def blanks (archive : Archive) : Nat :=
  (archive.delivered.filter fun transcript => transcript.entries.isEmpty).length

/-- The archive is told to turn down the next `count` requests for a transcript. -/
def turnDown (count : Nat) (archive : Archive) : Archive := { archive with refusals := count }

/-- The archive is told whether to fail requests for a transcript. -/
def setLending (fails : Bool) (archive : Archive) : Archive :=
  { archive with failsToLend := fails }

/-- The archive is told whether to swallow the transcripts that come back. -/
def setShipping (fails : Bool) (archive : Archive) : Archive :=
  { archive with failsToShip := fails }

/-- The archive fails if it was told to. Otherwise it uses up a refusal, if there is one, or lends a
fresh transcript. -/
def lend (archive : Archive) :
    Transition Archive (Except TransportFailure (Option Transcript)) :=
  if archive.failsToLend then { result := .error (.obtain "injected failure"), state := archive }
  else
    match archive.refusals with
    | refusals + 1 => { result := .ok none, state := { archive with refusals } }
    | 0 => { result := .ok (some {}), state := { archive with lent := archive.lent + 1 } }

/-- The archive delivers the transcript, or swallows it and fails if it was told to. -/
def ship (transcript : Transcript) (archive : Archive) :
    Transition Archive (Except TransportFailure Unit) :=
  let counted := { archive with lent := archive.lent - 1 }
  if archive.failsToShip then { result := .error .disconnected, state := counted }
  else
    { result := .ok (), state := { counted with shipped := transcript :: archive.shipped } }

/-- What holds of each way in which a request can end holds of every request. -/
theorem lend_cases {archive : Archive}
    {motive : Transition Archive (Except TransportFailure (Option Transcript)) → Prop}
    (fails : archive.failsToLend = true →
      motive { result := .error (.obtain "injected failure"), state := archive })
    (refuses : ∀ refusals, archive.failsToLend = false → archive.refusals = refusals + 1 →
      motive { result := .ok none, state := { archive with refusals } })
    (lends : archive.failsToLend = false → archive.refusals = 0 →
      motive { result := .ok (some {}), state := { archive with lent := archive.lent + 1 } }) :
    motive archive.lend := by
  unfold lend
  split
  · exact fails ‹_›
  · rename_i working
    split
    · exact refuses _ (Bool.eq_false_iff.mpr working) ‹_›
    · exact lends (Bool.eq_false_iff.mpr working) ‹_›

/-- What holds of each way in which an archive can take a transcript holds of all of them. -/
theorem ship_cases {transcript : Transcript} {archive : Archive}
    {motive : Transition Archive (Except TransportFailure Unit) → Prop}
    (swallows : archive.failsToShip = true →
      motive { result := .error .disconnected, state := { archive with lent := archive.lent - 1 } })
    (delivers : archive.failsToShip = false →
      motive
        { result := .ok ()
          state := { archive with
            lent := archive.lent - 1, shipped := transcript :: archive.shipped } }) :
    motive (archive.ship transcript) := by
  unfold ship
  dsimp only
  split
  · exact swallows ‹_›
  · exact delivers (Bool.eq_false_iff.mpr ‹_›)

end Archive

instance : BufferSupply Archive Transcript where
  lend := Archive.lend
  ship := Archive.ship

namespace Archive

/-- An archive lends fresh transcripts only. -/
theorem lend_fresh {archive : Archive} {transcript : Transcript}
    (lent : (BufferSupply.lend archive).result = .ok (some transcript)) : transcript = {} := by
  revert lent
  refine lend_cases
    (motive := fun request => request.result = .ok (some transcript) → transcript = {})
    (fun _ failed => ?_) (fun _ _ _ refused => ?_) fun _ _ lent => ?_
  · cases failed
  · cases refused
  · cases lent
    rfl

/-- An archive counts the transcripts that it lends. -/
theorem lent_lend (archive : Archive) : (BufferSupply.lend archive).state.lent =
    match (BufferSupply.lend archive).result with
    | .ok (some _) => archive.lent + 1
    | _ => archive.lent :=
  lend_cases
    (motive := fun request => request.state.lent =
      match request.result with
      | .ok (some _) => archive.lent + 1
      | _ => archive.lent)
    (fun _ => rfl) (fun _ _ _ => rfl) fun _ _ => rfl

/-- An archive counts each transcript that comes back, even if it fails to deliver it. -/
theorem lent_ship (transcript : Transcript) (archive : Archive) :
    (BufferSupply.ship transcript archive).state.lent + 1 = archive.lent :=
  ship_cases (motive := fun shipment => shipment.state.lent + 1 = archive.lent)
    (fun _ => UInt64.sub_add_cancel ..) fun _ => UInt64.sub_add_cancel ..

theorem delivered_lend (archive : Archive) :
    (BufferSupply.lend archive).state.delivered = archive.delivered :=
  lend_cases (motive := fun request => request.state.delivered = archive.delivered)
    (fun _ => rfl) (fun _ _ _ => rfl) fun _ _ => rfl

/-- An archive adds a transcript to those that it has delivered just if it does not fail. -/
theorem delivered_ship (transcript : Transcript) (archive : Archive) :
    (BufferSupply.ship transcript archive).state.delivered =
      match (BufferSupply.ship transcript archive).result with
      | .ok () => archive.delivered ++ [transcript]
      | .error _ => archive.delivered :=
  ship_cases
    (motive := fun shipment => shipment.state.delivered =
      match shipment.result with
      | .ok () => archive.delivered ++ [transcript]
      | .error _ => archive.delivered)
    (fun _ => rfl) fun _ => by simp [delivered]

theorem entries_lend (archive : Archive) :
    (BufferSupply.lend archive).state.entries = archive.entries := by
  rw [entries, delivered_lend, entries]

theorem entries_ship (transcript : Transcript) (archive : Archive) :
    (BufferSupply.ship transcript archive).state.entries =
      match (BufferSupply.ship transcript archive).result with
      | .ok () => archive.entries ++ transcript.entries
      | .error _ => archive.entries := by
  rw [entries, delivered_ship]
  cases (BufferSupply.ship transcript archive).result <;> simp [entries]

end Archive

end TraceRelay
