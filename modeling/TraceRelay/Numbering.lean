/-! The counter that fixes the order position of each sequenced event. -/

namespace TraceRelay

/-- The counter holds the number that is handed out next. It wraps after the largest one. -/
structure Numbering where
  upcoming : UInt32 := 0
deriving DecidableEq, Repr, Inhabited

namespace Numbering

/-- One draw hands out the current number and moves the counter on by one. -/
def draw (numbering : Numbering) : UInt32 × Numbering :=
  (numbering.upcoming, ⟨numbering.upcoming + 1⟩)

/-- So many draws, one after the other: the last number, if there is one, and what the counter is
left at. -/
def drawMany : Nat → Numbering → Option UInt32 × Numbering
  | 0, numbering => (none, numbering)
  | count + 1, numbering =>
    let (number, later) := draw ⟨numbering.upcoming + UInt32.ofNat count⟩
    (some number, later)

@[simp] theorem upcoming_draw (numbering : Numbering) :
    numbering.draw.2.upcoming = numbering.upcoming + 1 := rfl

@[simp] theorem draw_fst (numbering : Numbering) : numbering.draw.1 = numbering.upcoming := rfl

theorem upcoming_drawMany (count : Nat) (numbering : Numbering) :
    (numbering.drawMany count).2.upcoming = numbering.upcoming + UInt32.ofNat count := by
  cases count with
  | zero => exact (UInt32.add_zero _).symm
  | succ count =>
    rw [UInt32.ofNat_add, ← UInt32.add_assoc]
    rfl

/-- The last of many draws is one draw after the others. -/
theorem drawMany_succ (count : Nat) (numbering : Numbering) :
    numbering.drawMany (count + 1) =
      let (number, later) := (numbering.drawMany count).2.draw
      (some number, later) := by
  have before : (numbering.drawMany count).2 = ⟨numbering.upcoming + UInt32.ofNat count⟩ :=
    congrArg Numbering.mk (upcoming_drawMany count numbering)
  rw [before]
  rfl

/-- After as many draws as there are numbers the counter is back where it was. -/
theorem drawMany_wraps (numbering : Numbering) :
    (numbering.drawMany UInt32.size).2 = numbering := by
  have upcoming := upcoming_drawMany UInt32.size numbering
  have zero : UInt32.ofNat UInt32.size = 0 := rfl
  rw [zero, UInt32.add_zero] at upcoming
  exact congrArg Numbering.mk upcoming

end Numbering

end TraceRelay
