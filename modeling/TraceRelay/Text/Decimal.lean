/-! Numbers in decimal text: the fewest digits, and a minus sign before a negative number. -/

namespace TraceRelay.Decimal

/-- The character of a digit below ten. -/
def digit (value : Nat) : Char := Char.ofNat (48 + value)

/-- The digits of a number, the highest first. -/
def digits (number : Nat) : List Char :=
  if number < 10 then [digit number] else digits (number / 10) ++ [digit (number % 10)]
termination_by number

/-- A natural number in decimal. -/
def ofNat (number : Nat) : String := String.ofList (digits number)

/-- The pieces of an integer in decimal: a negative one has its sign apart from its digits. -/
def pieces (number : Int) : List String :=
  if number < 0 then ["-", ofNat number.natAbs] else [ofNat number.natAbs]

end TraceRelay.Decimal
