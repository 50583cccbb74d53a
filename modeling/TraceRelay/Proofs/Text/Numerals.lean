import Mathlib.Data.List.Basic
import TraceRelay.Text.Decimal
import TraceRelay.Text.Reader

/-! Numbers in decimal text are read back. -/

namespace TraceRelay

/-- What is taken from the front of a list is taken in front of an item that ends it. -/
theorem span_of_stop {α : Type} {test : α → Bool} {front rest : List α}
    (inside : ∀ item ∈ front, test item = true) (stops : ∀ item ∈ rest.head?, test item = false) :
    (front ++ rest).takeWhile test = front ∧ (front ++ rest).dropWhile test = rest := by
  rw [List.takeWhile_append_of_pos inside, List.dropWhile_append_of_pos inside]
  cases rest with
  | nil => simp
  | cons item rest => simp [stops item rfl]

/-- The text does not go on with a digit. -/
def Text.Undigited (rest : List Char) : Prop := ∀ character ∈ rest.head?, character.isDigit = false

namespace Decimal

theorem toNat_digit {value : Nat} (small : value < 10) : (digit value).toNat = 48 + value := by
  decide +revert

theorem isDigit_digit {value : Nat} (small : value < 10) : (digit value).isDigit = true := by
  decide +revert

theorem digits_ne_nil (number : Nat) : digits number ≠ [] := by
  unfold digits
  split <;> simp

theorem isDigit_of_mem_digits {number : Nat} {character : Char}
    (member : character ∈ digits number) : character.isDigit = true := by
  induction number using digits.induct with
  | case1 number small =>
    rw [digits, if_pos small, List.mem_singleton] at member
    exact member ▸ isDigit_digit small
  | case2 number large ih =>
    rw [digits, if_neg large, List.mem_append, List.mem_singleton] at member
    rcases member with high | low
    · exact ih high
    · exact low ▸ isDigit_digit (Nat.mod_lt _ (by omega))

/-- The digits of a number spell its value. -/
theorem value_digits (number : Nat) : Text.Reader.value (digits number) = number := by
  induction number using digits.induct with
  | case1 number small =>
    rw [digits, if_pos small]
    simp [Text.Reader.value, toNat_digit small]
  | case2 number large ih =>
    rw [digits, if_neg large]
    unfold Text.Reader.value at ih ⊢
    rw [List.foldl_append, ih, List.foldl_cons, List.foldl_nil,
      toNat_digit (Nat.mod_lt _ (by omega))]
    omega

/-- The characters of an integer in decimal: the sign of a negative one, and its digits. -/
def numeral (number : Int) : List Char :=
  if number < 0 then '-' :: digits number.natAbs else digits number.natAbs

theorem toList_ofNat (number : Nat) : (ofNat number).toList = digits number := by
  rw [ofNat, String.toList_ofList]

theorem flatMap_pieces (number : Int) : (pieces number).flatMap String.toList = numeral number := by
  unfold pieces numeral
  split <;> simp [toList_ofNat]

theorem mem_numeral {number : Int} {character : Char} (member : character ∈ numeral number) :
    character = '-' ∨ character.isDigit = true := by
  unfold numeral at member
  split at member
  · rcases List.mem_cons.mp member with sign | inside
    · exact .inl sign
    · exact .inr (isDigit_of_mem_digits inside)
  · exact .inr (isDigit_of_mem_digits member)

end Decimal

namespace Text.Reader

/-- A natural number is read back in front of what does not go on with a digit. -/
theorem natural_digits (number : Nat) {rest : List Char} (stops : Undigited rest) :
    natural (Decimal.digits number ++ rest) = some (number, rest) := by
  have inside : ∀ character ∈ Decimal.digits number, character.isDigit = true :=
    fun _ => Decimal.isDigit_of_mem_digits
  obtain ⟨taken, left⟩ := span_of_stop inside stops
  rw [natural, taken, left]
  split
  · rename_i nothing
    exact absurd nothing (Decimal.digits_ne_nil number)
  · rw [Decimal.value_digits]

/-- An integer is read back in front of what does not go on with a digit. -/
theorem integer_numeral (number : Int) {rest : List Char} (stops : Undigited rest) :
    integer (Decimal.numeral number ++ rest) = some (number, rest) := by
  unfold Decimal.numeral
  split
  · rename_i negative
    simp only [List.cons_append, integer, natural_digits _ stops, Option.map_some]
    rw [Int.ofNat_natAbs_of_nonpos (by omega), Int.neg_neg]
  · rename_i nonnegative
    have unsigned (characters : List Char)
        (same : Decimal.digits number.natAbs ++ rest = '-' :: characters) : False := by
      cases spelt : Decimal.digits number.natAbs with
      | nil => exact Decimal.digits_ne_nil _ spelt
      | cons first digits =>
        rw [spelt] at same
        cases same
        have inside : '-' ∈ Decimal.digits number.natAbs := by simp [spelt]
        cases Decimal.isDigit_of_mem_digits inside
    simp only [integer.eq_2 _ unsigned, natural_digits _ stops, Option.map_some]
    rw [Int.natAbs_of_nonneg (by omega)]

theorem word_digits (number : UInt32) {rest : List Char} (stops : Undigited rest) :
    word (Decimal.digits number.toNat ++ rest) = some (number, rest) := by
  simp only [word, natural_digits _ stops, Option.map_some, UInt32.ofNat_toNat]

theorem signed_numeral (number : Int32) {rest : List Char} (stops : Undigited rest) :
    signed (Decimal.numeral number.toInt ++ rest) = some (number, rest) := by
  simp only [signed, integer_numeral _ stops, Option.map_some, Int32.ofInt_toInt]

end Text.Reader

end TraceRelay
