/-!
# Powers and sums of natural numbers
-/

namespace UiDoc

/-- The power of two with an exponent. -/
def twoTo (exponent : Nat) : Nat :=
  Nat.pow 2 exponent

/-- The power of ten with an exponent. -/
def tenTo (exponent : Nat) : Nat :=
  Nat.pow 10 exponent

/-- The sum of numbers. -/
def total (numbers : List Nat) : Nat :=
  numbers.foldl (fun sum n => sum + n) 0

end UiDoc
