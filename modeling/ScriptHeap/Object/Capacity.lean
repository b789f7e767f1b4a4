/-!
The capacity policy of slot arrays. Small arrays grow to the next multiple of eight slots, large
ones by at least a quarter of their size. Sizes are 64-bit words, and one that does not fit is
refused.
-/

namespace ScriptHeap

/-- The first number that a 64-bit word cannot hold. -/
def wordLimit : Nat := 18446744073709551616

/-- A size, as long as it fits into a 64-bit word. -/
def word? (n : Nat) : Option Nat := if n < wordLimit then some n else none

namespace Capacity

/-- Capacities are multiples of this many slots. -/
def unit : Nat := 8

/-- Above this capacity an array grows by a quarter of its size at a time. -/
def large : Nat := 256

def slotBytes : Nat := 8

/-- The largest number of bytes that one array may take. -/
def arrayLimit : Nat := 9223372036854775807

/-- The least multiple of `step` that is at least `n`. -/
def ceilTo (step n : Nat) : Nat := (n + (step - 1)) / step * step

/-- The capacity of a fresh array of `n` slots. -/
def roundUp (n : Nat) : Nat := ceilTo unit n

/-- The next capacity that holds `count` slots, if it is a 64-bit word. -/
def next? (capacity count : Nat) : Option Nat :=
  if large < capacity then
    (word? (ceilTo (max (capacity / 4) unit) count)).bind fun n => word? (roundUp n)
  else word? (roundUp count)

/-- The bytes that growing to `count` slots adds, if they are a 64-bit word. -/
def growthBytes? (capacity count : Nat) : Option Nat :=
  if count ≤ capacity then some 0
  else (next? capacity count).bind fun n => word? ((n - capacity) * slotBytes)

/-- The next capacity, unless the array would be too large to exist. -/
def reserve? (capacity count : Nat) : Option Nat :=
  (next? capacity count).filter fun n => n * slotBytes ≤ arrayLimit

theorem le_ceilTo {step : Nat} (h : 0 < step) (n : Nat) : n ≤ ceilTo step n := by
  have h1 := Nat.div_add_mod (n + (step - 1)) step
  have h2 := Nat.mod_lt (n + (step - 1)) h
  have h3 : step * ((n + (step - 1)) / step) = ceilTo step n := Nat.mul_comm _ _
  omega

theorem ceilTo_lt {step : Nat} (h : 0 < step) (n : Nat) : ceilTo step n < n + step := by
  have h1 := Nat.div_add_mod (n + (step - 1)) step
  have h3 : step * ((n + (step - 1)) / step) = ceilTo step n := Nat.mul_comm _ _
  omega

theorem dvd_ceilTo (step n : Nat) : step ∣ ceilTo step n := Nat.dvd_mul_left _ _

end Capacity

end ScriptHeap
