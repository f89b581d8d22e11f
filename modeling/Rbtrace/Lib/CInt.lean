import Mathlib.Algebra.Group.Int.Defs
import Mathlib.Algebra.Group.Nat.Defs

/-!
# The 32-bit integers of C

`int` and `uint32_t` values are represented by the integers they denote, and the
two conversions are written out where the program makes them: `i32` reads an
integer as an `int` (two's complement, as every `__sync` builtin wraps), `u32`
reads it as a `uint32_t`.
-/

namespace CInt

/-- The `int` with the same low 32 bits. -/
def i32 (x : Int) : Int := (x + 2 ^ 31) % 2 ^ 32 - 2 ^ 31

/-- The `uint32_t` with the same low 32 bits. -/
def u32 (x : Int) : Nat := (x % 2 ^ 32).toNat

/-- A number in the range of `int` is its own conversion. -/
theorem i32_of_range {x : Int} (h : -2 ^ 31 ≤ x) (h' : x < 2 ^ 31) : i32 x = x := by
  unfold i32
  omega

theorem i32_lt (x : Int) : i32 x < 2 ^ 31 := by
  unfold i32
  omega

theorem le_i32 (x : Int) : -2 ^ 31 ≤ i32 x := by
  unfold i32
  omega

@[simp] theorem i32_i32 (x : Int) : i32 (i32 x) = i32 x := i32_of_range (le_i32 x) (i32_lt x)

/-- A counter that is raised to one was at zero. -/
theorem i32_add_one_eq_one {x : Int} (h : i32 (x + 1) = 1) : i32 x = 0 := by
  unfold i32 at *
  omega

/-- A number in the range of `uint32_t` is its own conversion. -/
theorem u32_of_range {x : Int} (h : 0 ≤ x) (h' : x < 2 ^ 32) : (u32 x : Int) = x := by
  unfold u32
  omega

/-- Converting to `int` first does not change the conversion to `uint32_t`. -/
@[simp] theorem u32_i32 (x : Int) : u32 (i32 x) = u32 x := by
  unfold u32 i32
  omega

/-- The `uint32_t` after an increment: the next number, or `0` after the largest. -/
theorem u32_add_one (x : Int) :
    u32 (x + 1) = if u32 x = 2 ^ 32 - 1 then 0 else u32 x + 1 := by
  unfold u32
  split <;> omega

end CInt
