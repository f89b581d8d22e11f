import Mathlib.Order.CompletePartialOrder
import Mathlib.Order.Interval.Set.OrdConnectedLinear

/-!
# Regions laid out without gaps

A list of regions of a memory, each starting where the one before it ends.  Such a list
has pairwise disjoint regions (`Tiles.pairwise`), and they cover exactly what lies between
its two ends (`Tiles.mem_iff`).
-/

namespace Tiling

/-- A region: where it starts, and how many bytes it has. -/
structure Region where
  start : Int
  size : Nat
deriving DecidableEq

/-- The addresses of the bytes of a region. -/
def Region.bytes (r : Region) : Set Int := Set.Ico r.start (r.start + r.size)

/-- The regions follow each other from `a` to `b`. -/
inductive Tiles : Int → List Region → Int → Prop
  | nil (a : Int) : Tiles a [] a
  | cons {a b : Int} {r : Region} {rs : List Region} (hstart : r.start = a)
      (h : Tiles (a + r.size) rs b) : Tiles a (r :: rs) b

namespace Tiles

variable {a b c : Int} {rs ts : List Region}

theorem le (h : Tiles a rs b) : a ≤ b := by
  induction h with
  | nil a => exact le_rfl
  | @cons a b r rs _ _ ih =>
      exact (Int.le_add_of_nonneg_right (Int.natCast_nonneg r.size)).trans ih

theorem cast {a' b' : Int} (h : Tiles a rs b) (ha : a = a') (hb : b = b') : Tiles a' rs b' :=
  ha ▸ hb ▸ h

/-- One layout after another. -/
theorem append (h : Tiles a rs b) (h' : Tiles b ts c) : Tiles a (rs ++ ts) c := by
  induction h with
  | nil a => exact h'
  | cons hstart _ ih => exact .cons hstart (ih h')

/-- **The regions fill what is between the ends.** -/
theorem mem_iff (h : Tiles a rs b) (x : Int) : (∃ r ∈ rs, x ∈ r.bytes) ↔ x ∈ Set.Ico a b := by
  induction h with
  | nil a => simp
  | @cons a b r rs hstart h ih =>
      subst hstart
      have hle : r.start ≤ r.start + r.size := Int.le_add_of_nonneg_right (Int.natCast_nonneg r.size)
      simp only [List.mem_cons, exists_eq_or_imp, ih]
      rw [Region.bytes, ← Set.mem_union, Set.Ico_union_Ico_eq_Ico hle h.le]

/-- **No two of them meet.** -/
theorem pairwise (h : Tiles a rs b) : rs.Pairwise fun r r' ↦ Disjoint r.bytes r'.bytes := by
  induction h with
  | nil a => exact .nil
  | @cons a b r rs hstart h ih =>
      subst hstart
      refine .cons (fun r' hr' ↦ Set.disjoint_left.2 fun x hx hx' ↦ ?_) ih
      exact absurd hx.2 (not_lt.2 ((h.mem_iff x).1 ⟨r', hr', hx'⟩).1)

end Tiles

end Tiling
