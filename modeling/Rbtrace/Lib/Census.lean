import Mathlib.Algebra.BigOperators.Group.Finset.Piecewise
import Mathlib.Algebra.Order.BigOperators.Group.Finset
import Mathlib.Data.Fintype.Card

/-!
# How many threads are where

A pool says for each of finitely many threads at which point it is.  `census` counts the
threads at points of some kind, and `load` adds up what is left to do for each.  A step moves
one thread, so it changes both by what the old and the new point of that thread contribute
(`census_update`, `load_update`).
-/

namespace Census

variable {τ π : Type*} [Fintype τ] [DecidableEq τ] {p : π → Prop} [DecidablePred p]

/-- The number of threads at points of a kind. -/
def census (p : π → Prop) [DecidablePred p] (pool : τ → π) : ℕ :=
  (Finset.univ.filter fun t ↦ p (pool t)).card

/-- What is left to do for all threads. -/
def load (weight : π → ℕ) (pool : τ → π) : ℕ := ∑ t, weight (pool t)

theorem load_update (weight : π → ℕ) (pool : τ → π) (t : τ) (x : π) :
    load weight (Function.update pool t x) + weight (pool t) = load weight pool + weight x := by
  have hold := Finset.add_sum_erase Finset.univ (fun u ↦ weight (pool u)) (Finset.mem_univ t)
  have hnew := Finset.add_sum_erase Finset.univ (fun u ↦ weight (Function.update pool t x u))
    (Finset.mem_univ t)
  have hrest : ∑ u ∈ Finset.univ.erase t, weight (Function.update pool t x u) =
      ∑ u ∈ Finset.univ.erase t, weight (pool u) := by
    refine Finset.sum_congr rfl fun u hu ↦ ?_
    rw [Function.update_of_ne (Finset.ne_of_mem_erase hu)]
  rw [hrest, Function.update_self] at hnew
  unfold load
  omega

omit [DecidableEq τ] in
theorem census_eq_load (pool : τ → π) :
    census p pool = load (fun x ↦ if p x then 1 else 0) pool := by
  rw [census, load, Finset.card_filter]

theorem census_update (pool : τ → π) (t : τ) (x : π) :
    census p (Function.update pool t x) + (if p (pool t) then 1 else 0) =
      census p pool + if p x then 1 else 0 := by
  rw [census_eq_load, census_eq_load]
  exact load_update _ pool t x

omit [DecidableEq τ] in
theorem census_le_card (pool : τ → π) : census p pool ≤ Fintype.card τ :=
  Finset.card_le_univ _

omit [DecidableEq τ] in
theorem census_eq_card_iff {pool : τ → π} :
    census p pool = Fintype.card τ ↔ ∀ t, p (pool t) := by
  rw [census, Finset.card_eq_iff_eq_univ, Finset.filter_eq_self]
  exact forall_congr' fun t ↦ ⟨fun h ↦ h (Finset.mem_univ t), fun h _ ↦ h⟩

omit [DecidableEq τ] in
theorem census_eq_zero_iff {pool : τ → π} : census p pool = 0 ↔ ∀ t, ¬ p (pool t) := by
  rw [census, Finset.card_eq_zero, Finset.filter_eq_empty_iff]
  exact forall_congr' fun t ↦ ⟨fun h ↦ h (Finset.mem_univ t), fun h _ ↦ h⟩

omit [DecidableEq τ] in
/-- Less is left to do if no thread has more to do, and one has less. -/
theorem load_lt_load {weight : π → ℕ} {pool pool' : τ → π}
    (h : ∀ t, weight (pool' t) ≤ weight (pool t)) {t : τ} (ht : weight (pool' t) < weight (pool t)) :
    load weight pool' < load weight pool :=
  Finset.sum_lt_sum (fun u _ ↦ h u) ⟨t, Finset.mem_univ t, ht⟩

end Census
