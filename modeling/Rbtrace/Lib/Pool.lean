import Mathlib.Data.Sum.Basic
import Mathlib.Logic.Function.Basic
import Rbtrace.Lib.Machine

/-!
# Threads over a shared state

A `Thread` is a program cut into steps over a shared state `σ`.  The label `ι` of a step
carries what the thread does not decide itself; after a step the thread is at another
point `π`, or has returned a result `ρ`.

A *pool* holds the points of any number of threads, `none` for those that are not in
flight, and `Thread.advance` lets one of them take a step.  What a thread does on its own
(`Thread.Solo`) it does in a pool too, if the others let it (`Thread.Solo.exists_advances`),
and so does a machine that takes the steps of the pool (`Thread.run_of_advances`).
-/

universe u v w

/-- A program cut into steps. -/
structure Thread (σ : Type u) (ι : Type v) (π ρ : Type w) where
  /-- The shared state after a step, and the next point or the result. -/
  step : ι → σ → π → σ × (π ⊕ ρ)

namespace Thread

variable {σ : Type u} {ι : Type v} {π ρ : Type w} (T : Thread σ ι π ρ)

/-! ## On its own -/

/-- What a thread on its own gets to, from a state in which it is in flight or has
returned. -/
inductive Solo : σ × (π ⊕ ρ) → σ × (π ⊕ ρ) → Prop
  | refl (x) : Solo x x
  | step {s p y} (i : ι) (h : Solo (T.step i s p) y) : Solo (s, .inl p) y

variable {T}

theorem Solo.trans {x y z : σ × (π ⊕ ρ)} (h : T.Solo x y) (h' : T.Solo y z) : T.Solo x z := by
  induction h with
  | refl => exact h'
  | step i _ ih => exact .step i (ih h')

/-- A thread that nothing else decides for returns what it was going to return. -/
theorem Solo.of_returned [Subsingleton ι] {x y : σ × (π ⊕ ρ)} {s : σ} {r : ρ} (h : T.Solo x y)
    (hr : T.Solo x (s, .inr r)) : T.Solo y (s, .inr r) := by
  induction h with
  | refl => exact hr
  | step i _ ih =>
      cases hr with
      | step j hr =>
          obtain rfl : i = j := Subsingleton.elim i j
          exact ih hr

/-- After it has returned it does nothing. -/
theorem Solo.eq_of_returned {s : σ} {r : ρ} {y : σ × (π ⊕ ρ)} (h : T.Solo (s, .inr r) y) :
    y = (s, .inr r) := by
  cases h
  rfl

/-! ## In a pool -/

variable {τ : Type*} [DecidableEq τ]

variable (T) in
/-- One thread of the pool takes a step; `none` if it is not in flight. -/
def advance (i : ι) (x : τ) (s : σ) (pool : τ → Option π) : Option (σ × (τ → Option π)) :=
  (pool x).map fun p ↦ ((T.step i s p).1, Function.update pool x (T.step i s p).2.getLeft?)

variable (T) in
/-- One thread of the pool takes several steps. -/
def advances (x : τ) : List ι → σ → (τ → Option π) → Option (σ × (τ → Option π))
  | [], s, pool => some (s, pool)
  | i :: is, s, pool => (T.advance i x s pool).bind fun r ↦ advances x is r.1 r.2

theorem advance_eq_some {i : ι} {x : τ} {s : σ} {pool : τ → Option π}
    {r : σ × (τ → Option π)} :
    T.advance i x s pool = some r ↔ ∃ p, pool x = some p ∧
      r = ((T.step i s p).1, Function.update pool x (T.step i s p).2.getLeft?) := by
  rw [advance, Option.map_eq_some_iff]
  constructor
  · rintro ⟨p, hp, rfl⟩
    exact ⟨p, hp, rfl⟩
  · rintro ⟨p, hp, rfl⟩
    exact ⟨p, hp, rfl⟩

/-- **What a thread does on its own it can do in a pool.** -/
theorem Solo.exists_advances {s : σ} {q : π ⊕ ρ} {y : σ × (π ⊕ ρ)} (h : T.Solo (s, q) y)
    {x : τ} {pool : τ → Option π} (hx : pool x = q.getLeft?) :
    ∃ is, T.advances x is s pool = some (y.1, Function.update pool x y.2.getLeft?) := by
  generalize hz : (s, q) = z at h
  induction h generalizing s q pool with
  | refl =>
      subst hz
      exact ⟨[], by rw [advances, ← hx, Function.update_eq_self]⟩
  | @step s' p y i _ ih =>
      obtain ⟨rfl, rfl⟩ := Prod.mk.inj hz
      have hadv : T.advance i x s pool =
          some ((T.step i s p).1, Function.update pool x (T.step i s p).2.getLeft?) :=
        advance_eq_some.2 ⟨p, hx, rfl⟩
      obtain ⟨is, his⟩ := ih (Function.update_self x _ pool) rfl
      refine ⟨i :: is, ?_⟩
      rw [advances, hadv, Option.bind_some, his, Function.update_idem]

/-- **Steps of a thread of the pool are steps of the machine** around it. -/
theorem run_of_advances {Ω Λ : Type*} (M : Machine Ω Λ) (state : σ → (τ → Option π) → Ω)
    (label : ι → Λ) {x : τ}
    (hstep : ∀ {s pool i r}, T.advance i x s pool = some r →
      M.step (state s pool) (label i) = some (state r.1 r.2))
    {is : List ι} {s : σ} {pool : τ → Option π} {r : σ × (τ → Option π)}
    (h : T.advances x is s pool = some r) :
    M.run (state s pool) (is.map label) = some (state r.1 r.2) := by
  induction is generalizing s pool with
  | nil =>
      cases h
      rfl
  | cons i is ih =>
      obtain ⟨u, hu, h⟩ := Option.bind_eq_some_iff.1 h
      exact M.run_cons_eq_some.2 ⟨_, hstep hu, ih h⟩

end Thread
