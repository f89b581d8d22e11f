import Mathlib.Order.Nat

/-!
# Loops that are fed by a stream

A `StreamLoop` is a `while` loop that takes one input in each round, from a stream that
never ends: what a system call comes back with, say.  A round either goes on with new
variables, `Sum.inl`, or leaves with a value, `Sum.inr`.

Nothing says that such a loop ends, so `StreamLoop.run` is given the number of rounds it
may make.  Two rules are enough to reason about it.

* `Invariant.run_post` — what the rounds preserve holds of the value, *if* the loop ends.
* `Invariant.exists_run` — the loop does end, if some rounds lower a variant, no round
  raises it, and as long as the loop goes on such a round is still to come.

An invariant may speak about the position in the stream, and so does what holds of the
value: its position is the number of inputs the loop has taken.
-/

universe u v w

/-- A loop with variables `σ` that takes inputs `ι` and leaves with a value `ρ`. -/
structure StreamLoop (σ : Type u) (ι : Type v) (ρ : Type w) where
  /-- The value if the loop condition does not hold, `none` if it holds. -/
  exit : σ → Option ρ
  /-- One round. -/
  round : σ → ι → σ ⊕ ρ

namespace StreamLoop

variable {σ : Type u} {ι : Type v} {ρ : Type w} (L : StreamLoop σ ι ρ) (ins : ℕ → ι)

/-! ## Evaluation -/

/-- The loop from position `i` of the stream on, with at most so many rounds: the position
it has come to, and its value. -/
def run : ℕ → ℕ → σ → Option (ℕ × ρ)
  | 0, i, s => (L.exit s).map fun r ↦ (i, r)
  | n + 1, i, s =>
      match L.exit s with
      | some r => some (i, r)
      | none =>
          match L.round s (ins i) with
          | .inl t => run n (i + 1) t
          | .inr r => some (i + 1, r)

variable {L ins} {n m i k : ℕ} {s t : σ} {r : ρ}

theorem run_of_exit (h : L.exit s = some r) : L.run ins n i s = some (i, r) := by
  cases n with
  | zero => rw [run, h, Option.map_some]
  | succ n => simp only [run, h]

theorem run_of_inl (h : L.exit s = none) (ht : L.round s (ins i) = .inl t) :
    L.run ins (n + 1) i s = L.run ins n (i + 1) t := by
  simp only [run, h, ht]

theorem run_of_inr (h : L.exit s = none) (hr : L.round s (ins i) = .inr r) :
    L.run ins (n + 1) i s = some (i + 1, r) := by
  simp only [run, h, hr]

/-- More rounds make no difference to a loop that has ended. -/
theorem run_mono {x : ℕ × ρ} (h : L.run ins n i s = some x) (hnm : n ≤ m) :
    L.run ins m i s = some x := by
  induction n generalizing m i s with
  | zero =>
      obtain ⟨r, hr, rfl⟩ := Option.map_eq_some_iff.1 h
      exact run_of_exit hr
  | succ n ih =>
      obtain ⟨m, rfl⟩ := Nat.exists_eq_succ_of_ne_zero (Nat.ne_zero_of_lt hnm)
      cases he : L.exit s with
      | some r =>
          rw [run_of_exit he] at h ⊢
          exact h
      | none =>
          cases hr : L.round s (ins i) with
          | inl t =>
              rw [run_of_inl he hr] at h ⊢
              exact ih h (Nat.le_of_succ_le_succ hnm)
          | inr r =>
              rw [run_of_inr he hr] at h ⊢
              exact h

/-- A loop ends if it ends after every round that goes on. -/
theorem exists_run_of_stay (h : ∀ t, L.exit s = none → L.round s (ins i) = .inl t →
    ∃ n x, L.run ins n (i + 1) t = some x) : ∃ n x, L.run ins n i s = some x := by
  cases he : L.exit s with
  | some r => exact ⟨0, _, run_of_exit he⟩
  | none =>
      cases hr : L.round s (ins i) with
      | inr r => exact ⟨1, _, run_of_inr he hr⟩
      | inl t =>
          obtain ⟨n, x, hx⟩ := h t he hr
          exact ⟨n + 1, x, (run_of_inl he hr).trans hx⟩

/-! ## Invariants -/

variable (L ins) in
/-- `P` holds at the head of every round, and `Q` of the value. -/
structure Invariant (P : ℕ → σ → Prop) (Q : ℕ → ρ → Prop) : Prop where
  /-- The loop condition fails. -/
  exit : ∀ {i s r}, P i s → L.exit s = some r → Q i r
  /-- A round leaves. -/
  leave : ∀ {i s r}, P i s → L.exit s = none → L.round s (ins i) = .inr r → Q (i + 1) r
  /-- A round goes on. -/
  stay : ∀ {i s t}, P i s → L.exit s = none → L.round s (ins i) = .inl t → P (i + 1) t

namespace Invariant

variable {P : ℕ → σ → Prop} {Q : ℕ → ρ → Prop}

/-- **Invariant rule.**  The value of a loop that ends is as the invariant says. -/
theorem run_post (h : L.Invariant ins P Q) (hs : P i s) (hr : L.run ins n i s = some (k, r)) :
    Q k r := by
  induction n generalizing i s with
  | zero =>
      obtain ⟨r', hr', heq⟩ := Option.map_eq_some_iff.1 hr
      obtain ⟨rfl, rfl⟩ := Prod.mk.inj heq
      exact h.exit hs hr'
  | succ n ih =>
      cases he : L.exit s with
      | some r' =>
          rw [run_of_exit he] at hr
          obtain ⟨rfl, rfl⟩ := Prod.mk.inj (Option.some.inj hr)
          exact h.exit hs he
      | none =>
          cases hround : L.round s (ins i) with
          | inl t =>
              rw [run_of_inl he hround] at hr
              exact ih (h.stay hs he hround) hr
          | inr r' =>
              rw [run_of_inr he hround] at hr
              obtain ⟨rfl, rfl⟩ := Prod.mk.inj (Option.some.inj hr)
              exact h.leave hs he hround

/-- **Termination rule.**  No round raises the variant, a round on a productive input
lowers it or leaves, and a loop that goes on still has a productive input before it. -/
theorem exists_run (h : L.Invariant ins P Q) (variant : σ → ℕ) (productive : ι → Prop)
    (hle : ∀ {i s t}, P i s → L.exit s = none → L.round s (ins i) = .inl t →
      variant t ≤ variant s)
    (hlt : ∀ {i s t}, P i s → L.exit s = none → L.round s (ins i) = .inl t →
      productive (ins i) → variant t < variant s)
    (hfair : ∀ {i s}, P i s → L.exit s = none → ∃ j, i ≤ j ∧ productive (ins j))
    (hs : P i s) : ∃ n x, L.run ins n i s = some x := by
  -- outside, the bound on the variant; inside, the way to the next productive input
  suffices hbound : ∀ b, ∀ {i s}, P i s → variant s < b → ∃ n x, L.run ins n i s = some x from
    hbound _ hs (Nat.lt_succ_self _)
  intro b
  induction b with
  | zero => exact fun _ hb ↦ absurd hb (Nat.not_lt_zero _)
  | succ b ihb =>
      intro i s hs hb
      refine exists_run_of_stay fun t he hr ↦ ?_
      obtain ⟨j, hij, hj⟩ := hfair hs he
      obtain ⟨d, rfl⟩ := Nat.exists_eq_add_of_le hij
      clear hij
      induction d generalizing i s t with
      | zero =>
          have ht : variant t < variant s := hlt hs he hr hj
          exact ihb (h.stay hs he hr) (Nat.lt_of_lt_of_le ht (Nat.le_of_lt_succ hb))
      | succ d ihd =>
          have ht : variant t < b + 1 := Nat.lt_of_le_of_lt (hle hs he hr) hb
          exact exists_run_of_stay fun u he' hr' ↦
            ihd (h.stay hs he hr) ht u he' hr' (by rwa [Nat.add_right_comm])

end Invariant

end StreamLoop
