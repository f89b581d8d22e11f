import Rbtrace.Lib.Machine

/-!
# One machine doing what another one does

A machine `M'` *simulates* `M` if it can follow every step of `M` with some steps of its
own, staying related to it.  What is seen of a step is a list: the step that is followed and
the steps that follow it look the same from outside, so a step of `M'` that shows nothing is
an internal one.

`Simulates.run` is the rule for whole runs, and simulations compose (`Simulates.trans`), so
that a refinement can be proved one level at a time.
-/

universe u

namespace Machine

variable {σ ι σ' ι' σ'' ι'' : Type*} {γ : Type u}

/-- `M'` can follow every step of `M`; `seen` and `seen'` say what is seen of the labels. -/
def Simulates (M : Machine σ ι) (M' : Machine σ' ι') (R : σ → σ' → Prop) (seen : ι → List γ)
    (seen' : ι' → List γ) : Prop :=
  ∀ s i t s', R s s' → M.step s i = some t →
    ∃ is' t', M'.run s' is' = some t' ∧ is'.flatMap seen' = seen i ∧ R t t'

variable {M : Machine σ ι} {M' : Machine σ' ι'} {M'' : Machine σ'' ι''} {R : σ → σ' → Prop}
  {R' : σ' → σ'' → Prop} {seen : ι → List γ} {seen' : ι' → List γ} {seen'' : ι'' → List γ}

/-- **Simulation rule.**  A machine that can follow every step can follow every run. -/
theorem Simulates.run (h : M.Simulates M' R seen seen') {s t : σ} {is : List ι} {s' : σ'}
    (hs : R s s') (ht : M.run s is = some t) :
    ∃ is' t', M'.run s' is' = some t' ∧ is'.flatMap seen' = is.flatMap seen ∧ R t t' := by
  induction is generalizing s s' with
  | nil =>
      obtain rfl : s = t := Option.some.inj ht
      exact ⟨[], s', rfl, rfl, hs⟩
  | cons i is ih =>
      obtain ⟨u, hu, ht⟩ := M.run_cons_eq_some.1 ht
      obtain ⟨is₁, u', hu', hseen₁, hR⟩ := h s i u s' hs hu
      obtain ⟨is₂, t', ht', hseen₂, hR'⟩ := ih hR ht
      refine ⟨is₁ ++ is₂, t', M'.run_append_eq_some.2 ⟨u', hu', ht'⟩, ?_, hR'⟩
      rw [List.flatMap_append, List.flatMap_cons, hseen₁, hseen₂]

/-- Simulations compose. -/
theorem Simulates.trans (h : M.Simulates M' R seen seen') (h' : M'.Simulates M'' R' seen' seen'') :
    M.Simulates M'' (fun s s'' ↦ ∃ s', R s s' ∧ R' s' s'') seen seen'' := by
  rintro s i t s'' ⟨s', hs, hs'⟩ ht
  obtain ⟨is', t', ht', hseen, hR⟩ := h s i t s' hs ht
  obtain ⟨is'', t'', ht'', hseen', hR'⟩ := h'.run hs' ht'
  exact ⟨is'', t'', ht'', hseen'.trans hseen, t', hR, hR'⟩

end Machine
