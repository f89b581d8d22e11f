import Mathlib.Data.List.Basic

/-!
# Labelled machines and the rules for their runs

A `Machine` is a partial step function `σ → ι → Option σ`: the label `ι` says
which step is taken and carries everything the environment contributes to it,
and `none` says that the step cannot be taken.  A *run* is then just a list of
labels, so that "every interleaving" is a quantifier over lists.

Three notions are needed of runs.

* `Machine.run` — the state a run ends in, if it can be taken at all.
* `Machine.Guarded ok` — every step of the run meets a condition on the state
  *before* the step.
* `Machine.collect out` — what the steps of the run put out, in order.  This is
  how history is spoken about without storing it in the state.

`Guarded.invariant` and `Guarded.collect_invariant` are the two induction rules:
what one step preserves, a whole run preserves.
-/

universe u v w

/-- A machine with states `σ` and labels `ι`. -/
structure Machine (σ : Type u) (ι : Type v) where
  /-- The successor of a state under a label, `none` if there is none. -/
  step : σ → ι → Option σ

namespace Machine

variable {σ : Type u} {ι : Type v} {β : Type w} (M : Machine σ ι)

/-! ## Runs -/

/-- The state reached by a list of labels. -/
def run : σ → List ι → Option σ
  | s, [] => some s
  | s, i :: is => (M.step s i).bind fun t ↦ run t is

@[simp] theorem run_nil (s : σ) : M.run s [] = some s := rfl

theorem run_cons (s : σ) (i : ι) (is : List ι) :
    M.run s (i :: is) = (M.step s i).bind fun t ↦ M.run t is := rfl

/-- A nonempty run exposes its first step. -/
theorem run_cons_eq_some {s t : σ} {i : ι} {is : List ι} :
    M.run s (i :: is) = some t ↔ ∃ u, M.step s i = some u ∧ M.run u is = some t := by
  rw [run_cons, Option.bind_eq_some_iff]

/-- Runs compose. -/
theorem run_append (s : σ) (is js : List ι) :
    M.run s (is ++ js) = (M.run s is).bind fun t ↦ M.run t js := by
  induction is generalizing s with
  | nil => rfl
  | cons i is ih =>
      rw [List.cons_append, run_cons, run_cons, Option.bind_assoc]
      exact congrArg _ (funext ih)

theorem run_append_eq_some {s t : σ} {is js : List ι} :
    M.run s (is ++ js) = some t ↔ ∃ u, M.run s is = some u ∧ M.run u js = some t := by
  rw [run_append, Option.bind_eq_some_iff]

theorem run_singleton (s : σ) (i : ι) : M.run s [i] = M.step s i := by
  rw [run_cons]
  cases M.step s i <;> rfl

/-- Repeating a step until it cannot be taken ends in one state. -/
theorem run_replicate_unique {s t t' : σ} {i : ι} {k k' : ℕ}
    (h : M.run s (List.replicate k i) = some t) (ht : M.step t i = none)
    (h' : M.run s (List.replicate k' i) = some t') (ht' : M.step t' i = none) : t = t' := by
  induction k generalizing s k' with
  | zero =>
      obtain rfl : s = t := Option.some.inj h
      cases k' with
      | zero => exact Option.some.inj h'
      | succ k' =>
          obtain ⟨u, hu, -⟩ := M.run_cons_eq_some.1 h'
          exact nomatch ht.symm.trans hu
  | succ k ih =>
      obtain ⟨u, hu, hr⟩ := M.run_cons_eq_some.1 h
      cases k' with
      | zero =>
          obtain rfl : s = t' := Option.some.inj h'
          exact nomatch ht'.symm.trans hu
      | succ k' =>
          obtain ⟨u', hu', hr'⟩ := M.run_cons_eq_some.1 h'
          obtain rfl : u = u' := Option.some.inj (hu.symm.trans hu')
          exact ih hr hr'

/-! ## Conditions on the steps of a run -/

/-- Every step of the run from `s` meets `ok` in the state it is taken from. -/
def Guarded (ok : σ → ι → Prop) : σ → List ι → Prop
  | _, [] => True
  | s, i :: is => ok s i ∧ ∀ t, M.step s i = some t → Guarded ok t is

instance decidableGuarded (ok : σ → ι → Prop) [∀ s i, Decidable (ok s i)] :
    ∀ s is, Decidable (M.Guarded ok s is)
  | _, [] => .isTrue trivial
  | s, i :: is =>
      have : Decidable (∀ t, M.step s i = some t → M.Guarded ok t is) :=
        match M.step s i with
        | none => .isTrue fun _ ht ↦ nomatch ht
        | some u =>
            have := decidableGuarded ok u is
            decidable_of_iff (M.Guarded ok u is)
              ⟨fun hu _ ht ↦ Option.some.inj ht ▸ hu, fun hu ↦ hu u rfl⟩
      inferInstanceAs (Decidable (_ ∧ _))

variable {M} {ok ok' : σ → ι → Prop}

theorem Guarded.head {s : σ} {i : ι} {is : List ι} (h : M.Guarded ok s (i :: is)) : ok s i := h.1

theorem Guarded.tail {s t : σ} {i : ι} {is : List ι} (h : M.Guarded ok s (i :: is))
    (hs : M.step s i = some t) : M.Guarded ok t is := h.2 t hs

/-- A condition that every step meets is met along every run. -/
theorem Guarded.mono (h : ∀ s i, ok s i → ok' s i) {s : σ} {is : List ι}
    (hg : M.Guarded ok s is) : M.Guarded ok' s is := by
  induction is generalizing s with
  | nil => trivial
  | cons i is ih => exact ⟨h s i hg.head, fun t hs ↦ ih (hg.tail hs)⟩

/-- A guarded run stays guarded up to any point, and from that point on. -/
theorem guarded_append {s t : σ} {is js : List ι} (hr : M.run s is = some t) :
    M.Guarded ok s (is ++ js) ↔ M.Guarded ok s is ∧ M.Guarded ok t js := by
  induction is generalizing s with
  | nil =>
      obtain rfl : s = t := Option.some.inj hr
      exact ⟨fun h ↦ ⟨trivial, h⟩, fun h ↦ h.2⟩
  | cons i is ih =>
      obtain ⟨u, hu, hr'⟩ := (M.run_cons_eq_some).1 hr
      constructor
      · intro h
        have h' := (ih hr').1 (h.tail hu)
        refine ⟨⟨h.head, fun v hv ↦ ?_⟩, h'.2⟩
        obtain rfl : u = v := Option.some.inj (hu.symm.trans hv)
        exact h'.1
      · rintro ⟨h₁, h₂⟩
        refine ⟨h₁.head, fun v hv ↦ ?_⟩
        obtain rfl : u = v := Option.some.inj (hu.symm.trans hv)
        exact (ih hr').2 ⟨h₁.tail hu, h₂⟩

/-- **Invariant rule.**  What every step that meets the condition preserves, every
run whose steps all meet it preserves. -/
theorem Guarded.invariant {P : σ → Prop}
    (hstep : ∀ s i t, P s → ok s i → M.step s i = some t → P t) {s t : σ} {is : List ι}
    (hg : M.Guarded ok s is) (hs : P s) (hr : M.run s is = some t) : P t := by
  induction is generalizing s with
  | nil =>
      obtain rfl : s = t := Option.some.inj hr
      exact hs
  | cons i is ih =>
      obtain ⟨u, hu, hr'⟩ := (M.run_cons_eq_some).1 hr
      exact ih (hg.tail hu) (hstep s i u hs hg.head hu) hr'

/-- No condition is met by every run. -/
theorem guarded_true (s : σ) (is : List ι) : M.Guarded (fun _ _ ↦ True) s is := by
  induction is generalizing s with
  | nil => trivial
  | cons i is ih => exact ⟨trivial, fun t _ ↦ ih t⟩

/-- The invariant rule for runs without a condition. -/
theorem run_invariant {P : σ → Prop} (hstep : ∀ s i t, P s → M.step s i = some t → P t)
    {s t : σ} {is : List ι} (hs : P s) (hr : M.run s is = some t) : P t :=
  (guarded_true s is).invariant (fun s i t h _ ht ↦ hstep s i t h ht) hs hr

/-- Two conditions can be joined. -/
theorem Guarded.and {s : σ} {is : List ι} (hg : M.Guarded ok s is) (hg' : M.Guarded ok' s is) :
    M.Guarded (fun s i ↦ ok s i ∧ ok' s i) s is := by
  induction is generalizing s with
  | nil => trivial
  | cons i is ih => exact ⟨⟨hg.head, hg'.head⟩, fun t ht ↦ ih (hg.tail ht) (hg'.tail ht)⟩

/-- A condition on the labels alone can be added to the condition on the steps. -/
theorem Guarded.and_forall {Q : ι → Prop} {s : σ} {is : List ι} (hg : M.Guarded ok s is)
    (h : ∀ i ∈ is, Q i) : M.Guarded (fun s i ↦ ok s i ∧ Q i) s is := by
  induction is generalizing s with
  | nil => trivial
  | cons i is ih =>
      exact ⟨⟨hg.head, h i List.mem_cons_self⟩,
        fun t ht ↦ ih (hg.tail ht) fun j hj ↦ h j (List.mem_cons_of_mem i hj)⟩

/-- A guarded run is guarded up to any point. -/
theorem Guarded.left_of_append {s : σ} {is js : List ι} (h : M.Guarded ok s (is ++ js)) :
    M.Guarded ok s is := by
  induction is generalizing s with
  | nil => trivial
  | cons i is ih => exact ⟨h.head, fun t ht ↦ ih (h.tail ht)⟩

/-- **Progress rule.**  If a step that meets the condition can always be taken and
keeps `P`, a run whose steps all meet it can be taken. -/
theorem Guarded.exists_run {P : σ → Prop}
    (hstep : ∀ s i, P s → ok s i → ∃ t, M.step s i = some t ∧ P t) {s : σ} {is : List ι}
    (hg : M.Guarded ok s is) (hs : P s) : ∃ t, M.run s is = some t ∧ P t := by
  induction is generalizing s with
  | nil => exact ⟨s, rfl, hs⟩
  | cons i is ih =>
      obtain ⟨u, hu, hPu⟩ := hstep s i hs hg.head
      obtain ⟨t, ht, hPt⟩ := ih (hg.tail hu) hPu
      exact ⟨t, M.run_cons_eq_some.2 ⟨u, hu, ht⟩, hPt⟩

/-- **When the condition is exact.**  Among the runs whose steps all meet `base`: if a step
that meets the condition too can be taken and keeps `P`, and one that does not breaks `Q`,
then a run keeps `Q` throughout exactly if all its steps meet the condition. -/
theorem Guarded.forall_run_iff {base : σ → ι → Prop} {P Q : σ → Prop}
    (hstep : ∀ s i, P s → base s i → ok s i → ∃ t, M.step s i = some t ∧ P t)
    (hPQ : ∀ s, P s → Q s)
    (hexact : ∀ s i t, P s → base s i → M.step s i = some t → Q t → ok s i) {s : σ} {is : List ι}
    (hb : M.Guarded base s is) (hs : P s) :
    (∀ js, js <+: is → ∃ t, M.run s js = some t ∧ Q t) ↔ M.Guarded ok s is := by
  constructor
  · intro h
    induction is generalizing s with
    | nil => trivial
    | cons i is ih =>
        obtain ⟨u, hu, hQu⟩ := h [i] ⟨is, rfl⟩
        rw [run_singleton] at hu
        have hi := hexact s i u hs hb.head hu hQu
        refine ⟨hi, fun v hv ↦ ?_⟩
        obtain rfl : u = v := Option.some.inj (hu.symm.trans hv)
        obtain ⟨w, hw, hPw⟩ := hstep s i hs hb.head hi
        obtain rfl : u = w := Option.some.inj (hu.symm.trans hw)
        refine ih (hb.tail hu) hPw fun js hjs ↦ ?_
        obtain ⟨t, ht, hQt⟩ := h (i :: js) (List.cons_prefix_cons.2 ⟨rfl, hjs⟩)
        obtain ⟨u', hu', ht'⟩ := M.run_cons_eq_some.1 ht
        obtain rfl : u = u' := Option.some.inj (hu.symm.trans hu')
        exact ⟨t, ht', hQt⟩
  · rintro hg js ⟨ks, rfl⟩
    obtain ⟨t, ht, hPt⟩ := (hb.and hg).left_of_append.exists_run
      (fun s i hs hok ↦ hstep s i hs hok.1 hok.2) hs
    exact ⟨t, ht, hPQ t hPt⟩

/-- The same without a condition on all runs. -/
theorem forall_run_iff_guarded {P Q : σ → Prop}
    (hstep : ∀ s i, P s → ok s i → ∃ t, M.step s i = some t ∧ P t) (hPQ : ∀ s, P s → Q s)
    (hexact : ∀ s i t, P s → M.step s i = some t → Q t → ok s i) {s : σ} {is : List ι}
    (hs : P s) :
    (∀ js, js <+: is → ∃ t, M.run s js = some t ∧ Q t) ↔ M.Guarded ok s is :=
  (guarded_true s is).forall_run_iff (fun s i hP _ hok ↦ hstep s i hP hok) hPQ
    (fun s i t hP _ ht hQ ↦ hexact s i t hP ht hQ) hs

/-! ## Runs that come to an end -/

/-- **Rank rule.**  If every step lowers a rank, a run is at most as long as the rank it has
used up. -/
theorem run_length_le {P : σ → Prop} {rank : σ → ℕ}
    (hstep : ∀ s i t, P s → M.step s i = some t → P t ∧ rank t < rank s) {s t : σ} {is : List ι}
    (hs : P s) (hr : M.run s is = some t) : P t ∧ is.length + rank t ≤ rank s := by
  induction is generalizing s with
  | nil =>
      obtain rfl : s = t := Option.some.inj hr
      exact ⟨hs, Nat.le_of_eq (Nat.zero_add _)⟩
  | cons i is ih =>
      obtain ⟨u, hu, hr'⟩ := (M.run_cons_eq_some).1 hr
      obtain ⟨hPu, hlt⟩ := hstep s i u hs hu
      obtain ⟨hPt, hle⟩ := ih hPu hr'
      refine ⟨hPt, ?_⟩
      rw [List.length_cons]
      omega

/-- **Leads-to rule.**  If from every state short of the goal some steps lower a rank, some run
reaches the goal. -/
theorem exists_run_of_rank {P Q : σ → Prop} (rank : σ → ℕ)
    (hstep : ∀ s, P s → ¬ Q s → ∃ is t, M.run s is = some t ∧ P t ∧ rank t < rank s) {s : σ}
    (hs : P s) : ∃ is t, M.run s is = some t ∧ P t ∧ Q t := by
  induction hn : rank s using Nat.strongRecOn generalizing s with
  | ind n ih =>
      by_cases hQ : Q s
      · exact ⟨[], s, rfl, hs, hQ⟩
      · obtain ⟨is, u, hu, hPu, hlt⟩ := hstep s hs hQ
        obtain ⟨js, t, ht, hPt, hQt⟩ := ih _ (hn ▸ hlt) hPu rfl
        exact ⟨is ++ js, t, M.run_append_eq_some.2 ⟨u, hu, ht⟩, hPt, hQt⟩

/-! ## What a run puts out -/

variable (M) in
/-- The outputs of the steps of a run, in order. -/
def collect (out : σ → ι → List β) : σ → List ι → List β
  | _, [] => []
  | s, i :: is => out s i ++ match M.step s i with
    | some t => collect out t is
    | none => []

variable {out : σ → ι → List β}

@[simp] theorem collect_nil (s : σ) : M.collect out s [] = [] := rfl

theorem collect_cons {s t : σ} {i : ι} (is : List ι) (h : M.step s i = some t) :
    M.collect out s (i :: is) = out s i ++ M.collect out t is := by
  rw [collect, h]

theorem collect_append {s t : σ} {is : List ι} (js : List ι) (hr : M.run s is = some t) :
    M.collect out s (is ++ js) = M.collect out s is ++ M.collect out t js := by
  induction is generalizing s with
  | nil =>
      obtain rfl : s = t := Option.some.inj hr
      rfl
  | cons i is ih =>
      obtain ⟨u, hu, hr'⟩ := (M.run_cons_eq_some).1 hr
      rw [List.cons_append, collect_cons _ hu, collect_cons _ hu, ih hr', List.append_assoc]

/-- What a run puts out is known from its labels, if each step's is. -/
theorem collect_labels (f : ι → List β) {s t : σ} {is : List ι} (hr : M.run s is = some t) :
    M.collect (fun _ i ↦ f i) s is = is.flatMap f := by
  induction is generalizing s with
  | nil => rfl
  | cons i is ih =>
      obtain ⟨u, hu, hr'⟩ := (M.run_cons_eq_some).1 hr
      rw [collect_cons _ hu, ih hr', List.flatMap_cons]

/-- Reading the outputs through a function, at the end or as they come. -/
theorem collect_flatMap {γ : Type*} (f : β → List γ) (s : σ) (is : List ι) :
    M.collect (fun s i ↦ (out s i).flatMap f) s is = (M.collect out s is).flatMap f := by
  induction is generalizing s with
  | nil => rfl
  | cons i is ih =>
      rw [collect, collect, List.flatMap_append]
      cases M.step s i with
      | none => rfl
      | some t => exact congrArg (_ ++ ·) (ih t)

/-- **Invariant rule with history.**  An invariant that relates the state to the
outputs so far, and that every step carries along, relates the final state of a
run to all its outputs. -/
theorem Guarded.collect_invariant {P : σ → List β → Prop}
    (hstep : ∀ s h i t, P s h → ok s i → M.step s i = some t → P t (h ++ out s i))
    {s t : σ} {h : List β} {is : List ι} (hg : M.Guarded ok s is) (hs : P s h)
    (hr : M.run s is = some t) : P t (h ++ M.collect out s is) := by
  induction is generalizing s h with
  | nil =>
      obtain rfl : s = t := Option.some.inj hr
      simpa using hs
  | cons i is ih =>
      obtain ⟨u, hu, hr'⟩ := (M.run_cons_eq_some).1 hr
      rw [collect_cons _ hu, ← List.append_assoc]
      exact ih (hg.tail hu) (hstep s h i u hs hg.head hu) hr'

/-- The same with the outputs added up as they come. -/
theorem Guarded.foldl_invariant {γ : Type*} {f : γ → β → γ} {P : σ → γ → Prop}
    (hstep : ∀ s c i t, P s c → ok s i → M.step s i = some t → P t ((out s i).foldl f c))
    {s t : σ} {c : γ} {is : List ι} (hg : M.Guarded ok s is) (hs : P s c)
    (hr : M.run s is = some t) : P t ((M.collect out s is).foldl f c) := by
  have h := hg.collect_invariant (P := fun s h ↦ P s (h.foldl f c)) (h := []) (fun s h i t hP hok ht ↦ by
    rw [List.foldl_append]
    exact hstep s _ i t hP hok ht) hs hr
  rwa [List.nil_append] at h

end Machine
