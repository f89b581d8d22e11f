import Rbtrace.BenchRun

/-!
# A benchmark comes to its end

As long as the counter does not wrap, a benchmark that has begun to wait for its threads can
always be brought to its end, and after the signal it ends by itself: every step brings it
nearer, and it cannot get stuck.  Before the signal the first process polls, and could do so
forever.
-/

namespace Rbtrace

open CInt Census

section

variable {o : BenchOption} {s s' : Bench o} {t : o.Thread}

/-! ## How far it is to the end -/

/-- What is left to do for a thread, apart from the numbers it will draw. -/
def BenchPc.weight : BenchPc → Nat
  | .mainTest => 13
  | .mainUnlock => 12
  | .mainLock => 11
  | .broadcast => 10
  | .lock => 9
  | .ready => 8
  | .condWait => 7
  | .asleep => 6
  | .awake => 5
  | .unlock => 4
  | .start _ => 3
  | .done _ => 2
  | .fetch => 1
  | .finished => 0

/-- What is left to do.  A number that is drawn costs more than what it leaves to do. -/
def Bench.left (s : Bench o) : Nat :=
  4 * (o.nrTraces + o.threads - s.x).toNat + load BenchPc.weight s.pcs

/-- The counter has not wrapped, and counts on while there is a thread to draw a number. -/
structure Bench.Room (s : Bench o) : Prop where
  nonneg : 0 ≤ s.x
  next : (∃ t, s.pcs t ≠ .finished) → s.x < o.nrTraces + o.threads

theorem BenchPc.job_eq_finished {pc : BenchPc} : pc.job = .finished ↔ pc = .finished := by
  cases pc <;> simp [BenchPc.job]

theorem room_of_init (hlt : o.nrTraces + o.threads < 2 ^ 31) {es : List (BenchEvent o)}
    (hrun : (bench o).run (.init o) es = some s) : s.Room := by
  obtain ⟨c, h⟩ := counts_of_run hrun
  have hc := h.lt hlt
  have hx : s.x = c := by rw [h.x, i32_of_range (by omega) (by omega)]
  refine ⟨by omega, fun ⟨t, ht⟩ ↦ ?_⟩
  -- a thread that is not through has not seen the counter past the end
  have hfinished := h.finished
  rw [misses_of_lt hc] at hfinished
  have hle := census_le_card (p := (· = Job.finished)) s.jobs
  rw [o.card_thread] at hle
  have hne : census (· = Job.finished) s.jobs ≠ o.threads := by
    rw [← o.card_thread]
    intro hall
    rw [census_eq_card_iff] at hall
    exact ht (BenchPc.job_eq_finished.1 (hall t))
  omega

theorem BenchPc.weight_wake_le (pc : BenchPc) : pc.wake.weight ≤ pc.weight := by
  cases pc <;> simp [BenchPc.wake, BenchPc.weight]

/-- A thread that moves while the counter stays. -/
theorem Bench.left_lt_of_update {pc : BenchPc} (hx : s'.x = s.x)
    (hpcs : s'.pcs = Function.update s.pcs t pc) (hlt : pc.weight < (s.pcs t).weight) :
    s'.left < s.left := by
  have h := load_update BenchPc.weight s.pcs t pc
  unfold Bench.left
  rw [hx, hpcs]
  omega

/-- Every step brings the end nearer, but for the first process that begins another round. -/
theorem Bench.left_lt {e : BenchEvent o} (hroom : s.Room) (hlt : o.nrTraces + o.threads < 2 ^ 31)
    (hne : ∀ t, e = .step t → s.pcs t ≠ .mainLock) (hstep : (bench o).step s e = some s') :
    s'.left < s.left := by
  cases e with
  | spurious t =>
      simp only [bench, Bench.step] at hstep
      split at hstep
      · rename_i hpc
        cases hstep
        exact Bench.left_lt_of_update rfl rfl (by rw [hpc]; decide)
      · cases hstep
  | step t =>
      have hne := hne t rfl
      simp only [bench, Bench.step] at hstep
      cases hpc : s.pcs t with
      | mainLock => exact absurd hpc hne
      | asleep | finished =>
          rw [hpc] at hstep
          cases hstep
      | lock | awake =>
          rw [hpc] at hstep
          simp only [Bench.acquire] at hstep
          split at hstep
          · cases hstep
            exact Bench.left_lt_of_update rfl rfl (by rw [hpc]; decide)
          · cases hstep
      | condWait | unlock | mainUnlock | ready =>
          rw [hpc] at hstep
          cases hstep
          exact Bench.left_lt_of_update rfl rfl (by rw [hpc]; decide)
      | start x | done x =>
          rw [hpc] at hstep
          cases hstep
          exact Bench.left_lt_of_update rfl rfl (by rw [hpc]; exact Nat.lt_succ_self _)
      | mainTest =>
          rw [hpc] at hstep
          cases hstep
          exact Bench.left_lt_of_update rfl rfl (by rw [hpc]; split <;> decide)
      | broadcast =>
          rw [hpc] at hstep
          cases hstep
          refine Nat.add_lt_add_left (load_lt_load (t := t) (fun u ↦ ?_) ?_) _
          · dsimp only
            rcases eq_or_ne u t with rfl | hu
            · rw [Function.update_self, hpc]
              decide
            · rw [Function.update_of_ne hu]
              exact (s.pcs u).weight_wake_le
          · dsimp only
            rw [Function.update_self, hpc]
            decide
      | fetch =>
          rw [hpc] at hstep
          cases hstep
          have hxlt := hroom.next ⟨t, by rw [hpc]; exact BenchPc.noConfusion⟩
          have hnext : i32 (s.x + 1) = s.x + 1 :=
            i32_of_range (by have := hroom.nonneg; omega) (by omega)
          have hload := load_update BenchPc.weight s.pcs t
            (if s.x + 1 ≤ o.nrTraces then .start (s.x + 1) else .finished)
          have hw :
              (if s.x + 1 ≤ o.nrTraces then BenchPc.start (s.x + 1) else .finished).weight ≤ 3 := by
            split <;> simp [BenchPc.weight]
          unfold Bench.left Bench.goto
          dsimp only
          rw [hnext]
          omega

/-! ## It cannot get stuck -/

/-- The thread with the mutex can go on. -/
theorem Bench.step_of_holds (s : Bench o) (h : (s.pcs t).Holds) :
    ∃ s', (bench o).step s (.step t) = some s' := by
  simp only [bench, Bench.step]
  cases hpc : s.pcs t <;> rw [hpc] at h <;> first | exact ⟨_, rfl⟩ | exact h.elim

/-- With the mutex free, a thread can go on unless it waits for the signal or is through. -/
theorem Bench.step_of_free (hfree : s.mutex = none) (hasleep : s.pcs t ≠ .asleep)
    (hfin : s.pcs t ≠ .finished) : ∃ s', (bench o).step s (.step t) = some s' := by
  simp only [bench, Bench.step, Bench.acquire]
  cases hpc : s.pcs t <;>
    first | exact ⟨_, if_pos hfree⟩ | exact ⟨_, rfl⟩ | exact absurd hpc hasleep |
      exact absurd hpc hfin

/-- **The first process gives the signal** when it finds that all others wait. -/
theorem Bench.exists_broadcast (hfree : s.mutex = none) (hready : s.readyThreads = o.waiters)
    (hmain : s.pcs none = .mainLock) : ∃ s', (bench o).run s [.step none, .step none] = some s' ∧
      s'.x = s.x ∧ s'.pcs = Function.update s.pcs none .broadcast := by
  have hlock : (bench o).step s (.step none) =
      some { s.goto none .mainTest with mutex := some none } := by
    simp only [bench, Bench.step, Bench.acquire, hmain, if_pos hfree]
  have htest : (bench o).step { s.goto none .mainTest with mutex := some none } (.step none) =
      some { (s.goto none .mainTest).goto none .broadcast with mutex := some none } := by
    simp only [bench, Bench.step, Bench.goto, Function.update_self, hready, lt_self_iff_false,
      if_false]
  exact ⟨_, (bench o).run_cons_eq_some.2 ⟨_, hlock, ((bench o).run_singleton _ _).trans htest⟩, rfl,
    Function.update_idem ..⟩

/-- Short of the end, some thread can bring it nearer. -/
theorem Bench.exists_left_lt (hb : s.Barrier) (hroom : s.Room)
    (hlt : o.nrTraces + o.threads < 2 ^ 31) (hfin : ¬ ∀ t, s.pcs t = .finished) :
    ∃ es s', (bench o).run s es = some s' ∧ s'.left < s.left := by
  -- a step that is not the first process's next look
  have hstep : ∀ t, s.pcs t ≠ .mainLock → (∃ s', (bench o).step s (.step t) = some s') →
      ∃ es s', (bench o).run s es = some s' ∧ s'.left < s.left := by
    rintro t hne ⟨s', hs'⟩
    refine ⟨[.step t], s', ((bench o).run_singleton s _).trans hs', ?_⟩
    refine Bench.left_lt hroom hlt (fun u hu ↦ ?_) hs'
    cases hu
    exact hne
  cases hmutex : s.mutex with
  | some t =>
      have hholds := (hb.locked t).1 hmutex
      refine hstep t (fun h ↦ ?_) (s.step_of_holds hholds)
      rw [h] at hholds
      exact hholds
  | none =>
      by_cases hmove : ∃ t, s.pcs t ≠ .mainLock ∧ s.pcs t ≠ .asleep ∧ s.pcs t ≠ .finished
      · obtain ⟨t, hmain, hasleep, hfinished⟩ := hmove
        exact hstep t hmain (Bench.step_of_free hmutex hasleep hfinished)
      · -- the others wait or are through, so all of them have counted themselves
        have hall : ∀ t, s.pcs t = .mainLock ∨ s.pcs t = .asleep ∨ s.pcs t = .finished := by
          intro t
          by_contra hnot
          simp only [not_or] at hnot
          exact hmove ⟨t, hnot⟩
        have hmain : s.pcs none = .mainLock := by
          rcases hall none with h | h | h
          · exact h
          · exact absurd (by rw [h]; trivial) hb.first.1
          · refine absurd (fun t ↦ ?_) hfin
            have hnone : ¬ (s.pcs none).Main := by rw [h]; exact id
            cases t with
            | none => exact h
            | some w =>
                rcases hall (some w) with hw | hw | hw
                · exact absurd (by rw [hw]; trivial) (hb.others w)
                · exact absurd (by rw [hw]; trivial) (hb.gone hnone w)
                · exact hw
        have hcount : s.readyThreads = o.waiters := by
          rw [hb.ready, ← o.card_waiter, census_eq_card_iff]
          intro w
          have hw : s.others w = .mainLock ∨ s.others w = .asleep ∨ s.others w = .finished :=
            hall (some w)
          rcases hw with hw | hw | hw <;> rw [hw] <;> trivial
        obtain ⟨s', hrun, hx, hpcs⟩ := Bench.exists_broadcast hmutex hcount hmain
        exact ⟨_, s', hrun, Bench.left_lt_of_update hx hpcs (by rw [hmain]; decide)⟩

/-! ## After the signal -/

/-- A point of a thread that has had the signal. -/
def BenchPc.Past : BenchPc → Prop
  | .awake | .unlock | .fetch | .start _ | .done _ | .finished => True
  | _ => False

theorem BenchPc.past_iff {pc : BenchPc} : pc.Past ↔ ¬ pc.Waits ∧ ¬ pc.Main := by
  cases pc <;> simp [BenchPc.Past, BenchPc.Waits, BenchPc.Main]

theorem BenchPc.Past.weight_le {pc : BenchPc} (h : pc.Past) : pc.weight ≤ 5 := by
  cases pc <;> first | exact h.elim | simp [BenchPc.weight]

/-- After the signal a thread goes on to a point after the signal. -/
theorem Bench.past_step {e : BenchEvent o} (h : ∀ t, (s.pcs t).Past)
    (hstep : (bench o).step s e = some s') : ∀ t, (s'.pcs t).Past := by
  have hupdate : ∀ {t pc}, s'.pcs = Function.update s.pcs t pc → pc.Past →
      ∀ u, (s'.pcs u).Past := by
    intro t pc hpcs hpc u
    rw [hpcs]
    rcases eq_or_ne u t with rfl | hne
    · rw [Function.update_self]
      exact hpc
    · rw [Function.update_of_ne hne]
      exact h u
  cases e with
  | spurious t =>
      simp only [bench, Bench.step] at hstep
      split at hstep
      · cases hstep
        exact hupdate rfl trivial
      · cases hstep
  | step t =>
      have ht := h t
      simp only [bench, Bench.step] at hstep
      cases hpc : s.pcs t with
      | lock | ready | condWait | asleep | mainLock | mainTest | mainUnlock | broadcast =>
          rw [hpc] at ht
          exact ht.elim
      | finished =>
          rw [hpc] at hstep
          cases hstep
      | awake =>
          rw [hpc] at hstep
          simp only [Bench.acquire] at hstep
          split at hstep
          · cases hstep
            exact hupdate rfl trivial
          · cases hstep
      | unlock | start x | done x =>
          rw [hpc] at hstep
          cases hstep
          exact hupdate rfl trivial
      | fetch =>
          rw [hpc] at hstep
          cases hstep
          exact hupdate rfl (by split <;> trivial)

theorem Bench.left_le (hroom : s.Room) (h : ∀ t, (s.pcs t).Past) :
    s.left ≤ 4 * o.nrTraces + 9 * o.threads := by
  have hload : load BenchPc.weight s.pcs ≤ 5 * o.threads := by
    rw [← o.card_thread, mul_comm]
    exact Finset.sum_le_card_nsmul _ _ _ fun t _ ↦ (h t).weight_le
  have hnonneg := hroom.nonneg
  unfold Bench.left
  omega

/-- After the signal no thread waits for another for good. -/
theorem Bench.exists_step (hlocked : s.Locked) (h : ∀ t, (s.pcs t).Past)
    (hfin : ¬ ∀ t, s.pcs t = .finished) : ∃ t s', (bench o).step s (.step t) = some s' := by
  cases hmutex : s.mutex with
  | some t => exact ⟨t, s.step_of_holds ((hlocked t).1 hmutex)⟩
  | none =>
      obtain ⟨t, ht⟩ := not_forall.1 hfin
      refine ⟨t, Bench.step_of_free hmutex (fun hasleep ↦ ?_) ht⟩
      have hpast := h t
      rw [hasleep] at hpast
      exact hpast

/-- The state can come about. -/
def Bench.Reached (s : Bench o) : Prop := ∃ es, (bench o).run (.init o) es = some s

theorem Bench.Reached.run {es : List (BenchEvent o)} (h : s.Reached)
    (hrun : (bench o).run s es = some s') : s'.Reached := by
  obtain ⟨es', hrun'⟩ := h
  exact ⟨es' ++ es, (bench o).run_append_eq_some.2 ⟨s, hrun', hrun⟩⟩

/-- **A benchmark comes to its end**, if the counter does not wrap.  From every state it can be
brought to the end; and from the signal on it takes at most `4 * nr_traces` steps and nine for
each thread, in whatever order the threads take turns, and as long as a thread is not through,
some thread can take a step. -/
theorem finishes_of_run (hlt : o.nrTraces + o.threads < 2 ^ 31) {es : List (BenchEvent o)}
    (hrun : (bench o).run (.init o) es = some s) :
    (∃ es' s', (bench o).run s es' = some s' ∧ ∀ t, s'.pcs t = .finished) ∧
      (¬ (s.pcs none).Main → ∀ es' s', (bench o).run s es' = some s' →
        es'.length ≤ 4 * o.nrTraces + 9 * o.threads ∧
          ((∀ t, s'.pcs t = .finished) ∨ ∃ t s'', (bench o).step s' (.step t) = some s'')) := by
  have hreached : s.Reached := ⟨es, hrun⟩
  constructor
  · have hnear : ∀ s : Bench o, s.Reached → (¬ ∀ t, s.pcs t = .finished) →
        ∃ es s', (bench o).run s es = some s' ∧ s'.Reached ∧ s'.left < s.left := by
      rintro s hs hfin
      obtain ⟨es, hrun⟩ := id hs
      obtain ⟨es', s', hrun', hleft⟩ :=
        Bench.exists_left_lt (barrier_of_init hrun) (room_of_init hlt hrun) hlt hfin
      exact ⟨es', s', hrun', hs.run hrun', hleft⟩
    obtain ⟨es', s', hrun', -, hfin⟩ := Machine.exists_run_of_rank Bench.left hnear hreached
    exact ⟨es', s', hrun', hfin⟩
  · intro hmain es' s' hrun'
    have hb := barrier_of_init hrun
    have hpast : ∀ t, (s.pcs t).Past := by
      intro t
      rw [BenchPc.past_iff]
      cases t with
      | none => exact ⟨hb.first.1, hmain⟩
      | some w => exact ⟨hb.gone hmain w, hb.others w⟩
    -- after the signal every step brings the end nearer
    have hnearer : ∀ (s : Bench o) e s', (s.Reached ∧ ∀ t, (s.pcs t).Past) →
        (bench o).step s e = some s' → (s'.Reached ∧ ∀ t, (s'.pcs t).Past) ∧ s'.left < s.left := by
      rintro s e s' ⟨hs, hpast⟩ hstep
      obtain ⟨es, hrun⟩ := id hs
      refine ⟨⟨hs.run (((bench o).run_singleton s e).trans hstep), Bench.past_step hpast hstep⟩,
        Bench.left_lt (room_of_init hlt hrun) hlt (fun t _ h ↦ ?_) hstep⟩
      have ht := hpast t
      rw [h] at ht
      exact ht
    obtain ⟨⟨⟨es'', hrun''⟩, hpast'⟩, hlength⟩ :=
      Machine.run_length_le hnearer ⟨hreached, hpast⟩ hrun'
    have hleft := Bench.left_le (room_of_init hlt hrun) hpast
    refine ⟨by omega, or_iff_not_imp_left.2 fun hfin ↦ ?_⟩
    exact Bench.exists_step (barrier_of_init hrun'').locked hpast' hfin

end

/-- The created thread waits, and the main thread gives the signal. -/
def twoThreads.signalled : List (BenchEvent twoThreads) :=
  List.replicate 3 (.step created) ++ List.replicate 3 (.step none)

/-- The main thread traces the number and is through, and the created thread is about to look
for another one. -/
def twoThreads.rest : List (BenchEvent twoThreads) :=
  List.replicate 5 (.step none) ++ List.replicate 2 (.step created)

/-- The rest is short of the bound, and is not the end. -/
theorem finishes_of_run_twoThreads : ∃ s s',
    (bench twoThreads).run (.init _) twoThreads.signalled = some s ∧ s.pcs none = .unlock ∧
    (bench twoThreads).run s twoThreads.rest = some s' ∧ s'.pcs twoThreads.created = .fetch ∧
    (∃ es t, (bench twoThreads).run s es = some t ∧ ∀ u, t.pcs u = .finished) ∧
    twoThreads.rest.length ≤ 4 * twoThreads.nrTraces + 9 * twoThreads.threads ∧
    ∃ u t, (bench twoThreads).step s' (.step u) = some t := by
  have hsignal : ((bench twoThreads).run (.init _) twoThreads.signalled).map (·.pcs none) =
      some .unlock := by decide +kernel
  have hfetch : ((bench twoThreads).run (.init _)
      (twoThreads.signalled ++ twoThreads.rest)).map (·.pcs twoThreads.created) =
      some .fetch := by decide +kernel
  obtain ⟨s, hrun, hunlock⟩ := Option.map_eq_some_iff.1 hsignal
  obtain ⟨s', hall, hpc⟩ := Option.map_eq_some_iff.1 hfetch
  obtain ⟨u, hu, hrest⟩ := (bench twoThreads).run_append_eq_some.1 hall
  obtain rfl := Option.some.inj (hrun.symm.trans hu)
  obtain ⟨hend, hbound⟩ := finishes_of_run (by decide) hrun
  obtain ⟨hlength, hstep⟩ := hbound (by rw [hunlock]; exact id) _ s' hrest
  refine ⟨s, s', hrun, hunlock, hrest, hpc, hend, hlength, hstep.resolve_left fun hfin ↦ ?_⟩
  cases hpc.symm.trans (hfin twoThreads.created)

end Rbtrace
