import Mathlib.Data.Fintype.Option
import Mathlib.Data.Fintype.Prod
import Mathlib.Data.Fintype.Sum
import Rbtrace.Lib.CInt
import Rbtrace.Lib.Census
import Rbtrace.Lib.Machine
import Rbtrace.Ring

/-!
# The benchmark

`rbtbench.c`: the threads of all its processes wait on a condition variable until the first
process finds all of them there and gives the signal, and then share the numbers
`1 … nr_traces` through one counter, tracing the start and the end of each.

Mutex and condition variable are those of POSIX: a wait gives the mutex up and takes its place
among the waiting in one step, and it may end without a signal.  All their calls succeed.
-/

namespace Rbtrace

open CInt

/-! ## Threads -/

/-- `struct bench_option`, as the loop over the options leaves it.  The number of all threads
is an `int` as well. -/
structure BenchOption where
  nrProcesses : Nat
  nrThreads : Nat
  nrTraces : Nat
  processes_pos : 0 < nrProcesses
  threads_pos : 0 < nrThreads
  traces_pos : 0 < nrTraces
  traces_lt : nrTraces < 2 ^ 31
  all_lt : nrProcesses * nrThreads < 2 ^ 31

/-- The threads that wait for the signal: the main threads of the other processes, and the
threads that each process creates. -/
abbrev BenchOption.Waiter (o : BenchOption) : Type :=
  Fin (o.nrProcesses - 1) ⊕ Fin o.nrProcesses × Fin (o.nrThreads - 1)

/-- All threads; `none` is the main thread of the first process. -/
abbrev BenchOption.Thread (o : BenchOption) : Type := Option o.Waiter

/-- `opts.nr_processes * opts.nr_threads - 1`. -/
def BenchOption.waiters (o : BenchOption) : Nat := o.nrProcesses * o.nrThreads - 1

/-- Where a thread is: what it does next. -/
inductive BenchPc where
  /-- `benchmark_thread`, and `main` of the other processes. -/
  | lock
  | ready
  | condWait
  /-- It waits for the signal. -/
  | asleep
  /-- It has been woken, and waits for the mutex. -/
  | awake
  | unlock
  /-- `main` of the first process. -/
  | mainLock
  | mainTest
  | mainUnlock
  | broadcast
  /-- `do_bench`: the counter, and the two traces of a number. -/
  | fetch
  | start (x : Int)
  | done (x : Int)
  | finished
deriving DecidableEq

/-- `struct bench_context`, and the threads. -/
structure Bench (o : BenchOption) where
  mutex : Option o.Thread
  readyThreads : Nat
  x : Int
  pcs : o.Thread → BenchPc

/-- One step. -/
inductive BenchEvent (o : BenchOption) where
  | step (t : o.Thread)
  /-- A wait ends without a signal. -/
  | spurious (t : o.Thread)

section

variable {o : BenchOption}

/-- A thread goes on. -/
def Bench.goto (s : Bench o) (t : o.Thread) (pc : BenchPc) : Bench o :=
  { s with pcs := Function.update s.pcs t pc }

/-- A thread takes the mutex, if it is free. -/
def Bench.acquire (s : Bench o) (t : o.Thread) (pc : BenchPc) : Option (Bench o) :=
  if s.mutex = none then some { s.goto t pc with mutex := some t } else none

/-- A thread gives the mutex up. -/
def Bench.release (s : Bench o) (t : o.Thread) (pc : BenchPc) : Bench o :=
  { s.goto t pc with mutex := none }

/-- `pthread_cond_broadcast`. -/
def BenchPc.wake : BenchPc → BenchPc
  | .asleep => .awake
  | pc => pc

/-- The state after one event; `none` if it cannot happen. -/
def Bench.step (s : Bench o) : BenchEvent o → Option (Bench o)
  | .spurious t => if s.pcs t = .asleep then some (s.goto t .awake) else none
  | .step t =>
      match s.pcs t with
      | .lock => s.acquire t .ready
      | .ready => some { s.goto t .condWait with readyThreads := s.readyThreads + 1 }
      | .condWait => some (s.release t .asleep)
      | .asleep => none
      | .awake => s.acquire t .unlock
      | .unlock => some (s.release t .fetch)
      | .mainLock => s.acquire t .mainTest
      | .mainTest =>
          some (s.goto t (if s.readyThreads < o.waiters then .mainUnlock else .broadcast))
      | .mainUnlock => some (s.release t .mainLock)
      | .broadcast =>
          some { s with pcs := Function.update (fun u ↦ (s.pcs u).wake) t .unlock }
      | .fetch =>
          let x := i32 (s.x + 1)
          some { s.goto t (if x ≤ o.nrTraces then .start x else .finished) with x := x }
      | .start x => some (s.goto t (.done x))
      | .done _ => some (s.goto t .fetch)
      | .finished => none

/-- The benchmark. -/
def bench (o : BenchOption) : Machine (Bench o) (BenchEvent o) := ⟨Bench.step⟩

/-- All threads have been created. -/
def Bench.init (o : BenchOption) : Bench o :=
  ⟨none, 0, 0, fun t ↦ if t = none then .mainLock else .lock⟩

/-- `RBT_TRAFFIC_READ_START` and `RBT_TRAFFIC_READ_DONE`. -/
def RBT_TRAFFIC_READ_START : BitVec 64 := 2

def RBT_TRAFFIC_READ_DONE : BitVec 64 := 3

/-- `RBT_TRACE_TEST(1, op, x, 512)`: the arguments of the call. -/
def benchTrace (op : BitVec 64) (x : Int) : TraceArgs := ⟨2, BitVec.ofInt 64 x, 512, 1, op⟩

/-! ## The mutex -/

/-- The thread has the mutex. -/
def BenchPc.Holds : BenchPc → Prop
  | .ready | .condWait | .unlock | .mainTest | .mainUnlock | .broadcast => True
  | _ => False

/-- The thread has counted itself. -/
def BenchPc.Counted : BenchPc → Prop
  | .lock | .ready => False
  | _ => True

/-- The thread has not been woken. -/
def BenchPc.Waits : BenchPc → Prop
  | .lock | .ready | .condWait | .asleep => True
  | _ => False

/-- A point of the main thread of the first process before the signal. -/
def BenchPc.Main : BenchPc → Prop
  | .mainLock | .mainTest | .mainUnlock | .broadcast => True
  | _ => False

instance : DecidablePred BenchPc.Counted
  | .lock | .ready => .isFalse id
  | .condWait | .asleep | .awake | .unlock | .mainLock | .mainTest | .mainUnlock | .broadcast
  | .fetch | .start _ | .done _ | .finished => .isTrue trivial

@[simp] theorem BenchPc.holds_wake (pc : BenchPc) : pc.wake.Holds ↔ pc.Holds := by
  cases pc <;> rfl

@[simp] theorem BenchPc.counted_wake (pc : BenchPc) : pc.wake.Counted ↔ pc.Counted := by
  cases pc <;> rfl

/-- The mutex is with the thread that has it. -/
def Bench.Locked (s : Bench o) : Prop := ∀ t, s.mutex = some t ↔ (s.pcs t).Holds

/-- A thread moves and the mutex stays. -/
theorem Bench.Locked.goto {s : Bench o} (h : s.Locked) {t : o.Thread} {pc : BenchPc}
    (hpc : pc.Holds ↔ (s.pcs t).Holds) : (s.goto t pc).Locked := by
  intro u
  show s.mutex = some u ↔ (Function.update s.pcs t pc u).Holds
  rcases eq_or_ne u t with rfl | hne
  · rw [Function.update_self, hpc]
    exact h u
  · rw [Function.update_of_ne hne]
    exact h u

theorem Bench.Locked.acquire {s s' : Bench o} (h : s.Locked) {t : o.Thread} {pc : BenchPc}
    (hs : s.acquire t pc = some s') (hpc : pc.Holds) : s'.Locked := by
  unfold Bench.acquire at hs
  split at hs
  · rename_i hfree
    cases hs
    intro u
    show some t = some u ↔ (Function.update s.pcs t pc u).Holds
    rcases eq_or_ne u t with rfl | hne
    · rw [Function.update_self]
      exact iff_of_true rfl hpc
    · rw [Function.update_of_ne hne, ← h u, hfree]
      exact iff_of_false (fun h ↦ hne (Option.some.inj h).symm) (Option.some_ne_none u).symm
  · cases hs

theorem Bench.Locked.release {s : Bench o} (h : s.Locked) {t : o.Thread} {pc : BenchPc}
    (ht : (s.pcs t).Holds) (hpc : ¬ pc.Holds) : (s.release t pc).Locked := by
  intro u
  show none = some u ↔ (Function.update s.pcs t pc u).Holds
  rcases eq_or_ne u t with rfl | hne
  · rw [Function.update_self]
    exact iff_of_false (Option.some_ne_none u).symm hpc
  · rw [Function.update_of_ne hne, ← h u, (h t).2 ht]
    exact iff_of_false (Option.some_ne_none u).symm fun h ↦ hne (Option.some.inj h).symm

theorem Bench.Locked.step {s s' : Bench o} {e : BenchEvent o} (h : s.Locked)
    (hstep : (bench o).step s e = some s') : s'.Locked := by
  cases e with
  | spurious t =>
      simp only [bench, Bench.step] at hstep
      split at hstep
      · rename_i hpc
        cases hstep
        exact h.goto (by rw [hpc]; rfl)
      · cases hstep
  | step t =>
      simp only [bench, Bench.step] at hstep
      cases hpc : s.pcs t with
      | lock | awake | mainLock =>
          rw [hpc] at hstep
          exact h.acquire hstep trivial
      | condWait | unlock | mainUnlock =>
          rw [hpc] at hstep
          cases hstep
          exact h.release (by rw [hpc]; trivial) id
      | asleep | finished =>
          rw [hpc] at hstep
          cases hstep
      | ready | start x | done x =>
          rw [hpc] at hstep
          cases hstep
          exact h.goto (by rw [hpc]; rfl)
      | mainTest =>
          rw [hpc] at hstep
          cases hstep
          exact h.goto (by rw [hpc]; split <;> rfl)
      | fetch =>
          rw [hpc] at hstep
          cases hstep
          exact h.goto (by rw [hpc]; split <;> rfl)
      | broadcast =>
          rw [hpc] at hstep
          cases hstep
          intro u
          show s.mutex = some u ↔ (Function.update (fun u ↦ (s.pcs u).wake) t .unlock u).Holds
          rcases eq_or_ne u t with rfl | hne
          · rw [Function.update_self, h u, hpc]
            rfl
          · rw [Function.update_of_ne hne, BenchPc.holds_wake]
            exact h u

/-! ## The signal -/

theorem BenchOption.card_waiter (o : BenchOption) : Fintype.card o.Waiter = o.waiters := by
  obtain ⟨p, hp⟩ := Nat.exists_eq_succ_of_ne_zero o.processes_pos.ne'
  obtain ⟨t, ht⟩ := Nat.exists_eq_succ_of_ne_zero o.threads_pos.ne'
  simp only [BenchOption.Waiter, BenchOption.waiters, Fintype.card_sum, Fintype.card_prod,
    Fintype.card_fin, hp, ht, Nat.succ_sub_one, Nat.mul_succ]
  omega

/-- Where the threads are that wait for the signal. -/
def Bench.others (s : Bench o) : o.Waiter → BenchPc := fun w ↦ s.pcs (some w)

/-- What holds of the signal. -/
structure Bench.Barrier (s : Bench o) : Prop where
  locked : s.Locked
  ready : s.readyThreads = Census.census BenchPc.Counted s.others
  others : ∀ w, ¬ (s.pcs (some w)).Main
  first : ¬ (s.pcs none).Waits ∧ s.pcs none ≠ .awake
  all : s.pcs none = .broadcast → s.readyThreads = o.waiters
  gone : ¬ (s.pcs none).Main → ∀ w, ¬ (s.pcs (some w)).Waits

theorem Bench.Barrier.init (o : BenchOption) : (Bench.init o).Barrier where
  locked t := by
    cases t with
    | none => exact iff_of_false (Option.some_ne_none _).symm id
    | some w => exact iff_of_false (Option.some_ne_none _).symm id
  ready := (Census.census_eq_zero_iff.2 fun _ ↦ id).symm
  others _ := id
  first := ⟨id, fun h ↦ by cases h⟩
  all h := by cases h
  gone h := absurd trivial h

section

variable {s s' : Bench o} {t : o.Thread} {pc : BenchPc}

theorem BenchPc.counted_of_not_waits (h : ¬ pc.Waits) : pc.Counted := by
  cases pc <;> first | trivial | exact h trivial

/-- A thread moves. -/
theorem Bench.Barrier.move {old : BenchPc} (h : s.Barrier) (hlocked : s'.Locked)
    (hold : s.pcs t = old) (hpcs : s'.pcs = Function.update s.pcs t pc)
    (hmain : pc.Main ↔ old.Main) (hwaits : pc.Waits → old.Waits) (hawake : pc = .awake → old.Waits)
    (hcounted : old.Counted → pc.Counted)
    (hready : s'.readyThreads + (if old.Counted then 1 else 0) =
      s.readyThreads + if pc.Counted then 1 else 0)
    (hall : pc = .broadcast → s'.readyThreads = o.waiters) : s'.Barrier := by
  subst hold
  cases t with
  | none =>
      have hothers : s'.others = s.others := by
        funext w
        rw [Bench.others, hpcs]
        rfl
      have hnone : s'.pcs none = pc := by rw [hpcs, Function.update_self]
      have hsome : ∀ w, s'.pcs (some w) = s.pcs (some w) := congrFun hothers
      have hfirst : ¬ pc.Waits := fun hw ↦ h.first.1 (hwaits hw)
      have hold : (s.pcs none).Counted := BenchPc.counted_of_not_waits h.first.1
      rw [if_pos hold, if_pos (hcounted hold)] at hready
      refine ⟨hlocked, ?_, fun w ↦ ?_, ?_, fun hb ↦ hall (hnone ▸ hb), fun hm w ↦ ?_⟩
      · rw [hothers, ← h.ready]
        omega
      · rw [hsome]
        exact h.others w
      · rw [hnone]
        exact ⟨hfirst, fun ha ↦ h.first.1 (hawake ha)⟩
      · rw [hsome]
        rw [hnone, hmain] at hm
        exact h.gone hm w
  | some w =>
      have hothers : s'.others = Function.update s.others w pc := by
        funext v
        rw [Bench.others, hpcs]
        rcases eq_or_ne v w with rfl | hne
        · rw [Function.update_self, Function.update_self]
        · rw [Function.update_of_ne hne, Function.update_of_ne (fun h ↦ hne (Option.some.inj h))]
          rfl
      have hnone : s'.pcs none = s.pcs none := by
        rw [hpcs]
        rfl
      have hsome : ∀ (Q : BenchPc → Prop) {v}, Q pc → Q (s.pcs (some v)) →
          Q (s'.pcs (some v)) := by
        intro Q v hv hne
        have hv' : s'.pcs (some v) = Function.update s.others w pc v := congrFun hothers v
        rw [hv']
        rcases eq_or_ne v w with rfl | h
        · rw [Function.update_self]
          exact hv
        · rw [Function.update_of_ne h]
          exact hne
      have hcensus := Census.census_update (p := BenchPc.Counted) s.others w pc
      have hready' : s'.readyThreads = Census.census BenchPc.Counted s'.others := by
        have hold : s.others w = s.pcs (some w) := rfl
        rw [hold, ← h.ready] at hcensus
        rw [hothers]
        omega
      refine ⟨hlocked, hready', fun v ↦ ?_, hnone ▸ h.first, fun hb ↦ ?_, fun hm v ↦ ?_⟩
      · exact hsome (¬ ·.Main) (fun hp ↦ h.others w (hmain.1 hp)) (h.others v)
      · -- every thread has counted itself, so none does it now
        have hfull := h.all (hnone ▸ hb)
        have hcount : ∀ v, (s.others v).Counted := by
          rw [← Census.census_eq_card_iff, ← h.ready, hfull, o.card_waiter]
        have hw : (s.pcs (some w)).Counted := hcount w
        rw [if_pos hw, if_pos (hcounted hw)] at hready
        omega
      · exact hsome (¬ ·.Waits) (fun hp ↦ h.gone (hnone ▸ hm) w (hwaits hp)) (h.gone (hnone ▸ hm) v)

/-- The signal: every thread waits or has been woken, and the mutex is with the first one. -/
theorem Bench.Barrier.broadcast (h : s.Barrier) (hpc : s.pcs t = .broadcast)
    (hs' : s' = { s with pcs := Function.update (fun u ↦ (s.pcs u).wake) t .unlock })
    (hlocked : s'.Locked) : s'.Barrier := by
  obtain rfl : t = none := by
    cases t with
    | none => rfl
    | some w => exact absurd (by rw [hpc]; trivial) (h.others w)
  subst hs'
  have hcount : ∀ w, (s.others w).Counted := by
    rw [← Census.census_eq_card_iff, ← h.ready, h.all hpc, o.card_waiter]
  refine ⟨hlocked, ?_, fun w ↦ ?_, ⟨id, BenchPc.noConfusion⟩, BenchPc.noConfusion, fun _ w ↦ ?_⟩
  · show s.readyThreads = Census.census BenchPc.Counted fun w ↦ (s.others w).wake
    rw [h.all hpc, ← o.card_waiter, Eq.comm, Census.census_eq_card_iff]
    exact fun w ↦ (BenchPc.counted_wake _).2 (hcount w)
  · show ¬ (s.pcs (some w)).wake.Main
    have hw := h.others w
    cases hpw : s.pcs (some w) <;> rw [hpw] at hw <;> first | exact id | exact hw
  · show ¬ (s.pcs (some w)).wake.Waits
    have hw : (s.pcs (some w)).Counted := hcount w
    have hmutex : ¬ (s.pcs (some w)).Holds := by
      rw [← h.locked, (h.locked none).2 (by rw [hpc]; trivial)]
      exact fun h ↦ by cases h
    cases hpw : s.pcs (some w) <;> rw [hpw] at hw hmutex <;>
      first | exact id | exact hw.elim | exact (hmutex trivial).elim

theorem Bench.Barrier.step {e : BenchEvent o} (h : s.Barrier)
    (hstep : (bench o).step s e = some s') : s'.Barrier := by
  have hlocked := h.locked.step hstep
  cases e with
  | spurious t =>
      simp only [bench, Bench.step] at hstep
      split at hstep
      · rename_i hpc
        cases hstep
        exact h.move hlocked hpc rfl .rfl False.elim (fun _ ↦ trivial) (fun _ ↦ trivial) rfl
          BenchPc.noConfusion
      · cases hstep
  | step t =>
      simp only [bench, Bench.step] at hstep
      cases hpc : s.pcs t with
      | broadcast =>
          rw [hpc] at hstep
          exact h.broadcast hpc (Option.some.inj hstep).symm hlocked
      | lock | awake | mainLock =>
          rw [hpc] at hstep
          simp only [Bench.acquire] at hstep
          split at hstep
          · cases hstep
            exact h.move hlocked hpc rfl .rfl (fun h ↦ h) BenchPc.noConfusion (fun h ↦ h) rfl
              BenchPc.noConfusion
          · cases hstep
      | condWait | unlock | mainUnlock | start x | done x =>
          rw [hpc] at hstep
          cases hstep
          exact h.move hlocked hpc rfl .rfl (fun h ↦ h) BenchPc.noConfusion (fun h ↦ h) rfl
            BenchPc.noConfusion
      | ready =>
          rw [hpc] at hstep
          cases hstep
          exact h.move hlocked hpc rfl .rfl (fun h ↦ h) BenchPc.noConfusion (fun _ ↦ trivial) rfl
            BenchPc.noConfusion
      | asleep | finished =>
          rw [hpc] at hstep
          cases hstep
      | fetch =>
          rw [hpc] at hstep
          cases hstep
          exact h.move hlocked hpc rfl (by split <;> exact .rfl) (by split <;> exact fun h ↦ h)
            (by split <;> exact BenchPc.noConfusion) (by split <;> exact fun h ↦ h)
            (by split <;> rfl) (by split <;> exact BenchPc.noConfusion)
      | mainTest =>
          rw [hpc] at hstep
          cases hstep
          refine h.move hlocked hpc rfl (by split <;> exact .rfl) (by split <;> exact fun h ↦ h)
            (by split <;> exact BenchPc.noConfusion) (by split <;> exact fun h ↦ h)
            (by split <;> rfl) ?_
          split
          · exact BenchPc.noConfusion
          · rename_i hlt
            intro _
            have hle := Census.census_le_card (p := BenchPc.Counted) s.others
            rw [← h.ready, o.card_waiter] at hle
            exact le_antisymm hle (not_lt.1 hlt)

/-- Nobody has been woken before the signal. -/
def Bench.Held (s : Bench o) : Prop := (s.pcs none).Main → ∀ w, (s.pcs (some w)).Waits

/-- Without a wait that ends on its own, only the signal wakes. -/
theorem Bench.Held.step {t : o.Thread} (h : s.Held) (hb : s.Barrier)
    (hstep : (bench o).step s (.step t) = some s') : s'.Held := by
  have hmove : ∀ {pc}, s'.pcs = Function.update s.pcs t pc →
      (t = none → pc.Main → (s.pcs none).Main) → (t ≠ none → (s.pcs t).Waits → pc.Waits) →
      s'.Held := by
    intro pc hpcs hnone hsome hmain w
    cases t with
    | none =>
        rw [hpcs, Function.update_self] at hmain
        rw [hpcs]
        exact h (hnone rfl hmain) w
    | some v =>
        have hm : (s.pcs none).Main := by
          rw [hpcs] at hmain
          exact hmain
        rw [hpcs]
        rcases eq_or_ne w v with rfl | hne
        · rw [Function.update_self]
          exact hsome (Option.some_ne_none _) (h hm w)
        · rw [Function.update_of_ne fun h ↦ hne (Option.some.inj h)]
          exact h hm w
  simp only [bench, Bench.step] at hstep
  cases hpc : s.pcs t with
  | lock | awake | mainLock =>
      rw [hpc] at hstep
      simp only [Bench.acquire] at hstep
      split at hstep
      · cases hstep
        refine hmove rfl (fun ht hm ↦ ?_) fun _ hw ↦ ?_
        · subst ht
          rw [hpc]
          exact hm
        · rw [hpc] at hw
          exact hw
      · cases hstep
  | condWait | unlock | mainUnlock | start x | done x | ready =>
      rw [hpc] at hstep
      cases hstep
      refine hmove rfl (fun ht hm ↦ ?_) fun _ hw ↦ ?_
      · subst ht
        rw [hpc]
        exact hm
      · rw [hpc] at hw
        exact hw
  | asleep | finished =>
      rw [hpc] at hstep
      cases hstep
  | fetch =>
      rw [hpc] at hstep
      cases hstep
      refine hmove rfl (fun ht hm ↦ ?_) fun _ hw ↦ ?_
      · split at hm <;> exact hm.elim
      · rw [hpc] at hw
        exact hw.elim
  | mainTest =>
      rw [hpc] at hstep
      cases hstep
      refine hmove rfl (fun ht _ ↦ ?_) fun _ hw ↦ ?_
      · subst ht
        rw [hpc]
        trivial
      · rw [hpc] at hw
        exact hw.elim
  | broadcast =>
      rw [hpc] at hstep
      cases hstep
      cases t with
      | none => exact fun hm ↦ hm.elim
      | some w => exact absurd (by rw [hpc]; trivial) (hb.others w)

end

theorem barrier_of_init {s : Bench o} {es : List (BenchEvent o)}
    (hrun : (bench o).run (.init o) es = some s) : s.Barrier :=
  Machine.run_invariant (P := Bench.Barrier) (fun _ _ _ h ↦ h.step) (.init o) hrun

end

/-- `rbtbench -t 2 -n 1`. -/
def twoThreads : BenchOption := ⟨1, 2, 1, by decide, by decide, by decide, by decide, by decide⟩

/-- The thread that the process creates. -/
def twoThreads.created : twoThreads.Thread := some (.inr (⟨0, by decide⟩, ⟨0, by decide⟩))

/-- The created thread waits, the main thread gives the signal and traces the number, and the
created thread finds none left. -/
def twoThreads.events : List (BenchEvent twoThreads) :=
  List.replicate 3 (.step created) ++ List.replicate 8 (.step none) ++
    List.replicate 3 (.step created)

end Rbtrace
