import Mathlib.Data.Nat.Count
import Rbtrace.Bench

/-!
# What a benchmark traces

The counter of `rbtbench` is an `int` that all threads increment, also those that find no more
numbers; so it goes up to `nr_traces` and the number of threads.  Up to there a benchmark
traces every number once at its start and once at its end (`traces_iff`), and comes to its end
(`finishes_of_run`).  One more, and the counter wraps: numbers are traced again.
-/

namespace Rbtrace

open CInt Census

section

variable {o : BenchOption} {s s' : Bench o} {t : o.Thread}

/-! ## What a step does for the numbers -/

/-- The number of all threads. -/
def BenchOption.threads (o : BenchOption) : Nat := o.nrProcesses * o.nrThreads

theorem BenchOption.card_thread (o : BenchOption) : Fintype.card o.Thread = o.threads := by
  have hpos := Nat.mul_pos o.processes_pos o.threads_pos
  rw [Fintype.card_option, o.card_waiter, BenchOption.waiters, BenchOption.threads]
  omega

/-- A call of `rbtrace`: the operation and the number. -/
abbrev BenchCall : Type := BitVec 64 × Int

/-- The calls as they are made. -/
def benchTraces (calls : List BenchCall) : List TraceArgs := calls.map fun c ↦ benchTrace c.1 c.2

/-- The number a thread has drawn, and what is left to trace of it. -/
inductive Job where
  | idle
  | start (x : Int)
  | done (x : Int)
  | finished
deriving DecidableEq

/-- The job of a thread. -/
def BenchPc.job : BenchPc → Job
  | .start x => .start x
  | .done x => .done x
  | .finished => .finished
  | _ => .idle

/-- The jobs of all threads. -/
def Bench.jobs (s : Bench o) : o.Thread → Job := fun t ↦ (s.pcs t).job

/-- What a step does for the numbers. -/
inductive Bench.Works (s s' : Bench o) : List BenchCall → Prop
  | rests (hx : s'.x = s.x) (hjobs : s'.jobs = s.jobs) : Works s s' []
  | draws (t : o.Thread) (h : s.jobs t = .idle) (hx : s'.x = i32 (s.x + 1))
      (hjobs : s'.jobs = Function.update s.jobs t
        (if i32 (s.x + 1) ≤ o.nrTraces then .start (i32 (s.x + 1)) else .finished)) : Works s s' []
  | starts (t : o.Thread) (x : Int) (h : s.jobs t = .start x) (hx : s'.x = s.x)
      (hjobs : s'.jobs = Function.update s.jobs t (.done x)) :
      Works s s' [(RBT_TRAFFIC_READ_START, x)]
  | ends (t : o.Thread) (x : Int) (h : s.jobs t = .done x) (hx : s'.x = s.x)
      (hjobs : s'.jobs = Function.update s.jobs t .idle) : Works s s' [(RBT_TRAFFIC_READ_DONE, x)]

/-- The call of `rbtrace` that a step makes. -/
def benchCalls (s : Bench o) : BenchEvent o → List BenchCall
  | .spurious _ => []
  | .step t =>
      match s.pcs t with
      | .start x => [(RBT_TRAFFIC_READ_START, x)]
      | .done x => [(RBT_TRAFFIC_READ_DONE, x)]
      | _ => []

theorem Bench.jobs_update (pcs : o.Thread → BenchPc) (t : o.Thread) (pc : BenchPc) :
    (fun u ↦ (Function.update pcs t pc u).job) =
      Function.update (fun u ↦ (pcs u).job) t pc.job := by
  funext u
  rcases eq_or_ne u t with rfl | hne
  · rw [Function.update_self, Function.update_self]
  · rw [Function.update_of_ne hne, Function.update_of_ne hne]

theorem BenchPc.job_wake (pc : BenchPc) : pc.wake.job = pc.job := by
  cases pc <;> rfl

theorem Bench.works {e : BenchEvent o} (hstep : (bench o).step s e = some s') :
    s.Works s' (benchCalls s e) := by
  -- a thread that has no number before and after
  have hrests : ∀ {t pc}, (s.pcs t).job = .idle → pc.job = .idle → s'.x = s.x →
      s'.pcs = Function.update s.pcs t pc → s.Works s' [] := by
    intro t pc hold hnew hx hpcs
    refine .rests hx ?_
    unfold Bench.jobs
    rw [hpcs, Bench.jobs_update, hnew, ← hold]
    exact Function.update_eq_self t _
  cases e with
  | spurious t =>
      simp only [bench, Bench.step] at hstep
      split at hstep
      · rename_i hpc
        cases hstep
        exact hrests (by rw [hpc]; rfl) rfl rfl rfl
      · cases hstep
  | step t =>
      simp only [bench, Bench.step] at hstep
      simp only [benchCalls]
      cases hpc : s.pcs t with
      | lock | awake | mainLock =>
          rw [hpc] at hstep
          simp only [Bench.acquire] at hstep
          split at hstep
          · cases hstep
            exact hrests (by rw [hpc]; rfl) rfl rfl rfl
          · cases hstep
      | condWait | unlock | mainUnlock | ready =>
          rw [hpc] at hstep
          cases hstep
          exact hrests (by rw [hpc]; rfl) rfl rfl rfl
      | asleep | finished =>
          rw [hpc] at hstep
          cases hstep
      | mainTest =>
          rw [hpc] at hstep
          cases hstep
          exact hrests (by rw [hpc]; rfl) (by split <;> rfl) rfl rfl
      | broadcast =>
          rw [hpc] at hstep
          cases hstep
          refine .rests rfl ?_
          unfold Bench.jobs
          rw [Bench.jobs_update]
          simp only [BenchPc.job_wake]
          refine Function.update_eq_self_iff.2 ?_
          rw [hpc]
          rfl
      | fetch =>
          rw [hpc] at hstep
          cases hstep
          refine .draws t (by rw [Bench.jobs, hpc]; rfl) rfl ?_
          refine (Bench.jobs_update _ _ _).trans ?_
          split <;> rfl
      | start x =>
          rw [hpc] at hstep
          cases hstep
          exact .starts t x (by rw [Bench.jobs, hpc]; rfl) rfl (Bench.jobs_update _ _ _)
      | done x =>
          rw [hpc] at hstep
          cases hstep
          exact .ends t x (by rw [Bench.jobs, hpc]; rfl) rfl (Bench.jobs_update _ _ _)

/-! ## What the calls have to do with the counter -/

/-- How often a number comes up when the counter is incremented `c` times. -/
def hits (c : Nat) (v : Int) : Nat := Nat.count (fun k ↦ i32 (k + 1) = v) c

/-- How often the counter is past the end. -/
def misses (n c : Nat) : Nat := Nat.count (fun k ↦ (n : Int) < i32 (k + 1)) c

/-- What a state and the calls so far have to do with the counter. -/
structure Bench.Counts (s : Bench o) (calls : List BenchCall) (c : Nat) : Prop where
  x : s.x = i32 c
  starts : ∀ v ≤ (o.nrTraces : Int), calls.count (RBT_TRAFFIC_READ_START, v) +
    census (· = .start v) s.jobs = hits c v
  dones : ∀ v ≤ (o.nrTraces : Int), calls.count (RBT_TRAFFIC_READ_DONE, v) +
    census (fun j ↦ j = .start v ∨ j = .done v) s.jobs = hits c v
  finished : census (· = .finished) s.jobs = misses o.nrTraces c
  last : ∀ k < c, misses o.nrTraces k < o.threads
  calls_le : ∀ call ∈ calls, (call.1 = RBT_TRAFFIC_READ_START ∨ call.1 = RBT_TRAFFIC_READ_DONE) ∧
    call.2 ≤ o.nrTraces
  jobs_le : ∀ t v, s.jobs t = .start v ∨ s.jobs t = .done v → v ≤ o.nrTraces
  begun : ∀ t v, s.jobs t = .done v → (RBT_TRAFFIC_READ_START, v) ∈ calls
  order : ∀ v, (RBT_TRAFFIC_READ_DONE, v) ∈ calls →
    [(RBT_TRAFFIC_READ_START, v), (RBT_TRAFFIC_READ_DONE, v)].Sublist calls

theorem i32_i32_add_one (x : Int) : i32 (i32 x + 1) = i32 (x + 1) := by
  unfold i32
  omega

theorem Bench.Counts.init (o : BenchOption) : (Bench.init o).Counts [] 0 := by
  have hjobs : (Bench.init o).jobs = fun _ ↦ .idle := by
    funext t
    cases t <;> rfl
  have hcensus : ∀ (p : Job → Prop) [DecidablePred p], ¬ p .idle →
      census p (Bench.init o).jobs = 0 := by
    intro p _ hp
    rw [hjobs, census_eq_zero_iff]
    exact fun _ ↦ hp
  refine ⟨rfl, fun v _ ↦ ?_, fun v _ ↦ ?_, ?_, fun _ h ↦ ?_, fun _ h ↦ ?_, fun t v h ↦ ?_,
    fun t v h ↦ ?_, fun _ h ↦ ?_⟩
  · rw [hcensus _ (by simp)]
    rfl
  · rw [hcensus _ (by simp)]
    rfl
  · rw [hcensus _ (by simp)]
    rfl
  · cases h
  · cases h
  · rw [hjobs] at h
    rcases h with h | h <;> cases h
  · rw [hjobs] at h
    cases h
  · cases h

/-- The jobs of all threads after one of them has got another. -/
theorem Bench.jobs_cases {j : Job} (hjobs : s'.jobs = Function.update s.jobs t j) (u : o.Thread) :
    s'.jobs u = j ∨ s'.jobs u = s.jobs u := by
  rw [hjobs]
  rcases eq_or_ne u t with rfl | hne
  · exact .inl (Function.update_self ..)
  · exact .inr (Function.update_of_ne hne ..)

/-- A number is drawn, or there is none left. -/
theorem Bench.Counts.draw {calls : List BenchCall} {c : Nat} (h : s.Counts calls c)
    (hidle : s.jobs t = .idle) (hx : s'.x = i32 (s.x + 1))
    (hjobs : s'.jobs = Function.update s.jobs t
      (if i32 (s.x + 1) ≤ o.nrTraces then .start (i32 (s.x + 1)) else .finished)) :
    s'.Counts calls (c + 1) := by
  have hnext : i32 (s.x + 1) = i32 (c + 1) := by rw [h.x, i32_i32_add_one]
  rw [hnext] at hx hjobs
  generalize hy : i32 (c + 1) = y at hx hjobs
  have hhits : ∀ v, hits (c + 1) v = hits c v + if y = v then 1 else 0 := by
    intro v
    rw [hits, Nat.count_succ, hy]
    rfl
  have hmiss : misses o.nrTraces (c + 1) =
      misses o.nrTraces c + if (o.nrTraces : Int) < y then 1 else 0 := by
    rw [misses, Nat.count_succ, hy]
    rfl
  have hcensus := fun (p : Job → Prop) [DecidablePred p] (j : Job) ↦
    census_update (p := p) s.jobs t j
  simp only [hidle] at hcensus
  -- the thread that draws is not through
  have hlast : ∀ k < c + 1, misses o.nrTraces k < o.threads := by
    intro k hk
    refine lt_of_le_of_lt (Nat.count_monotone _ (Nat.le_of_lt_succ hk)) ?_
    change misses o.nrTraces c < o.threads
    rw [← h.finished, ← o.card_thread]
    refine lt_of_le_of_ne (census_le_card _) fun hall ↦ ?_
    rw [census_eq_card_iff] at hall
    exact absurd (hidle.symm.trans (hall t)) Job.noConfusion
  by_cases hle : y ≤ o.nrTraces
  · rw [if_pos hle] at hjobs
    rw [if_neg (not_lt.2 hle)] at hmiss
    refine ⟨by rw [hx, ← hy]; rfl, fun v hv ↦ ?_, fun v hv ↦ ?_, ?_, hlast, h.calls_le,
      fun u v hu ↦ ?_, fun u v hu ↦ ?_, h.order⟩
    · have hold := h.starts v hv
      have hnew := hcensus (· = .start v) (.start y)
      simp only [reduceCtorEq, if_false, Job.start.injEq] at hnew
      rw [hjobs, hhits]
      omega
    · have hold := h.dones v hv
      have hnew := hcensus (fun j ↦ j = .start v ∨ j = .done v) (.start y)
      simp only [reduceCtorEq, or_false, if_false, Job.start.injEq] at hnew
      rw [hjobs, hhits]
      omega
    · have hnew := hcensus (· = .finished) (.start y)
      simp only [reduceCtorEq, if_false] at hnew
      rw [hjobs, hmiss, ← h.finished]
      omega
    · rcases Bench.jobs_cases hjobs u with hj | hj
      · rw [hj] at hu
        rcases hu with hu | hu <;> cases hu
        exact hle
      · exact h.jobs_le u v (hj ▸ hu)
    · rcases Bench.jobs_cases hjobs u with hj | hj
      · rw [hj] at hu
        cases hu
      · exact h.begun u v (hj ▸ hu)
  · rw [if_neg hle] at hjobs
    rw [if_pos (not_le.1 hle)] at hmiss
    have hne : ∀ v ≤ (o.nrTraces : Int), y ≠ v := fun v hv h ↦ hle (h ▸ hv)
    refine ⟨by rw [hx, ← hy]; rfl, fun v hv ↦ ?_, fun v hv ↦ ?_, ?_, hlast, h.calls_le,
      fun u v hu ↦ ?_, fun u v hu ↦ ?_, h.order⟩
    · have hold := h.starts v hv
      have hnew := hcensus (· = .start v) .finished
      simp only [reduceCtorEq, if_false] at hnew
      rw [hjobs, hhits, if_neg (hne v hv)]
      omega
    · have hold := h.dones v hv
      have hnew := hcensus (fun j ↦ j = .start v ∨ j = .done v) .finished
      simp only [reduceCtorEq, or_false, if_false] at hnew
      rw [hjobs, hhits, if_neg (hne v hv)]
      omega
    · have hnew := hcensus (· = .finished) .finished
      simp only [reduceCtorEq, if_false, if_true] at hnew
      rw [hjobs, hmiss, ← h.finished]
      omega
    · rcases Bench.jobs_cases hjobs u with hj | hj
      · rw [hj] at hu
        rcases hu with hu | hu <;> cases hu
      · exact h.jobs_le u v (hj ▸ hu)
    · rcases Bench.jobs_cases hjobs u with hj | hj
      · rw [hj] at hu
        cases hu
      · exact h.begun u v (hj ▸ hu)

theorem read_start_ne_done : RBT_TRAFFIC_READ_START ≠ RBT_TRAFFIC_READ_DONE := by
  decide

/-- The start of a number is traced. -/
theorem Bench.Counts.start {calls : List BenchCall} {c : Nat} {y : Int} (h : s.Counts calls c)
    (hj : s.jobs t = .start y) (hx : s'.x = s.x)
    (hjobs : s'.jobs = Function.update s.jobs t (.done y)) :
    s'.Counts (calls ++ [(RBT_TRAFFIC_READ_START, y)]) c := by
  have hcensus := fun (p : Job → Prop) [DecidablePred p] ↦
    census_update (p := p) s.jobs t (.done y)
  simp only [hj] at hcensus
  have hle := h.jobs_le t y (.inl hj)
  refine ⟨hx.trans h.x, fun v hv ↦ ?_, fun v hv ↦ ?_, ?_, h.last, fun call hcall ↦ ?_,
    fun u v hu ↦ ?_, fun u v hu ↦ ?_, fun v hv ↦ ?_⟩
  · have hold := h.starts v hv
    have hnew := hcensus (· = .start v)
    simp only [reduceCtorEq, if_false, Job.start.injEq] at hnew
    rw [hjobs, List.count_append, List.count_singleton]
    simp only [beq_iff_eq, Prod.mk.injEq, true_and]
    omega
  · have hold := h.dones v hv
    have hnew := hcensus (fun j ↦ j = .start v ∨ j = .done v)
    simp only [reduceCtorEq, or_false, false_or, Job.start.injEq, Job.done.injEq] at hnew
    rw [hjobs, List.count_append, List.count_singleton, if_neg (by simp [read_start_ne_done])]
    omega
  · have hnew := hcensus (· = .finished)
    simp only [reduceCtorEq, if_false] at hnew
    rw [hjobs, ← h.finished]
    omega
  · rcases List.mem_append.1 hcall with hcall | hcall
    · exact h.calls_le call hcall
    · rw [List.mem_singleton.1 hcall]
      exact ⟨.inl rfl, hle⟩
  · rcases Bench.jobs_cases hjobs u with hj | hj
    · rw [hj] at hu
      rcases hu with hu | hu <;> cases hu
      exact hle
    · exact h.jobs_le u v (hj ▸ hu)
  · rcases Bench.jobs_cases hjobs u with hj | hj
    · rw [hj] at hu
      cases hu
      exact List.mem_append_right _ (List.mem_singleton_self _)
    · exact List.mem_append_left _ (h.begun u v (hj ▸ hu))
  · rcases List.mem_append.1 hv with hv | hv
    · exact (h.order v hv).trans (List.sublist_append_left ..)
    · exact absurd (congrArg Prod.fst (List.mem_singleton.1 hv)) read_start_ne_done.symm

/-- The end of a number is traced. -/
theorem Bench.Counts.stop {calls : List BenchCall} {c : Nat} {y : Int} (h : s.Counts calls c)
    (hj : s.jobs t = .done y) (hx : s'.x = s.x)
    (hjobs : s'.jobs = Function.update s.jobs t .idle) :
    s'.Counts (calls ++ [(RBT_TRAFFIC_READ_DONE, y)]) c := by
  have hcensus := fun (p : Job → Prop) [DecidablePred p] ↦ census_update (p := p) s.jobs t .idle
  simp only [hj] at hcensus
  refine ⟨hx.trans h.x, fun v hv ↦ ?_, fun v hv ↦ ?_, ?_, h.last, fun call hcall ↦ ?_,
    fun u v hu ↦ ?_, fun u v hu ↦ ?_, fun v hv ↦ ?_⟩
  · have hold := h.starts v hv
    have hnew := hcensus (· = .start v)
    simp only [reduceCtorEq, if_false] at hnew
    rw [hjobs, List.count_append, List.count_singleton, if_neg (by simp [read_start_ne_done.symm])]
    omega
  · have hold := h.dones v hv
    have hnew := hcensus (fun j ↦ j = .start v ∨ j = .done v)
    simp only [reduceCtorEq, false_or, if_false, Job.done.injEq] at hnew
    rw [hjobs, List.count_append, List.count_singleton]
    simp only [beq_iff_eq, Prod.mk.injEq, true_and]
    omega
  · have hnew := hcensus (· = .finished)
    simp only [reduceCtorEq, if_false] at hnew
    rw [hjobs, ← h.finished]
    omega
  · rcases List.mem_append.1 hcall with hcall | hcall
    · exact h.calls_le call hcall
    · rw [List.mem_singleton.1 hcall]
      exact ⟨.inr rfl, h.jobs_le t y (.inr hj)⟩
  · rcases Bench.jobs_cases hjobs u with hj | hj
    · rw [hj] at hu
      rcases hu with hu | hu <;> cases hu
    · exact h.jobs_le u v (hj ▸ hu)
  · rcases Bench.jobs_cases hjobs u with hj | hj
    · rw [hj] at hu
      cases hu
    · exact List.mem_append_left _ (h.begun u v (hj ▸ hu))
  · rcases List.mem_append.1 hv with hv | hv
    · exact (h.order v hv).trans (List.sublist_append_left ..)
    · cases List.mem_singleton.1 hv
      exact (List.singleton_sublist.2 (h.begun t y hj)).append (.refl _)

/-- Every step keeps the counts. -/
theorem Bench.Counts.step {calls : List BenchCall} {c : Nat} {e : BenchEvent o}
    (h : s.Counts calls c) (hstep : (bench o).step s e = some s') :
    ∃ c', s'.Counts (calls ++ benchCalls s e) c' := by
  have hworks := Bench.works hstep
  generalize benchCalls s e = new at hworks
  cases hworks with
  | rests hx hjobs =>
      refine ⟨c, ?_⟩
      rw [List.append_nil]
      obtain ⟨hcx, hs, hd, hf, hl, hc, hj, hb, ho⟩ := h
      rw [← hx] at hcx
      rw [← hjobs] at hs hd hf hj hb
      exact ⟨hcx, hs, hd, hf, hl, hc, hj, hb, ho⟩
  | draws t hj hx hjobs =>
      rw [List.append_nil]
      exact ⟨c + 1, h.draw hj hx hjobs⟩
  | starts t y hj hx hjobs => exact ⟨c, h.start hj hx hjobs⟩
  | ends t y hj hx hjobs => exact ⟨c, h.stop hj hx hjobs⟩

theorem counts_of_run {es : List (BenchEvent o)} (hrun : (bench o).run (.init o) es = some s) :
    ∃ c, s.Counts ((bench o).collect benchCalls (.init o) es) c :=
  ((bench o).guarded_true _ _).collect_invariant (P := fun s calls ↦ ∃ c, s.Counts calls c)
    (fun _ _ _ _ ⟨_, h⟩ _ hstep ↦ h.step hstep) (h := []) ⟨0, .init o⟩ hrun

/-! ## Which numbers come up -/

theorem misses_of_lt {n c : Nat} (hc : c < 2 ^ 31) : misses n c = c - n := by
  induction c with
  | zero =>
      rw [Nat.zero_sub]
      rfl
  | succ c ih =>
      have hnext : i32 ((c : Int) + 1) = c + 1 := i32_of_range (by omega) (by omega)
      rw [misses, Nat.count_succ, hnext]
      change misses n c + _ = _
      rw [ih (by omega)]
      split <;> omega

theorem hits_of_lt {c : Nat} (hc : c < 2 ^ 31) (v : Int) :
    hits c v = if 1 ≤ v ∧ v ≤ c then 1 else 0 := by
  induction c with
  | zero =>
      rw [if_neg (by omega)]
      rfl
  | succ c ih =>
      have hnext : i32 ((c : Int) + 1) = c + 1 := i32_of_range (by omega) (by omega)
      rw [hits, Nat.count_succ, hnext]
      change hits c v + _ = _
      rw [ih (by omega)]
      split_ifs <;> omega

/-- Past the range of `int` the smallest number comes up. -/
theorem hits_pos {c : Nat} (hc : 2 ^ 31 ≤ c) : 0 < hits c (-2 ^ 31) := by
  obtain ⟨m, hm⟩ : ∃ m, m + 1 = 2 ^ 31 := ⟨2 ^ 31 - 1, by norm_num⟩
  have hlast : i32 ((m : Int) + 1) = -2 ^ 31 := by
    unfold i32
    omega
  refine lt_of_lt_of_le ?_ (Nat.count_monotone _ (hm.trans_le hc))
  rw [Nat.count_succ, if_pos hlast]
  exact Nat.succ_pos _

/-- What is to be traced: every number at its start and at its end. -/
def benchPlan (n : Nat) : List BenchCall :=
  (List.range n).flatMap fun k : Nat ↦
    [(RBT_TRAFFIC_READ_START, (k : Int) + 1), (RBT_TRAFFIC_READ_DONE, (k : Int) + 1)]

theorem mem_benchPlan {n : Nat} {call : BenchCall} : call ∈ benchPlan n ↔
    (call.1 = RBT_TRAFFIC_READ_START ∨ call.1 = RBT_TRAFFIC_READ_DONE) ∧
      1 ≤ call.2 ∧ call.2 ≤ n := by
  obtain ⟨op, v⟩ := call
  simp only [benchPlan, List.mem_flatMap, List.mem_range, List.mem_cons, Prod.mk.injEq,
    List.not_mem_nil, or_false]
  constructor
  · rintro ⟨k, hk, ⟨rfl, rfl⟩ | ⟨rfl, rfl⟩⟩
    · exact ⟨.inl rfl, by omega, by omega⟩
    · exact ⟨.inr rfl, by omega, by omega⟩
  · rintro ⟨hop, hpos, hle⟩
    refine ⟨(v - 1).toNat, by omega, hop.imp (fun h ↦ ⟨h, ?_⟩) fun h ↦ ⟨h, ?_⟩⟩ <;> omega

theorem nodup_benchPlan (n : Nat) : (benchPlan n).Nodup := by
  refine List.nodup_flatMap.2 ⟨fun k _ ↦ ?_, ?_⟩
  · refine List.nodup_cons.2 ⟨fun h ↦ ?_, List.nodup_singleton _⟩
    exact read_start_ne_done (congrArg Prod.fst (List.mem_singleton.1 h))
  · refine List.Pairwise.imp (fun {k l} hkl ↦ ?_) (List.nodup_range (n := n))
    intro call hk hl
    simp only [List.mem_cons, List.not_mem_nil, or_false] at hk hl
    have hk2 : call.2 = k + 1 := by rcases hk with rfl | rfl <;> rfl
    have hl2 : call.2 = l + 1 := by rcases hl with rfl | rfl <;> rfl
    omega

/-- How often a call is made, of a benchmark that is through. -/
theorem Bench.Counts.count_of_finished {calls : List BenchCall} {c : Nat} (h : s.Counts calls c)
    (hfin : ∀ t, s.pcs t = .finished) {v : Int} (hv : v ≤ o.nrTraces) :
    calls.count (RBT_TRAFFIC_READ_START, v) = hits c v ∧
      calls.count (RBT_TRAFFIC_READ_DONE, v) = hits c v := by
  have hjobs : ∀ t, s.jobs t = .finished := fun t ↦ congrArg BenchPc.job (hfin t)
  constructor
  · rw [← h.starts v hv, census_eq_zero_iff.2 fun t ↦ by rw [hjobs]; exact Job.noConfusion,
      Nat.add_zero]
  · rw [← h.dones v hv, census_eq_zero_iff.2 fun t ↦ by rw [hjobs]; simp, Nat.add_zero]

/-- How far the counter has been incremented when all threads are through. -/
theorem Bench.Counts.misses_of_finished {calls : List BenchCall} {c : Nat}
    (h : s.Counts calls c) (hfin : ∀ t, s.pcs t = .finished) :
    misses o.nrTraces c = o.threads := by
  rw [← h.finished, ← o.card_thread, census_eq_card_iff]
  exact fun t ↦ congrArg BenchPc.job (hfin t)

/-- The counter stays in the range of `int`. -/
theorem Bench.Counts.lt {calls : List BenchCall} {c : Nat} (h : s.Counts calls c)
    (hlt : o.nrTraces + o.threads < 2 ^ 31) : c < 2 ^ 31 := by
  have hpos : 0 < o.threads := Nat.mul_pos o.processes_pos o.threads_pos
  by_contra hge
  have hlast := h.last (2 ^ 31 - 1) (by omega)
  rw [misses_of_lt (by omega)] at hlast
  omega

/-- The calls of a benchmark that is through, if the counter has not overflowed. -/
theorem Bench.Counts.perm_benchPlan {calls : List BenchCall} {c : Nat} (h : s.Counts calls c)
    (hfin : ∀ t, s.pcs t = .finished) (hlt : o.nrTraces + o.threads < 2 ^ 31) :
    calls.Perm (benchPlan o.nrTraces) := by
  have hpos : 0 < o.threads := Nat.mul_pos o.processes_pos o.threads_pos
  have hc := h.lt hlt
  have hmisses := h.misses_of_finished hfin
  rw [misses_of_lt hc] at hmisses
  refine (List.perm_iff_count).2 fun call ↦ ?_
  rw [(nodup_benchPlan _).count]
  by_cases hcall : (call.1 = RBT_TRAFFIC_READ_START ∨ call.1 = RBT_TRAFFIC_READ_DONE) ∧
      call.2 ≤ o.nrTraces
  · have hcount : calls.count call = hits c call.2 := by
      obtain ⟨op, v⟩ := call
      obtain ⟨rfl | rfl, hv⟩ := hcall
      · exact (h.count_of_finished hfin hv).1
      · exact (h.count_of_finished hfin hv).2
    rw [hcount, hits_of_lt hc]
    refine if_congr (Iff.trans ?_ mem_benchPlan.symm) rfl rfl
    exact ⟨fun hv ↦ ⟨hcall.1, hv.1, hcall.2⟩, fun hv ↦ ⟨hv.2.1, by omega⟩⟩
  · have hnot : call ∉ benchPlan o.nrTraces := fun hmem ↦
      hcall ((mem_benchPlan.1 hmem).imp_right And.right)
    rw [if_neg hnot,
      List.count_eq_zero_of_not_mem fun hmem ↦ hcall (h.calls_le call hmem)]

/-- **Every number is traced twice.**  In whatever order the threads of all processes take
turns: when all of them are through, the calls of `rbtrace` are, in some order, one for the
start and one for the end of each of the numbers `1 … nr_traces`, exactly if the numbers and
the threads together are less than `2 ^ 31`.  And the start of a number is always traced before
its end. -/
theorem traces_iff {es : List (BenchEvent o)} (hrun : (bench o).run (.init o) es = some s)
    (hfin : ∀ t, s.pcs t = .finished) :
    ((benchTraces ((bench o).collect benchCalls (.init o) es)).Perm
        (benchTraces (benchPlan o.nrTraces)) ↔ o.nrTraces + o.threads < 2 ^ 31) ∧
      ∀ v, (RBT_TRAFFIC_READ_DONE, v) ∈ (bench o).collect benchCalls (.init o) es →
        [(RBT_TRAFFIC_READ_START, v), (RBT_TRAFFIC_READ_DONE, v)].Sublist
          ((bench o).collect benchCalls (.init o) es) := by
  obtain ⟨c, h⟩ := counts_of_run hrun
  generalize (bench o).collect benchCalls (.init o) es = calls at h
  refine ⟨⟨fun hperm ↦ ?_, fun hlt ↦ ?_⟩, h.order⟩
  · by_contra hge
    have hmisses := h.misses_of_finished hfin
    have hc : 2 ^ 31 ≤ c := by
      by_contra hlt
      rw [misses_of_lt (by omega)] at hmisses
      have := o.traces_lt
      omega
    -- the smallest number has been traced
    have hle : (-2 ^ 31 : Int) ≤ o.nrTraces := by omega
    have hmem : (RBT_TRAFFIC_READ_START, -2 ^ 31) ∈ calls := by
      rw [← List.count_pos_iff, (h.count_of_finished hfin hle).1]
      exact hits_pos hc
    have hplan := hperm.subset (List.mem_map_of_mem hmem)
    obtain ⟨⟨op, v⟩, hv, heq⟩ := List.mem_map.1 hplan
    obtain ⟨-, hpos, hvle⟩ := mem_benchPlan.1 hv
    have ha0 := congrArg (fun a ↦ a.a0.toInt) heq
    have hlt := o.traces_lt
    simp only [benchTrace, BitVec.toInt_ofInt] at ha0
    simp only at hpos hvle
    rw [Int.bmod_eq_of_le (by omega) (by omega), Int.bmod_eq_of_le (by omega) (by omega)] at ha0
    omega
  · exact (h.perm_benchPlan hfin hlt).map _

end

theorem traces_twoThreads :
    (benchTraces ((bench twoThreads).collect benchCalls (.init _) twoThreads.events)).Perm
      (benchTraces (benchPlan 1)) := by
  have hfin : ((bench twoThreads).run (.init _) twoThreads.events).map
      (fun s ↦ decide (∀ t, s.pcs t = .finished)) = some true := by decide +kernel
  obtain ⟨s, hs, hpcs⟩ := Option.map_eq_some_iff.1 hfin
  exact (traces_iff hs (of_decide_eq_true hpcs)).1.2 (by decide)

end Rbtrace
