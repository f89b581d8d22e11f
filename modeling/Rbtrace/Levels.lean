import Rbtrace.Concurrent
import Rbtrace.Lib.Simulation

/-!
# Three machines for one program

The program is modelled at three grains: `system` takes whole calls, passes and control
operations, `interleaved` cuts the passes into the accesses of the daemon, and `concurrent`
cuts everything.  Each can do what the coarser one does: the finer machine takes the same
calls, passes and operations in the same order, lets each of them run to its end, and arrives
at the same state.

So what is shown of every run of the finest machine holds of the coarser ones, and a run of
the coarsest is a witness for all three.
-/

namespace Rbtrace

/-! ## What is seen of a step -/

/-- The call, the pass or the operation that begins with this step. -/
def InterEvent.begun : InterEvent → List Event
  | .call st a => [.call st a]
  | .wake io => [.pass io]
  | .daemon => []
  | .ctrl op => [.ctrl op]

/-- The call, the pass or the operation that begins with this step. -/
def ConcEvent.begun {τ κ : Type} : ConcEvent τ κ → List Event
  | .call _ st a => [.call st a]
  | .advance _ _ => []
  | .wake io => [.pass io]
  | .daemon => []
  | .ctrl _ op => [.ctrl op]
  | .client _ => []

section

variable {cfg : RingConfig}

/-! ## Whole passes -/

/-- The daemon is between two passes. -/
def Inter.Rests (s : Sys) (i : Inter) : Prop := i.sys = s ∧ i.pc = .idle

/-- **The interleaved machine simulates the system.** -/
theorem interleaved_simulates (cfg : RingConfig) :
    (system cfg).Simulates (interleaved cfg) Inter.Rests (fun e ↦ [e]) InterEvent.begun := by
  rintro s e t ⟨u, io₀, pc⟩ ⟨rfl, rfl⟩ ht
  cases e with
  | call st a =>
      cases ht
      exact ⟨[.call st a], _, rfl, rfl, rfl, rfl⟩
  | ctrl op =>
      cases ht
      exact ⟨[.ctrl op], _, rfl, rfl, rfl, rfl⟩
  | pass io =>
      obtain ⟨k, hk⟩ := alone_pass (show rbtraceThreadFn cfg io u = some t from ht)
      have hquiet : ∀ k, (List.replicate k InterEvent.daemon).flatMap InterEvent.begun = [] := by
        intro k
        rw [List.flatMap_replicate]
        simp [InterEvent.begun]
      refine ⟨.wake io :: List.replicate k .daemon, ⟨t, io, .idle⟩, ?_, ?_, rfl, rfl⟩
      · have hwake : (interleaved cfg).step ⟨u, io₀, .idle⟩ (.wake io) =
            some ⟨u, io, .testClose⟩ := by
          simp only [interleaved, Inter.step, if_true]
        exact (interleaved cfg).run_cons_eq_some.2 ⟨_, hwake, hk⟩
      · rw [List.flatMap_cons, hquiet]
        rfl

/-! ## Single accesses -/

section

variable {τ κ : Type} [DecidableEq τ] [DecidableEq κ]

/-- No call and no operation is in flight. -/
def Conc.Quiet (i : Inter) (s : Conc τ κ) : Prop :=
  s = ⟨i.sys, i.io, i.pc, fun _ ↦ none, fun _ ↦ none⟩

omit [DecidableEq τ] [DecidableEq κ] in
theorem flatMap_begun_advances (x : Option τ) (is : List Bool) :
    (is.map (ConcEvent.advance x : Bool → ConcEvent τ κ)).flatMap ConcEvent.begun = [] := by
  rw [List.flatMap_map]
  simp [ConcEvent.begun]

omit [DecidableEq τ] [DecidableEq κ] in
theorem flatMap_begun_clients (k : κ) (is : List Unit) :
    (is.map fun _ ↦ (ConcEvent.client k : ConcEvent τ κ)).flatMap ConcEvent.begun = [] := by
  rw [List.flatMap_map]
  simp [ConcEvent.begun]

/-- The daemon's next step, its reports run to their ends. -/
theorem exists_run_daemon {i j : Inter} (h : i.daemon cfg = some j) :
    ∃ evs, (concurrent τ κ cfg).run ⟨i.sys, i.io, i.pc, fun _ ↦ none, fun _ ↦ none⟩ evs =
      some ⟨j.sys, j.io, j.pc, fun _ ↦ none, fun _ ↦ none⟩ ∧ evs.flatMap ConcEvent.begun = [] := by
  unfold Inter.daemon at h
  split at h
  · -- the report is a call that runs to its end
    rename_i w lost hpc
    cases h
    let c := Call.enter (i.io.data w).stamps (lostArgs lost)
    let s₁ : Conc τ κ := ⟨i.sys, i.io, w.return, Function.update (fun _ ↦ none) none (some c),
      fun _ ↦ none⟩
    have hs₁ : (concurrent τ κ cfg).step ⟨i.sys, i.io, i.pc, fun _ ↦ none, fun _ ↦ none⟩ .daemon =
        some s₁ := by
      simp only [concurrent, Conc.step, Conc.daemon, hpc, s₁, c]
    have hsolo : (rbtraceCall cfg).Solo (s₁.sys.toShm, .inl c) _ :=
      solo_rbtrace (i.io.data w).stamps i.sys.toShm (lostArgs lost)
    have hc : s₁.callers none = some c := by simp [s₁]
    obtain ⟨is, his⟩ := hsolo.exists_advances hc
    refine ⟨.daemon :: is.map (.advance none),
      (concurrent τ κ cfg).run_cons_eq_some.2 ⟨s₁, hs₁, ?_⟩, ?_⟩
    · rw [run_advances his]
      have hnone : Function.update s₁.callers none (none : Option Call) = fun _ ↦ none := by
        funext y
        cases y with
        | none => exact Function.update_self ..
        | some x => rfl
      simp only [Sum.getLeft?_inr, hnone]
      rfl
    · rw [List.flatMap_cons, flatMap_begun_advances]
      rfl
  · rename_i hpc
    obtain ⟨r, hr, rfl⟩ := Option.map_eq_some_iff.1 h
    refine ⟨[.daemon], ?_, rfl⟩
    rw [Machine.run_singleton]
    simp only [concurrent, Conc.step, Conc.daemon, hpc, hr, Option.map_some]

/-- **The concurrent machine simulates the interleaved one**, with one caller and one client. -/
theorem concurrent_simulates [Inhabited τ] [Inhabited κ] (cfg : RingConfig) :
    (interleaved cfg).Simulates (concurrent τ κ cfg) Conc.Quiet InterEvent.begun
      ConcEvent.begun := by
  rintro i e j s rfl hj
  cases e with
  | call st a =>
      cases hj
      obtain ⟨is, his⟩ := @alone_call τ κ _ _ cfg
        ⟨i.sys, i.io, i.pc, fun _ ↦ none, fun _ ↦ none⟩ default rfl st a
      refine ⟨_, _, his, ?_, rfl⟩
      rw [List.flatMap_cons, flatMap_begun_advances]
      rfl
  | ctrl op =>
      cases hj
      obtain ⟨is, his⟩ := @alone_ctrl τ κ _ _ cfg
        ⟨i.sys, i.io, i.pc, fun _ ↦ none, fun _ ↦ none⟩ default rfl op
      refine ⟨_, _, his, ?_, rfl⟩
      rw [List.flatMap_cons, flatMap_begun_clients]
      rfl
  | wake io =>
      simp only [interleaved, Inter.step] at hj
      split at hj
      · rename_i hpc
        cases hj
        refine ⟨[.wake io], _, ?_, rfl, rfl⟩
        rw [Machine.run_singleton]
        exact if_pos hpc
      · cases hj
  | daemon =>
      obtain ⟨evs, hevs, hbegun⟩ := exists_run_daemon (τ := τ) (κ := κ) hj
      exact ⟨evs, _, hevs, hbegun, rfl⟩

/-- **Whole steps are a refinement of single accesses.**  Every run of whole calls, passes
and control operations, however the I/O goes, is a run of the machine that takes one access
at a time: one that begins the same calls, passes and operations in the same order, and ends
in the same state with nothing in flight. -/
theorem exists_run_concurrent [Inhabited τ] [Inhabited κ] {s t : Sys} {es : List Event}
    (ht : (system cfg).run s es = some t) :
    ∃ (evs : List (ConcEvent τ κ)) (u : Conc τ κ),
      (concurrent τ κ cfg).run (.start s) evs = some u ∧ evs.flatMap ConcEvent.begun = es ∧
      u.sys = t ∧ u.pc = .idle ∧ (∀ x, u.callers x = none) ∧ ∀ k, u.clients k = none := by
  have hsim := (interleaved_simulates cfg).trans (concurrent_simulates (τ := τ) (κ := κ) cfg)
  obtain ⟨evs, u, hu, hbegun, i, ⟨hsys, hpc⟩, rfl⟩ :=
    hsim.run ⟨⟨s, .smooth, .idle⟩, ⟨rfl, rfl⟩, rfl⟩ ht
  refine ⟨evs, _, hu, ?_, hsys, hpc, fun _ ↦ rfl, fun _ ↦ rfl⟩
  rw [hbegun, List.flatMap_singleton']

end

end

/-- A file opened, a record stored in it and the ring closed. -/
def openTraceClose : List Event :=
  [.ctrl (.open (some [116])), .pass .smooth, .trace 2, .ctrl .close, .pass .smooth]

theorem exists_run_concurrent_openTraceClose :
    ∃ (evs : List (ConcEvent (Fin 2) Unit)) (u : Conc (Fin 2) Unit),
      (concurrent (Fin 2) Unit twoRing).run (.start (rbtraceDaemonInit twoRing fun _ ↦ none)) evs =
        some u ∧ evs.flatMap ConcEvent.begun = openTraceClose ∧ u.sys.ri.riFlags.doDisk = false := by
  obtain ⟨t, ht, hdisk⟩ : ∃ t, (system twoRing).run (rbtraceDaemonInit twoRing fun _ ↦ none)
      openTraceClose = some t ∧ t.ri.riFlags.doDisk = false := ⟨_, rfl, by decide⟩
  obtain ⟨evs, u, hu, hbegun, hsys, -⟩ := exists_run_concurrent (τ := Fin 2) (κ := Unit) ht
  exact ⟨evs, u, hu, hbegun, hsys ▸ hdisk⟩

end Rbtrace
