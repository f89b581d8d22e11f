import Rbtrace.Caller
import Rbtrace.Client
import Rbtrace.Flow
import Rbtrace.Interleave

/-!
# Everything one access at a time

Any number of `rbtrace()` callers, the daemon, and any number of clients with control
operations, each cut into its accesses to `ring_info`, in any order.  The report the
daemon makes is a call like any other, made by the daemon: as long as it is in flight the
daemon does nothing else.

What a party does on its own is what it does in one step of the machines above
(`alone_call`, `alone_ctrl`, and `alone_pass` of `Rbtrace.Interleave` for the daemon).
Invariants are proved by cases on `Conc.Moves`, which says for every event what happens to
`ring_info` and to the points of the callers.
-/

namespace Rbtrace

open CInt

/-! ## The machine -/

/-- The system, the daemon's point, what the system contributes to its pass, the calls in
flight (`none` is the daemon's own report), and the control operations in flight. -/
structure Conc (τ κ : Type) where
  sys : Sys
  io : PassIo
  pc : DaemonPc
  callers : Option τ → Option Call
  clients : κ → Option ClientPc

/-- One step. -/
inductive ConcEvent (τ κ : Type) where
  /-- Caller `x` enters `rbtrace()`. -/
  | call (x : τ) (st : Nat → Stamp) (a : TraceArgs)
  /-- A call in flight makes its next access. -/
  | advance (x : Option τ) (leave : Bool)
  | wake (io : PassIo)
  /-- The daemon makes its next access. -/
  | daemon
  /-- Client `k` enters `rbtrace_ctrl()`. -/
  | ctrl (k : κ) (op : RbtraceOp)
  /-- A control operation in flight makes its next access. -/
  | client (k : κ)

section

variable {τ κ : Type} [DecidableEq τ] [DecidableEq κ]

/-- The daemon's next step; at a report it enters `rbtrace()`. -/
def Conc.daemon (cfg : RingConfig) (s : Conc τ κ) : Option (Conc τ κ) :=
  match s.callers none with
  | some _ => none
  | none =>
      match s.pc.report with
      | some (w, lost) =>
          let c := Call.enter (s.io.data w).stamps (lostArgs lost)
          some { s with callers := Function.update s.callers none (some c), pc := w.return }
      | none => (daemonStep cfg s.io s.sys s.pc).map fun r ↦ { s with sys := r.1, pc := r.2 }

/-- The state after one event; `none` if it cannot happen. -/
def Conc.step (cfg : RingConfig) (s : Conc τ κ) : ConcEvent τ κ → Option (Conc τ κ)
  | .call x st a =>
      match s.callers (some x) with
      | some _ => none
      | none =>
          some { s with callers := Function.update s.callers (some x) (some (.enter st a)) }
  | .advance x leave =>
      ((rbtraceCall cfg).advance leave x s.sys.toShm s.callers).map fun r ↦
        { s with sys := { s.sys with toShm := r.1 }, callers := r.2 }
  | .wake io => if s.pc = .idle then some { s with io := io, pc := .testClose } else none
  | .daemon => s.daemon cfg
  | .ctrl k op =>
      match s.clients k with
      | some _ => none
      | none => some { s with clients := Function.update s.clients k (some (.enter op)) }
  | .client k =>
      (rbtraceClient.advance () k s.sys.toShm s.clients).map fun r ↦
        { s with sys := { s.sys with toShm := r.1 }, clients := r.2 }

/-- The system of a ring cut into accesses. -/
def concurrent (τ κ : Type) [DecidableEq τ] [DecidableEq κ] (cfg : RingConfig) :
    Machine (Conc τ κ) (ConcEvent τ κ) := ⟨Conc.step cfg⟩

/-- A system in which nothing is going on. -/
def Conc.start (sys : Sys) : Conc τ κ := ⟨sys, .smooth, .idle, fun _ ↦ none, fun _ ↦ none⟩

/-! ## On its own -/

variable {cfg : RingConfig}

/-- The steps of one call, as steps of the machine. -/
theorem run_advances {x : Option τ} {is : List Bool} {s : Conc τ κ}
    {r : Shm × (Option τ → Option Call)}
    (h : (rbtraceCall cfg).advances x is s.sys.toShm s.callers = some r) :
    (concurrent τ κ cfg).run s (is.map (.advance x)) =
      some { s with sys := { s.sys with toShm := r.1 }, callers := r.2 } := by
  refine Thread.run_of_advances (concurrent τ κ cfg)
    (fun sh callers ↦ { s with sys := { s.sys with toShm := sh }, callers := callers })
    (.advance x) (fun hu ↦ ?_) h
  simp only [concurrent, Conc.step, hu, Option.map_some]

/-- The steps of one control operation, as steps of the machine. -/
theorem run_clients {k : κ} {is : List Unit} {s : Conc τ κ} {r : Shm × (κ → Option ClientPc)}
    (h : rbtraceClient.advances k is s.sys.toShm s.clients = some r) :
    (concurrent τ κ cfg).run s (is.map fun _ ↦ .client k) =
      some { s with sys := { s.sys with toShm := r.1 }, clients := r.2 } := by
  refine Thread.run_of_advances (concurrent τ κ cfg)
    (fun sh clients ↦ { s with sys := { s.sys with toShm := sh }, clients := clients })
    (fun _ ↦ .client k) (fun hu ↦ ?_) h
  simp only [concurrent, Conc.step, hu, Option.map_some]

/-- **A call that nothing falls into** is a whole call. -/
theorem alone_call (s : Conc τ κ) {x : τ} (hx : s.callers (some x) = none) (st : Nat → Stamp)
    (a : TraceArgs) :
    ∃ is : List Bool, (concurrent τ κ cfg).run s (.call x st a :: is.map (.advance (some x))) =
      some { s with sys := s.sys.trace cfg st a } := by
  let s₁ : Conc τ κ :=
    { s with callers := Function.update s.callers (some x) (some (.enter st a)) }
  have hs₁ : (concurrent τ κ cfg).step s (.call x st a) = some s₁ := by
    simp only [concurrent, Conc.step, hx, s₁]
  have hsolo : (rbtraceCall cfg).Solo (s₁.sys.toShm, .inl (.enter st a)) _ :=
    solo_rbtrace st s.sys.toShm a
  obtain ⟨is, his⟩ :=
    hsolo.exists_advances (show s₁.callers (some x) = _ from Function.update_self _ _ _)
  refine ⟨is, (concurrent τ κ cfg).run_cons_eq_some.2 ⟨s₁, hs₁, ?_⟩⟩
  rw [run_advances his]
  simp [s₁, Sys.trace, ← hx]

/-- **A control operation that nothing falls into** is a whole operation. -/
theorem alone_ctrl (s : Conc τ κ) {k : κ} (hk : s.clients k = none) (op : RbtraceOp) :
    ∃ is : List Unit, (concurrent τ κ cfg).run s (.ctrl k op :: is.map fun _ ↦ .client k) =
      some { s with sys := { s.sys with toShm := (rbtraceCtrl op s.sys.toShm).1 } } := by
  let s₁ : Conc τ κ := { s with clients := Function.update s.clients k (some (.enter op)) }
  have hs₁ : (concurrent τ κ cfg).step s (.ctrl k op) = some s₁ := by
    simp only [concurrent, Conc.step, hk, s₁]
  have hsolo : rbtraceClient.Solo (s₁.sys.toShm, .inl (.enter op)) _ :=
    solo_rbtraceCtrl op s.sys.toShm
  obtain ⟨is, his⟩ :=
    hsolo.exists_advances (show s₁.clients k = _ from Function.update_self _ _ _)
  refine ⟨is, (concurrent τ κ cfg).run_cons_eq_some.2 ⟨s₁, hs₁, ?_⟩⟩
  rw [run_clients his]
  simp [s₁, ← hk]

/-! ## What a step does -/

/-- The point of a call in flight. -/
def Conc.at (s : Conc τ κ) (x : Option τ) : Option CallPc := (s.callers x).map Call.pc

/-- What an event does to `ring_info` and to the points of the callers and the daemon. -/
inductive Conc.Moves (cfg : RingConfig) (s t : Conc τ κ) : ConcEvent τ κ → Prop
  | call {x st a} (h : s.at (some x) = none) (hri : t.sys.ri = s.sys.ri) (hpc : t.pc = s.pc)
      (hat : t.at = Function.update s.at (some x) (some .fetch)) : Moves cfg s t (.call x st a)
  | advance {x leave pc n p} (h : s.at x = some pc) (hri : CallFlow cfg s.sys.ri pc t.sys.ri n)
      (hpc : t.pc = s.pc) (hn : n.Leads p) (hat : t.at = Function.update s.at x p) :
      Moves cfg s t (.advance x leave)
  | wake {io} (h : s.pc = .idle) (hri : t.sys.ri = s.sys.ri) (hpc : t.pc = .testClose)
      (hat : t.at = s.at) : Moves cfg s t (.wake io)
  | daemon (h : s.at none = none) (hri : Flow cfg s.sys.ri s.pc t.sys.ri t.pc)
      (hat : t.at = s.at) : Moves cfg s t .daemon
  | report {w lost} (h : s.at none = none) (hri : t.sys.ri = s.sys.ri)
      (hpc : s.pc = .data w (.report lost)) (hpc' : t.pc = w.return)
      (hat : t.at = Function.update s.at none (some .fetch)) : Moves cfg s t .daemon
  | ctrl {k op} (hri : t.sys.ri = s.sys.ri) (hpc : t.pc = s.pc) (hat : t.at = s.at) :
      Moves cfg s t (.ctrl k op)
  | client {k pc} (h : s.clients k = some pc)
      (hri : t.sys.ri = (clientStep s.sys.toShm pc).1.ri) (hpc : t.pc = s.pc)
      (hat : t.at = s.at) : Moves cfg s t (.client k)

theorem Conc.at_update (callers : Option τ → Option Call) (x : Option τ) (c : Option Call) :
    (fun y ↦ (Function.update callers x c y).map Call.pc) =
      Function.update (fun y ↦ (callers y).map Call.pc) x (c.map Call.pc) := by
  funext y
  by_cases hy : y = x
  · subst hy
    rw [Function.update_self, Function.update_self]
  · rw [Function.update_of_ne hy, Function.update_of_ne hy]

/-- **What a step does.** -/
theorem Conc.moves {s t : Conc τ κ} {e : ConcEvent τ κ}
    (ht : (concurrent τ κ cfg).step s e = some t) : s.Moves cfg t e := by
  cases e with
  | call x st a =>
      simp only [concurrent, Conc.step] at ht
      split at ht
      · cases ht
      · rename_i hx
        cases ht
        refine .call ?_ rfl rfl (Conc.at_update s.callers (some x) _)
        rw [Conc.at, hx]
        rfl
  | advance x leave =>
      obtain ⟨r, hr, rfl⟩ := Option.map_eq_some_iff.1 ht
      obtain ⟨c, hc, rfl⟩ := Thread.advance_eq_some.1 hr
      refine .advance (?_ : s.at x = some c.pc) (callStep_flow cfg (c.stamps 0) c.args leave _ _) rfl
        (c.next_leads _) (Conc.at_update s.callers x _)
      rw [Conc.at, hc]
      rfl
  | wake io =>
      simp only [concurrent, Conc.step] at ht
      split at ht
      · rename_i hpc
        cases ht
        exact .wake hpc rfl rfl rfl
      · cases ht
  | daemon =>
      simp only [concurrent, Conc.step, Conc.daemon] at ht
      split at ht
      · cases ht
      rename_i hx
      have hnone : s.at none = none := by
        rw [Conc.at, hx]
        rfl
      split at ht
      · rename_i w lost hpc
        cases ht
        exact .report hnone rfl (report_eq_some hpc) rfl (Conc.at_update s.callers none _)
      · obtain ⟨r, hr, rfl⟩ := Option.map_eq_some_iff.1 ht
        exact .daemon hnone (daemonStep_flow hr) rfl
  | ctrl k op =>
      simp only [concurrent, Conc.step] at ht
      split at ht
      · cases ht
      · cases ht
        exact .ctrl rfl rfl rfl
  | client k =>
      obtain ⟨r, hr, rfl⟩ := Option.map_eq_some_iff.1 ht
      obtain ⟨pc, hpc, rfl⟩ := Thread.advance_eq_some.1 hr
      exact .client hpc rfl rfl rfl

end

end Rbtrace
