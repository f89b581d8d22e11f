import Rbtrace.LossReports
import Rbtrace.Linear
import Rbtrace.Wedge

/-!
# What a wedged ring does

`Rbtrace.Wedge` says how `ri_slot` can be left past the end of the buffer with no call on
its way to set it back.  This module says what follows.  Every call fetches two slots more
and gets neither, so nothing is stored and nobody swaps; the daemon writes the buffer that is
pending, if one is, and after that it never sees `ri_flush` raised again; and its reports are
calls, so they are lost as well.  All this lasts until a file is opened, or until `ri_slot`
has gone all the way round its 32 bits (`calls_lost_iff`).
-/

namespace Rbtrace

open CInt

/-! ## One call -/

section

variable {cfg : RingConfig} {sh : Shm}

/-- Two fetches. -/
theorem u32_riSlot_of_lost (hmax : u32 sh.ri.riSlot + 2 < 2 ^ 32) :
    u32 (i32 (i32 (sh.ri.riSlot + 1) + 1)) = u32 sh.ri.riSlot + 2 := by
  have h₁ : u32 (sh.ri.riSlot + 1) = u32 sh.ri.riSlot + 1 := by
    rw [u32_add_one, if_neg (by omega)]
  rw [u32_i32, u32_add_one, u32_i32, h₁, if_neg (by omega)]

/-- A call that finds `ri_slot` past the end moves it on by two and is lost. -/
theorem rbtrace_lost (hpast : cfg.rcSize ≤ u32 sh.ri.riSlot) (hmax : u32 sh.ri.riSlot + 2 < 2 ^ 32)
    (st : Nat → Stamp) (a : TraceArgs) :
    rbtrace cfg st sh a =
      ({ sh with ri := { sh.ri with
          riSlot := i32 (i32 (sh.ri.riSlot + 1) + 1)
          riLost := i32 (sh.ri.riLost + 1) } }, -1) := by
  have h₁ : u32 (sh.ri.riSlot + 1) = u32 sh.ri.riSlot + 1 := by
    rw [u32_add_one, if_neg (by omega)]
  have h₂ : u32 (i32 (sh.ri.riSlot + 1) + 1) = u32 sh.ri.riSlot + 2 := by
    rw [← u32_i32 (i32 _ + 1), u32_riSlot_of_lost hmax]
  have hroom₁ : ¬ u32 sh.ri.riSlot + 1 < cfg.rcSize := by omega
  have hfull : ¬ u32 sh.ri.riSlot + 1 = cfg.rcSize := by omega
  have hroom₂ : ¬ u32 sh.ri.riSlot + 2 < cfg.rcSize := by omega
  simp only [rbtrace, rbtraceAt, rbtraceWith, ringwrap, ringwrapSlot, fetchSlot, h₁, h₂,
    if_neg hroom₁, if_neg hfull, if_neg hroom₂]

/-- A call that finds `ri_slot` at the end of its 32 bits goes round and takes slot 0. -/
theorem rbtrace_round (hpos : 0 < cfg.rcSize) (hlt : cfg.rcSize < 2 ^ 31)
    (hmax : 2 ^ 32 ≤ u32 sh.ri.riSlot + 2) (st : Nat → Stamp) (a : TraceArgs) :
    (rbtrace cfg st sh a).2 = 0 := by
  have hrange : u32 sh.ri.riSlot < 2 ^ 32 := by
    unfold u32
    omega
  by_cases hlast : u32 sh.ri.riSlot = 2 ^ 32 - 1
  · have h₁ : u32 (sh.ri.riSlot + 1) = 0 := by rw [u32_add_one, if_pos hlast]
    simp only [rbtrace, rbtraceAt, rbtraceWith, ringwrap, fetchSlot, h₁, if_pos hpos, claimSlot]
  · have h₁ : u32 (sh.ri.riSlot + 1) = 2 ^ 32 - 1 := by
      rw [u32_add_one, if_neg hlast]
      omega
    have h₂ : u32 (i32 (sh.ri.riSlot + 1) + 1) = 0 := by rw [u32_add_one, u32_i32, if_pos h₁]
    have hroom : ¬ 2 ^ 32 - 1 < cfg.rcSize := by omega
    have hfull : ¬ 2 ^ 32 - 1 = cfg.rcSize := by omega
    simp only [rbtrace, rbtraceAt, rbtraceWith, ringwrap, ringwrapSlot, fetchSlot, h₁, h₂,
      if_neg hroom, if_neg hfull, if_pos hpos, claimSlot]

/-- What some calls return, one after the other. -/
def rbtraceReturns (cfg : RingConfig) : Shm → List Placing → List Int
  | _, [] => []
  | sh, p :: calls =>
      (rbtrace cfg p.2 sh p.1).2 :: rbtraceReturns cfg (rbtrace cfg p.2 sh p.1).1 calls

/-- **How long it lasts.**  From a ring whose `ri_slot` is past the end, calls are lost one
and all exactly if there are at most as many of them as it takes `ri_slot` to come round in
steps of two. -/
theorem calls_lost_iff (hpos : 0 < cfg.rcSize) (hlt : cfg.rcSize < 2 ^ 31)
    (hpast : cfg.rcSize ≤ u32 sh.ri.riSlot) (calls : List Placing) :
    (∀ rc ∈ rbtraceReturns cfg sh calls, rc = -1) ↔
      calls.length ≤ (2 ^ 32 - 1 - u32 sh.ri.riSlot) / 2 := by
  induction calls generalizing sh with
  | nil => simp [rbtraceReturns]
  | cons p calls ih =>
      rw [rbtraceReturns, List.forall_mem_cons, List.length_cons]
      by_cases hmax : u32 sh.ri.riSlot + 2 < 2 ^ 32
      · have hcall := rbtrace_lost hpast hmax p.2 p.1
        have hslot := u32_riSlot_of_lost hmax
        rw [hcall]
        have hih := @ih { sh with ri := { sh.ri with
          riSlot := i32 (i32 (sh.ri.riSlot + 1) + 1), riLost := i32 (sh.ri.riLost + 1) } }
          (by rw [hslot]; omega)
        rw [hih, hslot]
        omega
      · have hround := rbtrace_round hpos hlt (Nat.le_of_not_lt hmax) p.2 p.1
        rw [hround]
        refine iff_of_false (fun h ↦ absurd h.1 (by decide)) ?_
        omega

end

/-! ## One pass -/

/-- The event is a call. -/
def Event.isCall : Event → Bool
  | .call _ _ => true
  | _ => false

/-- The event neither asks for a file nor asks to close one. -/
def Event.KeepsFile : Event → Prop
  | .ctrl (.open _) | .ctrl .close => False
  | _ => True

section

variable {cfg : ValidRingConfig} {s t : Sys}

/-- What a write leaves for the end label, however the I/O goes: the ring as it was, but
that records may have been cleared. -/
theorem exists_takeCounters {io : DataIo} {doFlush : Bool}
    (ht : rbtraceWriteData cfg io doFlush s = some t) :
    ∃ u : Sys, t.toShm = (takeCounters cfg io u).toShm ∧ u.ringWords = s.ringWords ∧
      ∀ i, u.reBase i = s.reBase i ∨ u.reBase i = .zero := by
  obtain ⟨hfd, -⟩ := ctl_of_rbtraceWriteData ht
  obtain ⟨o, n, hbuf⟩ : ∃ o n, selectBuffer cfg doFlush s = (o, n) := ⟨_, _, rfl⟩
  obtain ⟨s₁, hs₁⟩ : ∃ s₁, s₁ = wrapSeek s.ri.riFlags.doWrap (n * sizeofEntry) s := ⟨_, rfl⟩
  have hshm : s₁.1.toShm = s.toShm := by rw [hs₁, wrapSeek_toShm]
  have hri := writeBuffer_ri io.data o n s₁.1
  have hwords : (writeBuffer io.data o n s₁.1).1.ringWords = s.ringWords := by
    rw [Shm.ringWords, hri, hshm]
    rfl
  have hmem : ∀ i, (writeBuffer io.data o n s₁.1).1.reBase i = s.reBase i ∨
      (writeBuffer io.data o n s₁.1).1.reBase i = .zero := by
    intro i
    unfold writeBuffer
    dsimp only
    split
    · dsimp only [clearRecords]
      split
      · exact .inr rfl
      · exact .inl (by rw [hshm])
    · exact .inl (by rw [hshm])
  rw [rbtraceWriteData, if_neg hfd, hbuf] at ht
  dsimp only at ht
  rw [← hs₁] at ht
  split at ht
  · cases ht
    refine ⟨_, rfl, ?_, fun i ↦ ?_⟩
    · rw [updateHeader_toShm, limitReached_ringWords]
      exact hwords
    · rw [updateHeader_toShm, limitReached_reBase]
      exact hmem i
  · cases ht
    exact ⟨_, rfl, hwords, hmem⟩

/-- A ring whose next `k` calls are lost, the daemon's reports included. -/
structure Stuck (cfg : RingConfig) (k : Nat) (s : Sys) : Prop where
  past : cfg.rcSize ≤ u32 s.ri.riSlot
  left : u32 s.ri.riSlot + 2 * k < 2 ^ 32
  flags : FlagsOk s.ctl
  doClose : s.ri.riFlags.doClose = false

/-- The daemon has a buffer to write, and may make one report. -/
def Sys.owed (s : Sys) : Nat := if s.ri.riFlush = 0 then 0 else 1

/-- A pass over such a ring: at most the report is lost, and after a write nothing is pending
any more. -/
theorem Stuck.pass {k : Nat} {io : PassIo} (h : Stuck cfg (k + s.owed) s)
    (ht : rbtraceThreadFn cfg io s = some t) :
    Stuck cfg (k + t.owed) t ∧ (writes cfg s (.pass io)).length + t.owed ≤ s.owed ∧
      ∀ i, t.reBase i = s.reBase i ∨ t.reBase i = .zero := by
  have hflags : FlagsOk t.ctl :=
    FlagsOk.step h.flags (show (system cfg.toRingConfig).step s (.pass io) = some t from ht)
  have hdc := doClose_of_rbtraceThreadFn h.flags ht
  have hpast := h.past
  have hleft := h.left
  have hwrites : (writes cfg s (.pass io)).length ≤ if s.WritesNext then 1 else 0 := by
    rw [writes_pass, passOut_of_noClose _ io h.flags h.doClose]
    split <;> rename_i hw
    · rw [if_pos ⟨h.doClose, hw⟩, dataWritten]
      split <;> simp
    · simp
  obtain ⟨hw, hdata⟩ | ⟨hw, hwords, hmem⟩ := rbtraceThreadFn_ring h.flags h.doClose ht
  · -- the pending buffer is written, and `ri_flush` goes to zero for good
    have howed : s.owed = 1 := if_neg hw.2.2.2
    rw [if_pos hw] at hwrites
    obtain ⟨u, hu, huw, hum⟩ := exists_takeCounters hdata
    have huslot : u.ri.riSlot = s.ri.riSlot := congrArg RingWords.riSlot huw
    rw [howed] at hleft
    unfold takeCounters at hu
    dsimp only at hu
    split at hu
    · rw [rbtrace_lost (by dsimp only; rw [huslot]; exact hpast)
        (by dsimp only; rw [huslot]; omega)] at hu
      have hslot : u32 t.ri.riSlot = u32 s.ri.riSlot + 2 := by
        rw [hu]
        dsimp only
        rw [huslot]
        exact u32_riSlot_of_lost (by omega)
      have hnot : t.owed = 0 := by
        rw [Sys.owed, hu]
        rfl
      refine ⟨⟨by rw [hslot]; omega, by rw [hslot, hnot]; omega, hflags, hdc⟩, by omega, fun i ↦ ?_⟩
      rw [hu]
      exact hum i
    · have hslot : t.ri.riSlot = s.ri.riSlot := by
        rw [hu]
        exact huslot
      have hnot : t.owed = 0 := by
        rw [Sys.owed, hu]
        rfl
      refine ⟨⟨by rw [hslot]; exact hpast, by rw [hslot, hnot]; omega, hflags, hdc⟩, by omega,
        fun i ↦ ?_⟩
      rw [hu]
      exact hum i
  · have hslot : t.ri.riSlot = s.ri.riSlot := congrArg RingWords.riSlot hwords
    have howed : t.owed = s.owed := by
      rw [Sys.owed, show t.ri.riFlush = s.ri.riFlush from congrArg RingWords.riFlush hwords]
      rfl
    rw [if_neg hw] at hwrites
    refine ⟨⟨by rw [hslot]; exact hpast, by rw [hslot, howed]; exact hleft, hflags, hdc⟩, by omega,
      fun i ↦ .inl (by rw [hmem])⟩

/-- **One step** of a run over a ring that is past its end. -/
theorem Stuck.step {k : Nat} {e : Event}
    (h : Stuck cfg (k + (if e.isCall then 1 else 0) + s.owed) s)
    (he : e.KeepsFile) (ht : (system cfg).step s e = some t) :
    Stuck cfg (k + t.owed) t ∧ accepted cfg s e = [] ∧ (writes cfg s e).length + t.owed ≤ s.owed ∧
      ∀ i, t.reBase i = s.reBase i ∨ t.reBase i = .zero := by
  have hflags : FlagsOk t.ctl := h.flags.step ht
  cases e with
  | pass io =>
      obtain ⟨h₁, h₂, h₃⟩ := Stuck.pass (k := k) h ht
      exact ⟨h₁, rfl, h₂, h₃⟩
  | call st a =>
      have hleft := h.left
      simp only [Event.isCall, if_true] at hleft
      have hcall := rbtrace_lost h.past (by omega) st a
      have hslot : u32 (i32 (i32 (s.ri.riSlot + 1) + 1)) = u32 s.ri.riSlot + 2 :=
        u32_riSlot_of_lost (by omega)
      cases ht
      have hsame : Sys.owed { s with toShm := (rbtrace cfg st s.toShm a).1 } = s.owed := by
        rw [Sys.owed, hcall]
        rfl
      refine ⟨⟨?_, ?_, hflags, ?_⟩, ?_, ?_, fun i ↦ .inl ?_⟩
      · have hpast := h.past
        rw [hcall]
        dsimp only
        rw [hslot]
        omega
      · rw [hsame, hcall]
        dsimp only
        rw [hslot]
        omega
      · rw [rbtrace_riFlags]
        exact h.doClose
      · rw [accepted, hcall]
        rfl
      · rw [hsame]
        simp [writes]
      · rw [hcall]
  | ctrl op =>
      cases ht
      have hstep := rbtraceCtrl_step op s.toShm
      have hkeep : ∀ r, CtrlStep s.toShm op r → r.1.ri.riSlot = s.ri.riSlot ∧
          r.1.ri.riFlush = s.ri.riFlush ∧ r.1.ri.riFlags.doClose = s.ri.riFlags.doClose ∧
          r.1.reBase = s.reBase := by
        intro r hr
        cases hr with
        | opens | closes => exact he.elim
        | _ => exact ⟨rfl, rfl, rfl, rfl⟩
      obtain ⟨hslot, hflush, hclose, hmem⟩ := hkeep _ hstep
      have howed : Sys.owed { s with toShm := (rbtraceCtrl op s.toShm).1 } = s.owed := by
        rw [Sys.owed, hflush]
        rfl
      have hpast := h.past
      have hleft := h.left
      simp only [Event.isCall, Bool.false_eq_true, if_false, Nat.add_zero] at hleft
      refine ⟨⟨by rw [hslot]; exact hpast, by rw [hslot, howed]; exact hleft, hflags,
        hclose.trans h.doClose⟩, rfl, by rw [howed]; simp [writes], fun i ↦ .inl ?_⟩
      exact congrFun hmem i

/-! ## A run -/

/-- **A wedged ring stays wedged.**  Take any whole calls, passes and control operations, in
any order and however the I/O goes, from a ring whose `ri_slot` is past the end, with no file
asked for or closed and too few calls for `ri_slot` to come round: every call is lost, no
record is stored, not even a loss report, at most the one buffer that was pending is written,
and `ri_slot` is still past the end.  Opening a file then ends it: the next call returns 0. -/
theorem lost_of_run (hN : 2 ≤ cfg.rcSize) {es : List Event} (hf : FlagsOk s.ctl)
    (hc : s.ri.riFlags.doClose = false) (hpast : cfg.rcSize ≤ u32 s.ri.riSlot)
    (hfew : u32 s.ri.riSlot + 2 * (es.countP Event.isCall + 1) < 2 ^ 32)
    (hes : ∀ e ∈ es, e.KeepsFile) (ht : (system cfg).run s es = some t) :
    (system cfg).collect (accepted cfg) s es = [] ∧
      (∀ i, t.reBase i = s.reBase i ∨ t.reBase i = .zero) ∧
      ((system cfg).collect (writes cfg) s es).length ≤ 1 ∧ cfg.rcSize ≤ u32 t.ri.riSlot ∧
      ∀ path sh, rbtraceCtrlOpen (some path) t.toShm = (sh, 0) →
        ∀ st a, (rbtrace cfg st sh a).2 = 0 := by
  have hrun : Stuck cfg t.owed t ∧ (system cfg).collect (accepted cfg) s es = [] ∧
      ((system cfg).collect (writes cfg) s es).length + t.owed ≤ s.owed ∧
      ∀ i, t.reBase i = s.reBase i ∨ t.reBase i = .zero := by
    have howed : s.owed ≤ 1 := by
      unfold Sys.owed
      split <;> omega
    have hstart : Stuck cfg (es.countP Event.isCall + s.owed) s := ⟨hpast, by omega, hf, hc⟩
    clear hfew hf hc hpast howed
    induction es generalizing s with
    | nil =>
        cases ht
        refine ⟨by simpa using hstart, rfl, by simp, fun i ↦ .inl rfl⟩
    | cons e es ih =>
        obtain ⟨u, hu, ht⟩ := (system cfg.toRingConfig).run_cons_eq_some.1 ht
        obtain ⟨he, hes⟩ := List.forall_mem_cons.1 hes
        rw [List.countP_cons] at hstart
        obtain ⟨hnext, hacc, hwr, hmem⟩ := hstart.step he hu
        obtain ⟨h₁, h₂, h₃, h₄⟩ := ih hes ht hnext
        rw [Machine.collect_cons _ hu, Machine.collect_cons _ hu, hacc, h₂, List.length_append]
        refine ⟨h₁, rfl, by omega, fun i ↦ ?_⟩
        rcases h₄ i with hi | hi
        · rw [hi]
          exact hmem i
        · exact .inr hi
  obtain ⟨hstuck, hacc, hwr, hmem⟩ := hrun
  refine ⟨hacc, hmem, ?_, hstuck.past, fun path sh hopen st a ↦ ?_⟩
  · have howed : s.owed ≤ 1 := by
      unfold Sys.owed
      split <;> omega
    omega
  · have hslot : sh.ri.riSlot = -1 := by
      unfold rbtraceCtrlOpen at hopen
      split at hopen
      · cases hopen
      · dsimp only at hopen
        split at hopen
        · cases hopen
        · rw [← (Prod.mk.inj hopen).1]
    exact rbtrace_returns hN cfg.rcSize_lt_int (by omega) (by rw [hslot]; omega) st a

end

/-- A ring of two records with a file open, a buffer pending, and `ri_slot` past the end. -/
def twoPastEnd : Sys :=
  let s := rbtraceDaemonInit twoRing fun _ ↦ none
  { s with
    ri := { s.ri with riSlot := 3, riFlush := 1, riLost := 1, riFlags := { doDisk := true } }
    rfd := ⟨some [47], 512⟩ }

/-- The same ring with `ri_slot` six short of coming round. -/
def twoNearRound : Shm := { twoPastEnd.toShm with ri := { twoPastEnd.ri with riSlot := -6 } }

/-- Two calls on it are lost, and of three not all. -/
theorem calls_lost_twoNearRound :
    (∀ rc ∈ rbtraceReturns twoRing twoNearRound
      (List.replicate 2 (⟨2, 0, 0, 0, 0⟩, fun _ ↦ .epoch)), rc = -1) ∧
    ¬ ∀ rc ∈ rbtraceReturns twoRing twoNearRound
      (List.replicate 3 (⟨2, 0, 0, 0, 0⟩, fun _ ↦ .epoch)), rc = -1 := by
  have h := @calls_lost_iff twoRing.toRingConfig twoNearRound (by decide) (by decide) (by decide)
  exact ⟨(h _).2 (by decide), mt (h _).1 (by decide)⟩

/-- A call, a pass that has a loss to report, and another call. -/
def lostTwice : List Event := [.trace 2, .pass .smooth, .trace 2]

theorem lost_of_run_lostTwice : ∃ t, (system twoRing).run twoPastEnd lostTwice = some t ∧
    u32 t.ri.riSlot = 9 ∧ (system twoRing).collect (accepted twoRing) twoPastEnd lostTwice = [] := by
  have hf : FlagsOk twoPastEnd.ctl :=
    ⟨rfl, fun _ ↦ rfl, fun h ↦ absurd h Bool.false_ne_true, fun _ ↦ rfl, fun _ ↦ .inl rfl⟩
  have hes : ∀ e ∈ lostTwice, e.KeepsFile := by
    intro e he
    simp only [lostTwice, List.mem_cons, List.not_mem_nil, or_false] at he
    rcases he with rfl | rfl | rfl <;> exact trivial
  obtain ⟨t, ht, hslot⟩ : ∃ t, (system twoRing).run twoPastEnd lostTwice = some t ∧
      u32 t.ri.riSlot = 9 := ⟨_, rfl, by decide⟩
  exact ⟨t, ht, hslot, (lost_of_run (by decide) hf rfl (by decide) (by decide) hes ht).1⟩

end Rbtrace
