import Rbtrace.Lib.Pool
import Rbtrace.Ring

/-!
# A call, one access at a time

`rbtrace()` with `ringwrap` and `ringwrap_slot`, cut so that every `__sync` builtin and
every volatile access to `ring_info` is a step of its own; an assignment of one field to
another is two.  The stores into the record that was handed out touch no field of
`ring_info` and go with the return.

A call that has swapped the buffers makes a report if records were lost, and the report
is a call inside the call.  Other callers can lose records in the meantime, so a report
can itself make a report; a `Call` carries the calls it is nested in.

On its own, a call cut this way is `rbtrace` of `Rbtrace.Ring` (`solo_rbtrace`).
-/

namespace Rbtrace

open CInt

/-! ## Points of the program -/

/-- A point of `rbtrace()`. -/
inductive CallPc where
  /-- Line 151. -/
  | fetch
  /-- Line 154, 112 or 131: the slot is fetched, `ri_cir_off` is not read yet. -/
  | readOff (slot : Nat)
  /-- The entry is handed out, and the call is about to store into it and return. -/
  | store (off slot : Nat)
  /-- Line 75. -/
  | raise
  /-- Line 80. -/
  | swapTemp
  /-- Line 81, the load. -/
  | swapLoad (temp : Nat)
  /-- Line 81, the store. -/
  | swapStore (temp alt : Nat)
  /-- Line 82. -/
  | swapAlt (temp : Nat)
  /-- Line 84. -/
  | reset
  /-- Lines 89 to 91. -/
  | takeLost
  /-- Line 101. -/
  | resetDiscard
  /-- Line 109. -/
  | refetch
  /-- Line 119. -/
  | cas (slot : Nat)
  /-- Line 120 or 138. -/
  | addLost
  /-- Line 125, with `cnt` rounds left. -/
  | spin (cnt : Nat)
  /-- Line 128. -/
  | refetchSpin
deriving DecidableEq

/-- How a call goes on after a step. -/
inductive CallNext where
  | goto (pc : CallPc)
  /-- It calls `rbtrace(RBTRACE_RING_IO, RBT_LOST, lost, 0, 0, 0)`. -/
  | report (lost : Int)
  | return (rc : Int)

/-! ## Steps -/

/-- A store to `ri_slot`. -/
def Shm.setSlot (slot : Int) (sh : Shm) : Shm := { sh with ri := { sh.ri with riSlot := slot } }

/-- A step of `rbtrace()`.  The loop of line 125 may be left early: `leave`. -/
def callStep (cfg : RingConfig) (st : Stamp) (a : TraceArgs) (leave : Bool) (sh : Shm) :
    CallPc → Shm × CallNext
  | .fetch =>
      let r := fetchSlot sh
      (r.1, .goto (if r.2 < cfg.rcSize then .readOff r.2
        else if r.2 = cfg.rcSize then .raise else .spin 1024))
  | .readOff slot => (sh, .goto (.store sh.ri.riCirOff slot))
  | .store off slot =>
      let re := off + slot
      let e := fillEntry a (stampEntry st (sh.reBase re))
      ({ sh with reBase := Function.update sh.reBase re e }, .return 0)
  | .raise =>
      let flush := i32 (sh.ri.riFlush + 1)
      ({ sh with ri := { sh.ri with riFlush := flush } },
        .goto (if flush = 1 then .swapTemp else .resetDiscard))
  | .swapTemp => (sh, .goto (.swapLoad sh.ri.riCirOff))
  | .swapLoad temp => (sh, .goto (.swapStore temp sh.ri.riAltOff))
  | .swapStore temp alt =>
      ({ sh with ri := { sh.ri with riCirOff := alt } }, .goto (.swapAlt temp))
  | .swapAlt temp => ({ sh with ri := { sh.ri with riAltOff := temp } }, .goto .reset)
  | .reset => (sh.setSlot (-1), .goto .takeLost)
  | .takeLost =>
      ({ sh with ri := { sh.ri with riLost := 0 } },
        if sh.ri.riLost ≠ 0 then .report sh.ri.riLost else .goto .refetch)
  | .resetDiscard => (sh.setSlot (-1), .goto .refetch)
  | .refetch =>
      let r := fetchSlot sh
      (r.1, .goto (if r.2 < cfg.rcSize then .readOff r.2 else .cas r.2))
  | .cas slot => (if sh.ri.riSlot = i32 slot then sh.setSlot (-1) else sh, .goto .addLost)
  | .addLost =>
      ({ sh with ri := { sh.ri with riLost := i32 (sh.ri.riLost + 1) } }, .return (-1))
  | .spin cnt =>
      (sh, .goto (if cfg.rcSize < u32 sh.ri.riSlot ∧ 1 < cnt ∧ ¬ leave then .spin (cnt - 1)
        else .refetchSpin))
  | .refetchSpin =>
      let r := fetchSlot sh
      (r.1, .goto (if r.2 < cfg.rcSize then .readOff r.2 else .addLost))

/-- A call in flight: its arguments, what it and the reports in it read from the system,
its point, and the calls it is nested in, the innermost first. -/
structure Call where
  args : TraceArgs
  stamps : Nat → Stamp
  pc : CallPc
  outer : List (TraceArgs × (Nat → Stamp))

/-- A call at its first instruction. -/
def Call.enter (stamps : Nat → Stamp) (args : TraceArgs) : Call := ⟨args, stamps, .fetch, []⟩

/-- The call after a step, or what it returns.  A nested call returns to line 95, from
where the next access is that of line 109. -/
def Call.next (c : Call) : CallNext → Call ⊕ Int
  | .goto pc => .inl { c with pc := pc }
  | .report lost =>
      .inl ⟨lostArgs lost, fun i ↦ c.stamps (i + 1), .fetch, (c.args, c.stamps) :: c.outer⟩
  | .return rc =>
      match c.outer with
      | [] => .inr rc
      | (args, stamps) :: outer => .inl ⟨args, stamps, .refetch, outer⟩

/-- A step of a call in flight. -/
def Call.step (cfg : RingConfig) (leave : Bool) (sh : Shm) (c : Call) : Shm × (Call ⊕ Int) :=
  let r := callStep cfg (c.stamps 0) c.args leave sh c.pc
  (r.1, c.next r.2)

/-! ## A call on its own -/

/-- The thread of a call. -/
def rbtraceCall (cfg : RingConfig) : Thread Shm Bool Call Int := ⟨Call.step cfg⟩

section

variable {cfg : RingConfig} {st : Nat → Stamp} {a : TraceArgs}
  {outer : List (TraceArgs × (Nat → Stamp))}

theorem solo_step {sh : Shm} {c : Call} {y : Shm × (Call ⊕ Int)} (leave : Bool)
    (h : (rbtraceCall cfg).Solo (c.step cfg leave sh) y) :
    (rbtraceCall cfg).Solo (sh, .inl c) y :=
  .step leave h

/-- The call has returned. -/
def Call.returns (c : Call) (r : Shm × Int) : Shm × (Call ⊕ Int) := (r.1, c.next (.return r.2))

/-- `rbtrace()` from line 179 on. -/
def fillResult (a : TraceArgs) : Shm × Option Nat → Shm × Int
  | (sh, none) => (sh, -1)
  | (sh, some re) =>
      ({ sh with reBase := Function.update sh.reBase re (fillEntry a (sh.reBase re)) }, 0)

/-- `ringwrap_slot` from line 109 to line 122. -/
def refetchSlot (cfg : RingConfig) (st : Stamp) (sh : Shm) : Shm × Option Nat :=
  let sh₂ := (fetchSlot sh).1
  let slot₂ := (fetchSlot sh).2
  if slot₂ < cfg.rcSize then claimSlot st sh₂ slot₂
  else
    let sh₃ := if sh₂.ri.riSlot = i32 slot₂ then
      { sh₂ with ri := { sh₂.ri with riSlot := -1 } } else sh₂
    ({ sh₃ with ri := { sh₃.ri with riLost := i32 (sh₃.ri.riLost + 1) } }, none)

/-- Lines 75 to 89, when no flush is in progress. -/
def swapBuffers (sh : Shm) : Shm :=
  { sh with ri := { sh.ri with
      riFlush := i32 (sh.ri.riFlush + 1), riCirOff := sh.ri.riAltOff, riAltOff := sh.ri.riCirOff,
      riSlot := -1, riLost := 0 } }

/-- Lines 75 to 101, when a flush is in progress. -/
def discardBuffer (sh : Shm) : Shm :=
  { sh with ri := { sh.ri with riFlush := i32 (sh.ri.riFlush + 1), riSlot := -1 } }

/-- `ringwrap_slot` when the active buffer is full. -/
theorem ringwrapSlot_full (report : Shm → Int → Shm) (st : Stamp) (sh : Shm) :
    ringwrapSlot report cfg st sh cfg.rcSize = refetchSlot cfg st
      (if i32 (sh.ri.riFlush + 1) = 1 then
        if sh.ri.riLost ≠ 0 then report (swapBuffers sh) sh.ri.riLost else swapBuffers sh
      else discardBuffer sh) := by
  rw [ringwrapSlot, if_pos rfl]
  rfl

/-- A call that got a slot of the buffer takes its entry and returns 0. -/
theorem solo_readOff (sh : Shm) (slot : Nat) :
    (rbtraceCall cfg).Solo (sh, .inl ⟨a, st, .readOff slot, outer⟩)
      (Call.returns ⟨a, st, .fetch, outer⟩ (fillResult a (claimSlot (st 0) sh slot))) := by
  refine solo_step false (solo_step false ?_)
  simp only [fillResult, claimSlot, Function.update_self, Function.update_idem]
  exact .refl _

/-- A call that got no slot counts itself as lost. -/
theorem solo_addLost (sh : Shm) :
    (rbtraceCall cfg).Solo (sh, .inl ⟨a, st, .addLost, outer⟩) (Call.returns ⟨a, st, .fetch, outer⟩
      ({ sh with ri := { sh.ri with riLost := i32 (sh.ri.riLost + 1) } }, -1)) :=
  solo_step false (.refl _)

/-- `rbtrace()` from line 109 on. -/
theorem solo_refetch (sh : Shm) :
    (rbtraceCall cfg).Solo (sh, .inl ⟨a, st, .refetch, outer⟩)
      (Call.returns ⟨a, st, .fetch, outer⟩ (fillResult a (refetchSlot cfg (st 0) sh))) := by
  refine solo_step false ?_
  simp only [Call.step, callStep, Call.next, refetchSlot]
  split
  · exact solo_readOff _ _
  · exact solo_step false (solo_addLost _)

/-- The swap, up to the report in it. -/
theorem solo_raise {sh : Shm} (h : i32 (sh.ri.riFlush + 1) = 1) :
    (rbtraceCall cfg).Solo (sh, .inl ⟨a, st, .raise, outer⟩) (swapBuffers sh, Call.next ⟨a, st, .takeLost, outer⟩
      (if sh.ri.riLost ≠ 0 then .report sh.ri.riLost else .goto .refetch)) := by
  refine solo_step false ?_
  simp only [Call.step, callStep, Call.next, if_pos h]
  exact solo_step false (solo_step false (solo_step false (solo_step false (solo_step false (solo_step false (.refl _))))))

/-- The loop of line 125, left at once, and what follows it. -/
theorem solo_spin (report : Shm → Int → Shm) (sh : Shm) (slot cnt : Nat) (h : slot ≠ cfg.rcSize) :
    (rbtraceCall cfg).Solo (sh, .inl ⟨a, st, .spin cnt, outer⟩) (Call.returns ⟨a, st, .fetch, outer⟩
      (fillResult a (ringwrapSlot report cfg (st 0) sh slot))) := by
  refine solo_step true ?_
  simp only [Call.step, callStep, Call.next, not_true_eq_false, and_false, if_false]
  refine solo_step false ?_
  simp only [Call.step, callStep, Call.next, ringwrapSlot, if_neg h]
  split
  · exact solo_readOff _ _
  · exact solo_addLost _

/-- The body of `rbtrace()`, given that the report in it does what `report` does. -/
theorem solo_body {report : Shm → Int → Shm} {sh : Shm}
    (hreport : ∀ sh', sh.ri.riLost ≠ 0 → sh'.ri.riLost = 0 →
      (rbtraceCall cfg).Solo (sh', Call.next ⟨a, st, .takeLost, outer⟩ (.report sh.ri.riLost))
        (report sh' sh.ri.riLost, .inl ⟨a, st, .refetch, outer⟩)) :
    (rbtraceCall cfg).Solo (sh, .inl ⟨a, st, .fetch, outer⟩)
      (Call.returns ⟨a, st, .fetch, outer⟩ (rbtraceWith report cfg (st 0) sh a)) := by
  have hwith : rbtraceWith report cfg (st 0) sh a =
      fillResult a (ringwrap report cfg (st 0) sh) := rfl
  refine solo_step false ?_
  rw [hwith, ringwrap]
  simp only [Call.step, callStep]
  split
  · exact solo_readOff _ _
  by_cases hslot : (fetchSlot sh).2 = cfg.rcSize
  · rw [if_pos hslot, hslot]
    rw [ringwrapSlot_full]
    split <;> rename_i hflush
    · refine (solo_raise hflush).trans ?_
      split <;> rename_i hlost
      · exact (hreport _ hlost rfl).trans (solo_refetch _)
      · exact solo_refetch _
    · refine solo_step false ?_
      simp only [Call.step, callStep, if_neg hflush]
      exact solo_step false (solo_refetch _)
  · rw [if_neg hslot]
    exact solo_spin _ _ _ _ hslot

/-- A report, made when nothing else is lost. -/
theorem solo_report {sh : Shm} (h : sh.ri.riLost = 0) (lost : Int) :
    (rbtraceCall cfg).Solo (sh, Call.next ⟨a, st, .takeLost, outer⟩ (.report lost))
      ((rbtraceAt 0 cfg (fun i ↦ st (i + 1)) sh (lostArgs lost)).1,
        .inl ⟨a, st, .refetch, outer⟩) :=
  @solo_body cfg (fun i ↦ st (i + 1)) (lostArgs lost) ((a, st) :: outer) _ sh
    fun _ h' ↦ absurd h h'

/-- **A call on its own is a whole call.** -/
theorem solo_rbtrace (st : Nat → Stamp) (sh : Shm) (a : TraceArgs) :
    (rbtraceCall cfg).Solo (sh, .inl (.enter st a)) ((rbtrace cfg st sh a).1, .inr (rbtrace cfg st sh a).2) :=
  solo_body fun _ _ h ↦ solo_report h _

end

/-! ## What a step does to `ring_info` -/

/-- The `ring_info` after a `__sync_add_and_fetch` of `ri_slot`. -/
def RingInfo.fetched (ri : RingInfo) : RingInfo := { ri with riSlot := i32 (ri.riSlot + 1) }

/-- The slot a `__sync_add_and_fetch` of `ri_slot` returns. -/
def RingInfo.nextSlot (ri : RingInfo) : Nat := u32 (ri.riSlot + 1)

/-- The flow of control in `rbtrace()`. -/
inductive CallFlow (cfg : RingConfig) (ri : RingInfo) : CallPc → RingInfo → CallNext → Prop
  | fetchRoom (h : ri.nextSlot < cfg.rcSize) :
      CallFlow cfg ri .fetch ri.fetched (.goto (.readOff ri.nextSlot))
  | fetchFull (h : ri.nextSlot = cfg.rcSize) : CallFlow cfg ri .fetch ri.fetched (.goto .raise)
  | fetchPast (h : cfg.rcSize < ri.nextSlot) :
      CallFlow cfg ri .fetch ri.fetched (.goto (.spin 1024))
  | readOff {slot} : CallFlow cfg ri (.readOff slot) ri (.goto (.store ri.riCirOff slot))
  | store {off slot} : CallFlow cfg ri (.store off slot) ri (.return 0)
  | raiseFirst (h : i32 (ri.riFlush + 1) = 1) :
      CallFlow cfg ri .raise { ri with riFlush := i32 (ri.riFlush + 1) } (.goto .swapTemp)
  | raiseMore (h : i32 (ri.riFlush + 1) ≠ 1) :
      CallFlow cfg ri .raise { ri with riFlush := i32 (ri.riFlush + 1) } (.goto .resetDiscard)
  | swapTemp : CallFlow cfg ri .swapTemp ri (.goto (.swapLoad ri.riCirOff))
  | swapLoad {temp} : CallFlow cfg ri (.swapLoad temp) ri (.goto (.swapStore temp ri.riAltOff))
  | swapStore {temp alt} : CallFlow cfg ri (.swapStore temp alt) { ri with riCirOff := alt }
      (.goto (.swapAlt temp))
  | swapAlt {temp} : CallFlow cfg ri (.swapAlt temp) { ri with riAltOff := temp } (.goto .reset)
  | reset : CallFlow cfg ri .reset { ri with riSlot := -1 } (.goto .takeLost)
  | takeLost (h : ri.riLost ≠ 0) :
      CallFlow cfg ri .takeLost { ri with riLost := 0 } (.report ri.riLost)
  | takeNone (h : ri.riLost = 0) :
      CallFlow cfg ri .takeLost { ri with riLost := 0 } (.goto .refetch)
  | resetDiscard : CallFlow cfg ri .resetDiscard { ri with riSlot := -1 } (.goto .refetch)
  | refetchRoom (h : ri.nextSlot < cfg.rcSize) :
      CallFlow cfg ri .refetch ri.fetched (.goto (.readOff ri.nextSlot))
  | refetchFull (h : cfg.rcSize ≤ ri.nextSlot) :
      CallFlow cfg ri .refetch ri.fetched (.goto (.cas ri.nextSlot))
  | casReset {slot : Nat} (h : ri.riSlot = i32 slot) :
      CallFlow cfg ri (.cas slot) { ri with riSlot := -1 } (.goto .addLost)
  | casMiss {slot : Nat} (h : ri.riSlot ≠ i32 slot) : CallFlow cfg ri (.cas slot) ri (.goto .addLost)
  | addLost : CallFlow cfg ri .addLost { ri with riLost := i32 (ri.riLost + 1) } (.return (-1))
  | spin {cnt} (h : cfg.rcSize < u32 ri.riSlot) :
      CallFlow cfg ri (.spin cnt) ri (.goto (.spin (cnt - 1)))
  | leaveSpin {cnt} : CallFlow cfg ri (.spin cnt) ri (.goto .refetchSpin)
  | refetchSpinRoom (h : ri.nextSlot < cfg.rcSize) :
      CallFlow cfg ri .refetchSpin ri.fetched (.goto (.readOff ri.nextSlot))
  | refetchSpinFull (h : cfg.rcSize ≤ ri.nextSlot) :
      CallFlow cfg ri .refetchSpin ri.fetched (.goto .addLost)

/-- **What a step of a call does to `ring_info`, and where it leads.** -/
theorem callStep_flow (cfg : RingConfig) (st : Stamp) (a : TraceArgs) (leave : Bool) (sh : Shm)
    (pc : CallPc) :
    CallFlow cfg sh.ri pc (callStep cfg st a leave sh pc).1.ri
      (callStep cfg st a leave sh pc).2 := by
  cases pc with
  | fetch =>
      simp only [callStep]
      split_ifs with h h'
      · exact .fetchRoom h
      · exact .fetchFull h'
      · exact .fetchPast (Nat.lt_of_le_of_ne (Nat.not_lt.1 h) (Ne.symm h'))
  | readOff slot => exact .readOff
  | store off slot => exact .store
  | raise =>
      simp only [callStep]
      split_ifs with h
      · exact .raiseFirst h
      · exact .raiseMore h
  | swapTemp => exact .swapTemp
  | swapLoad temp => exact .swapLoad
  | swapStore temp alt => exact .swapStore
  | swapAlt temp => exact .swapAlt
  | reset => exact .reset
  | takeLost =>
      simp only [callStep]
      split_ifs with h
      · exact .takeLost h
      · exact .takeNone (not_not.1 h)
  | resetDiscard => exact .resetDiscard
  | refetch =>
      simp only [callStep]
      split_ifs with h
      · exact .refetchRoom h
      · exact .refetchFull (Nat.not_lt.1 h)
  | cas slot =>
      simp only [callStep]
      split_ifs with h
      · exact .casReset h
      · exact .casMiss h
  | addLost => exact .addLost
  | spin cnt =>
      simp only [callStep]
      split_ifs with h
      · exact .spin h.1
      · exact .leaveSpin
  | refetchSpin =>
      simp only [callStep]
      split_ifs with h
      · exact .refetchSpinRoom h
      · exact .refetchSpinFull (Nat.not_lt.1 h)

/-- The points a call can be at after a step; a nested call returns to the fetch of
line 109. -/
inductive CallNext.Leads : CallNext → Option CallPc → Prop
  | goto {pc} : Leads (.goto pc) (some pc)
  | report {lost} : Leads (.report lost) (some .fetch)
  | return {rc} : Leads (.return rc) none
  | resume {rc} : Leads (.return rc) (some .refetch)

theorem Call.next_leads (c : Call) (n : CallNext) : n.Leads ((c.next n).getLeft?.map Call.pc) := by
  cases n with
  | goto pc => exact .goto
  | report lost => exact .report
  | «return» rc =>
      obtain ⟨a, st, pc, _ | ⟨f, outer⟩⟩ := c
      · exact .return
      · exact .resume

end Rbtrace
