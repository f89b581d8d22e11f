import Rbtrace.Lib.DoubleBuffer
import Rbtrace.Ring

/-!
# What a whole call does

Between whole calls a ring is always in order (`RingOk`): the last slot handed out
is a slot of the buffer or `-1`, nothing is recorded as lost, and the two offsets
are the two buffers.  From such a state a call has three outcomes, given as
equations: it takes the next slot (`rbtrace_room`), it swaps the buffers
(`rbtrace_swap`), or it discards the active one (`rbtrace_discard`); it returns 0 in
all three.  Every later proof about whole calls rests on these three equations.

Read through `Shm.view`, a call is a `DoubleBuffer.push` (`view_rbtrace`).
-/

namespace Rbtrace

open CInt

/-! ## Buffers -/

@[simp] theorem length_bufRecords (m : Nat → RbtraceEntry) (off n : Nat) :
    (bufRecords m off n).length = n := by
  simp [bufRecords]

/-- A store outside a buffer does not change its records. -/
theorem bufRecords_update_of_not_mem {m : Nat → RbtraceEntry} {off n i : Nat} {e : RbtraceEntry}
    (h : i < off ∨ off + n ≤ i) : bufRecords (Function.update m i e) off n = bufRecords m off n := by
  refine List.map_congr_left fun j hj ↦ ?_
  have hjn := List.mem_range.1 hj
  have hne : off + j ≠ i := by omega
  exact Function.update_of_ne hne e m

/-- A store right behind some records appends to them. -/
theorem bufRecords_update_succ (m : Nat → RbtraceEntry) (off n : Nat) (e : RbtraceEntry) :
    bufRecords (Function.update m (off + n) e) off (n + 1) = bufRecords m off n ++ [e] := by
  rw [bufRecords, List.range_succ, List.map_append]
  congr 1
  · exact bufRecords_update_of_not_mem (.inr le_rfl)
  · simp

/-- Clearing one buffer does not change the records of another. -/
theorem bufRecords_clearRecords_of_disjoint {m : Nat → RbtraceEntry} {off n off' n' : Nat}
    (h : off + n ≤ off' ∨ off' + n' ≤ off) :
    bufRecords (clearRecords m off' n') off n = bufRecords m off n := by
  refine List.map_congr_left fun j hj ↦ ?_
  have hjn := List.mem_range.1 hj
  exact if_neg (by omega)

/-! ## Rings in order -/

/-- The state of a ring between whole calls; `off` is the offset its two buffers
start at. -/
structure RingOk (cfg : RingConfig) (off : Nat) (sh : Shm) : Prop where
  slot_ge : -1 ≤ sh.ri.riSlot
  slot_lt : sh.ri.riSlot < cfg.rcSize
  lost_eq : sh.ri.riLost = 0
  flush_ge : -2 ^ 31 ≤ sh.ri.riFlush
  flush_lt : sh.ri.riFlush < 2 ^ 31
  buffers : (sh.ri.riCirOff = off ∧ sh.ri.riAltOff = off + cfg.rcSize) ∨
    (sh.ri.riCirOff = off + cfg.rcSize ∧ sh.ri.riAltOff = off)

/-- The records in the active buffer. -/
def Shm.activeRecords (sh : Shm) : List RbtraceEntry :=
  bufRecords sh.reBase sh.ri.riCirOff (sh.ri.riSlot + 1).toNat

/-- The records in the inactive buffer. -/
def Shm.altRecords (cfg : RingConfig) (sh : Shm) : List RbtraceEntry :=
  bufRecords sh.reBase sh.ri.riAltOff cfg.rcSize

section

variable {cfg : RingConfig} {off : Nat} {sh : Shm} (hlt : cfg.rcSize < 2 ^ 31)

/-! ## The three outcomes of a call -/

include hlt in
/-- There is room in the active buffer. -/
theorem rbtrace_room (h : RingOk cfg off sh) (hs : sh.ri.riSlot + 1 < cfg.rcSize)
    (st : Nat → Stamp) (a : TraceArgs) :
    rbtrace cfg st sh a =
      ({ sh with
          ri := { sh.ri with riSlot := sh.ri.riSlot + 1 }
          reBase := Function.update sh.reBase (sh.ri.riCirOff + (sh.ri.riSlot + 1).toNat)
            (entryOf a (st 0)) }, 0) := by
  have h₁ := h.slot_ge
  have hi : i32 (sh.ri.riSlot + 1) = sh.ri.riSlot + 1 := i32_of_range (by omega) (by omega)
  have hu : u32 (sh.ri.riSlot + 1) = (sh.ri.riSlot + 1).toNat := by
    have := u32_of_range (x := sh.ri.riSlot + 1) (by omega) (by omega)
    omega
  have hslot : (sh.ri.riSlot + 1).toNat < cfg.rcSize := by omega
  simp only [rbtrace, rbtraceAt, rbtraceWith, ringwrap, fetchSlot, claimSlot, hi, hu, if_pos hslot,
    Function.update_self, fillEntry_stampEntry, Function.update_idem]

/-- The `uint32_t` of the slot right behind a full buffer is `rc_size`. -/
private theorem u32_slot_full (hlt : cfg.rcSize < 2 ^ 31)
    (hs : sh.ri.riSlot + 1 = cfg.rcSize) : u32 (sh.ri.riSlot + 1) = cfg.rcSize := by
  have := u32_of_range (x := sh.ri.riSlot + 1) (by omega) (by omega)
  omega

include hlt in
/-- The active buffer is full and nothing is pending: the buffers are swapped. -/
theorem rbtrace_swap (h : RingOk cfg off sh) (hpos : 0 < cfg.rcSize)
    (hs : sh.ri.riSlot + 1 = cfg.rcSize) (hf : sh.ri.riFlush = 0)
    (st : Nat → Stamp) (a : TraceArgs) :
    rbtrace cfg st sh a =
      ({ sh with
          ri := { sh.ri with riCirOff := sh.ri.riAltOff, riAltOff := sh.ri.riCirOff,
                             riSlot := 0, riFlush := 1 }
          reBase := Function.update sh.reBase sh.ri.riAltOff (entryOf a (st 0)) }, 0) := by
  have hu := u32_slot_full hlt hs
  have hl := h.lost_eq
  have h1 : i32 (0 + 1) = 1 := rfl
  have h0 : i32 (-1 + 1) = 0 := rfl
  have hu0 : u32 (-1 + 1) = 0 := rfl
  simp only [rbtrace, rbtraceAt, rbtraceWith, ringwrap, ringwrapSlot, fetchSlot, claimSlot, hu, hf,
    hl, lt_irrefl, if_false, if_true, h1, ne_eq, not_true_eq_false, h0, hu0, hpos, Nat.add_zero,
    Function.update_self, fillEntry_stampEntry, Function.update_idem]

include hlt in
/-- The active buffer is full while the other one is still pending: it is discarded. -/
theorem rbtrace_discard (h : RingOk cfg off sh) (hpos : 0 < cfg.rcSize)
    (hs : sh.ri.riSlot + 1 = cfg.rcSize) (hf : sh.ri.riFlush ≠ 0)
    (st : Nat → Stamp) (a : TraceArgs) :
    rbtrace cfg st sh a =
      ({ sh with
          ri := { sh.ri with riSlot := 0, riFlush := i32 (sh.ri.riFlush + 1) }
          reBase := Function.update sh.reBase sh.ri.riCirOff (entryOf a (st 0)) }, 0) := by
  have hu := u32_slot_full hlt hs
  have h1 : ¬ i32 (sh.ri.riFlush + 1) = 1 := by
    have h₁ := h.flush_ge
    have h₂ := h.flush_lt
    unfold i32
    omega
  have h0 : i32 (-1 + 1) = 0 := rfl
  have hu0 : u32 (-1 + 1) = 0 := rfl
  simp only [rbtrace, rbtraceAt, rbtraceWith, ringwrap, ringwrapSlot, fetchSlot, claimSlot, hu,
    lt_irrefl, if_false, if_true, h1, h0, hu0, hpos, Nat.add_zero, Function.update_self,
    fillEntry_stampEntry, Function.update_idem]

/-- **A call, as a case analysis.**  From a ring in order a call does one of three
things, and returns 0. -/
theorem rbtrace_cases (h : RingOk cfg off sh) (hpos : 0 < cfg.rcSize) (hlt : cfg.rcSize < 2 ^ 31)
    (st : Nat → Stamp) (a : TraceArgs) :
    (sh.ri.riSlot + 1 < cfg.rcSize ∧ rbtrace cfg st sh a =
      ({ sh with
          ri := { sh.ri with riSlot := sh.ri.riSlot + 1 }
          reBase := Function.update sh.reBase (sh.ri.riCirOff + (sh.ri.riSlot + 1).toNat)
            (entryOf a (st 0)) }, 0)) ∨
    (sh.ri.riSlot + 1 = cfg.rcSize ∧ sh.ri.riFlush = 0 ∧ rbtrace cfg st sh a =
      ({ sh with
          ri := { sh.ri with riCirOff := sh.ri.riAltOff, riAltOff := sh.ri.riCirOff,
                             riSlot := 0, riFlush := 1 }
          reBase := Function.update sh.reBase sh.ri.riAltOff (entryOf a (st 0)) }, 0)) ∨
    (sh.ri.riSlot + 1 = cfg.rcSize ∧ sh.ri.riFlush ≠ 0 ∧ rbtrace cfg st sh a =
      ({ sh with
          ri := { sh.ri with riSlot := 0, riFlush := i32 (sh.ri.riFlush + 1) }
          reBase := Function.update sh.reBase sh.ri.riCirOff (entryOf a (st 0)) }, 0)) := by
  have h₂ := h.slot_lt
  by_cases hs : sh.ri.riSlot + 1 < cfg.rcSize
  · exact .inl ⟨hs, rbtrace_room hlt h hs st a⟩
  · have hs' : sh.ri.riSlot + 1 = cfg.rcSize := by omega
    by_cases hf : sh.ri.riFlush = 0
    · exact .inr (.inl ⟨hs', hf, rbtrace_swap hlt h hpos hs' hf st a⟩)
    · exact .inr (.inr ⟨hs', hf, rbtrace_discard hlt h hpos hs' hf st a⟩)

/-- A whole call keeps the ring in order and returns 0. -/
theorem RingOk.rbtrace (h : RingOk cfg off sh) (hpos : 0 < cfg.rcSize)
    (hlt : cfg.rcSize < 2 ^ 31) (st : Nat → Stamp) (a : TraceArgs) :
    RingOk cfg off (rbtrace cfg st sh a).1 ∧ (rbtrace cfg st sh a).2 = 0 := by
  have h₁ := h.slot_ge
  have hb := h.buffers
  obtain ⟨hs, he⟩ | ⟨hs, hf, he⟩ | ⟨hs, hf, he⟩ := rbtrace_cases h hpos hlt st a
  · rw [he]
    exact ⟨⟨by simp only; omega, by simp only; omega, h.lost_eq, h.flush_ge, h.flush_lt, hb⟩, rfl⟩
  · rw [he]
    refine ⟨⟨by simp, by simpa using hpos, h.lost_eq, by simp, by simp, ?_⟩, rfl⟩
    simp only
    omega
  · rw [he]
    exact ⟨⟨by simp, by simpa using hpos, h.lost_eq, le_i32 _, i32_lt _, hb⟩, rfl⟩

/-! ## A ring is a double buffer -/

/-- The double buffer that a ring in order stands for. -/
def Shm.view (cfg : RingConfig) (sh : Shm) : DoubleBuffer RbtraceEntry :=
  { active := sh.activeRecords
    pending := if sh.ri.riFlush = 0 then none else some (sh.altRecords cfg)
    overruns := (sh.ri.riFlush - 1).toNat }

theorem length_view_active (h : RingOk cfg off sh) :
    ((sh.view cfg).active.length : Int) = sh.ri.riSlot + 1 := by
  have h₁ := h.slot_ge
  simp only [Shm.view, Shm.activeRecords, length_bufRecords]
  omega

/-- **A call is a push**, as long as the 32-bit counter of filled buffers does not
overflow. -/
theorem view_rbtrace (h : RingOk cfg off sh) (hpos : 0 < cfg.rcSize) (hlt : cfg.rcSize < 2 ^ 31)
    (hf : 0 ≤ sh.ri.riFlush) (hf' : sh.ri.riSlot + 1 < cfg.rcSize ∨ sh.ri.riFlush + 1 < 2 ^ 31)
    (st : Nat → Stamp) (a : TraceArgs) :
    (rbtrace cfg st sh a).1.view cfg = (sh.view cfg).push cfg.rcSize (entryOf a (st 0)) := by
  have h₁ := h.slot_ge
  have hb := h.buffers
  have hlen := length_view_active h
  obtain ⟨hs, he⟩ | ⟨hs, hz, he⟩ | ⟨hs, hz, he⟩ := rbtrace_cases h hpos hlt st a
  · rw [DoubleBuffer.push_of_lt (by omega), he]
    have hn : (sh.ri.riSlot + 1 + 1).toNat = (sh.ri.riSlot + 1).toNat + 1 := by omega
    simp only [Shm.view, Shm.activeRecords, Shm.altRecords, hn, bufRecords_update_succ]
    rw [bufRecords_update_of_not_mem (by omega)]
  · have hp : (sh.view cfg).pending = none := if_pos hz
    have hn : (sh.ri.riSlot + 1).toNat = cfg.rcSize := by omega
    have hkeep : bufRecords (Function.update sh.reBase sh.ri.riAltOff (entryOf a (st 0)))
        sh.ri.riCirOff cfg.rcSize = bufRecords sh.reBase sh.ri.riCirOff cfg.rcSize :=
      bufRecords_update_of_not_mem (by omega)
    rw [DoubleBuffer.push_of_pending_eq_none (by omega) hp, he]
    simp only [Shm.view, Shm.activeRecords, Shm.altRecords, hn, hkeep]
    simp [bufRecords]
  · have hp : (sh.view cfg).pending = some (sh.altRecords cfg) := if_neg hz
    have hi : i32 (sh.ri.riFlush + 1) = sh.ri.riFlush + 1 := i32_of_range (by omega) (by omega)
    have hne : sh.ri.riFlush + 1 ≠ 0 := by omega
    have hkeep : bufRecords (Function.update sh.reBase sh.ri.riCirOff (entryOf a (st 0)))
        sh.ri.riAltOff cfg.rcSize = bufRecords sh.reBase sh.ri.riAltOff cfg.rcSize :=
      bufRecords_update_of_not_mem (by omega)
    rw [DoubleBuffer.push_of_pending_eq_some (by omega) hp, he]
    simp only [Shm.view, Shm.activeRecords, Shm.altRecords, hi, if_neg hne, hkeep,
      DoubleBuffer.mk.injEq]
    exact ⟨by simp [bufRecords], trivial, by omega⟩

end

end Rbtrace
