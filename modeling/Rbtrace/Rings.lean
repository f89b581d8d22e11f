import Rbtrace.Layout
import Rbtrace.RingSpec

/-!
# Calls on several rings

The table `ring_cfgs` has one row, but the code is written for any number of rings: a call
names its ring, all rings share the record area, and what a ring has lost is reported to
the I/O ring, whichever ring lost it.  Here is `rbtrace()` for a table of any length.

The record of every entry handed out (`written`) is not in the source; it is there to say
which call an entry was for.  Every entry is handed out in one of the two buffers of the ring
the call names (`layout_of_calls`), and a call changes no other entry (`frame_of_calls`).
-/

namespace Rbtrace

open CInt Tiling

/-! ## Shared memory of several rings -/

/-- The mapping: a `ring_info` for each ring, and the records of all of them. -/
structure Rings where
  ri : Nat → RingInfo
  reBase : Nat → RbtraceEntry
  /-- The entries handed out so far, each with the ring it was asked of. -/
  written : List (Nat × Nat)

/-- Whether a ring is in order is written in its `ring_info`. -/
theorem RingOk.of_ri {cfg : RingConfig} {off : Nat} {sh sh' : Shm} (h : RingOk cfg off sh)
    (hri : sh'.ri = sh.ri) : RingOk cfg off sh' := by
  obtain ⟨h₁, h₂, h₃, h₄, h₅, h₆⟩ := h
  rw [← hri] at h₁ h₂ h₃ h₄ h₅ h₆
  exact ⟨h₁, h₂, h₃, h₄, h₅, h₆⟩

namespace Rings

/-- What a call on ring `i` sees. -/
def shm (g : Rings) (i : Nat) : Shm := ⟨g.ri i, g.reBase, 0⟩

/-- A store to the `ring_info` of ring `i`. -/
def setRi (g : Rings) (i : Nat) (ri : RingInfo) : Rings := { g with ri := Function.update g.ri i ri }

/-- `__sync_add_and_fetch(&ri->ri_slot, 1)` on ring `i`. -/
def fetchSlot (g : Rings) (i : Nat) : Rings × Nat :=
  (g.setRi i { g.ri i with riSlot := i32 ((g.ri i).riSlot + 1) }, u32 ((g.ri i).riSlot + 1))

/-- Hand out the record at `slot` of the active buffer of ring `i`. -/
def claimSlot (g : Rings) (i : Nat) (st : Stamp) (slot : Nat) : Rings × Option Nat :=
  let re := (g.ri i).riCirOff + slot
  ({ g with
      reBase := Function.update g.reBase re (stampEntry st (g.reBase re))
      written := g.written ++ [(i, re)] }, some re)

/-- `__sync_add_and_fetch(&ri->ri_lost, 1)` on ring `i`. -/
def addLost (g : Rings) (i : Nat) : Rings :=
  g.setRi i { g.ri i with riLost := i32 ((g.ri i).riLost + 1) }

/-- `ringwrap_slot` on ring `i`. -/
def ringwrapSlot (report : Rings → Int → Rings) (cfg : RingConfig) (i : Nat) (st : Stamp) (g : Rings)
    (slot : Nat) : Rings × Option Nat :=
  if slot = cfg.rcSize then
    let ri := g.ri i
    let flush := i32 (ri.riFlush + 1)
    let g₁ :=
      if flush = 1 then
        let g' := g.setRi i { ri with
          riFlush := flush, riCirOff := ri.riAltOff, riAltOff := ri.riCirOff,
          riSlot := -1, riLost := 0 }
        if ri.riLost ≠ 0 then report g' ri.riLost else g'
      else g.setRi i { ri with riFlush := flush, riSlot := -1 }
    let g₂ := (g₁.fetchSlot i).1
    let slot₂ := (g₁.fetchSlot i).2
    if slot₂ < cfg.rcSize then g₂.claimSlot i st slot₂
    else
      let g₃ := if (g₂.ri i).riSlot = i32 slot₂ then
        g₂.setRi i { g₂.ri i with riSlot := -1 } else g₂
      (g₃.addLost i, none)
  else
    let g₂ := (g.fetchSlot i).1
    let slot₂ := (g.fetchSlot i).2
    if slot₂ < cfg.rcSize then g₂.claimSlot i st slot₂ else (g₂.addLost i, none)

/-- `ringwrap` on ring `i`. -/
def ringwrap (report : Rings → Int → Rings) (cfg : RingConfig) (i : Nat) (st : Stamp) (g : Rings) :
    Rings × Option Nat :=
  let g₁ := (g.fetchSlot i).1
  let slot := (g.fetchSlot i).2
  if slot < cfg.rcSize then g₁.claimSlot i st slot else g₁.ringwrapSlot report cfg i st slot

/-- The body of `rbtrace`, with the nested report as a parameter. -/
def rbtraceWith (report : Rings → Int → Rings) (cfg : RingConfig) (i : Nat) (st : Stamp) (g : Rings)
    (a : TraceArgs) : Rings × Int :=
  match g.ringwrap report cfg i st with
  | (g', none) => (g', -1)
  | (g', some re) =>
      ({ g' with reBase := Function.update g'.reBase re (fillEntry a (g'.reBase re)) }, 0)

/-- `RBTRACE_RING_IO`. -/
def RBTRACE_RING_IO : Nat := 0

/-- `rbtrace(ring, ..)` with at most `depth` reports nested in it. -/
def rbtrace (ringCfgs : List RingConfig) :
    Nat → (Nat → Stamp) → Rings → Nat → TraceArgs → Rings × Int
  | depth, st, g, ring, a =>
      match ringCfgs[ring]? with
      | none => (g, -1)
      | some cfg =>
          match depth with
          | 0 => g.rbtraceWith (fun g' _ ↦ g') cfg ring (st 0) a
          | depth + 1 =>
              g.rbtraceWith (fun g' lost ↦ (rbtrace ringCfgs depth (fun i ↦ st (i + 1)) g'
                RBTRACE_RING_IO (lostArgs lost)).1) cfg ring (st 0) a

/-! ## A call is a call on its ring -/

section

variable {ringCfgs : List RingConfig} {cfg : RingConfig} {g : Rings} {i off : Nat}

/-- A ring's share of the record area. -/
def InBuffers (cfg : RingConfig) (off re : Nat) : Prop := off ≤ re ∧ re < off + 2 * cfg.rcSize

/-- **A call on a ring in order.**  Nothing is lost, so nothing is reported to another
ring; the call does to its ring what `rbtrace` does to a ring that is alone, and hands out
one entry, which is in the buffers of the ring. -/
theorem rbtraceWith_eq (h : RingOk cfg off (g.shm i)) (hpos : 0 < cfg.rcSize)
    (hlt : cfg.rcSize < 2 ^ 31) (report : Rings → Int → Rings) (st : Nat → Stamp) (a : TraceArgs) :
    ∃ re, InBuffers cfg off re ∧
      g.rbtraceWith report cfg i (st 0) a =
        (⟨Function.update g.ri i (Rbtrace.rbtrace cfg st (g.shm i) a).1.ri,
          Function.update g.reBase re (entryOf a (st 0)), g.written ++ [(i, re)]⟩, 0) := by
  have hri : (g.shm i).ri = g.ri i := rfl
  have hge := h.slot_ge
  have hbuf := h.buffers
  have hlost := h.lost_eq
  have hflush₁ := h.flush_ge
  have hflush₂ := h.flush_lt
  have hcases := rbtrace_cases h hpos hlt st a
  simp only [hri] at hge hbuf hlost hflush₁ hflush₂ hcases
  have hslot : u32 ((g.ri i).riSlot + 1) = ((g.ri i).riSlot + 1).toNat := by
    have hu := u32_of_range (x := (g.ri i).riSlot + 1) (by omega)
    omega
  have h0 : i32 (-1 + 1) = 0 := rfl
  have hu0 : u32 (-1 + 1) = 0 := rfl
  unfold InBuffers
  obtain ⟨hs, he⟩ | ⟨hs, hf, he⟩ | ⟨hs, hf, he⟩ := hcases
  · -- the next slot
    have hi : i32 ((g.ri i).riSlot + 1) = (g.ri i).riSlot + 1 := i32_of_range (by omega) (by omega)
    have hroom : ((g.ri i).riSlot + 1).toNat < cfg.rcSize := by omega
    refine ⟨(g.ri i).riCirOff + ((g.ri i).riSlot + 1).toNat, by omega, ?_⟩
    rw [he]
    simp only [rbtraceWith, ringwrap, fetchSlot, claimSlot, setRi, hi, hslot, if_pos hroom,
      Function.update_self, fillEntry_stampEntry, Function.update_idem]
  · -- the first slot of the other buffer
    have hfull : ((g.ri i).riSlot + 1).toNat = cfg.rcSize := by omega
    have hone : i32 (0 + 1) = 1 := rfl
    refine ⟨(g.ri i).riAltOff, by omega, ?_⟩
    rw [he]
    simp only [rbtraceWith, ringwrap, ringwrapSlot, fetchSlot, claimSlot, setRi, hslot, hfull, hf,
      hlost, hone, lt_irrefl, if_false, if_true, ne_eq, not_true_eq_false, h0, hu0, hpos,
      Nat.add_zero, Function.update_self, fillEntry_stampEntry, Function.update_idem]
  · -- the first slot of the same buffer
    have hfull : ((g.ri i).riSlot + 1).toNat = cfg.rcSize := by omega
    have hmany : ¬ i32 ((g.ri i).riFlush + 1) = 1 := by
      unfold i32
      omega
    refine ⟨(g.ri i).riCirOff, by omega, ?_⟩
    rw [he]
    simp only [rbtraceWith, ringwrap, ringwrapSlot, fetchSlot, claimSlot, setRi, hslot, hfull, hmany,
      lt_irrefl, if_false, if_true, h0, hu0, hpos, Nat.add_zero, Function.update_self,
      fillEntry_stampEntry, Function.update_idem]

/-- A call that names no ring of the table. -/
theorem rbtrace_of_none (hcfg : ringCfgs[i]? = none) (depth : Nat) (st : Nat → Stamp)
    (a : TraceArgs) : g.rbtrace ringCfgs depth st i a = (g, -1) := by
  unfold Rings.rbtrace
  simp only [hcfg]

theorem rbtrace_eq_with (hcfg : ringCfgs[i]? = some cfg) (depth : Nat) (st : Nat → Stamp)
    (a : TraceArgs) :
    ∃ report, g.rbtrace ringCfgs depth st i a = g.rbtraceWith report cfg i (st 0) a := by
  cases depth with
  | zero =>
      rw [rbtrace, hcfg]
      exact ⟨_, rfl⟩
  | succ depth =>
      rw [rbtrace, hcfg]
      exact ⟨_, rfl⟩

end

/-! ## Runs -/

/-- A call: the ring it names, what it reads from the system, and its arguments. -/
structure RingCall where
  ring : Nat
  st : Nat → Stamp
  args : TraceArgs

/-- The mapping after some calls. -/
def callAll (ringCfgs : List RingConfig) (depth : Nat) (g : Rings) (calls : List RingCall) : Rings :=
  calls.foldl (fun g c ↦ (g.rbtrace ringCfgs depth c.st c.ring c.args).1) g

/-- The mapping as `rbtrace_daemon_init` leaves it. -/
def init (ringCfgs : List RingConfig) : Rings where
  ri := fun i ↦
    match (initAllOffsets ringCfgs 0)[i]? with
    | some r =>
        { riFilePath := [], riFlags := r.cfg.rcFlags, riTflags := 0, riCirOff := r.cirOff.toNat
          riAltOff := r.altOff.toNat, riSlot := 0, riFlush := 0, riLost := 0 }
    | none => ⟨[], {}, 0, 0, 0, 0, 0, 0⟩
  reBase := fun _ ↦ .zero
  written := []

/-- What holds between calls: every ring is in order at its place, and only entries of a
ring's own buffers have been handed out, and stored to. -/
structure InOrder (ringCfgs : List RingConfig) (g : Rings) : Prop where
  rings : ∀ i cfg, ringCfgs[i]? = some cfg → RingOk cfg (ringOffset ringCfgs i) (g.shm i)
  written : ∀ w ∈ g.written, ∃ cfg, ringCfgs[w.1]? = some cfg ∧
    InBuffers cfg (ringOffset ringCfgs w.1) w.2
  stored : ∀ x, g.reBase x ≠ .zero → ∃ w ∈ g.written, w.2 = x

section

variable {ringCfgs : List RingConfig} {g : Rings}

theorem inOrder_init (hpos : ∀ cfg ∈ ringCfgs, 1 ≤ cfg.rcSize)
    (htotal : 2 * totalRecords ringCfgs < 2 ^ 31) : (init ringCfgs).InOrder ringCfgs := by
  refine ⟨fun i cfg hcfg ↦ ?_, nofun, fun x hx ↦ absurd rfl hx⟩
  have hsize := hpos cfg (List.mem_of_getElem? hcfg)
  have hoff := getElem?_initAllOffsets (by rwa [Nat.zero_add]) i
  rw [hcfg, Option.map_some, Nat.zero_add] at hoff
  constructor
  all_goals simp only [shm, init, hoff, Int.toNat_natCast]
  · decide
  · omega
  · decide
  · decide
  · exact .inl ⟨trivial, trivial⟩

/-- A call that names a ring of the table. -/
theorem InOrder.rbtrace_eq (h : g.InOrder ringCfgs) (hpos : ∀ cfg ∈ ringCfgs, 1 ≤ cfg.rcSize)
    (htotal : 2 * totalRecords ringCfgs < 2 ^ 31) (depth : Nat) {i : Nat} {cfg : RingConfig}
    (hcfg : ringCfgs[i]? = some cfg) (st : Nat → Stamp) (a : TraceArgs) :
    ∃ re, InBuffers cfg (ringOffset ringCfgs i) re ∧
      g.rbtrace ringCfgs depth st i a =
        (⟨Function.update g.ri i (Rbtrace.rbtrace cfg st (g.shm i) a).1.ri,
          Function.update g.reBase re (entryOf a (st 0)), g.written ++ [(i, re)]⟩, 0) := by
  have hmem := List.mem_of_getElem? hcfg
  have hlt : cfg.rcSize < 2 ^ 31 := by
    have := rcSize_le_totalRecords hmem
    omega
  obtain ⟨report, hwith⟩ := @rbtrace_eq_with ringCfgs cfg g i hcfg depth st a
  rw [hwith]
  exact rbtraceWith_eq (h.rings i cfg hcfg) (hpos cfg hmem) hlt report st a

/-- **One call.** -/
theorem InOrder.rbtrace (h : g.InOrder ringCfgs) (hpos : ∀ cfg ∈ ringCfgs, 1 ≤ cfg.rcSize)
    (htotal : 2 * totalRecords ringCfgs < 2 ^ 31) (depth : Nat) (c : RingCall) :
    (g.rbtrace ringCfgs depth c.st c.ring c.args).1.InOrder ringCfgs ∧
      (g.rbtrace ringCfgs depth c.st c.ring c.args).1.written.map Prod.fst =
        g.written.map Prod.fst ++ [c.ring].filter (· < ringCfgs.length) := by
  obtain ⟨i, st, a⟩ := c
  cases hcfg : ringCfgs[i]? with
  | none =>
      have hlen := List.getElem?_eq_none_iff.1 hcfg
      rw [rbtrace_of_none hcfg]
      refine ⟨h, ?_⟩
      simp [hlen]
  | some cfg =>
      have hmem := List.mem_of_getElem? hcfg
      have hlen := (List.getElem?_eq_some_iff.1 hcfg).1
      have hlt : cfg.rcSize < 2 ^ 31 := by
        have := rcSize_le_totalRecords hmem
        omega
      obtain ⟨re, hre, hcall⟩ := h.rbtrace_eq hpos htotal depth hcfg st a
      rw [hcall]
      refine ⟨⟨fun j cfg' hcfg' ↦ ?_, fun w hw ↦ ?_, fun x hx ↦ ?_⟩, ?_⟩
      · by_cases hj : j = i
        · subst hj
          obtain rfl : cfg = cfg' := Option.some.inj (hcfg.symm.trans hcfg')
          have hok := ((h.rings j cfg hcfg).rbtrace (hpos cfg hmem) hlt st a).1
          refine hok.of_ri ?_
          exact Function.update_self j _ g.ri
        · refine (h.rings j cfg' hcfg').of_ri ?_
          exact Function.update_of_ne hj _ g.ri
      · rcases List.mem_append.1 hw with hw | hw
        · exact h.written w hw
        · rw [List.mem_singleton.1 hw]
          exact ⟨cfg, hcfg, hre⟩
      · by_cases hxre : x = re
        · exact ⟨(i, re), List.mem_append_right _ (List.mem_singleton_self _), hxre.symm⟩
        · change Function.update g.reBase re _ x ≠ _ at hx
          rw [Function.update_of_ne hxre] at hx
          obtain ⟨w, hw, hwx⟩ := h.stored x hx
          exact ⟨w, List.mem_append_left _ hw, hwx⟩
      · simp [hlen]

/-- What a call leaves alone: every other ring, and every entry that is not in the share of
the ring it names. -/
theorem InOrder.frame (h : g.InOrder ringCfgs) (hpos : ∀ cfg ∈ ringCfgs, 1 ≤ cfg.rcSize)
    (htotal : 2 * totalRecords ringCfgs < 2 ^ 31) (depth : Nat) (c : RingCall) :
    (∀ j, j ≠ c.ring → (g.rbtrace ringCfgs depth c.st c.ring c.args).1.ri j = g.ri j) ∧
      ∀ x, (g.rbtrace ringCfgs depth c.st c.ring c.args).1.reBase x ≠ g.reBase x →
        ∃ cfg, ringCfgs[c.ring]? = some cfg ∧ InBuffers cfg (ringOffset ringCfgs c.ring) x := by
  cases hcfg : ringCfgs[c.ring]? with
  | none =>
      rw [rbtrace_of_none hcfg]
      exact ⟨fun _ _ ↦ rfl, fun x hx ↦ absurd rfl hx⟩
  | some cfg =>
      obtain ⟨re, hre, hcall⟩ := h.rbtrace_eq hpos htotal depth hcfg c.st c.args
      rw [hcall]
      refine ⟨fun j hj ↦ Function.update_of_ne hj _ g.ri, fun x hx ↦ ⟨cfg, rfl, ?_⟩⟩
      by_cases hxre : x = re
      · rw [hxre]
        exact hre
      · exact absurd (Function.update_of_ne hxre _ g.reBase) hx

/-- **Any number of calls.** -/
theorem InOrder.callAll (h : g.InOrder ringCfgs) (hpos : ∀ cfg ∈ ringCfgs, 1 ≤ cfg.rcSize)
    (htotal : 2 * totalRecords ringCfgs < 2 ^ 31) (depth : Nat) (calls : List RingCall) :
    (g.callAll ringCfgs depth calls).InOrder ringCfgs ∧
      (g.callAll ringCfgs depth calls).written.map Prod.fst =
        g.written.map Prod.fst ++ (calls.map RingCall.ring).filter (· < ringCfgs.length) := by
  induction calls generalizing g with
  | nil => exact ⟨h, (List.append_nil _).symm⟩
  | cons c calls ih =>
      obtain ⟨hstep, hwritten⟩ := h.rbtrace hpos htotal depth c
      obtain ⟨hrun, hall⟩ := ih hstep
      refine ⟨hrun, hall.trans ?_⟩
      rw [hwritten, List.append_assoc, ← List.filter_append]
      rfl

end

/-- The bytes of an entry. -/
def entryRegion (reBase re : Nat) : Region := ⟨reBase + sizeofEntry * re, sizeofEntry⟩

/-- An entry of a ring's share is in one of its two buffers. -/
theorem InBuffers.mem_buffers {cfg : RingConfig} {off re : Nat} (h : InBuffers cfg off re)
    (reBase : Nat) :
    ∃ b ∈ (⟨cfg, (off : Nat), (off + cfg.rcSize : Nat)⟩ : RingOffsets).buffers reBase,
      (entryRegion reBase re).bytes ⊆ b.bytes := by
  obtain ⟨hge, hlt⟩ := h
  by_cases hfirst : re < off + cfg.rcSize
  · refine ⟨_, List.mem_cons_self, Set.Ico_subset_Ico ?_ ?_⟩
    all_goals
      unfold entryRegion sizeofEntry
      push_cast
      omega
  · refine ⟨_, List.mem_cons_of_mem _ (List.mem_singleton_self _), Set.Ico_subset_Ico ?_ ?_⟩
    all_goals
      unfold entryRegion sizeofEntry
      push_cast
      omega

theorem InBuffers.mem_ringOffsets {ringCfgs : List RingConfig} {cfg : RingConfig} {i re : Nat}
    (htotal : 2 * totalRecords ringCfgs < 2 ^ 31) (hcfg : ringCfgs[i]? = some cfg)
    (h : InBuffers cfg (ringOffset ringCfgs i) re) (reBase : Nat) :
    ∃ r, (initAllOffsets ringCfgs 0)[i]? = some r ∧
      ∃ b ∈ r.buffers reBase, (entryRegion reBase re).bytes ⊆ b.bytes := by
  have hoff := getElem?_initAllOffsets (by rwa [Nat.zero_add]) i
  rw [hcfg, Option.map_some, Nat.zero_add] at hoff
  exact ⟨_, hoff, h.mem_buffers reBase⟩

/-- **The shared memory.**  For any table of rings whose records can be counted with an
`int`: the limit word, the ring word, the `ring_info` blocks and the buffers are pairwise
disjoint and fill the mapping; and after any calls on any rings, one entry has been handed
out for each call on a ring of the table, with nothing else stored to, and it is in one of
the two buffers of that ring. -/
theorem layout_of_calls (ringCfgs : List RingConfig) (hpos : ∀ cfg ∈ ringCfgs, 1 ≤ cfg.rcSize)
    (htotal : 2 * totalRecords ringCfgs < 2 ^ 31) :
    (regions ringCfgs).Pairwise (fun r r' ↦ Disjoint r.bytes r'.bytes) ∧
    (∀ x, (∃ r ∈ regions ringCfgs, x ∈ r.bytes) ↔ x ∈ Set.Ico 0 (rbtraceCalcShmSize ringCfgs : Int)) ∧
    ∀ (depth : Nat) (calls : List RingCall),
      ((init ringCfgs).callAll ringCfgs depth calls).written.map Prod.fst =
        (calls.map RingCall.ring).filter (· < ringCfgs.length) ∧
      (∀ x, ((init ringCfgs).callAll ringCfgs depth calls).reBase x ≠ .zero →
        ∃ w ∈ ((init ringCfgs).callAll ringCfgs depth calls).written, w.2 = x) ∧
      ∀ w ∈ ((init ringCfgs).callAll ringCfgs depth calls).written,
        ∃ r, (initAllOffsets ringCfgs 0)[w.1]? = some r ∧
          ∃ b ∈ r.buffers (rbtraceGlobalsInit ringCfgs.length).reBase,
            (entryRegion (rbtraceGlobalsInit ringCfgs.length).reBase w.2).bytes ⊆ b.bytes := by
  have htiles := tiles_regions hpos htotal
  refine ⟨htiles.pairwise, htiles.mem_iff, fun depth calls ↦ ?_⟩
  obtain ⟨hok, hwritten⟩ := (inOrder_init hpos htotal).callAll hpos htotal depth calls
  refine ⟨hwritten, hok.stored, fun w hw ↦ ?_⟩
  obtain ⟨cfg, hcfg, hin⟩ := hok.written w hw
  exact hin.mem_ringOffsets htotal hcfg _

/-- **What one call changes.**  After any calls on any rings, the next call changes no
`ring_info` but that of the ring it names, and no entry but in one of the two buffers of that
ring. -/
theorem frame_of_calls (ringCfgs : List RingConfig) (hpos : ∀ cfg ∈ ringCfgs, 1 ≤ cfg.rcSize)
    (htotal : 2 * totalRecords ringCfgs < 2 ^ 31) (depth : Nat) (calls : List RingCall)
    (c : RingCall) :
    (∀ j, j ≠ c.ring → ((init ringCfgs).callAll ringCfgs depth (calls ++ [c])).ri j =
      ((init ringCfgs).callAll ringCfgs depth calls).ri j) ∧
    ∀ x, ((init ringCfgs).callAll ringCfgs depth (calls ++ [c])).reBase x ≠
        ((init ringCfgs).callAll ringCfgs depth calls).reBase x →
      ∃ r, (initAllOffsets ringCfgs 0)[c.ring]? = some r ∧
        ∃ b ∈ r.buffers (rbtraceGlobalsInit ringCfgs.length).reBase,
          (entryRegion (rbtraceGlobalsInit ringCfgs.length).reBase x).bytes ⊆ b.bytes := by
  obtain ⟨hok, -⟩ := (inOrder_init hpos htotal).callAll hpos htotal depth calls
  obtain ⟨hri, hentry⟩ := hok.frame hpos htotal depth c
  rw [show (init ringCfgs).callAll ringCfgs depth (calls ++ [c]) =
      (((init ringCfgs).callAll ringCfgs depth calls).rbtrace ringCfgs depth c.st c.ring c.args).1
    from List.foldl_append ..]
  refine ⟨hri, fun x hx ↦ ?_⟩
  obtain ⟨cfg, hcfg, hin⟩ := hentry x hx
  exact hin.mem_ringOffsets htotal hcfg _

/-- A table of two rings. -/
def twoRings : List RingConfig := [oneRing.toRingConfig, twoRing.toRingConfig]

/-- A call on a ring, by thread 7. -/
def callOn (ring : Nat) : RingCall := ⟨ring, fun _ ↦ ⟨⟨0, 0⟩, 0, 7⟩, ⟨1, 0, 0, 0, 0⟩⟩

/-- Two rings of one and two records, and calls on either. -/
theorem layout_of_calls_twoRings :
    2 * totalRecords twoRings < 2 ^ 31 ∧
    (regions twoRings).Pairwise (fun r r' ↦ Disjoint r.bytes r'.bytes) ∧
    ((init twoRings).callAll twoRings 1 [callOn 1, callOn 0, callOn 1, callOn 0]).written.map
      Prod.fst = [1, 0, 1, 0] := by
  have hpos : ∀ cfg ∈ twoRings, 1 ≤ cfg.rcSize := by decide
  have htotal : 2 * totalRecords twoRings < 2 ^ 31 := by decide
  obtain ⟨hdisj, _, hcalls⟩ := layout_of_calls twoRings hpos htotal
  exact ⟨htotal, hdisj, (hcalls 1 _).1⟩

end Rings

end Rbtrace
