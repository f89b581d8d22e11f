import Mathlib.Algebra.Order.BigOperators.Group.List
import Rbtrace.Lib.Tiling
import Rbtrace.Ring

/-!
# The layout of the shared memory

Three functions that have to agree: `rbtrace_calc_shm_size` adds up bytes,
`rbtrace_globals_init` steps a pointer over the limit word, the ring word and the
`ring_info` blocks, and the loop of `rbtrace_daemon_init` over `rbtrace_init_trace_info`
counts records.  For any table of rings whose records can be counted with an `int`, the
regions they speak of tile the mapping (`tiles_regions`).

The arithmetic is that of the source: `size_t` sums, and offsets that go through `int` and
`uint32_t`.  Addresses are relative to `shm_base`.
-/

namespace Rbtrace

open CInt Tiling

/-! ## Sizes -/

/-- `sizeof(uint64_t)`, the limit word. -/
def sizeofFsize : Nat := 8

/-- `sizeof(rbtrace_ring_t)`, the ring word. -/
def sizeofRing : Nat := 4

/-- `sizeof(struct ring_info)`: a path of 1024 bytes, the ring and its padding, two words
of 64 bits, five of 32 and their padding. -/
def sizeofRingInfo : Nat := 1024 + (4 + 4) + 2 * 8 + (5 * 4 + 4)

/-- `rbtrace_calc_ring_size`. -/
def rbtraceCalcRingSize (cfg : RingConfig) : Nat := cfg.rcSize * sizeofEntry * 2 % 2 ^ 64

/-- `rbtrace_calc_shm_size`, for the table `ring_cfgs`. -/
def rbtraceCalcShmSize (ringCfgs : List RingConfig) : Nat :=
  let size := ringCfgs.foldl (fun size cfg ↦ (size + rbtraceCalcRingSize cfg) % 2 ^ 64)
    (sizeofFsize + sizeofRing)
  (size + ringCfgs.length * sizeofRingInfo) % 2 ^ 64

/-! ## Pointers and offsets -/

/-- The pointers into the mapping. -/
structure RbtraceGlobals where
  fsizePtr : Nat
  ringPtr : Nat
  riPtr : Nat
  reBase : Nat

/-- `rbtrace_globals_init`. -/
def rbtraceGlobalsInit (ringMax : Nat) : RbtraceGlobals :=
  let offset₁ := sizeofFsize
  let offset₂ := offset₁ + sizeofRing
  let offset₃ := offset₂ + sizeofRingInfo * ringMax
  ⟨0, offset₁, offset₂, offset₃⟩

/-- A ring of the table, and the offsets of its two buffers in records. -/
structure RingOffsets where
  cfg : RingConfig
  cirOff : Int
  altOff : Int

/-- What `rbtrace_init_trace_info` stores in the two offsets, and what it returns. -/
def initOffsets (cfg : RingConfig) (offset : Nat) : RingOffsets × Nat :=
  let cirOff := i32 offset
  (⟨cfg, cirOff, i32 (u32 (cirOff + cfg.rcSize))⟩, u32 (cfg.rcSize * 2))

/-- The loop of `rbtrace_daemon_init`. -/
def initAllOffsets : List RingConfig → Nat → List RingOffsets
  | [], _ => []
  | cfg :: cfgs, off =>
      let r := initOffsets cfg off
      r.1 :: initAllOffsets cfgs ((off + r.2) % 2 ^ 64)

/-! ## Regions -/

/-- The two buffers of a ring. -/
def RingOffsets.buffers (r : RingOffsets) (reBase : Nat) : List Region :=
  [⟨reBase + sizeofEntry * r.cirOff, sizeofEntry * r.cfg.rcSize⟩,
    ⟨reBase + sizeofEntry * r.altOff, sizeofEntry * r.cfg.rcSize⟩]

/-- The `ring_info` blocks. -/
def ringInfoRegions (riPtr ringMax : Nat) : List Region :=
  (List.range ringMax).map fun i ↦ ⟨(riPtr + sizeofRingInfo * i : Nat), sizeofRingInfo⟩

/-- Everything that is placed in the mapping. -/
def regions (ringCfgs : List RingConfig) : List Region :=
  let g := rbtraceGlobalsInit ringCfgs.length
  [⟨g.fsizePtr, sizeofFsize⟩, ⟨g.ringPtr, sizeofRing⟩] ++ ringInfoRegions g.riPtr ringCfgs.length ++
    (initAllOffsets ringCfgs 0).flatMap (RingOffsets.buffers · g.reBase)

/-! ## They tile the mapping -/

/-- The records of one buffer of each ring. -/
def totalRecords (ringCfgs : List RingConfig) : Nat := (ringCfgs.map RingConfig.rcSize).sum

section

variable {cfg : RingConfig} {cfgs : List RingConfig} {off : Nat}

@[simp] theorem totalRecords_nil : totalRecords [] = 0 := rfl

@[simp] theorem totalRecords_cons (cfg : RingConfig) (cfgs : List RingConfig) :
    totalRecords (cfg :: cfgs) = cfg.rcSize + totalRecords cfgs := rfl

/-- As long as the offsets fit an `int`, no conversion changes them. -/
theorem initOffsets_eq (h : off + 2 * cfg.rcSize < 2 ^ 31) :
    initOffsets cfg off = (⟨cfg, off, off + cfg.rcSize⟩, cfg.rcSize * 2) := by
  have hcir : i32 off = off := i32_of_range (by omega) (by omega)
  have hsum : (u32 (off + cfg.rcSize) : Int) = off + cfg.rcSize := u32_of_range (by omega) (by omega)
  have halt : i32 (off + cfg.rcSize) = off + cfg.rcSize := i32_of_range (by omega) (by omega)
  have hret : u32 (cfg.rcSize * 2) = cfg.rcSize * 2 := by
    have := u32_of_range (x := cfg.rcSize * 2) (by omega) (by omega)
    omega
  simp only [initOffsets, hcir, hsum, halt, hret]

/-- The loop places the rings one behind the other. -/
theorem initAllOffsets_cons (h : off + 2 * totalRecords (cfg :: cfgs) < 2 ^ 31) :
    initAllOffsets (cfg :: cfgs) off =
      ⟨cfg, off, off + cfg.rcSize⟩ :: initAllOffsets cfgs (off + 2 * cfg.rcSize) := by
  rw [totalRecords_cons] at h
  rw [initAllOffsets, initOffsets_eq (by omega), Nat.mul_comm, Nat.mod_eq_of_lt (by omega)]

/-- The first record of the buffers of ring `i`. -/
def ringOffset (ringCfgs : List RingConfig) (i : Nat) : Nat := 2 * totalRecords (ringCfgs.take i)

/-- What the loop stores for ring `i`. -/
theorem getElem?_initAllOffsets (h : off + 2 * totalRecords cfgs < 2 ^ 31) (i : Nat) :
    (initAllOffsets cfgs off)[i]? = cfgs[i]?.map fun cfg ↦
      ⟨cfg, (off + ringOffset cfgs i : Nat), (off + ringOffset cfgs i + cfg.rcSize : Nat)⟩ := by
  induction cfgs generalizing off i with
  | nil => rfl
  | cons cfg cfgs ih =>
      rw [initAllOffsets_cons h]
      rw [totalRecords_cons] at h
      cases i with
      | zero => simp [ringOffset]
      | succ i =>
          have hoff : off + ringOffset (cfg :: cfgs) (i + 1) =
              off + 2 * cfg.rcSize + ringOffset cfgs i := by
            rw [ringOffset, List.take_succ_cons, totalRecords_cons, ringOffset]
            ring
          rw [List.getElem?_cons_succ, List.getElem?_cons_succ, ih (by omega), hoff]

/-- No ring has more records than there are. -/
theorem rcSize_le_totalRecords (h : cfg ∈ cfgs) : cfg.rcSize ≤ totalRecords cfgs :=
  List.le_sum_of_mem (List.mem_map_of_mem h)

theorem tiles_buffers (reBase : Nat) (h : off + 2 * totalRecords cfgs < 2 ^ 31) :
    Tiles (reBase + sizeofEntry * off)
      ((initAllOffsets cfgs off).flatMap (RingOffsets.buffers · reBase))
      (reBase + sizeofEntry * (off + 2 * totalRecords cfgs)) := by
  induction cfgs generalizing off with
  | nil => exact .nil _
  | cons cfg cfgs ih =>
      rw [initAllOffsets_cons h]
      rw [totalRecords_cons] at h ⊢
      refine .cons rfl (.cons ?_ ?_)
      · push_cast
        ring
      · refine (@ih (off + 2 * cfg.rcSize) (by omega)).cast ?_ ?_
        · push_cast
          ring
        · push_cast
          ring

/-- The `ring_info` blocks lie one behind the other. -/
theorem tiles_ringInfo (riPtr ringMax : Nat) :
    Tiles riPtr (ringInfoRegions riPtr ringMax) (riPtr + sizeofRingInfo * ringMax : Nat) := by
  induction ringMax with
  | zero => exact .nil _
  | succ n ih =>
      rw [ringInfoRegions, List.range_succ, List.map_append]
      refine ih.append (.cons rfl ((Tiles.nil _).cast rfl ?_))
      push_cast
      ring

/-- The sum of `rbtrace_calc_shm_size`, as long as it fits a `size_t`. -/
theorem foldl_calcRingSize {size : Nat} (h : size + sizeofEntry * (2 * totalRecords cfgs) < 2 ^ 64) :
    cfgs.foldl (fun size cfg ↦ (size + rbtraceCalcRingSize cfg) % 2 ^ 64) size =
      size + sizeofEntry * (2 * totalRecords cfgs) := by
  induction cfgs generalizing size with
  | nil => rfl
  | cons cfg cfgs ih =>
      rw [totalRecords_cons] at h ⊢
      have hring : rbtraceCalcRingSize cfg = sizeofEntry * (2 * cfg.rcSize) := by
        unfold rbtraceCalcRingSize sizeofEntry at *
        omega
      rw [List.foldl_cons, hring, Nat.mod_eq_of_lt (by unfold sizeofEntry at *; omega), ih]
      · ring
      · unfold sizeofEntry at *
        omega

/-- There are no more rings than records. -/
theorem length_le_totalRecords (hpos : ∀ cfg ∈ cfgs, 1 ≤ cfg.rcSize) :
    cfgs.length ≤ totalRecords cfgs := by
  induction cfgs with
  | nil => exact le_rfl
  | cons cfg cfgs ih =>
      have hcfg := hpos cfg List.mem_cons_self
      have hrest := ih fun cfg h ↦ hpos cfg (List.mem_cons_of_mem _ h)
      rw [totalRecords_cons, List.length_cons]
      omega

/-- The size of the mapping. -/
theorem rbtraceCalcShmSize_eq (hpos : ∀ cfg ∈ cfgs, 1 ≤ cfg.rcSize)
    (h : 2 * totalRecords cfgs < 2 ^ 31) :
    rbtraceCalcShmSize cfgs =
      (rbtraceGlobalsInit cfgs.length).reBase + sizeofEntry * (2 * totalRecords cfgs) := by
  have hlen := length_le_totalRecords hpos
  have hsum : sizeofFsize + sizeofRing + sizeofEntry * (2 * totalRecords cfgs) < 2 ^ 64 := by
    unfold sizeofFsize sizeofRing sizeofEntry
    omega
  have hbase : (rbtraceGlobalsInit cfgs.length).reBase =
      sizeofFsize + sizeofRing + sizeofRingInfo * cfgs.length := rfl
  rw [rbtraceCalcShmSize, foldl_calcRingSize hsum, hbase]
  unfold sizeofFsize sizeofRing sizeofRingInfo sizeofEntry
  omega

/-- **The layout.**  What is placed in the mapping tiles it. -/
theorem tiles_regions (hpos : ∀ cfg ∈ cfgs, 1 ≤ cfg.rcSize) (h : 2 * totalRecords cfgs < 2 ^ 31) :
    Tiles 0 (regions cfgs) (rbtraceCalcShmSize cfgs) := by
  have hwords : Tiles 0 [⟨0, sizeofFsize⟩, ⟨sizeofFsize, sizeofRing⟩]
      (sizeofFsize + sizeofRing : Nat) := .cons rfl (.cons rfl (.nil _))
  have hinfo := tiles_ringInfo (sizeofFsize + sizeofRing) cfgs.length
  have hbuffers := @tiles_buffers cfgs 0 (rbtraceGlobalsInit cfgs.length).reBase (by omega)
  refine (hwords.append hinfo).append (hbuffers.cast ?_ ?_)
  · exact add_eq_left.2 rfl
  · rw [rbtraceCalcShmSize_eq hpos h]
    push_cast
    ring

end

end Rbtrace
