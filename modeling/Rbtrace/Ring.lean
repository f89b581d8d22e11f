import Mathlib.Logic.Function.Basic
import Rbtrace.Entry
import Rbtrace.Lib.CInt

/-!
# The ring: `rbtrace.c`

The shared state of one ring and a whole `rbtrace()` call on it.  A ring has two
buffers of `rc_size` records; `ri_cir_off` is the active one, `ri_slot` the last
slot handed out in it, and `ri_flush` counts the buffers that were filled since
the daemon last took the counter.  The call that is handed slot `rc_size` swaps the
buffers if the daemon has nothing pending, and otherwise starts over in the active
buffer, discarding it.

## What is left out

`RBTRACE_RING_MAX` is 1, so there is one ring and the range check of `rbtrace()`
cannot fail; `rbtrace_signal_thread` wakes the daemon, which may wake at any time
anyway because of its timeout; and `dprintf` only prints.
-/

namespace Rbtrace

open CInt

/-! ## Configuration and shared state -/

/-- The bits of `ri_flags`. -/
structure RiFlags where
  doDisk : Bool := false
  doOpen : Bool := false
  doWrap : Bool := false
  doZap : Bool := false
  doClose : Bool := false
  doFlush : Bool := false
deriving DecidableEq, Repr

/-- `struct ring_config`. -/
structure RingConfig where
  rcName : CStr
  rcDesc : CStr
  rcFlags : RiFlags
  /-- Number of trace records in a buffer. -/
  rcSize : Nat
  /-- Number of bytes in a buffer write. -/
  rcDataSize : Nat

/-- A row of `ring_cfgs`: no flag is set at the start, and `rc_data_size`, a
`uint32_t`, is what its comment says, the bytes of `rc_size` records. -/
structure ValidRingConfig extends RingConfig where
  rcFlags_eq : rcFlags = {}
  rcDataSize_eq : rcDataSize = rcSize * sizeofEntry
  rcDataSize_lt : rcDataSize < 2 ^ 32

instance : Coe ValidRingConfig RingConfig := ⟨ValidRingConfig.toRingConfig⟩

theorem ValidRingConfig.rcSize_lt (cfg : ValidRingConfig) : cfg.rcSize < 2 ^ 27 := by
  have h₁ := cfg.rcDataSize_eq
  have h₂ := cfg.rcDataSize_lt
  unfold sizeofEntry at h₁
  omega

/-- The records of a buffer can be counted with an `int`. -/
theorem ValidRingConfig.rcSize_lt_int (cfg : ValidRingConfig) : cfg.rcSize < 2 ^ 31 :=
  cfg.rcSize_lt.trans (by decide)

/-- The bytes of a buffer fit a `size_t`. -/
theorem ValidRingConfig.pageSize_lt (cfg : ValidRingConfig) {n : Nat} (h : n = cfg.rcSize) :
    sizeofEntry * n < 2 ^ 64 := by
  have hlt := cfg.rcSize_lt
  rw [h, sizeofEntry]
  omega

/-- A buffer write is one of `rc_size` records. -/
theorem ValidRingConfig.rcDataSize_div (cfg : ValidRingConfig) :
    cfg.rcDataSize / sizeofEntry = cfg.rcSize := by
  rw [cfg.rcDataSize_eq, Nat.mul_div_cancel _ (show 0 < sizeofEntry by decide)]

/-- The row of `ring_cfgs`, `"io"` with description `"I/O traffic"`, for a given
`IO_RING_SIZE` (which is 65536). -/
def ioRing (ioRingSize : Nat) (h : ioRingSize * sizeofEntry < 2 ^ 32) : ValidRingConfig where
  rcName := [105, 111]
  rcDesc := [73, 47, 79, 32, 116, 114, 97, 102, 102, 105, 99]
  rcFlags := {}
  rcSize := ioRingSize
  rcDataSize := ioRingSize * sizeofEntry
  rcFlags_eq := rfl
  rcDataSize_eq := rfl
  rcDataSize_lt := h

theorem one_mul_sizeofEntry_lt : 1 * sizeofEntry < 2 ^ 32 := by decide

theorem two_mul_sizeofEntry_lt : 2 * sizeofEntry < 2 ^ 32 := by decide

/-- A ring with buffers of one record. -/
def oneRing : ValidRingConfig := ioRing 1 one_mul_sizeofEntry_lt

/-- A ring with buffers of two records. -/
def twoRing : ValidRingConfig := ioRing 2 two_mul_sizeofEntry_lt

/-- `struct ring_info`. -/
structure RingInfo where
  riFilePath : CStr
  riFlags : RiFlags
  riTflags : BitVec 64
  riCirOff : Nat
  riAltOff : Nat
  riSlot : Int
  riFlush : Int
  riLost : Int
deriving DecidableEq

/-- The mapped shared memory: the limit word, the `ring_info` and the records. -/
structure Shm where
  ri : RingInfo
  reBase : Nat → RbtraceEntry
  fsize : BitVec 64

/-- The `n` records at offset `off` of the record area. -/
def bufRecords (reBase : Nat → RbtraceEntry) (off n : Nat) : List RbtraceEntry :=
  (List.range n).map fun i ↦ reBase (off + i)

/-- `memset` of the `n` records at offset `off`. -/
def clearRecords (reBase : Nat → RbtraceEntry) (off n : Nat) : Nat → RbtraceEntry :=
  fun i ↦ if off ≤ i ∧ i < off + n then RbtraceEntry.zero else reBase i

/-! ## A whole call -/

/-- The arguments of an `rbtrace()` call. -/
structure TraceArgs where
  traceid : BitVec 8
  a0 : BitVec 64
  a1 : BitVec 64
  a2 : BitVec 64
  a3 : BitVec 64
deriving DecidableEq

/-- What a call reads from the system: the clock, `sched_getcpu` and `gettid`. -/
structure Stamp where
  timestamp : Timespec
  cpu : Int
  tid : Int
deriving DecidableEq

/-- The stores of `ringwrap` into the record it hands out. -/
def stampEntry (st : Stamp) (re : RbtraceEntry) : RbtraceEntry :=
  { re with
    timestamp := st.timestamp
    cpuid := (BitVec.ofInt 16 st.cpu).setWidth 8
    thread := BitVec.ofInt 18 st.tid }

/-- The stores of `rbtrace` into the record. -/
def fillEntry (a : TraceArgs) (re : RbtraceEntry) : RbtraceEntry :=
  { re with traceid := a.traceid.setWidth 6, a0 := a.a0, a1 := a.a1, a2 := a.a2, a3 := a.a3 }

/-- The record a call stores; every field is written, whatever was there before. -/
def entryOf (a : TraceArgs) (st : Stamp) : RbtraceEntry :=
  fillEntry a (stampEntry st RbtraceEntry.zero)

theorem fillEntry_stampEntry (a : TraceArgs) (st : Stamp) (re : RbtraceEntry) :
    fillEntry a (stampEntry st re) = entryOf a st := rfl

/-- The arguments of `rbtrace(RBTRACE_RING_IO, RBT_LOST, lost, 0, 0, 0)`. -/
def lostArgs (lost : Int) : TraceArgs :=
  { traceid := RBT_LOST, a0 := BitVec.ofInt 64 lost, a1 := 0, a2 := 0, a3 := 0 }

/-- `__sync_add_and_fetch(&ri->ri_slot, 1)`, read as `uint32_t`. -/
def fetchSlot (sh : Shm) : Shm × Nat :=
  ({ sh with ri := { sh.ri with riSlot := i32 (sh.ri.riSlot + 1) } }, u32 (sh.ri.riSlot + 1))

/-- Hand out the record at `slot` of the active buffer. -/
def claimSlot (st : Stamp) (sh : Shm) (slot : Nat) : Shm × Option Nat :=
  let re := sh.ri.riCirOff + slot
  ({ sh with reBase := Function.update sh.reBase re (stampEntry st (sh.reBase re)) }, some re)

/-- `ringwrap_slot`.  The nested `rbtrace(RBT_LOST, ..)` is the parameter `report`.
The loop that waits for `ri_slot` to come back has no effect of its own. -/
def ringwrapSlot (report : Shm → Int → Shm) (cfg : RingConfig) (st : Stamp) (sh : Shm)
    (slot : Nat) : Shm × Option Nat :=
  if slot = cfg.rcSize then
    let flush := i32 (sh.ri.riFlush + 1)
    let sh₁ : Shm :=
      if flush = 1 then
        -- no buffer flush in progress: swap, and report what was lost meanwhile
        let sh' := { sh with ri := { sh.ri with
          riFlush := flush, riCirOff := sh.ri.riAltOff, riAltOff := sh.ri.riCirOff,
          riSlot := -1, riLost := 0 } }
        if sh.ri.riLost ≠ 0 then report sh' sh.ri.riLost else sh'
      else
        -- the last buffer is still being flushed: the active one is discarded
        { sh with ri := { sh.ri with riFlush := flush, riSlot := -1 } }
    let sh₂ := (fetchSlot sh₁).1
    let slot₂ := (fetchSlot sh₁).2
    if slot₂ < cfg.rcSize then claimSlot st sh₂ slot₂
    else
      let sh₃ := if sh₂.ri.riSlot = i32 slot₂ then
        { sh₂ with ri := { sh₂.ri with riSlot := -1 } } else sh₂
      ({ sh₃ with ri := { sh₃.ri with riLost := i32 (sh₃.ri.riLost + 1) } }, none)
  else
    let sh₂ := (fetchSlot sh).1
    let slot₂ := (fetchSlot sh).2
    if slot₂ < cfg.rcSize then claimSlot st sh₂ slot₂
    else ({ sh₂ with ri := { sh₂.ri with riLost := i32 (sh₂.ri.riLost + 1) } }, none)

/-- `ringwrap`. -/
def ringwrap (report : Shm → Int → Shm) (cfg : RingConfig) (st : Stamp) (sh : Shm) :
    Shm × Option Nat :=
  let sh₁ := (fetchSlot sh).1
  let slot := (fetchSlot sh).2
  if slot < cfg.rcSize then claimSlot st sh₁ slot
  else ringwrapSlot report cfg st sh₁ slot

/-- The body of `rbtrace`, with the nested report as a parameter. -/
def rbtraceWith (report : Shm → Int → Shm) (cfg : RingConfig) (st : Stamp) (sh : Shm)
    (a : TraceArgs) : Shm × Int :=
  match ringwrap report cfg st sh with
  | (sh', none) => (sh', -1)
  | (sh', some re) =>
      ({ sh' with reBase := Function.update sh'.reBase re (fillEntry a (sh'.reBase re)) }, 0)

/-- `rbtrace` with at most `depth` reports nested in it.  `st i` is what the call at
nesting depth `i` reads from the system. -/
def rbtraceAt : Nat → RingConfig → (Nat → Stamp) → Shm → TraceArgs → Shm × Int
  | 0, cfg, st, sh, a => rbtraceWith (fun sh' _ ↦ sh') cfg (st 0) sh a
  | depth + 1, cfg, st, sh, a =>
      rbtraceWith (fun sh' lost ↦ (rbtraceAt depth cfg (fun i ↦ st (i + 1)) sh' (lostArgs lost)).1)
        cfg (st 0) sh a

/-- `rbtrace`, run on its own from its first to its last instruction. -/
def rbtrace (cfg : RingConfig) (st : Nat → Stamp) (sh : Shm) (a : TraceArgs) : Shm × Int :=
  rbtraceAt 1 cfg st sh a

/-! A report is made right after `ri_lost` has been taken, and a call only raises
`ri_lost` when it is over; so a nested report never makes another one, and one level
of nesting is all there is. -/

/-- With `ri_lost` at zero a call makes no report. -/
theorem rbtraceWith_of_lost_eq_zero {sh : Shm} (h : sh.ri.riLost = 0) (r r' : Shm → Int → Shm)
    (cfg : RingConfig) (st : Stamp) (a : TraceArgs) :
    rbtraceWith r cfg st sh a = rbtraceWith r' cfg st sh a := by
  have hl : (fetchSlot sh).1.ri.riLost = 0 := h
  simp only [rbtraceWith, ringwrap, ringwrapSlot, hl]
  rfl

theorem rbtraceAt_of_lost_eq_zero {sh : Shm} (h : sh.ri.riLost = 0) (d d' : Nat)
    (cfg : RingConfig) (st : Nat → Stamp) (a : TraceArgs) :
    rbtraceAt d cfg st sh a = rbtraceAt d' cfg st sh a := by
  cases d <;> cases d' <;> exact rbtraceWith_of_lost_eq_zero h _ _ cfg _ a

/-- **The nesting bound is no bound.**  Allowing more nested reports changes nothing. -/
theorem rbtraceAt_succ (d : Nat) (cfg : RingConfig) (st : Nat → Stamp) (sh : Shm)
    (a : TraceArgs) : rbtraceAt (d + 1) cfg st sh a = rbtrace cfg st sh a := by
  have hreport : ∀ (sh' : Shm) (lost : Int), sh'.ri.riLost = 0 →
      (rbtraceAt d cfg (fun i ↦ st (i + 1)) sh' (lostArgs lost)).1 =
        (rbtraceAt 0 cfg (fun i ↦ st (i + 1)) sh' (lostArgs lost)).1 := fun sh' lost h ↦ by
    rw [rbtraceAt_of_lost_eq_zero h d 0]
  simp only [rbtrace, rbtraceAt, rbtraceWith, ringwrap, ringwrapSlot, hreport]

end Rbtrace
