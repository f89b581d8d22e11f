import Rbtrace.Lib.Bytes

/-!
# Trace records

`struct rbtrace_entry` of `include/rbtracedef.h` and its 56 bytes as x86-64 lays
them out: six 64-bit words, then one 32-bit word that holds the three bit fields
(`cpuid` in the low 8 bits, `thread` in the next 18, `traceid` in the top 6), then
four bytes of padding that no code ever writes and that are zero because the
shared memory starts zeroed.
-/

namespace Rbtrace

/-- C strings, without their terminating NUL. -/
abbrev CStr := List UInt8

/-- `struct timespec`. -/
structure Timespec where
  tvSec : BitVec 64
  tvNsec : BitVec 64
deriving DecidableEq, Repr

/-- `struct rbtrace_entry`. -/
structure RbtraceEntry where
  a0 : BitVec 64
  a1 : BitVec 64
  a2 : BitVec 64
  a3 : BitVec 64
  timestamp : Timespec
  cpuid : BitVec 8
  thread : BitVec 18
  traceid : BitVec 6
deriving DecidableEq, Repr

/-- `RBT_LOST`, the trace ID of a loss report. -/
def RBT_LOST : BitVec 8 := 1

/-- `sizeof(struct rbtrace_entry)`. -/
def sizeofEntry : Nat := 56

namespace RbtraceEntry

/-- The record that `memset` leaves behind. -/
def zero : RbtraceEntry := ⟨0, 0, 0, 0, ⟨0, 0⟩, 0, 0, 0⟩

/-- The 32-bit word of the three bit fields. -/
def bitFields (e : RbtraceEntry) : Nat :=
  e.cpuid.toNat + 2 ^ 8 * (e.thread.toNat + 2 ^ 18 * e.traceid.toNat)

/-- The bytes of a record in memory and in a trace file. -/
def toBytes (e : RbtraceEntry) : List UInt8 :=
  LittleEndian.encode 8 e.a0.toNat ++ (LittleEndian.encode 8 e.a1.toNat ++
    (LittleEndian.encode 8 e.a2.toNat ++ (LittleEndian.encode 8 e.a3.toNat ++
      (LittleEndian.encode 8 e.timestamp.tvSec.toNat ++
        (LittleEndian.encode 8 e.timestamp.tvNsec.toNat ++
          (LittleEndian.encode 4 e.bitFields ++ List.replicate 4 0))))))

/-- The record a reader sees when it casts a pointer to these bytes. -/
def ofBytes (l : List UInt8) : RbtraceEntry :=
  { a0 := BitVec.ofNat 64 (LittleEndian.read l 0 8)
    a1 := BitVec.ofNat 64 (LittleEndian.read l 8 8)
    a2 := BitVec.ofNat 64 (LittleEndian.read l 16 8)
    a3 := BitVec.ofNat 64 (LittleEndian.read l 24 8)
    timestamp := ⟨BitVec.ofNat 64 (LittleEndian.read l 32 8),
      BitVec.ofNat 64 (LittleEndian.read l 40 8)⟩
    cpuid := BitVec.ofNat 8 (LittleEndian.read l 48 4)
    thread := BitVec.ofNat 18 (LittleEndian.read l 48 4 / 2 ^ 8)
    traceid := BitVec.ofNat 6 (LittleEndian.read l 48 4 / 2 ^ 26) }

@[simp] theorem length_toBytes (e : RbtraceEntry) : e.toBytes.length = sizeofEntry := by
  simp [toBytes, sizeofEntry]

theorem bitFields_lt (e : RbtraceEntry) : e.bitFields < 2 ^ 32 := by
  have h₁ := e.cpuid.isLt
  have h₂ := e.thread.isLt
  have h₃ := e.traceid.isLt
  unfold bitFields
  omega

/-- **Reading a record back.**  No field disturbs another. -/
@[simp] theorem ofBytes_toBytes (e : RbtraceEntry) : ofBytes e.toBytes = e := by
  obtain ⟨a0, a1, a2, a3, ⟨sec, nsec⟩, cpu, tid, id⟩ := e
  have h64 : ∀ x : BitVec 64, x.toNat % 256 ^ 8 = x.toNat := fun x ↦ Nat.mod_eq_of_lt x.isLt
  have hw := bitFields_lt ⟨a0, a1, a2, a3, ⟨sec, nsec⟩, cpu, tid, id⟩
  have h32 : bitFields ⟨a0, a1, a2, a3, ⟨sec, nsec⟩, cpu, tid, id⟩ % 256 ^ 4 = _ :=
    Nat.mod_eq_of_lt hw
  simp only [ofBytes, toBytes, LittleEndian.read_encode_append_of_le, Nat.reduceLeDiff,
    Nat.reduceSub, LittleEndian.read_encode_append_zero, h64, h32, BitVec.ofNat_toNat,
    BitVec.setWidth_eq]
  have hcpu := cpu.isLt
  have htid := tid.isLt
  have hid := id.isLt
  congr 1 <;> apply BitVec.eq_of_toNat_eq <;> rw [BitVec.toNat_ofNat] <;>
    simp only [bitFields] <;> omega

end RbtraceEntry

end Rbtrace
