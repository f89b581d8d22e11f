import Rbtrace.Entry

/-!
# The trace file header

`struct rbtrace_fheader` and `union padded_rbtrace_fheader` of
`include/rbtracedef.h`, their bytes, and the two functions of `rbtrace_backing.c`
that fill in what they hold: `rbtrace_format_header` and the path of
`rbtrace_write_header`.

The struct is 80 bytes (76 of fields and 4 of padding); the union is padded to
512, and the rest of it holds three C strings back to back.
-/

namespace Rbtrace

open LittleEndian

/-- `struct rbtrace_fheader`. -/
structure RbtraceFheader where
  magic : CStr
  major : Nat
  minor : Nat
  ring : Nat
  wrapPos : Nat
  hdrSize : Nat
  nrRecords : Nat
  timestamp : Timespec
  gmtoff : BitVec 64
  tzOff : Nat
  nameOff : Nat
  descOff : Nat
deriving DecidableEq

/-- `RBTRACE_FHEADER_MAGIC`, `"RBTRACE"`. -/
def RBTRACE_FHEADER_MAGIC : CStr := [82, 66, 84, 82, 65, 67, 69]

/-- `RBTRACE_MAJOR`. -/
def RBTRACE_MAJOR : Nat := 1

/-- `RBTRACE_MINOR`. -/
def RBTRACE_MINOR : Nat := 0

/-- `RBTRACE_FHEADER_SIZE`, which is `sizeof(union padded_rbtrace_fheader)`. -/
def RBTRACE_FHEADER_SIZE : Nat := 512

/-- `sizeof(struct rbtrace_fheader)`. -/
def sizeofFheader : Nat := 80

/-- The 80 bytes of the struct. -/
def RbtraceFheader.toBytes (h : RbtraceFheader) : List UInt8 :=
  h.magic.takeD 8 0 ++ (encode 2 h.major ++ (encode 2 h.minor ++ (encode 4 h.ring ++
    (encode 8 h.wrapPos ++ (encode 8 h.hdrSize ++ (encode 8 h.nrRecords ++
      (encode 8 h.timestamp.tvSec.toNat ++ (encode 8 h.timestamp.tvNsec.toNat ++
        (encode 8 h.gmtoff.toNat ++ (encode 4 h.tzOff ++ (encode 4 h.nameOff ++
          (encode 4 h.descOff ++ List.replicate 4 0))))))))))))

/-- The struct a reader sees in these bytes. -/
def RbtraceFheader.ofBytes (l : List UInt8) : RbtraceFheader :=
  { magic := l.take 8
    major := read l 8 2
    minor := read l 10 2
    ring := read l 12 4
    wrapPos := read l 16 8
    hdrSize := read l 24 8
    nrRecords := read l 32 8
    timestamp := ⟨BitVec.ofNat 64 (read l 40 8), BitVec.ofNat 64 (read l 48 8)⟩
    gmtoff := BitVec.ofNat 64 (read l 56 8)
    tzOff := read l 64 4
    nameOff := read l 68 4
    descOff := read l 72 4 }

/-- `union padded_rbtrace_fheader`: the struct and the string bytes behind it. -/
structure PaddedRbtraceFheader where
  hdr : RbtraceFheader
  strings : List UInt8
deriving DecidableEq

/-- The bytes of the union. -/
def PaddedRbtraceFheader.toBytes (p : PaddedRbtraceFheader) : List UInt8 :=
  p.hdr.toBytes ++ p.strings.takeD (RBTRACE_FHEADER_SIZE - sizeofFheader) 0

/-- The union a reader sees in the first 512 bytes of a file. -/
def PaddedRbtraceFheader.ofBytes (l : List UInt8) : PaddedRbtraceFheader :=
  { hdr := RbtraceFheader.ofBytes l
    strings := (l.drop sizeofFheader).take (RBTRACE_FHEADER_SIZE - sizeofFheader) }

/-- `rbt_hdrs[ring]` before any file has been opened: static storage, so zero. -/
def PaddedRbtraceFheader.zero : PaddedRbtraceFheader :=
  { hdr := ⟨[], 0, 0, 0, 0, 0, 0, ⟨0, 0⟩, 0, 0, 0, 0⟩, strings := [] }

@[simp] theorem RbtraceFheader.length_toBytes (h : RbtraceFheader) :
    h.toBytes.length = sizeofFheader := by
  simp only [toBytes, List.length_append, List.takeD_length, length_encode,
    List.length_replicate, sizeofFheader]

@[simp] theorem PaddedRbtraceFheader.length_toBytes (p : PaddedRbtraceFheader) :
    p.toBytes.length = RBTRACE_FHEADER_SIZE := by
  rw [toBytes, List.length_append, RbtraceFheader.length_toBytes, List.takeD_length]
  rfl

/-- A field behind the magic is a field of the rest. -/
private theorem read_magic_append {off : Nat} (h : 8 ≤ off) (m : CStr) (l : List UInt8) (w : Nat) :
    read (m.takeD 8 0 ++ l) off w = read l (off - 8) w := by
  rw [LittleEndian.read, LittleEndian.read, List.drop_append,
    List.drop_eq_nil_of_le (by rwa [List.takeD_length]), List.nil_append, List.takeD_length]

/-- **Reading the struct back.**  No field disturbs another. -/
theorem RbtraceFheader.ofBytes_append (h : RbtraceFheader) (l : List UInt8) :
    ofBytes (h.toBytes ++ l) =
      { h with
        magic := h.magic.takeD 8 0
        major := h.major % 2 ^ 16
        minor := h.minor % 2 ^ 16
        ring := h.ring % 2 ^ 32
        wrapPos := h.wrapPos % 2 ^ 64
        hdrSize := h.hdrSize % 2 ^ 64
        nrRecords := h.nrRecords % 2 ^ 64
        tzOff := h.tzOff % 2 ^ 32
        nameOff := h.nameOff % 2 ^ 32
        descOff := h.descOff % 2 ^ 32 } := by
  obtain ⟨magic, major, minor, ring, wrapPos, hdrSize, nrRecords, ⟨sec, nsec⟩, gmtoff, tzOff,
    nameOff, descOff⟩ := h
  have h64 : ∀ x : BitVec 64, x.toNat % 256 ^ 8 = x.toNat := fun x ↦ Nat.mod_eq_of_lt x.isLt
  have hmagic : ∀ l : List UInt8, (magic.takeD 8 0 ++ l).take 8 = magic.takeD 8 0 := fun l ↦
    List.take_left' (List.takeD_length ..)
  simp only [ofBytes, toBytes, List.append_assoc, read_magic_append, read_encode_append_of_le,
    read_encode_append_zero, Nat.reduceLeDiff, Nat.reduceSub, h64, hmagic, BitVec.ofNat_toNat,
    BitVec.setWidth_eq]
  norm_num

/-- The struct at the head of the union, read from a file that starts with it. -/
theorem PaddedRbtraceFheader.ofBytes_hdr (p : PaddedRbtraceFheader) (l : List UInt8) :
    (ofBytes (p.toBytes ++ l)).hdr = RbtraceFheader.ofBytes (p.hdr.toBytes ++
      (p.strings.takeD (RBTRACE_FHEADER_SIZE - sizeofFheader) 0 ++ l)) := by
  rw [ofBytes, toBytes, List.append_assoc]

/-- The reader gets the wrap position back from a file that starts with the header. -/
theorem PaddedRbtraceFheader.ofBytes_wrapPos (p : PaddedRbtraceFheader) (l : List UInt8) :
    (ofBytes (p.toBytes ++ l)).hdr.wrapPos = p.hdr.wrapPos % 2 ^ 64 := by
  rw [ofBytes_hdr, RbtraceFheader.ofBytes_append]

/-- The reader gets the number of records of a page back. -/
theorem PaddedRbtraceFheader.ofBytes_nrRecords (p : PaddedRbtraceFheader) (l : List UInt8) :
    (ofBytes (p.toBytes ++ l)).hdr.nrRecords = p.hdr.nrRecords % 2 ^ 64 := by
  rw [ofBytes_hdr, RbtraceFheader.ofBytes_append]

/-! ## Local time and file names -/

/-- The fields of `struct tm` that the daemon uses. -/
structure Tm where
  tmMon : Nat
  tmMday : Nat
  tmHour : Nat
  tmMin : Nat
  tmSec : Nat
  tmGmtoff : BitVec 64
  tmZone : CStr
deriving DecidableEq

/-- The decimal digits of `n`, most significant first; twenty digits hold every
64-bit number. -/
def decimal : Nat → Nat → CStr
  | 0, _ => []
  | fuel + 1, n => if n = 0 then [] else decimal fuel (n / 10) ++ [UInt8.ofNat (48 + n % 10)]

/-- The conversion `%0<w>d`: decimal digits, filled up with zeros on the left. -/
def printfD (w n : Nat) : CStr :=
  List.replicate (w - (decimal 20 n).length) 48 ++ decimal 20 n

/-- The path of a zap segment: `"%s.%02d-%02d_%02d-%02d-%02d_%03ld"`. -/
def zapPath (path : CStr) (ts : Timespec) (gm : Tm) : CStr :=
  path ++ [46] ++ printfD 2 (gm.tmMon + 1) ++ [45] ++ printfD 2 gm.tmMday ++ [95] ++
    printfD 2 gm.tmHour ++ [45] ++ printfD 2 gm.tmMin ++ [45] ++ printfD 2 gm.tmSec ++ [95] ++
    printfD 3 (ts.tvNsec.toNat / 1000000)

end Rbtrace
