import Mathlib.Data.Prod.Lex
import Rbtrace.Backing
import Rbtrace.Prbt

/-!
# Reading the header

`parse_trace_header` of `prbt.c`.  It prints as it goes, and three of its lines hold a C
string at an offset the header gives; nothing keeps such a string inside the header, so
what is printed there may be no string of the file at all.

A read that comes back short sets no `errno`, and its return code is `errno` all the same.
With `errno` at zero the header is taken for read (`accepts_iff`).
-/

namespace Rbtrace

/-! ## The function -/

/-- What the system contributes to reading the header. -/
structure HeaderReadIo where
  /-- `errno` before the call. -/
  errno : Int
  /-- Why the `pread` fails, if it does. -/
  preadError : Option Errno
  gmtime : BitVec 64 → Option Tm

/-- A line of `parse_trace_header`, on either stream.  A string is `none` if it does not
end inside the header. -/
inductive HeaderLine where
  | readFailed (rc : Int)
  | invalidMagic
  | notSupported (major minor : Nat)
  | revision (major minor : Nat)
  | invalidTimestamp
  | openAt (gm : Tm) (usec : Int) (zone : Option CStr)
  | wrapPosition (pos : Nat)
  | ringName (name : Option CStr)
  | ringDesc (desc : Option CStr)

/-- `tv_sec = rf->timestamp.tv_sec + rf->gmtoff`. -/
def RbtraceFheader.localSec (rf : RbtraceFheader) : BitVec 64 := rf.timestamp.tvSec + rf.gmtoff

/-- `parse_trace_header`: the return code, and what it prints. -/
def parseTraceHeader (io : HeaderReadIo) (file : List UInt8) : Int × List HeaderLine :=
  let nbytes := if io.preadError.isSome then preadError else min file.length RBTRACE_FHEADER_SIZE
  if nbytes ≠ RBTRACE_FHEADER_SIZE then
    let rc : Int := match io.preadError with
      | some e => e.1
      | none => io.errno
    (rc, [.readFailed rc])
  else
    let prf := file.take RBTRACE_FHEADER_SIZE
    let rf := (readHeader file).hdr
    if CString.same rf.magic RBTRACE_FHEADER_MAGIC = false then (-1, [.invalidMagic])
    else if RBTRACE_MAJOR < rf.major ∨ (rf.major = RBTRACE_MAJOR ∧ RBTRACE_MINOR < rf.minor) then
      (-1, [.notSupported rf.major rf.minor])
    else
      -- an invalid time does not keep the rest from being printed
      let time : Int × HeaderLine := match io.gmtime rf.localSec with
        | none => (-1, .invalidTimestamp)
        | some gm => (0, .openAt gm (rf.timestamp.tvNsec.toInt.tdiv 1000)
            (CString.read prf rf.tzOff))
      (time.1, .revision rf.major rf.minor :: time.2 ::
        (if rf.wrapPos ≠ 0 then [.wrapPosition rf.wrapPos] else []) ++
          [.ringName (CString.read prf rf.nameOff), .ringDesc (CString.read prf rf.descOff)])

/-! ## Which headers are accepted -/

/-- A header that a reader can make sense of. -/
structure ValidHeader (gmtime : BitVec 64 → Option Tm) (file : List UInt8) : Prop where
  size : RBTRACE_FHEADER_SIZE ≤ file.length
  magic : file.take 8 = RBTRACE_FHEADER_MAGIC ++ [0]
  revision : toLex ((readHeader file).hdr.major, (readHeader file).hdr.minor) ≤
    toLex (RBTRACE_MAJOR, RBTRACE_MINOR)
  time : (gmtime (readHeader file).hdr.localSec).isSome

section

variable {gmtime : BitVec 64 → Option Tm} {errno : Int} {file : List UInt8}

theorem readHeader_magic (file : List UInt8) : (readHeader file).hdr.magic = file.take 8 := by
  simp only [readHeader, PaddedRbtraceFheader.ofBytes, RbtraceFheader.ofBytes, List.take_take]
  rfl

/-- The revision test is the lexicographic order. -/
theorem revision_le_iff (a b c d : ℕ) :
    toLex (a, b) ≤ toLex (c, d) ↔ ¬ (c < a ∨ (a = c ∧ d < b)) := by
  rw [Prod.Lex.le_iff]
  simp only [ofLex_toLex]
  omega

/-- The magic test compares eight bytes. -/
theorem same_magic_iff : CString.same (readHeader file).hdr.magic RBTRACE_FHEADER_MAGIC = true ↔
    file.take 8 = RBTRACE_FHEADER_MAGIC ++ [0] := by
  rw [CString.same_iff, readHeader_magic, List.take_take]
  rfl

/-- What is printed for a valid header. -/
theorem ValidHeader.parseTraceHeader (h : ValidHeader gmtime file) (errno : Int) :
    ∃ gm, gmtime (readHeader file).hdr.localSec = some gm ∧
      Rbtrace.parseTraceHeader ⟨errno, none, gmtime⟩ file =
        (0, .revision (readHeader file).hdr.major (readHeader file).hdr.minor ::
          .openAt gm ((readHeader file).hdr.timestamp.tvNsec.toInt.tdiv 1000)
            (CString.read (file.take RBTRACE_FHEADER_SIZE) (readHeader file).hdr.tzOff) ::
          (if (readHeader file).hdr.wrapPos ≠ 0 then
            [.wrapPosition (readHeader file).hdr.wrapPos] else []) ++
          [.ringName (CString.read (file.take RBTRACE_FHEADER_SIZE) (readHeader file).hdr.nameOff),
            .ringDesc (CString.read (file.take RBTRACE_FHEADER_SIZE)
              (readHeader file).hdr.descOff)]) := by
  obtain ⟨hsize, hm, hr, ht⟩ := h
  obtain ⟨gm, hgm⟩ := Option.isSome_iff_exists.1 ht
  have hread : ¬ min file.length RBTRACE_FHEADER_SIZE ≠ RBTRACE_FHEADER_SIZE :=
    not_not.2 (min_eq_right hsize)
  have hmagic : ¬ CString.same (readHeader file).hdr.magic RBTRACE_FHEADER_MAGIC = false := by
    simp [same_magic_iff.2 hm]
  refine ⟨gm, hgm, ?_⟩
  simp only [Rbtrace.parseTraceHeader, Option.isSome_none, Bool.false_eq_true, if_false,
    if_neg hread, if_neg hmagic, if_neg ((revision_le_iff ..).1 hr), hgm]

/-- A header that could be read is accepted exactly if it is valid. -/
theorem accepts_of_size (hsize : RBTRACE_FHEADER_SIZE ≤ file.length) :
    (parseTraceHeader ⟨errno, none, gmtime⟩ file).1 = 0 ↔ ValidHeader gmtime file := by
  constructor
  · intro h
    have hread : ¬ min file.length RBTRACE_FHEADER_SIZE ≠ RBTRACE_FHEADER_SIZE :=
      not_not.2 (min_eq_right hsize)
    have hneg : (-1 : Int) ≠ 0 := by decide
    simp only [parseTraceHeader, Option.isSome_none, Bool.false_eq_true, if_false,
      if_neg hread] at h
    by_cases hm : CString.same (readHeader file).hdr.magic RBTRACE_FHEADER_MAGIC = false
    · rw [if_pos hm] at h
      exact absurd h hneg
    rw [if_neg hm] at h
    have hrev := revision_le_iff (readHeader file).hdr.major (readHeader file).hdr.minor
      RBTRACE_MAJOR RBTRACE_MINOR
    by_cases hr : toLex ((readHeader file).hdr.major, (readHeader file).hdr.minor) ≤
        toLex (RBTRACE_MAJOR, RBTRACE_MINOR)
    · refine ⟨hsize, same_magic_iff.1 (Bool.eq_true_of_not_eq_false hm), hr, ?_⟩
      rw [if_neg (hrev.1 hr)] at h
      cases hgm : gmtime (readHeader file).hdr.localSec with
      | none =>
          rw [hgm] at h
          exact absurd h hneg
      | some gm => rfl
    · rw [if_pos (not_not.1 (hr ∘ hrev.2))] at h
      exact absurd h hneg
  · intro h
    obtain ⟨gm, -, hlines⟩ := h.parseTraceHeader errno
    rw [hlines]

/-- **Which headers are accepted.**  Whatever the file and `errno` are, the verdict of
`parse_trace_header` is the right one exactly if the file has a whole header or `errno`
is not zero. -/
theorem accepts_iff (gmtime : BitVec 64 → Option Tm) (errno : Int) (file : List UInt8) :
    ((parseTraceHeader ⟨errno, none, gmtime⟩ file).1 = 0 ↔ ValidHeader gmtime file) ↔
      RBTRACE_FHEADER_SIZE ≤ file.length ∨ errno ≠ 0 := by
  by_cases hsize : RBTRACE_FHEADER_SIZE ≤ file.length
  · exact iff_of_true (accepts_of_size hsize) (.inl hsize)
  · have hread : min file.length RBTRACE_FHEADER_SIZE ≠ RBTRACE_FHEADER_SIZE := by omega
    have hrc : (parseTraceHeader ⟨errno, none, gmtime⟩ file).1 = errno := by
      simp only [parseTraceHeader, Option.isSome_none, Bool.false_eq_true, if_false, if_pos hread]
    have hinvalid : ¬ ValidHeader gmtime file := fun h ↦ hsize h.size
    rw [hrc]
    simp only [hinvalid, hsize, iff_false, false_or, ne_eq]

/-- An empty file is accepted, if no call has failed before. -/
theorem accepts_empty : ∃ gmtime, (∀ sec, (gmtime sec).isSome) ∧
    (parseTraceHeader ⟨0, none, gmtime⟩ []).1 = 0 ∧ ¬ ValidHeader gmtime [] :=
  ⟨fun _ ↦ some ⟨0, 1, 0, 0, 0, 0, []⟩, fun _ ↦ rfl, by decide, fun h ↦ absurd h.size (by decide)⟩

end

end Rbtrace
