import Rbtrace.Control
import Rbtrace.ReadBack

/-!
# The writer without I/O failure

What `rbtrace_write_header` and `rbtrace_write_data` do when no `open` and no `pwrite`
fails, as equations.  Interrupted and short writes are no failures: `safe_pwrite` goes
on until everything is written.

A trace file is then always `traceFile hdr es`, the header followed by whole records,
and a write of records replaces a stretch of `es` (`rbtraceWriteData_of_ok`).
-/

namespace Rbtrace

/-! ## Positioned writes -/

/-- No `pwrite` among these fails; it may be interrupted or short. -/
def NoError (outs : List PwriteOutcome) : Prop := ∀ e, .error e ∉ outs

@[simp] theorem transfer_nil (file : List UInt8) (off : Nat) : transfer file off [] = file := if_pos rfl

theorem transfer_of_ne_nil {b : List UInt8} (h : b ≠ []) (file : List UInt8) (off : Nat) :
    transfer file off b = file.splice 0 off b := if_neg h

/-- A short write and the write of the rest make one write. -/
theorem transfer_transfer (file : List UInt8) (off n : Nat) (buf : List UInt8) :
    transfer (transfer file off (buf.take n)) (off + (buf.take n).length) (buf.drop n) =
      transfer file off buf := by
  by_cases ht : buf.take n = []
  · rw [ht, transfer_nil, List.length_nil, Nat.add_zero]
    rcases List.take_eq_nil_iff.1 ht with rfl | rfl
    · rw [List.drop_zero]
    · rw [List.drop_nil]
  · by_cases hd : buf.drop n = []
    · have hbuf : buf.take n = buf := List.take_of_length_le (List.drop_eq_nil_iff.1 hd)
      rw [hd, hbuf, transfer_nil]
    · have hbuf : buf ≠ [] := fun h ↦ ht (by rw [h, List.take_nil])
      rw [transfer_of_ne_nil hd, transfer_of_ne_nil ht, transfer_of_ne_nil hbuf,
        List.splice_splice, List.take_append_drop]

/-- **`safe_pwrite` writes everything** unless a `pwrite` fails. -/
theorem safePwrite_of_noError {outs : List PwriteOutcome} (h : NoError outs)
    (file buf : List UInt8) (off : Nat) : safePwrite outs file buf off = (transfer file off buf, 0) := by
  induction outs generalizing file buf off with
  | nil => rfl
  | cons o os ih =>
      have hos : NoError os := fun e he ↦ h e (List.mem_cons_of_mem _ he)
      by_cases hbuf : buf = []
      · cases o <;> simp only [safePwrite, hbuf, if_true, transfer_nil]
      · cases o with
        | eintr =>
            simp only [safePwrite, hbuf, if_false]
            exact ih hos file buf off
        | error e => exact absurd List.mem_cons_self (h e)
        | wrote n =>
            simp only [safePwrite, hbuf, if_false]
            rw [ih hos, transfer_transfer]

theorem pwriteFd_of_noError {outs : List PwriteOutcome} (h : NoError outs) (disk : Disk)
    (path : CStr) (buf : List UInt8) (off : Nat) :
    pwriteFd outs disk (some path) buf off =
      (Function.update disk path (some (transfer ((disk path).getD []) off buf)), 0) := by
  simp only [pwriteFd, safePwrite_of_noError h]

theorem getsThrough_of_noError {outs : List PwriteOutcome} (h : NoError outs) (buf : List UInt8) :
    GetsThrough outs buf := by
  rw [GetsThrough, safePwrite_of_noError h]

/-! ## Trace files -/

/-- Records written at record `i` of a trace file. -/
theorem transfer_traceFile (prf : PaddedRbtraceFheader) {es : List RbtraceEntry} {i : Nat}
    (hi : i ≤ es.length) (b : List RbtraceEntry) :
    transfer (traceFile prf es) (RBTRACE_FHEADER_SIZE + sizeofEntry * i)
      (b.flatMap RbtraceEntry.toBytes) = traceFile prf (es.splice .zero i b) := by
  cases b with
  | nil =>
      rw [List.flatMap_nil, transfer_nil, List.splice_of_le _ hi]
      simp
  | cons e b =>
      have hne : (e :: b).flatMap RbtraceEntry.toBytes ≠ [] := fun h ↦ by
        have hlen := congrArg List.length h
        rw [Blocks.length_flatMap RbtraceEntry.length_toBytes] at hlen
        exact Nat.mul_ne_zero (by decide) (by simp) hlen
      rw [transfer_of_ne_nil hne, traceFile, ← prf.length_toBytes, List.splice_append,
        Blocks.splice_flatMap RbtraceEntry.length_toBytes 0 .zero hi, traceFile]

/-- A new header on a trace file. -/
theorem transfer_traceFile_header (prf prf' : PaddedRbtraceFheader) (es : List RbtraceEntry) :
    transfer (traceFile prf es) 0 prf'.toBytes = traceFile prf' es := by
  have hne : prf'.toBytes ≠ [] := List.ne_nil_of_length_pos (by
    rw [prf'.length_toBytes]
    decide)
  rw [transfer_of_ne_nil hne, traceFile, List.splice_zero_append]
  · rfl
  · rw [prf.length_toBytes, prf'.length_toBytes]

/-- The header on a new file. -/
theorem transfer_nil_header (prf : PaddedRbtraceFheader) :
    transfer [] 0 prf.toBytes = traceFile prf [] := by
  simp only [transfer, List.splice, List.drop_nil, traceFile]
  split <;> simp_all

/-! ## Opening -/

/-- An opening that goes well. -/
structure HeaderIo.Ok (io : HeaderIo) : Prop where
  openError : io.openError = none
  pwrites : NoError io.pwrites

/-- A write that goes well. -/
structure DataIo.Ok (io : DataIo) : Prop where
  data : NoError io.data
  reopen : io.reopen.Ok
  update : NoError io.update

/-- A pass in which no system call fails. -/
structure PassIo.Ok (io : PassIo) : Prop where
  header : io.header.Ok
  inactive : io.inactive.Ok
  active : io.active.Ok

/-- No system call of the step fails. -/
def Event.IoOk : Event → Prop
  | .pass io => io.Ok
  | _ => True

theorem PassIo.smooth_ok : PassIo.smooth.Ok := by
  have hnil : NoError [] := fun e he ↦ absurd he List.not_mem_nil
  have hheader : HeaderIo.smooth.Ok := ⟨rfl, hnil⟩
  exact ⟨hheader, ⟨hnil, hheader, hnil⟩, ⟨hnil, hheader, hnil⟩⟩

section

variable {cfg : RingConfig} {s : Sys} {path : CStr} {es : List RbtraceEntry}

/-- A new trace file holds its header. -/
theorem rbtraceWriteHeader_of_ok {io : HeaderIo} (hio : io.Ok) (hfd : s.rfd.fd = none)
    (hpath : headerPath s.ri.riFlags.doZap io s = path) (hnew : s.disk path = none) :
    rbtraceWriteHeader cfg io s =
      { s with
        ri := { s.ri with riFlags := { s.ri.riFlags with doDisk := true, doOpen := false } }
        hdr := rbtraceFormatHeader cfg io.ts io.gm
        rfd := ⟨some path, RBTRACE_FHEADER_SIZE⟩
        disk := Function.update s.disk path
          (some (traceFile (rbtraceFormatHeader cfg io.ts io.gm) [])) } := by
  simp only [rbtraceWriteHeader, openFile, hfd, ne_eq, not_true_eq_false, if_false, hio.openError,
    hpath, hnew, pwriteFd_of_noError hio.pwrites, if_true, Sys.mapFlags, Function.update_self,
    Option.getD_none, Option.getD_some, transfer_nil_header, Function.update_idem]

/-- **The pass that opens a new file**, outside zap mode. -/
theorem rbtraceThreadFn_open {io : PassIo} (hio : io.Ok) (hf : FlagsOk s.ctl)
    (hz : s.ri.riFlags.doZap = false) (hc : s.ri.riFlags.doClose = false)
    (ho : s.ri.riFlags.doOpen = true) (hpath : s.ri.riFilePath = path)
    (hnew : s.disk path = none) :
    rbtraceThreadFn cfg io s =
      some { s with
        ri := { s.ri with riFlags := { s.ri.riFlags with doDisk := true, doOpen := false } }
        hdr := rbtraceFormatHeader cfg io.header.ts io.header.gm
        rfd := ⟨some path, RBTRACE_FHEADER_SIZE⟩
        disk := Function.update s.disk path
          (some (traceFile (rbtraceFormatHeader cfg io.header.ts io.header.gm) [])) } := by
  have hhead : headerPath s.ri.riFlags.doZap io.header s = path := by
    rw [headerPath, if_neg (Bool.eq_false_iff.1 hz), hpath]
  have hopen := @rbtraceWriteHeader_of_ok cfg s path io.header hio.header (hf.fd_eq_none ho hc)
    hhead hnew
  rw [rbtraceThreadFn, if_neg (Bool.eq_false_iff.1 hc), if_pos ho, hopen]

/-! ## Writing -/

/-- The header with another wrap position. -/
def PaddedRbtraceFheader.withWrapPos (prf : PaddedRbtraceFheader) (pos : Nat) :
    PaddedRbtraceFheader :=
  { prf with hdr := { prf.hdr with wrapPos := pos } }

/-- The wrap position after a write of `n` records. -/
def Sys.nextWrapPos (s : Sys) (n : Nat) : Nat :=
  if s.fsize.toNat ≤ s.writePos + n * sizeofEntry ∧ s.ri.riFlags.doClose = false ∧
      s.ri.riFlags.doWrap then RBTRACE_FHEADER_SIZE
  else if s.hdr.hdr.wrapPos ≠ 0 ∧ s.ri.riFlags.doWrap then
    s.hdr.hdr.wrapPos + n * sizeofEntry
  else s.hdr.hdr.wrapPos

/-- The state after `n` records at offset `off` of the record area have been written to
the file at `path`, which then holds `es`. -/
def Sys.afterWrite (s : Sys) (path : CStr) (off n : Nat) (es : List RbtraceEntry) : Sys :=
  { s with
    reBase := clearRecords s.reBase off n
    rfd := ⟨some path, s.writePos + n * sizeofEntry⟩
    hdr := s.hdr.withWrapPos (s.nextWrapPos n)
    disk := Function.update s.disk path
      (some (traceFile (s.hdr.withWrapPos (s.nextWrapPos n)) es)) }

/-- Writing the records, and nothing else. -/
theorem writeBuffer_of_ok {outs : List PwriteOutcome} {off n i : Nat} (h : NoError outs)
    (hfd : s.rfd = ⟨some path, RBTRACE_FHEADER_SIZE + sizeofEntry * i⟩) {prf : PaddedRbtraceFheader}
    (hfile : s.disk path = some (traceFile prf es)) (hi : i ≤ es.length) :
    writeBuffer outs off n s =
      ({ s with
          disk := Function.update s.disk path
            (some (traceFile prf (es.splice .zero i (bufRecords s.reBase off n))))
          reBase := clearRecords s.reBase off n
          rfd := ⟨some path, RBTRACE_FHEADER_SIZE + sizeofEntry * i + n * sizeofEntry⟩ },
        true) := by
  simp only [writeBuffer, hfd, pwriteFd_of_noError h, hfile, Option.getD_some,
    transfer_traceFile prf hi, if_true]

/-- Writing an updated header. -/
private theorem updateHeader_of_ok {outs : List PwriteOutcome} (h : NoError outs)
    (hfd : s.rfd.fd = some path) {prf : PaddedRbtraceFheader}
    (hfile : s.disk path = some (traceFile prf es)) :
    updateHeader outs true s =
      { s with disk := Function.update s.disk path (some (traceFile s.hdr es)) } := by
  simp only [updateHeader, if_true, hfd, pwriteFd_of_noError h, hfile, Option.getD_some,
    transfer_traceFile_header]

/-- The wrap position and `update_hdr` after lines 196 to 235. -/
private theorem limitReached_of_ok {io : DataIo} (hlimit : s.fsize.toNat ≤ s.rfd.seek →
      s.ri.riFlags.doClose ∨ s.ri.riFlags.doWrap) (upd : Bool) :
    limitReached cfg io s upd =
      if s.fsize.toNat ≤ s.rfd.seek ∧ s.ri.riFlags.doClose = false ∧ s.ri.riFlags.doWrap then
        (resetWrapPos s, true)
      else (s, upd) := by
  unfold limitReached
  by_cases hl : s.fsize.toNat ≤ s.rfd.seek
  · rcases Bool.eq_false_or_eq_true s.ri.riFlags.doClose with hc | hc
    · simp only [hc, if_true, Bool.true_eq_false, false_and, and_false, if_false, ite_self]
    · have hw : s.ri.riFlags.doWrap = true := (hlimit hl).resolve_left (by simp [hc])
      simp only [hl, hc, hw, and_self, if_true, Bool.false_eq_true, if_false]
  · simp only [hl, false_and, if_false]

/-- **A write of a buffer**, unless it ends the file: it goes to record `i` of the file,
and the wrap position moves on both in memory and in the file. -/
theorem rbtraceWriteData_of_ok {io : DataIo} {doFlush : Bool} {off n i : Nat} (hio : io.Ok)
    (hfd : s.rfd.fd = some path) (hfile : s.disk path = some (traceFile s.hdr es))
    (hbuf : selectBuffer cfg doFlush s = (off, n))
    (hpos : s.writePos = RBTRACE_FHEADER_SIZE + sizeofEntry * i) (hi : i ≤ es.length)
    (hlimit : s.fsize.toNat ≤ s.writePos + n * sizeofEntry →
      s.ri.riFlags.doClose ∨ s.ri.riFlags.doWrap) :
    rbtraceWriteData cfg io doFlush s = some (takeCounters cfg io
      (s.afterWrite path off n (es.splice .zero i (bufRecords s.reBase off n)))) := by
  have hopen : ¬ s.rfd.fd = none := by simp [hfd]
  simp only [rbtraceWriteData, if_neg hopen, hbuf]
  have hrfd : (wrapSeek s.ri.riFlags.doWrap (n * sizeofEntry) s).1.rfd =
      ⟨some path, RBTRACE_FHEADER_SIZE + sizeofEntry * i⟩ := by
    rw [wrapSeek_seek, hfd, hpos]
  by_cases hw : s.hdr.hdr.wrapPos ≠ 0 ∧ s.ri.riFlags.doWrap
  · -- at the wrap position: the header is written in any case
    have hws : wrapSeek s.ri.riFlags.doWrap (n * sizeofEntry) s = _ := if_pos hw
    rw [hws] at hrfd ⊢
    rw [writeBuffer_of_ok hio.data hrfd hfile hi, if_pos rfl,
      limitReached_of_ok (by simpa only [← hpos] using hlimit)]
    simp only [Sys.afterWrite, Sys.nextWrapPos, hpos, if_pos hw]
    split_ifs
    all_goals
      rw [updateHeader_of_ok hio.update rfl (Function.update_self _ _ _)]
      simp only [resetWrapPos, Function.update_idem]
      rfl
  · have hws : wrapSeek s.ri.riFlags.doWrap (n * sizeofEntry) s = _ := if_neg hw
    rw [hws] at hrfd ⊢
    rw [writeBuffer_of_ok hio.data hrfd hfile hi, if_pos rfl,
      limitReached_of_ok (by simpa only [← hpos] using hlimit)]
    simp only [Sys.afterWrite, Sys.nextWrapPos, hpos, if_neg hw]
    split_ifs
    · rw [updateHeader_of_ok hio.update rfl (Function.update_self _ _ _)]
      simp only [resetWrapPos, Function.update_idem]
      rfl
    · rfl

/-- The state after `n` records at offset `off` of the record area have been written to
the write position of the file at `path`, which then holds `file`. -/
def Sys.afterAppend (s : Sys) (path : CStr) (off n : Nat) (file : List UInt8) : Sys :=
  { s with
    reBase := clearRecords s.reBase off n
    rfd := ⟨some path, s.rfd.seek + n * sizeofEntry⟩
    disk := Function.update s.disk path (some file) }

/-- Outside wrap mode the limit has nothing to do with the header. -/
private theorem limitReached_of_noWrap (io : DataIo) (hw : s.ri.riFlags.doWrap = false) :
    (limitReached cfg io s false).2 = false := by
  unfold limitReached
  split_ifs with h₁ h₂ h₃
  all_goals first | rfl | exact absurd h₃ (Bool.eq_false_iff.1 hw)

/-- **A write of a buffer outside wrap mode**, to a file of any bytes: the records go to
the write position, and then the limit is looked at. -/
theorem rbtraceWriteData_of_noWrap {io : DataIo} {doFlush : Bool} {off n : Nat}
    {file : List UInt8} (hio : NoError io.data) (hfd : s.rfd.fd = some path)
    (hfile : s.disk path = some file) (hbuf : selectBuffer cfg doFlush s = (off, n))
    (hw : s.ri.riFlags.doWrap = false) :
    rbtraceWriteData cfg io doFlush s = some (takeCounters cfg io
      (limitReached cfg io (s.afterAppend path off n (transfer file s.rfd.seek
        ((bufRecords s.reBase off n).flatMap RbtraceEntry.toBytes))) false).1) := by
  have hopen : ¬ s.rfd.fd = none := by simp [hfd]
  have hws : wrapSeek s.ri.riFlags.doWrap (n * sizeofEntry) s = (s, false) :=
    if_neg fun h ↦ Bool.eq_false_iff.1 hw h.2
  have hwrite : writeBuffer io.data off n s = (s.afterAppend path off n (transfer file s.rfd.seek
      ((bufRecords s.reBase off n).flatMap RbtraceEntry.toBytes)), true) := by
    simp only [writeBuffer, hfd, pwriteFd_of_noError hio, hfile, Option.getD_some, if_true]
    rfl
  have hupd := @limitReached_of_noWrap cfg (s.afterAppend path off n (transfer file s.rfd.seek
      ((bufRecords s.reBase off n).flatMap RbtraceEntry.toBytes))) io hw
  simp only [rbtraceWriteData, if_neg hopen, hbuf, hws, hwrite, if_true, hupd, updateHeader,
    Bool.false_eq_true, if_false]

/-- Taking the counters is the daemon's own business with the ring: the files, the header
and the limit are not touched. -/
theorem takeCounters_frame (cfg : RingConfig) (io : DataIo) (s : Sys) :
    (takeCounters cfg io s).rfd = s.rfd ∧ (takeCounters cfg io s).hdr = s.hdr ∧
      (takeCounters cfg io s).disk = s.disk ∧ (takeCounters cfg io s).fsize = s.fsize := by
  unfold takeCounters
  dsimp only
  split
  · exact ⟨rfl, rfl, rfl, rbtrace_fsize cfg io.stamps _ _⟩
  · exact ⟨rfl, rfl, rfl, rfl⟩

/-- Nothing was lost: the counters are cleared and no report is made. -/
theorem takeCounters_of_le (io : DataIo) (hf : s.ri.riFlush ≤ 1) (hl : s.ri.riLost = 0) :
    takeCounters cfg io s =
      { s with ri := { s.ri with riLost := 0, riFlush := 0 }, totalBuffers := s.totalBuffers + 1 } := by
  unfold takeCounters
  dsimp only
  rw [if_neg (not_or.2 ⟨not_lt.2 hf, not_not.2 hl⟩)]

end

/-- The closing pass after its two writes leaves the files as they are. -/
theorem rbtraceThreadFn_close {cfg : RingConfig} {io : PassIo} {s u v : Sys}
    (hc : s.ri.riFlags.doClose = true) (hu : flushInactive cfg io.inactive s = some u)
    (hv : flushActive cfg io.active u = some v) :
    ∃ t, rbtraceThreadFn cfg io s = some t ∧ t.disk = v.disk := by
  have hclose : (closeFile v).disk = v.disk := by
    unfold closeFile
    split <;> rfl
  rw [rbtraceThreadFn, if_pos hc, hu, Option.bind_some, hv, Option.map_some]
  exact ⟨_, rfl, hclose⟩

/-- A whole buffer is `rc_size` records. -/
theorem selectBuffer_inactive (cfg : ValidRingConfig) (s : Sys) :
    selectBuffer cfg false s = (s.ri.riAltOff, cfg.rcSize) := by
  rw [selectBuffer, if_neg Bool.false_ne_true, cfg.rcDataSize_div]

/-- Between whole calls the active buffer holds `ri_slot + 1` records. -/
theorem selectBuffer_active {cfg : ValidRingConfig} {off : Nat} {s : Sys}
    (h : RingOk cfg off s.toShm) :
    selectBuffer cfg true s = (s.ri.riCirOff, (s.ri.riSlot + 1).toNat) := by
  have h₁ := h.slot_ge
  have h₂ := h.slot_lt
  have h₃ := cfg.rcSize_lt
  rw [selectBuffer, if_pos rfl, CInt.i32_of_range (by omega) (by omega)]

end Rbtrace
