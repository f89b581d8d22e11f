import Rbtrace.Fheader
import Rbtrace.Ring

/-!
# The daemon: `rbtrace_backing.c`

The flush thread and the control operations, function by function.  Everything the
operating system decides is an argument: the clock, whether an `open` succeeds, and
how each `pwrite` goes.

## Conventions

* A file descriptor is the path of the open file, `none` for `-1`; the file system
  maps paths to bytes.  No code under test removes or renames a file.
* File offsets are natural numbers.  They are `uint64_t` and `off_t` in the source,
  but a `pwrite` at an offset that does not fit `off_t` fails, so on every run
  without I/O failure the sums do not wrap.
* `rbtrace_write_data` on a closed file jumps to its end label with `ri` still
  `NULL` and dereferences it; such a call is `none`.
-/

namespace Rbtrace

open CInt

/-! ## Positioned writes -/

/-- A value of `errno` after a failed call. -/
abbrev Errno := { n : Nat // 0 < n }

/-- How one `pwrite` goes. -/
inductive PwriteOutcome where
  | wrote (n : Nat)
  | eintr
  | error (errno : Errno)
deriving DecidableEq

/-- The bytes of a file after some bytes have been transferred to offset `off`. -/
def transfer (file : List UInt8) (off : Nat) (b : List UInt8) : List UInt8 :=
  if b = [] then file else file.splice 0 off b

/-- `safe_pwrite`.  The list gives the outcomes of its `pwrite` calls in order; once
it is used up the next call transfers all that is left. -/
def safePwrite : List PwriteOutcome → List UInt8 → List UInt8 → Nat → List UInt8 × Int
  | [], file, buf, off => (transfer file off buf, 0)
  | o :: os, file, buf, off =>
      if buf = [] then (file, 0)
      else match o with
        | .eintr => safePwrite os file buf off
        | .error e => (file, -e.1)
        | .wrote n =>
            safePwrite os (transfer file off (buf.take n)) (buf.drop n) (off + (buf.take n).length)

/-- `EBADF`, what a write to descriptor `-1` fails with. -/
def EBADF : Errno := ⟨9, by decide⟩

/-- `ENOSPC`, the disk is full. -/
def ENOSPC : Errno := ⟨28, by decide⟩

/-- The file system. -/
abbrev Disk := CStr → Option (List UInt8)

/-- `safe_pwrite` on a descriptor. -/
def pwriteFd (outs : List PwriteOutcome) (disk : Disk) (fd : Option CStr) (buf : List UInt8)
    (off : Nat) : Disk × Int :=
  match fd with
  | none => (disk, -EBADF.1)
  | some path =>
      let r := safePwrite outs ((disk path).getD []) buf off
      (Function.update disk path (some r.1), r.2)

/-! ## The daemon's state -/

/-- `struct ring_file_data`. -/
structure RingFileData where
  fd : Option CStr
  seek : Nat
deriving DecidableEq

/-- Shared memory, the daemon's own data, and the file system. -/
structure Sys extends Shm where
  rfd : RingFileData
  hdr : PaddedRbtraceFheader
  totalBuffers : Nat
  disk : Disk

/-- What the system contributes to opening a trace file. -/
structure HeaderIo where
  ts : Timespec
  gm : Tm
  openError : Option Errno
  pwrites : List PwriteOutcome

/-- What the system contributes to one `rbtrace_write_data`. -/
structure DataIo where
  data : List PwriteOutcome
  reopen : HeaderIo
  update : List PwriteOutcome
  stamps : Nat → Stamp

/-- What the system contributes to one pass of the thread. -/
structure PassIo where
  header : HeaderIo
  inactive : DataIo
  active : DataIo

/-! ## Opening a trace file -/

/-- `rbtrace_format_header`. -/
def rbtraceFormatHeader (cfg : RingConfig) (ts : Timespec) (gm : Tm) : PaddedRbtraceFheader :=
  let nameOff := sizeofFheader + gm.tmZone.length + 1
  { hdr :=
      { magic := RBTRACE_FHEADER_MAGIC
        major := RBTRACE_MAJOR
        minor := RBTRACE_MINOR
        ring := 0
        wrapPos := 0
        hdrSize := RBTRACE_FHEADER_SIZE
        nrRecords := cfg.rcSize
        timestamp := ts
        gmtoff := gm.tmGmtoff
        tzOff := sizeofFheader
        nameOff := nameOff
        descOff := nameOff + cfg.rcName.length + 1 }
    strings := gm.tmZone ++ [0] ++ cfg.rcName ++ [0] ++ cfg.rcDesc ++ [0] }

/-- The path `rbtrace_write_header` opens. -/
def headerPath (zap : Bool) (io : HeaderIo) (s : Sys) : CStr :=
  if zap then zapPath s.ri.riFilePath io.ts io.gm else s.ri.riFilePath

/-- `open(path, O_RDWR|O_CREAT, 0666)`, `rbtrace_format_header` and the write of the
header: lines 125 to 146.  Returns whether the file is open for business. -/
def openFile (cfg : RingConfig) (zap : Bool) (io : HeaderIo) (s : Sys) : Sys × Bool :=
  match io.openError with
  | some _ => (s, false)
  | none =>
      let path := headerPath zap io s
      let hdr := rbtraceFormatHeader cfg io.ts io.gm
      let w := pwriteFd io.pwrites (Function.update s.disk path (some ((s.disk path).getD [])))
        (some path) hdr.toBytes 0
      if w.2 = 0 then
        ({ s with hdr := hdr, disk := w.1, rfd := ⟨some path, RBTRACE_FHEADER_SIZE⟩ }, true)
      else ({ s with hdr := hdr, disk := w.1, rfd := { s.rfd with fd := some path } }, false)

/-- The `out` label of `rbtrace_write_header`, less the update of the flags. -/
def abandonFile (s : Sys) : Sys := { s with rfd := ⟨none, 0⟩ }

/-- An update of `ri_flags`. -/
def Sys.mapFlags (f : RiFlags → RiFlags) (s : Sys) : Sys :=
  { s with ri := { s.ri with riFlags := f s.ri.riFlags } }

/-- `rbtrace_write_header`. -/
def rbtraceWriteHeader (cfg : RingConfig) (io : HeaderIo) (s : Sys) : Sys :=
  if s.rfd.fd ≠ none then
    abandonFile (s.mapFlags fun f ↦ { f with doOpen := false })
  else
    let r := openFile cfg s.ri.riFlags.doZap io s
    if r.2 then
      (r.1.mapFlags fun f ↦ { f with doDisk := true }).mapFlags fun f ↦ { f with doOpen := false }
    else abandonFile (r.1.mapFlags fun f ↦ { f with doOpen := false })

/-! ## Writing a buffer

`rbtrace_write_data` is cut at its comments; each piece is a function of the flags it
reads, so that the pieces can also be taken one at a time. -/

/-- The buffer to write, as offset and number of records: lines 187 to 193. -/
def selectBuffer (cfg : RingConfig) (doFlush : Bool) (s : Sys) : Nat × Nat :=
  if doFlush then (s.ri.riCirOff, (i32 (s.ri.riSlot + 1)).toNat)
  else (s.ri.riAltOff, cfg.rcDataSize / sizeofEntry)

/-- `if (prf->hdr.wrap_pos && (ri->ri_flags & RBTRACE_DO_WRAP))`: lines 196 to 200.
Returns `update_hdr`. -/
def wrapSeek (doWrap : Bool) (size : Nat) (s : Sys) : Sys × Bool :=
  if s.hdr.hdr.wrapPos ≠ 0 ∧ doWrap then
    ({ s with
        rfd := { s.rfd with seek := s.hdr.hdr.wrapPos }
        hdr := { s.hdr with hdr := { s.hdr.hdr with wrapPos := s.hdr.hdr.wrapPos + size } } }, true)
  else (s, false)

/-- The write of the records, and the `memset` after it: lines 203 to 213. -/
def writeBuffer (outs : List PwriteOutcome) (off n : Nat) (s : Sys) : Sys × Bool :=
  let w := pwriteFd outs s.disk s.rfd.fd
    ((bufRecords s.reBase off n).flatMap RbtraceEntry.toBytes) s.rfd.seek
  if w.2 = 0 then
    ({ s with
        disk := w.1
        reBase := clearRecords s.reBase off n
        rfd := { s.rfd with seek := s.rfd.seek + n * sizeofEntry } }, true)
  else ({ s with disk := w.1 }, false)

/-- `prf->hdr.wrap_pos = sizeof(*prf)`. -/
def resetWrapPos (s : Sys) : Sys :=
  { s with hdr := { s.hdr with hdr := { s.hdr.hdr with wrapPos := RBTRACE_FHEADER_SIZE } } }

/-- `close(rfd->fd); rfd->fd = -1`. -/
def closeFd (s : Sys) : Sys := { s with rfd := { s.rfd with fd := none } }

/-- What happens once the limit is reached: lines 216 to 235.  Takes and returns
`update_hdr`. -/
def limitReached (cfg : RingConfig) (io : DataIo) (s : Sys) (upd : Bool) : Sys × Bool :=
  if s.fsize.toNat ≤ s.rfd.seek then
    if s.ri.riFlags.doClose then (s, upd)
    else if s.ri.riFlags.doWrap then (resetWrapPos s, true)
    else if s.ri.riFlags.doZap then (rbtraceWriteHeader cfg io.reopen (closeFd s), upd)
    else ((closeFd s).mapFlags fun f ↦ { f with doDisk := false }, upd)
  else (s, upd)

/-- The write of an updated header: lines 237 to 243. -/
def updateHeader (outs : List PwriteOutcome) (upd : Bool) (s : Sys) : Sys :=
  if upd then { s with disk := (pwriteFd outs s.disk s.rfd.fd s.hdr.toBytes 0).1 } else s

/-- `lost += ((flush - 1) * cfg->rc_size)`; the product and the sum are `uint32_t`,
which have the same low 32 bits. -/
def lossAmount (cfg : RingConfig) (lost flush : Int) : Int :=
  if 1 < flush then i32 (lost + (flush - 1) * cfg.rcSize) else lost

/-- The `end` label: take the two counters and report a loss. -/
def takeCounters (cfg : RingConfig) (io : DataIo) (s : Sys) : Sys :=
  let s' : Sys := { s with
    ri := { s.ri with riLost := 0, riFlush := 0 }, totalBuffers := s.totalBuffers + 1 }
  if 1 < s.ri.riFlush ∨ s.ri.riLost ≠ 0 then
    { s' with
      toShm := (rbtrace cfg io.stamps s'.toShm
        (lostArgs (lossAmount cfg s.ri.riLost s.ri.riFlush))).1 }
  else s'

/-- `rbtrace_write_data`. -/
def rbtraceWriteData (cfg : RingConfig) (io : DataIo) (doFlush : Bool) (s : Sys) : Option Sys :=
  if s.rfd.fd = none then none
  else
    let buf := selectBuffer cfg doFlush s
    let s₁ := wrapSeek s.ri.riFlags.doWrap (buf.2 * sizeofEntry) s
    let s₂ := writeBuffer io.data buf.1 buf.2 s₁.1
    if s₂.2 then
      let s₃ := limitReached cfg io s₂.1 s₁.2
      some (takeCounters cfg io (updateHeader io.update s₃.2 s₃.1))
    else some (takeCounters cfg io s₂.1)

/-! ## The thread -/

/-- `if (ri->ri_flags & RBTRACE_DO_FLUSH)`: write the active buffer and clear the flag. -/
def flushActive (cfg : RingConfig) (io : DataIo) (s : Sys) : Option Sys :=
  if s.ri.riFlags.doFlush then
    (rbtraceWriteData cfg io true s).map (Sys.mapFlags fun f ↦ { f with doFlush := false })
  else some s

/-- `if (ri->ri_flush)`: write the inactive buffer. -/
def flushInactive (cfg : RingConfig) (io : DataIo) (s : Sys) : Option Sys :=
  if s.ri.riFlush ≠ 0 then rbtraceWriteData cfg io false s else some s

/-- Close the file descriptor and forget the path: lines 305 to 313. -/
def closeFile (s : Sys) : Sys :=
  if s.rfd.fd ≠ none then { closeFd s with ri := { s.ri with riFilePath := [] } } else s

/-- One pass of `rbtrace_thread_fn`, from one wait on the semaphore to the next. -/
def rbtraceThreadFn (cfg : RingConfig) (io : PassIo) (s : Sys) : Option Sys :=
  if s.ri.riFlags.doClose then
    (flushInactive cfg io.inactive s).bind fun s₁ ↦
      (flushActive cfg io.active s₁).map fun s₂ ↦
        let s₃ := (closeFile s₂).mapFlags fun f ↦ { f with doClose := false }
        { s₃ with rfd := { s₃.rfd with seek := 0 } }
  else if s.ri.riFlags.doOpen then some (rbtraceWriteHeader cfg io.header s)
  else if s.ri.riFlags.doDisk then
    (flushInactive cfg io.inactive s).bind (flushActive cfg io.active)
  else some s

/-! ## Initialisation and control operations -/

/-- `rbtrace_init_trace_info`: the `ring_info` of a ring whose buffers start at record
`offset`, and the number of records they take.  The shared memory was zeroed before. -/
def rbtraceInitTraceInfo (cfg : RingConfig) (offset : Nat) : RingInfo × Nat :=
  ({ riFilePath := [], riFlags := cfg.rcFlags, riTflags := 0, riCirOff := offset,
     riAltOff := offset + cfg.rcSize, riSlot := 0, riFlush := 0, riLost := 0 }, cfg.rcSize * 2)

/-- `RBTRACE_DFT_FILE_SIZE`. -/
def RBTRACE_DFT_FILE_SIZE : BitVec 64 := 2048 * 1024 * 1024

/-- The state `rbtrace_daemon_init` leaves on a system with the given files. -/
def rbtraceDaemonInit (cfg : RingConfig) (disk : Disk) : Sys :=
  { ri := (rbtraceInitTraceInfo cfg 0).1
    reBase := fun _ ↦ RbtraceEntry.zero
    fsize := RBTRACE_DFT_FILE_SIZE
    rfd := ⟨none, 0⟩
    hdr := PaddedRbtraceFheader.zero
    totalBuffers := 0
    disk := disk }

/-- `RBTRACE_MAX_PATH`. -/
def RBTRACE_MAX_PATH : Nat := 1024

/-- `rbtrace_op_t` with the argument each handler is given, `none` for `NULL`. -/
inductive RbtraceOp where
  | open (argp : Option CStr)
  | close
  | size (argp : Option (BitVec 64))
  | wrap (argp : Option Bool)
  | zap (argp : Option Bool)
  | tflags (argp : Option (Bool × BitVec 64))
  | info (argp : Option Unit)

/-- `rbtrace_ctrl_open`. -/
def rbtraceCtrlOpen (argp : Option CStr) (sh : Shm) : Shm × Int :=
  if sh.ri.riFlags.doOpen ∨ sh.ri.riFlags.doDisk then (sh, -1)
  else match argp with
    | none => (sh, -1)
    | some path =>
        if RBTRACE_MAX_PATH ≤ path.length then (sh, -1)
        else
          ({ sh with ri := { sh.ri with
              riFilePath := path, riSlot := -1, riFlush := 0, riLost := 0,
              riFlags := { sh.ri.riFlags with doOpen := true } } }, 0)

/-- `rbtrace_ctrl_close`. -/
def rbtraceCtrlClose (sh : Shm) : Shm × Int :=
  if sh.ri.riFlags.doDisk then
    ({ sh with ri := { sh.ri with
        riFlags := { sh.ri.riFlags with doDisk := false, doFlush := true, doClose := true } } }, 0)
  else (sh, -1)

/-- `rbtrace_ctrl_size`. -/
def rbtraceCtrlSize (argp : Option (BitVec 64)) (sh : Shm) : Shm × Int :=
  match argp with
  | none => (sh, -1)
  | some size => ({ sh with fsize := size }, 0)

/-- `rbtrace_ctrl_wrap`. -/
def rbtraceCtrlWrap (argp : Option Bool) (sh : Shm) : Shm × Int :=
  match argp with
  | some enable =>
      if sh.ri.riFlags.doZap then (sh, -1)
      else ({ sh with ri := { sh.ri with
        riFlags := { sh.ri.riFlags with doWrap := enable } } }, 0)
  | none => (sh, -1)

/-- `rbtrace_ctrl_zap`. -/
def rbtraceCtrlZap (argp : Option Bool) (sh : Shm) : Shm × Int :=
  match argp with
  | some enable =>
      if sh.ri.riFlags.doWrap then (sh, -1)
      else ({ sh with ri := { sh.ri with
        riFlags := { sh.ri.riFlags with doZap := enable } } }, 0)
  | none => (sh, -1)

/-- `rbtrace_ctrl_tflags`. -/
def rbtraceCtrlTflags (argp : Option (Bool × BitVec 64)) (sh : Shm) : Shm × Int :=
  match argp with
  | none => (sh, -1)
  | some (set, tflags) =>
      ({ sh with ri := { sh.ri with
          riTflags := if set then sh.ri.riTflags ||| tflags else sh.ri.riTflags &&& ~~~tflags } }, 0)

/-- `rbtrace_ctrl`.  `rbtrace_ctrl_info` only reads the ring. -/
def rbtraceCtrl (op : RbtraceOp) (sh : Shm) : Shm × Int :=
  match op with
  | .open argp => rbtraceCtrlOpen argp sh
  | .close => rbtraceCtrlClose sh
  | .size argp => rbtraceCtrlSize argp sh
  | .wrap argp => rbtraceCtrlWrap argp sh
  | .zap argp => rbtraceCtrlZap argp sh
  | .tflags argp => rbtraceCtrlTflags argp sh
  | .info argp => (sh, if argp.isSome then 0 else -1)

/-- What a control operation does to the shared memory, and what it returns: it is refused
and does nothing, or it does what it is for. -/
inductive CtrlStep (sh : Shm) : RbtraceOp → Shm × Int → Prop
  | refused (op : RbtraceOp) : CtrlStep sh op (sh, -1)
  | opens (path : CStr) (hs : ¬ (sh.ri.riFlags.doOpen ∨ sh.ri.riFlags.doDisk)) :
      CtrlStep sh (.open (some path))
        ({ sh with ri := { sh.ri with
            riFilePath := path, riSlot := -1, riFlush := 0, riLost := 0,
            riFlags := { sh.ri.riFlags with doOpen := true } } }, 0)
  | closes (hd : sh.ri.riFlags.doDisk = true) :
      CtrlStep sh .close
        ({ sh with ri := { sh.ri with
            riFlags := { sh.ri.riFlags with doDisk := false, doFlush := true, doClose := true } } }, 0)
  | limits (size : BitVec 64) : CtrlStep sh (.size (some size)) ({ sh with fsize := size }, 0)
  | wraps (enable : Bool) (hz : sh.ri.riFlags.doZap = false) :
      CtrlStep sh (.wrap (some enable))
        ({ sh with ri := { sh.ri with riFlags := { sh.ri.riFlags with doWrap := enable } } }, 0)
  | zaps (enable : Bool) (hw : sh.ri.riFlags.doWrap = false) :
      CtrlStep sh (.zap (some enable))
        ({ sh with ri := { sh.ri with riFlags := { sh.ri.riFlags with doZap := enable } } }, 0)
  | traces (set : Bool) (tflags : BitVec 64) :
      CtrlStep sh (.tflags (some (set, tflags)))
        ({ sh with ri := { sh.ri with riTflags :=
            if set then sh.ri.riTflags ||| tflags else sh.ri.riTflags &&& ~~~tflags } }, 0)
  | informs : CtrlStep sh (.info (some ())) (sh, 0)

theorem rbtraceCtrl_step (op : RbtraceOp) (sh : Shm) : CtrlStep sh op (rbtraceCtrl op sh) := by
  cases op with
  | «open» argp =>
      simp only [rbtraceCtrl, rbtraceCtrlOpen]
      split
      · exact .refused _
      · rename_i hs
        cases argp with
        | none => exact .refused _
        | some path =>
            dsimp only
            split
            · exact .refused _
            · exact .opens path hs
  | close =>
      simp only [rbtraceCtrl, rbtraceCtrlClose]
      split
      · rename_i hd
        exact .closes hd
      · exact .refused _
  | size argp =>
      cases argp with
      | none => exact .refused _
      | some size => exact .limits size
  | wrap argp =>
      cases argp with
      | none => exact .refused _
      | some enable =>
          simp only [rbtraceCtrl, rbtraceCtrlWrap]
          split
          · exact .refused _
          · rename_i hz
            exact .wraps enable (Bool.eq_false_iff.2 hz)
  | zap argp =>
      cases argp with
      | none => exact .refused _
      | some enable =>
          simp only [rbtraceCtrl, rbtraceCtrlZap]
          split
          · exact .refused _
          · rename_i hw
            exact .zaps enable (Bool.eq_false_iff.2 hw)
  | tflags argp =>
      cases argp with
      | none => exact .refused _
      | some p => exact .traces p.1 p.2
  | info argp =>
      cases argp with
      | none => exact .refused _
      | some u => exact .informs

end Rbtrace
