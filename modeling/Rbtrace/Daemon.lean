import Rbtrace.Backing

/-!
# The daemon, one access at a time

`rbtrace_thread_fn` and the functions it calls, cut so that every access to a volatile
field of `ring_info` is a step of its own.  An update such as `ri_flags |= ..` is two
steps, a load and a store; the two exchanges at the end of `rbtrace_write_data` are one
step each.  What the daemon does between two accesses (the tests of its own variables,
`open`, `close`, `pwrite`, `memset`) goes with one of them.

`daemonStep` makes no step at a report: a report is an `rbtrace()` call, and it depends
on the machine how finely calls are cut.
-/

namespace Rbtrace

open CInt

/-! ## Points of the program -/

/-- A point of `rbtrace_write_header`. -/
inductive HeaderPc where
  /-- Lines 106 to 115: test the descriptor, read `RBTRACE_DO_ZAP`. -/
  | enter
  /-- Lines 116 to 146: open the file; then the load of line 148, or of line 155. -/
  | opening (zap : Bool)
  /-- Line 148, the store. -/
  | diskStore (f : RiFlags)
  /-- Line 151, the load. -/
  | openLoad
  /-- Line 151, the store. -/
  | openStore (f : RiFlags)
  /-- Lines 155 to 160, from the store on. -/
  | outStore (f : RiFlags)
deriving DecidableEq

/-- A point of `rbtrace_write_data`. -/
inductive DataPc where
  /-- Lines 178 to 191: test the descriptor, read `ri_cir_off` or `ri_alt_off`. -/
  | off
  /-- Line 189, the read of `ri_slot`. -/
  | slot (off : Nat)
  /-- Lines 196 to 200. -/
  | wrap (off n : Nat)
  /-- Lines 203 to 216. -/
  | write (off n : Nat) (upd : Bool)
  /-- Line 217. -/
  | limClose (upd : Bool)
  /-- Lines 220 to 223. -/
  | limWrap (upd : Bool)
  /-- Lines 224 to 232. -/
  | limZap (upd : Bool)
  /-- Line 233, the load. -/
  | stopLoad (upd : Bool)
  /-- Line 233, the store. -/
  | stopStore (upd : Bool) (f : RiFlags)
  /-- Lines 237 to 246. -/
  | takeLost (upd : Bool)
  /-- Lines 247 to 257, less the report. -/
  | takeFlush (lost : Int)
  /-- Line 255. -/
  | report (lost : Int)
deriving DecidableEq

/-- Where `rbtrace_write_data` is called: in the branch that closes the file or in the
normal one, and for the active or for the inactive buffer. -/
structure Site where
  closing : Bool
  doFlush : Bool
deriving DecidableEq

/-- A point of the thread. -/
inductive DaemonPc where
  /-- Waiting on the semaphore. -/
  | idle
  /-- Line 292. -/
  | testClose
  /-- Line 319. -/
  | testOpen
  /-- Line 323. -/
  | testDisk
  /-- Line 294 or 324. -/
  | testFlush (closing : Bool)
  /-- Line 299 or 327. -/
  | testDoFlush (closing : Bool)
  /-- Line 301 or 329, the load. -/
  | clearLoad (closing : Bool)
  /-- Line 301 or 329, the store. -/
  | clearStore (closing : Bool) (f : RiFlags)
  /-- Lines 305 to 313. -/
  | closeFile
  /-- Line 315, the load. -/
  | closeLoad
  /-- Lines 315 and 316, from the store on. -/
  | closeStore (f : RiFlags)
  /-- In `rbtrace_write_header`, called in line 320. -/
  | header (pc : HeaderPc)
  /-- In `rbtrace_write_data`. -/
  | data (w : Site) (pc : DataPc)
  /-- In `rbtrace_write_header`, called in line 228. -/
  | rollover (w : Site) (upd : Bool) (pc : HeaderPc)
deriving DecidableEq

/-! ## Steps -/

/-- A store to `ri_flags`. -/
def Sys.setFlags (f : RiFlags) (s : Sys) : Sys := s.mapFlags fun _ ↦ f

/-- A step of `rbtrace_write_header`; it returns when there is no next point. -/
def headerStep (cfg : RingConfig) (io : HeaderIo) (s : Sys) : HeaderPc → Sys × Option HeaderPc
  | .enter =>
      (s, some (if s.rfd.fd ≠ none then .outStore s.ri.riFlags else .opening s.ri.riFlags.doZap))
  | .opening zap =>
      let r := openFile cfg zap io s
      (r.1, some (if r.2 then .diskStore s.ri.riFlags else .outStore s.ri.riFlags))
  | .diskStore f => (s.setFlags { f with doDisk := true }, some .openLoad)
  | .openLoad => (s, some (.openStore s.ri.riFlags))
  | .openStore f => (s.setFlags { f with doOpen := false }, none)
  | .outStore f => (abandonFile (s.setFlags { f with doOpen := false }), none)

/-- How `rbtrace_write_data` goes on after a step. -/
inductive DataNext where
  | goto (pc : DataPc)
  /-- It calls `rbtrace_write_header`. -/
  | rollover (upd : Bool)
  | finished

/-- A step of `rbtrace_write_data`; `none` for the crash on a closed file, and for the
report, which is no step of the daemon alone. -/
def dataStep (cfg : RingConfig) (io : DataIo) (doFlush : Bool) (s : Sys) :
    DataPc → Option (Sys × DataNext)
  | .off =>
      if s.rfd.fd = none then none
      else some (s, .goto (if doFlush then .slot s.ri.riCirOff
        else .wrap s.ri.riAltOff (cfg.rcDataSize / sizeofEntry)))
  | .slot off => some (s, .goto (.wrap off (i32 (s.ri.riSlot + 1)).toNat))
  | .wrap off n =>
      let r := wrapSeek s.ri.riFlags.doWrap (n * sizeofEntry) s
      some (r.1, .goto (.write off n r.2))
  | .write off n upd =>
      let r := writeBuffer io.data off n s
      some (r.1, .goto (if r.2 then
          if r.1.fsize.toNat ≤ r.1.rfd.seek then .limClose upd else .takeLost upd
        else .takeLost false))
  | .limClose upd =>
      some (s, .goto (if s.ri.riFlags.doClose then .takeLost upd else .limWrap upd))
  | .limWrap upd =>
      some (if s.ri.riFlags.doWrap then (resetWrapPos s, .goto (.takeLost true))
        else (s, .goto (.limZap upd)))
  | .limZap upd =>
      some (closeFd s, if s.ri.riFlags.doZap then .rollover upd else .goto (.stopLoad upd))
  | .stopLoad upd => some (s, .goto (.stopStore upd s.ri.riFlags))
  | .stopStore upd f => some (s.setFlags { f with doDisk := false }, .goto (.takeLost upd))
  | .takeLost upd =>
      let s' := updateHeader io.update upd s
      some ({ s' with ri := { s'.ri with riLost := 0 } }, .goto (.takeFlush s'.ri.riLost))
  | .takeFlush lost =>
      some ({ s with ri := { s.ri with riFlush := 0 }, totalBuffers := s.totalBuffers + 1 },
        if 1 < s.ri.riFlush ∨ lost ≠ 0 then .goto (.report (lossAmount cfg lost s.ri.riFlush))
        else .finished)
  | .report _ => none

/-- What the system contributes to a call of `rbtrace_write_data`. -/
def PassIo.data (io : PassIo) (w : Site) : DataIo := if w.doFlush then io.active else io.inactive

/-- Where the thread goes on when `rbtrace_write_data` returns. -/
def Site.return (w : Site) : DaemonPc :=
  if w.doFlush then .clearLoad w.closing else .testDoFlush w.closing

/-- The point of the thread after a step of `rbtrace_write_data`. -/
def Site.next (w : Site) : DataNext → DaemonPc
  | .goto pc => .data w pc
  | .rollover upd => .rollover w upd .enter
  | .finished => w.return

/-- A step of the thread. -/
def daemonStep (cfg : RingConfig) (io : PassIo) (s : Sys) : DaemonPc → Option (Sys × DaemonPc)
  | .idle => none
  | .testClose => some (s, if s.ri.riFlags.doClose then .testFlush true else .testOpen)
  | .testOpen => some (s, if s.ri.riFlags.doOpen then .header .enter else .testDisk)
  | .testDisk => some (s, if s.ri.riFlags.doDisk then .testFlush false else .idle)
  | .testFlush closing =>
      some (s, if s.ri.riFlush ≠ 0 then .data ⟨closing, false⟩ .off else .testDoFlush closing)
  | .testDoFlush closing =>
      some (s, if s.ri.riFlags.doFlush then .data ⟨closing, true⟩ .off
        else if closing then .closeFile else .idle)
  | .clearLoad closing => some (s, .clearStore closing s.ri.riFlags)
  | .clearStore closing f =>
      some (s.setFlags { f with doFlush := false }, if closing then .closeFile else .idle)
  | .closeFile => some (Rbtrace.closeFile s, .closeLoad)
  | .closeLoad => some (s, .closeStore s.ri.riFlags)
  | .closeStore f =>
      let s' := s.setFlags { f with doClose := false }
      some ({ s' with rfd := { s'.rfd with seek := 0 } }, .idle)
  | .header pc =>
      let r := headerStep cfg io.header s pc
      some (r.1, match r.2 with
        | some pc' => .header pc'
        | none => .idle)
  | .data w pc => (dataStep cfg (io.data w) w.doFlush s pc).map fun r ↦ (r.1, w.next r.2)
  | .rollover w upd pc =>
      let r := headerStep cfg (io.data w).reopen s pc
      some (r.1, match r.2 with
        | some pc' => .rollover w upd pc'
        | none => .data w (.takeLost upd))

/-! ## Reading a point -/

/-- The value of `ri_flags` that is loaded and about to be stored. -/
@[simp] def HeaderPc.held : HeaderPc → Option RiFlags
  | .diskStore f | .openStore f | .outStore f => some f
  | _ => none

/-- The value of `ri_flags` that is loaded and about to be stored. -/
@[simp] def DaemonPc.held : DaemonPc → Option RiFlags
  | .clearStore _ f | .closeStore f | .data _ (.stopStore _ f) => some f
  | .header pc | .rollover _ _ pc => pc.held
  | _ => none

/-- The thread is in the branch that closes the file. -/
@[simp] def DaemonPc.closing : DaemonPc → Bool
  | .testFlush c | .testDoFlush c | .clearLoad c | .clearStore c _ => c
  | .closeFile | .closeLoad | .closeStore _ => true
  | .data w _ | .rollover w _ _ => w.closing
  | _ => false

/-- The thread has been asked to flush and has not taken note of it yet. -/
@[simp] def DaemonPc.flushing : DaemonPc → Bool
  | .clearLoad _ | .clearStore _ _ => true
  | .data w _ | .rollover w _ _ => w.doFlush
  | _ => false

end Rbtrace
