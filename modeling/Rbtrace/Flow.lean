import Rbtrace.Daemon
import Rbtrace.System

/-!
# The daemon's flow of control

What a step of the daemon does to `ring_info`, and where the daemon goes next, as far as
`ring_info` decides it.  Where the next point depends on the daemon's files too, `Flow` has
a case for each way it can go.  Invariants about the flags and the counters are proved by
cases on `Flow`; none of them has to look into `daemonStep` again.
-/

namespace Rbtrace

open CInt

/-- A store to `ri_flags`. -/
def RingInfo.setFlags (f : RiFlags) (ri : RingInfo) : RingInfo := { ri with riFlags := f }

@[simp] theorem RingInfo.setFlags_riFlags (f : RiFlags) (ri : RingInfo) :
    (ri.setFlags f).riFlags = f := rfl

/-- The flow of control in `rbtrace_write_header`. -/
inductive HeaderFlow (ri : RingInfo) : HeaderPc → RingInfo → Option HeaderPc → Prop
  | alreadyOpen : HeaderFlow ri .enter ri (some (.outStore ri.riFlags))
  | enter : HeaderFlow ri .enter ri (some (.opening ri.riFlags.doZap))
  | opened {zap} : HeaderFlow ri (.opening zap) ri (some (.diskStore ri.riFlags))
  | failed {zap} : HeaderFlow ri (.opening zap) ri (some (.outStore ri.riFlags))
  | diskStore {f} : HeaderFlow ri (.diskStore f) (ri.setFlags { f with doDisk := true })
      (some .openLoad)
  | openLoad : HeaderFlow ri .openLoad ri (some (.openStore ri.riFlags))
  | openStore {f} : HeaderFlow ri (.openStore f) (ri.setFlags { f with doOpen := false }) none
  | outStore {f} : HeaderFlow ri (.outStore f) (ri.setFlags { f with doOpen := false }) none

/-- The flow of control in `rbtrace_write_data`. -/
inductive DataFlow (cfg : RingConfig) (doFlush : Bool) (ri : RingInfo) :
    DataPc → RingInfo → DataNext → Prop
  | active (h : doFlush = true) : DataFlow cfg doFlush ri .off ri (.goto (.slot ri.riCirOff))
  | inactive (h : doFlush = false) : DataFlow cfg doFlush ri .off ri
      (.goto (.wrap ri.riAltOff (cfg.rcDataSize / sizeofEntry)))
  | slot {off} : DataFlow cfg doFlush ri (.slot off) ri
      (.goto (.wrap off (i32 (ri.riSlot + 1)).toNat))
  | wrap {off n upd} : DataFlow cfg doFlush ri (.wrap off n) ri (.goto (.write off n upd))
  | limit {off n upd} : DataFlow cfg doFlush ri (.write off n upd) ri (.goto (.limClose upd))
  | noLimit {off n upd upd'} : DataFlow cfg doFlush ri (.write off n upd) ri
      (.goto (.takeLost upd'))
  | closePending {upd} (h : ri.riFlags.doClose = true) :
      DataFlow cfg doFlush ri (.limClose upd) ri (.goto (.takeLost upd))
  | noClosePending {upd} (h : ri.riFlags.doClose = false) :
      DataFlow cfg doFlush ri (.limClose upd) ri (.goto (.limWrap upd))
  | wraps {upd} : DataFlow cfg doFlush ri (.limWrap upd) ri (.goto (.takeLost true))
  | noWrap {upd} : DataFlow cfg doFlush ri (.limWrap upd) ri (.goto (.limZap upd))
  | zaps {upd} : DataFlow cfg doFlush ri (.limZap upd) ri (.rollover upd)
  | stops {upd} : DataFlow cfg doFlush ri (.limZap upd) ri (.goto (.stopLoad upd))
  | stopLoad {upd} : DataFlow cfg doFlush ri (.stopLoad upd) ri
      (.goto (.stopStore upd ri.riFlags))
  | stopStore {upd f} : DataFlow cfg doFlush ri (.stopStore upd f)
      (ri.setFlags { f with doDisk := false }) (.goto (.takeLost upd))
  | takeLost {upd} : DataFlow cfg doFlush ri (.takeLost upd) { ri with riLost := 0 }
      (.goto (.takeFlush ri.riLost))
  | loss {lost} (h : 1 < ri.riFlush ∨ lost ≠ 0) :
      DataFlow cfg doFlush ri (.takeFlush lost) { ri with riFlush := 0 }
        (.goto (.report (lossAmount cfg lost ri.riFlush)))
  | noLoss {lost} (h : ri.riFlush ≤ 1) (h' : lost = 0) :
      DataFlow cfg doFlush ri (.takeFlush lost) { ri with riFlush := 0 } .finished

/-- The flow of control in the thread. -/
inductive Flow (cfg : RingConfig) (ri : RingInfo) : DaemonPc → RingInfo → DaemonPc → Prop
  | close (h : ri.riFlags.doClose = true) : Flow cfg ri .testClose ri (.testFlush true)
  | noClose (h : ri.riFlags.doClose = false) : Flow cfg ri .testClose ri .testOpen
  | «open» (h : ri.riFlags.doOpen = true) : Flow cfg ri .testOpen ri (.header .enter)
  | noOpen (h : ri.riFlags.doOpen = false) : Flow cfg ri .testOpen ri .testDisk
  | disk (h : ri.riFlags.doDisk = true) : Flow cfg ri .testDisk ri (.testFlush false)
  | noDisk (h : ri.riFlags.doDisk = false) : Flow cfg ri .testDisk ri .idle
  | pending {c} (h : ri.riFlush ≠ 0) : Flow cfg ri (.testFlush c) ri (.data ⟨c, false⟩ .off)
  | noPending {c} (h : ri.riFlush = 0) : Flow cfg ri (.testFlush c) ri (.testDoFlush c)
  | flush {c} (h : ri.riFlags.doFlush = true) :
      Flow cfg ri (.testDoFlush c) ri (.data ⟨c, true⟩ .off)
  | noFlush (h : ri.riFlags.doFlush = false) : Flow cfg ri (.testDoFlush false) ri .idle
  | noFlushClosing (h : ri.riFlags.doFlush = false) :
      Flow cfg ri (.testDoFlush true) ri .closeFile
  | clearLoad {c} : Flow cfg ri (.clearLoad c) ri (.clearStore c ri.riFlags)
  | clearStore {f} : Flow cfg ri (.clearStore false f) (ri.setFlags { f with doFlush := false })
      .idle
  | clearStoreClosing {f} : Flow cfg ri (.clearStore true f)
      (ri.setFlags { f with doFlush := false }) .closeFile
  | closeFile : Flow cfg ri .closeFile { ri with riFilePath := [] } .closeLoad
  | closedFile : Flow cfg ri .closeFile ri .closeLoad
  | closeLoad : Flow cfg ri .closeLoad ri (.closeStore ri.riFlags)
  | closeStore {f} : Flow cfg ri (.closeStore f) (ri.setFlags { f with doClose := false }) .idle
  | header {pc pc' ri'} (h : HeaderFlow ri pc ri' (some pc')) :
      Flow cfg ri (.header pc) ri' (.header pc')
  | headerReturn {pc ri'} (h : HeaderFlow ri pc ri' none) : Flow cfg ri (.header pc) ri' .idle
  | data {w pc ri' pc'} (h : DataFlow cfg w.doFlush ri pc ri' (.goto pc')) :
      Flow cfg ri (.data w pc) ri' (.data w pc')
  | dataRollover {w pc ri' upd} (h : DataFlow cfg w.doFlush ri pc ri' (.rollover upd)) :
      Flow cfg ri (.data w pc) ri' (.rollover w upd .enter)
  | dataReturn {w pc ri'} (h : DataFlow cfg w.doFlush ri pc ri' .finished) :
      Flow cfg ri (.data w pc) ri' w.return
  | rollover {w upd pc pc' ri'} (h : HeaderFlow ri pc ri' (some pc')) :
      Flow cfg ri (.rollover w upd pc) ri' (.rollover w upd pc')
  | rolloverReturn {w upd pc ri'} (h : HeaderFlow ri pc ri' none) :
      Flow cfg ri (.rollover w upd pc) ri' (.data w (.takeLost upd))

theorem headerStep_flow (cfg : RingConfig) (io : HeaderIo) (s : Sys) (pc : HeaderPc) :
    HeaderFlow s.ri pc (headerStep cfg io s pc).1.ri (headerStep cfg io s pc).2 := by
  cases pc with
  | enter =>
      simp only [headerStep]
      split
      · exact .alreadyOpen
      · exact .enter
  | opening zap =>
      simp only [headerStep, openFile_toShm]
      split
      · exact .opened
      · exact .failed
  | diskStore f => exact .diskStore
  | openLoad => exact .openLoad
  | openStore f => exact .openStore
  | outStore f => exact .outStore

theorem dataStep_flow {cfg : RingConfig} {io : DataIo} {doFlush : Bool} {s : Sys} {pc : DataPc}
    {r : Sys × DataNext} (hr : dataStep cfg io doFlush s pc = some r) :
    DataFlow cfg doFlush s.ri pc r.1.ri r.2 := by
  cases pc with
  | off =>
      simp only [dataStep] at hr
      split at hr <;> cases hr
      cases doFlush with
      | true => exact .active rfl
      | false => exact .inactive rfl
  | slot off =>
      cases hr
      exact .slot
  | wrap off n =>
      cases hr
      simp only [wrapSeek_toShm]
      exact .wrap
  | write off n upd =>
      cases hr
      simp only [writeBuffer_ri]
      split_ifs
      · exact .limit
      · exact .noLimit
      · exact .noLimit
  | limClose upd =>
      cases hr
      dsimp only
      split <;> rename_i h
      · exact .closePending h
      · exact .noClosePending (Bool.eq_false_iff.2 h)
  | limWrap upd =>
      simp only [dataStep, Option.some.injEq] at hr
      split at hr <;> cases hr
      · exact .wraps
      · exact .noWrap
  | limZap upd =>
      cases hr
      dsimp only
      split
      · exact .zaps
      · exact .stops
  | stopLoad upd =>
      cases hr
      exact .stopLoad
  | stopStore upd f =>
      cases hr
      exact .stopStore
  | takeLost upd =>
      cases hr
      simp only [updateHeader_toShm]
      exact .takeLost
  | takeFlush lost =>
      cases hr
      dsimp only
      split <;> rename_i h
      · exact .loss h
      · exact .noLoss (not_lt.1 fun h' ↦ h (.inl h')) (not_not.1 fun h' ↦ h (.inr h'))
  | report lost => cases hr

/-- **What a step of the daemon does to `ring_info`, and where it leads.** -/
theorem daemonStep_flow {cfg : RingConfig} {io : PassIo} {s : Sys} {pc : DaemonPc}
    {r : Sys × DaemonPc} (hr : daemonStep cfg io s pc = some r) :
    Flow cfg s.ri pc r.1.ri r.2 := by
  cases pc with
  | idle => cases hr
  | testClose =>
      cases hr
      dsimp only
      split <;> rename_i h
      · exact .close h
      · exact .noClose (Bool.eq_false_iff.2 h)
  | testOpen =>
      cases hr
      dsimp only
      split <;> rename_i h
      · exact .open h
      · exact .noOpen (Bool.eq_false_iff.2 h)
  | testDisk =>
      cases hr
      dsimp only
      split <;> rename_i h
      · exact .disk h
      · exact .noDisk (Bool.eq_false_iff.2 h)
  | testFlush c =>
      cases hr
      dsimp only
      split <;> rename_i h
      · exact .pending h
      · exact .noPending (not_not.1 h)
  | testDoFlush c =>
      cases hr
      dsimp only
      split <;> rename_i h
      · exact .flush h
      · cases c with
        | true => exact .noFlushClosing (Bool.eq_false_iff.2 h)
        | false => exact .noFlush (Bool.eq_false_iff.2 h)
  | clearLoad c =>
      cases hr
      exact .clearLoad
  | clearStore c f =>
      cases hr
      cases c with
      | true => exact .clearStoreClosing
      | false => exact .clearStore
  | closeFile =>
      cases hr
      dsimp only [Rbtrace.closeFile]
      split
      · exact .closeFile
      · exact .closedFile
  | closeLoad =>
      cases hr
      exact .closeLoad
  | closeStore f =>
      cases hr
      exact .closeStore
  | header pc =>
      cases hr
      have h := headerStep_flow cfg io.header s pc
      dsimp only
      split <;> rename_i hnext <;> rw [hnext] at h
      · exact .header h
      · exact .headerReturn h
  | data w pc =>
      obtain ⟨⟨s', n⟩, hd, rfl⟩ := Option.map_eq_some_iff.1 hr
      have h := dataStep_flow hd
      cases n with
      | goto pc' => exact .data h
      | rollover upd => exact .dataRollover h
      | finished => exact .dataReturn h
  | rollover w upd pc =>
      cases hr
      have h := headerStep_flow cfg (io.data w).reopen s pc
      dsimp only
      split <;> rename_i hnext <;> rw [hnext] at h
      · exact .rollover h
      · exact .rolloverReturn h

/-- The daemon leaves the buffers and the slot alone, and takes counters or leaves them. -/
theorem Flow.ring {cfg : RingConfig} {ri ri' : RingInfo} {pc pc' : DaemonPc}
    (hf : Flow cfg ri pc ri' pc') :
    ri'.riCirOff = ri.riCirOff ∧ ri'.riAltOff = ri.riAltOff ∧ ri'.riSlot = ri.riSlot ∧
      (ri'.riFlush = ri.riFlush ∨ ri'.riFlush = 0) ∧ (ri'.riLost = ri.riLost ∨ ri'.riLost = 0) := by
  cases hf with
  | header hf | headerReturn hf | rollover hf | rolloverReturn hf =>
      cases hf <;> simp [RingInfo.setFlags]
  | data hf | dataRollover hf | dataReturn hf => cases hf <;> simp [RingInfo.setFlags]
  | _ => simp [RingInfo.setFlags]

end Rbtrace
