import Rbtrace.Lib.Machine
import Rbtrace.Backing
import Rbtrace.RingSpec

/-!
# The system in whole steps

One ring, its daemon and its users, as a machine whose steps are whole `rbtrace()`
calls, whole passes of the flush thread, and whole control operations, in any order.

In every state such a run reaches the ring is in order (`RingOk.step`), whatever the
I/O does.  The flags are the subject of `Rbtrace.Control`.
-/

namespace Rbtrace

/-! ## The machine -/

/-- One whole step. -/
inductive Event where
  /-- A call of `rbtrace()`, and what it and its nested report read from the system. -/
  | call (st : Nat → Stamp) (a : TraceArgs)
  /-- A pass of `rbtrace_thread_fn`. -/
  | pass (io : PassIo)
  /-- A control operation. -/
  | ctrl (op : RbtraceOp)

/-- The state after one event; `none` if the daemon crashes. -/
def Sys.step (cfg : RingConfig) (s : Sys) : Event → Option Sys
  | .call st a => some { s with toShm := (rbtrace cfg st s.toShm a).1 }
  | .pass io => rbtraceThreadFn cfg io s
  | .ctrl op => some { s with toShm := (rbtraceCtrl op s.toShm).1 }

/-- The system of a ring. -/
def system (cfg : RingConfig) : Machine Sys Event := ⟨Sys.step cfg⟩

/-! An environment in which every system call succeeds at once, at the epoch, in the
first process. -/

/-- The clock at zero. -/
def Stamp.epoch : Stamp := ⟨⟨0, 0⟩, 0, 0⟩

/-- Opening succeeds. -/
def HeaderIo.smooth : HeaderIo := ⟨⟨0, 0⟩, ⟨0, 1, 0, 0, 0, 0, []⟩, none, []⟩

/-- Writing succeeds. -/
def DataIo.smooth : DataIo := ⟨[], .smooth, [], fun _ ↦ .epoch⟩

/-- A pass without trouble. -/
def PassIo.smooth : PassIo := ⟨.smooth, .smooth, .smooth⟩

/-- A call with trace ID `n`. -/
def Event.trace (n : Nat) : Event := .call (fun _ ↦ .epoch) ⟨BitVec.ofNat 8 n, 0, 0, 0, 0⟩

/-- The entry a call stores, if it returns 0. -/
def accepted (cfg : RingConfig) (s : Sys) : Event → List RbtraceEntry
  | .call st a => if (rbtrace cfg st s.toShm a).2 = 0 then [entryOf a (st 0)] else []
  | _ => []

/-! ## What a call leaves alone -/

/-- The part of shared memory that only the daemon and its clients change. -/
structure ControlWords where
  riFlags : RiFlags
  riFilePath : CStr
  riTflags : BitVec 64
  fsize : BitVec 64

/-- The control words of shared memory. -/
def Shm.controlWords (sh : Shm) : ControlWords :=
  ⟨sh.ri.riFlags, sh.ri.riFilePath, sh.ri.riTflags, sh.fsize⟩

@[simp] theorem claimSlot_controlWords (st : Stamp) (sh : Shm) (slot : Nat) :
    (claimSlot st sh slot).1.controlWords = sh.controlWords := rfl

@[simp] theorem fetchSlot_controlWords (sh : Shm) :
    (fetchSlot sh).1.controlWords = sh.controlWords := rfl

section

variable {report : Shm → Int → Shm}
  (hreport : ∀ sh lost, (report sh lost).controlWords = sh.controlWords)

include hreport in
private theorem ringwrapSlot_controlWords (cfg : RingConfig) (st : Stamp) (sh : Shm) (slot : Nat) :
    (ringwrapSlot report cfg st sh slot).1.controlWords = sh.controlWords := by
  simp only [ringwrapSlot]
  split_ifs
  all_goals first | rfl | exact hreport _ _

include hreport in
private theorem rbtraceWith_controlWords (cfg : RingConfig) (st : Stamp) (sh : Shm)
    (a : TraceArgs) :
    (rbtraceWith report cfg st sh a).1.controlWords = sh.controlWords := by
  have hwrap : (ringwrap report cfg st sh).1.controlWords = sh.controlWords := by
    simp only [ringwrap]
    split
    · rw [claimSlot_controlWords, fetchSlot_controlWords]
    · rw [ringwrapSlot_controlWords hreport, fetchSlot_controlWords]
  rw [← hwrap, rbtraceWith]
  rcases ringwrap report cfg st sh with ⟨sh', _ | re⟩ <;> rfl

end

/-- A call does not touch the control words. -/
theorem rbtrace_controlWords (cfg : RingConfig) (st : Nat → Stamp) (sh : Shm) (a : TraceArgs) :
    (rbtrace cfg st sh a).1.controlWords = sh.controlWords := by
  have h₀ : ∀ sh lost, (rbtraceAt 0 cfg (fun i ↦ st (i + 1)) sh (lostArgs lost)).1.controlWords =
      sh.controlWords := fun sh lost ↦
    rbtraceWith_controlWords (fun _ _ ↦ rfl) cfg _ sh _
  exact rbtraceWith_controlWords h₀ cfg _ sh a

@[simp] theorem rbtrace_riFlags (cfg : RingConfig) (st : Nat → Stamp) (sh : Shm) (a : TraceArgs) :
    (rbtrace cfg st sh a).1.ri.riFlags = sh.ri.riFlags :=
  congrArg ControlWords.riFlags (rbtrace_controlWords cfg st sh a)

@[simp] theorem rbtrace_riFilePath (cfg : RingConfig) (st : Nat → Stamp) (sh : Shm)
    (a : TraceArgs) : (rbtrace cfg st sh a).1.ri.riFilePath = sh.ri.riFilePath :=
  congrArg ControlWords.riFilePath (rbtrace_controlWords cfg st sh a)

@[simp] theorem rbtrace_fsize (cfg : RingConfig) (st : Nat → Stamp) (sh : Shm) (a : TraceArgs) :
    (rbtrace cfg st sh a).1.fsize = sh.fsize :=
  congrArg ControlWords.fsize (rbtrace_controlWords cfg st sh a)

/-! ## Rings stay in order -/

/-- The part of shared memory that calls work on, less the records. -/
structure RingWords where
  riCirOff : Nat
  riAltOff : Nat
  riSlot : Int
  riFlush : Int
  riLost : Int

/-- The ring words of shared memory. -/
def Shm.ringWords (sh : Shm) : RingWords :=
  ⟨sh.ri.riCirOff, sh.ri.riAltOff, sh.ri.riSlot, sh.ri.riFlush, sh.ri.riLost⟩

/-- Only the ring words matter to `RingOk`. -/
theorem RingOk.of_ringWords {cfg : RingConfig} {off : Nat} {sh sh' : Shm} (h : RingOk cfg off sh)
    (hw : sh'.ringWords = sh.ringWords) : RingOk cfg off sh' := by
  obtain ⟨hc, ha, hs, hf, hl⟩ := RingWords.mk.injEq .. ▸ hw
  exact ⟨hs ▸ h.slot_ge, hs ▸ h.slot_lt, hl ▸ h.lost_eq, hf ▸ h.flush_ge, hf ▸ h.flush_lt,
    hc ▸ ha ▸ h.buffers⟩

section

variable {cfg : RingConfig} {off : Nat} {s t : Sys}

/-- Opening a file does not touch shared memory. -/
@[simp] theorem openFile_toShm (cfg : RingConfig) (zap : Bool) (io : HeaderIo) (s : Sys) :
    (openFile cfg zap io s).1.toShm = s.toShm := by
  unfold openFile
  cases io.openError with
  | some e => rfl
  | none =>
      dsimp only
      split <;> rfl

/-- `rbtrace_write_header` does not touch the ring. -/
theorem rbtraceWriteHeader_ringWords (cfg : RingConfig) (io : HeaderIo) (s : Sys) :
    (rbtraceWriteHeader cfg io s).toShm.ringWords = s.toShm.ringWords := by
  have hopen := congrArg Shm.ringWords (openFile_toShm cfg s.ri.riFlags.doZap io s)
  unfold rbtraceWriteHeader
  dsimp only
  split
  · rfl
  · split <;> exact hopen

theorem limitReached_ringWords (cfg : RingConfig) (io : DataIo) (s : Sys) (upd : Bool) :
    (limitReached cfg io s upd).1.toShm.ringWords = s.toShm.ringWords := by
  unfold limitReached
  split_ifs
  · rfl
  · rfl
  · exact rbtraceWriteHeader_ringWords cfg io.reopen (closeFd s)
  · rfl
  · rfl

theorem updateHeader_toShm (outs : List PwriteOutcome) (upd : Bool) (s : Sys) :
    (updateHeader outs upd s).toShm = s.toShm := by
  unfold updateHeader
  split <;> rfl

theorem writeBuffer_ri (outs : List PwriteOutcome) (off n : Nat) (s : Sys) :
    (writeBuffer outs off n s).1.ri = s.ri := by
  unfold writeBuffer
  dsimp only
  split <;> rfl

theorem wrapSeek_toShm (doWrap : Bool) (size : Nat) (s : Sys) :
    (wrapSeek doWrap size s).1.toShm = s.toShm := by
  unfold wrapSeek
  split <;> rfl

/-- Taking the counters leaves the ring in order, report included. -/
theorem RingOk.takeCounters (hpos : 0 < cfg.rcSize) (hlt : cfg.rcSize < 2 ^ 31) (io : DataIo)
    (h : RingOk cfg off s.toShm) : RingOk cfg off (takeCounters cfg io s).toShm := by
  have h' : RingOk cfg off { s.toShm with ri := { s.ri with riLost := 0, riFlush := 0 } } :=
    ⟨h.slot_ge, h.slot_lt, rfl, by simp, by simp, h.buffers⟩
  unfold Rbtrace.takeCounters
  dsimp only
  split
  · exact (h'.rbtrace hpos hlt io.stamps _).1
  · exact h'

/-- Writing a buffer leaves the ring in order, however the I/O goes. -/
theorem RingOk.rbtraceWriteData (hpos : 0 < cfg.rcSize) (hlt : cfg.rcSize < 2 ^ 31)
    {io : DataIo} {doFlush : Bool} (h : RingOk cfg off s.toShm)
    (ht : rbtraceWriteData cfg io doFlush s = some t) : RingOk cfg off t.toShm := by
  unfold Rbtrace.rbtraceWriteData at ht
  dsimp only at ht
  have hw : ∀ n o m, (writeBuffer io.data o m (wrapSeek s.ri.riFlags.doWrap n s).1).1.ringWords =
      s.toShm.ringWords := fun n o m ↦ by
    have h₁ := writeBuffer_ri io.data o m (wrapSeek s.ri.riFlags.doWrap n s).1
    have h₂ := wrapSeek_toShm s.ri.riFlags.doWrap n s
    simp only [Shm.ringWords, h₁, h₂]
  split_ifs at ht
  · cases ht
    refine (h.of_ringWords ?_).takeCounters hpos hlt io
    rw [updateHeader_toShm, limitReached_ringWords]
    exact hw _ _ _
  · cases ht
    exact (h.of_ringWords (hw _ _ _)).takeCounters hpos hlt io

/-- A pass leaves the ring in order. -/
theorem RingOk.rbtraceThreadFn (hpos : 0 < cfg.rcSize) (hlt : cfg.rcSize < 2 ^ 31)
    {io : PassIo} (h : RingOk cfg off s.toShm) (ht : rbtraceThreadFn cfg io s = some t) :
    RingOk cfg off t.toShm := by
  have hinactive : ∀ {t}, flushInactive cfg io.inactive s = some t → RingOk cfg off t.toShm := by
    intro t ht
    unfold flushInactive at ht
    split at ht
    · exact h.rbtraceWriteData hpos hlt ht
    · cases ht
      exact h
  have hactive : ∀ {s t}, RingOk cfg off s.toShm → flushActive cfg io.active s = some t →
      RingOk cfg off t.toShm := by
    intro s t h ht
    unfold flushActive at ht
    split at ht
    · obtain ⟨u, hu, rfl⟩ := Option.map_eq_some_iff.1 ht
      exact (h.rbtraceWriteData hpos hlt hu).of_ringWords rfl
    · cases ht
      exact h
  unfold Rbtrace.rbtraceThreadFn at ht
  split_ifs at ht
  · obtain ⟨u, hu, ht⟩ := Option.bind_eq_some_iff.1 ht
    obtain ⟨v, hv, rfl⟩ := Option.map_eq_some_iff.1 ht
    refine (hactive (hinactive hu) hv).of_ringWords ?_
    unfold closeFile
    split <;> rfl
  · cases ht
    exact h.of_ringWords (rbtraceWriteHeader_ringWords cfg io.header s)
  · obtain ⟨u, hu, ht⟩ := Option.bind_eq_some_iff.1 ht
    exact hactive (hinactive hu) ht
  · cases ht
    exact h

/-- A control operation leaves the ring in order. -/
theorem RingOk.rbtraceCtrl {sh : Shm} (h : RingOk cfg off sh) (op : RbtraceOp) :
    RingOk cfg off (rbtraceCtrl op sh).1 := by
  have hsize : (0 : Int) ≤ cfg.rcSize := Int.natCast_nonneg _
  have hstep := rbtraceCtrl_step op sh
  generalize Rbtrace.rbtraceCtrl op sh = r at hstep ⊢
  cases hstep with
  | opens path hs => exact ⟨le_rfl, by simp only; omega, rfl, by simp, by simp, h.buffers⟩
  | _ => exact h.of_ringWords rfl

/-- **Whole steps keep the ring in order.** -/
theorem RingOk.step (hpos : 0 < cfg.rcSize) (hlt : cfg.rcSize < 2 ^ 31) {e : Event}
    (h : RingOk cfg off s.toShm) (ht : (system cfg).step s e = some t) :
    RingOk cfg off t.toShm := by
  cases e with
  | call st a =>
      cases ht
      exact (h.rbtrace hpos hlt st a).1
  | pass io => exact h.rbtraceThreadFn hpos hlt ht
  | ctrl op =>
      cases ht
      exact h.rbtraceCtrl op

end

/-- The ring is in order when the daemon starts. -/
theorem RingOk.rbtraceDaemonInit {cfg : RingConfig} (hpos : 0 < cfg.rcSize) (disk : Disk) :
    RingOk cfg 0 (rbtraceDaemonInit cfg disk).toShm :=
  ⟨show (-1 : Int) ≤ 0 by decide, Int.natCast_pos.2 hpos, rfl, show (-2 ^ 31 : Int) ≤ 0 by decide,
    show (0 : Int) < 2 ^ 31 by decide, .inl ⟨rfl, rfl⟩⟩

end Rbtrace
