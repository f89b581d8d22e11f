import Rbtrace.Writer

/-!
# A plain session, from open to close

Tracing into a new file, with neither wrap nor zap mode.  As long as no buffer is
discarded and the file stays below the limit, the file followed by the two buffers is
at every moment the list of records accepted so far (`Recording`, `Opening`); the
closing pass moves both buffers to the file, and the reader gives the list back.
-/

namespace Rbtrace

open CInt

variable {cfg : ValidRingConfig} {path : CStr} {limit : Nat} {s t : Sys}
  {written acc : List RbtraceEntry}

/-! ## The states of a session -/

/-- What holds throughout a plain session. -/
structure Plain (cfg : ValidRingConfig) (path : CStr) (limit : Nat) (s : Sys) : Prop where
  ring : RingOk cfg 0 s.toShm
  flags : FlagsOk s.ctl
  noWrap : s.ri.riFlags.doWrap = false
  noZap : s.ri.riFlags.doZap = false
  path_eq : s.ri.riFilePath = path
  fsize_eq : s.fsize.toNat = limit
  /-- No buffer has been discarded. -/
  flush : s.ri.riFlush = 0 ∨ s.ri.riFlush = 1

/-- The open has been requested, and the daemon has not got to it. -/
structure Opening (cfg : ValidRingConfig) (path : CStr) (limit : Nat) (s : Sys) : Prop
    extends Plain cfg path limit s where
  doOpen : s.ri.riFlags.doOpen = true
  doClose : s.ri.riFlags.doClose = false
  new : s.disk path = none

/-- The file is open and holds the records `written`. -/
structure Recording (cfg : ValidRingConfig) (path : CStr) (limit : Nat) (s : Sys)
    (written : List RbtraceEntry) : Prop extends Plain cfg path limit s where
  doOpen : s.ri.riFlags.doOpen = false
  fd : s.rfd.fd = some path
  file : s.disk path = some (traceFile s.hdr written)
  wrapPos : s.hdr.hdr.wrapPos = 0
  nrRecords : s.hdr.hdr.nrRecords = cfg.rcSize
  seek : s.rfd.seek = RBTRACE_FHEADER_SIZE + sizeofEntry * written.length

/-- A session that has accepted the records `acc`. -/
def InSession (cfg : ValidRingConfig) (path : CStr) (limit : Nat) (s : Sys)
    (acc : List RbtraceEntry) : Prop :=
  (Opening cfg path limit s ∧ acc = (s.view cfg).stored) ∨
    ∃ written, Recording cfg path limit s written ∧ acc = written ++ (s.view cfg).stored

/-! ## Calls -/

/-- A call that reaches the end of the buffer finds nothing pending. -/
def NoDiscard (cfg : RingConfig) (s : Sys) : Event → Prop
  | .call _ _ => cfg.rcSize ≤ u32 (s.ri.riSlot + 1) → s.ri.riFlush = 0
  | _ => True

/-- Such a call appends one record to what the buffers hold. -/
theorem Plain.call (h : Plain cfg path limit s) (hN : 0 < cfg.rcSize) (st : Nat → Stamp)
    (a : TraceArgs) (hd : NoDiscard cfg s (.call st a)) :
    (rbtrace cfg st s.toShm a).2 = 0 ∧
      ((rbtrace cfg st s.toShm a).1.view cfg).stored = (s.view cfg).stored ++ [entryOf a (st 0)] ∧
      ((rbtrace cfg st s.toShm a).1.ri.riFlush = 0 ∨ (rbtrace cfg st s.toShm a).1.ri.riFlush = 1) := by
  have hlt : cfg.rcSize < 2 ^ 31 := cfg.rcSize_lt_int
  have hge := h.ring.slot_ge
  have hlen := length_view_active h.ring
  have hfull : s.ri.riSlot + 1 = cfg.rcSize → s.ri.riFlush = 0 := fun he ↦ hd (by
    have := u32_of_range (x := s.ri.riSlot + 1) (by omega) (by omega)
    omega)
  have hf := h.flush
  refine ⟨(h.ring.rbtrace hN hlt st a).2, ?_, ?_⟩
  · rw [view_rbtrace h.ring hN hlt (by omega) (by omega)]
    refine DoubleBuffer.stored_push ?_ hN _
    unfold DoubleBuffer.discards
    split
    · rfl
    · have hz := hfull (by have := h.ring.slot_lt; omega)
      rw [show (s.view cfg).pending = none from if_pos hz]
  · obtain ⟨hs, he⟩ | ⟨hs, hz, he⟩ | ⟨hs, hz, he⟩ := rbtrace_cases h.ring hN hlt st a
    · rw [he]
      exact hf
    · rw [he]
      exact .inr rfl
    · exact absurd (hfull hs) hz

/-- A call leaves a plain session a plain session. -/
theorem Plain.of_call (h : Plain cfg path limit s) (hN : 0 < cfg.rcSize) (st : Nat → Stamp)
    (a : TraceArgs) (hd : NoDiscard cfg s (.call st a)) :
    Plain cfg path limit { s with toShm := (rbtrace cfg st s.toShm a).1 } := by
  have hflags := rbtrace_riFlags cfg st s.toShm a
  refine ⟨(h.ring.rbtrace hN cfg.rcSize_lt_int st a).1, ?_, ?_, ?_, ?_, ?_,
    (h.call hN st a hd).2.2⟩
  · exact @FlagsOk.step cfg s _ (.call st a) h.flags rfl
  · exact (congrArg RiFlags.doWrap hflags).trans h.noWrap
  · exact (congrArg RiFlags.doZap hflags).trans h.noZap
  · exact (rbtrace_riFilePath cfg st s.toShm a).trans h.path_eq
  · exact (congrArg BitVec.toNat (rbtrace_fsize cfg st s.toShm a)).trans h.fsize_eq

/-- **A call in a session** accepts one more record. -/
theorem InSession.call (h : InSession cfg path limit s acc) (hN : 0 < cfg.rcSize) (st : Nat → Stamp)
    (a : TraceArgs) (hd : NoDiscard cfg s (.call st a)) :
    InSession cfg path limit { s with toShm := (rbtrace cfg st s.toShm a).1 }
      (acc ++ accepted cfg s (.call st a)) := by
  have hflags := rbtrace_riFlags cfg st s.toShm a
  rcases h with ⟨h, rfl⟩ | ⟨written, h, rfl⟩
  · obtain ⟨hret, hstored, -⟩ := h.toPlain.call hN st a hd
    refine .inl ⟨⟨h.toPlain.of_call hN st a hd, ?_, ?_, h.new⟩, ?_⟩
    · exact (congrArg RiFlags.doOpen hflags).trans h.doOpen
    · exact (congrArg RiFlags.doClose hflags).trans h.doClose
    · rw [accepted, if_pos hret]
      exact hstored.symm
  · obtain ⟨hret, hstored, -⟩ := h.toPlain.call hN st a hd
    refine .inr ⟨written, ⟨h.toPlain.of_call hN st a hd, ?_, h.fd, h.file, h.wrapPos,
      h.nrRecords, h.seek⟩, ?_⟩
    · exact (congrArg RiFlags.doOpen hflags).trans h.doOpen
    · rw [accepted, if_pos hret, List.append_assoc]
      exact congrArg (written ++ ·) hstored.symm

/-! ## Passes -/

/-- Without a wrap position the next write goes to the end. -/
theorem Recording.writePos (h : Recording cfg path limit s written) :
    s.writePos = RBTRACE_FHEADER_SIZE + sizeofEntry * written.length := by
  rw [Sys.writePos, if_neg (fun hw ↦ hw.1 h.wrapPos), h.seek]

theorem Recording.nextWrapPos (h : Recording cfg path limit s written) (n : Nat) :
    s.nextWrapPos n = 0 := by
  simp only [Sys.nextWrapPos, h.noWrap, Bool.false_eq_true, and_false, if_false, h.wrapPos]

/-- The other buffer does not see the clearing of a written one. -/
theorem RingOk.activeRecords_clear {off : Nat} {sh : Shm} (h : RingOk cfg off sh) :
    bufRecords (clearRecords sh.reBase sh.ri.riAltOff cfg.rcSize) sh.ri.riCirOff
      (sh.ri.riSlot + 1).toNat = sh.activeRecords := by
  have hb := h.buffers
  have hs := h.slot_lt
  exact bufRecords_clearRecords_of_disjoint (by omega)

theorem Recording.flags_open (h : Recording cfg path limit s written) :
    FlagsOk ⟨s.ri.riFlags, some path⟩ := by
  rw [← h.fd]
  exact h.flags

/-- **Writing the inactive buffer** moves what is pending to the file. -/
theorem Recording.flushInactive {io : DataIo} (h : Recording cfg path limit s written) (hio : io.Ok)
    (hlimit : limit ≤ RBTRACE_FHEADER_SIZE + sizeofEntry * (written.length + cfg.rcSize) →
      s.ri.riFlush = 0 ∨ s.ri.riFlags.doClose) :
    ∃ t, flushInactive cfg io s = some t ∧
      Recording cfg path limit t (written ++ (s.view cfg).pending.getD []) ∧
      t.view cfg = (s.view cfg).drain ∧ t.ri.riFlush = 0 ∧ t.ri.riFlags = s.ri.riFlags := by
  rcases h.flush with hz | hz
  · have hv : s.view cfg = (s.view cfg).drain := by
      simp only [Shm.view, DoubleBuffer.drain, hz, if_true]
      rfl
    have hp : (s.view cfg).pending = none := if_pos hz
    refine ⟨s, if_neg (not_not.2 hz), ?_, hv, hz, rfl⟩
    rw [hp, Option.getD_none, List.append_nil]
    exact h
  · have hne : s.ri.riFlush ≠ 0 := by omega
    have hp : (s.view cfg).pending = some (s.altRecords cfg) := if_neg hne
    have hwrite := rbtraceWriteData_of_ok hio h.fd h.file (selectBuffer_inactive cfg s) h.writePos
      le_rfl (fun hl ↦ .inl ((hlimit (by rw [h.writePos, h.fsize_eq] at hl; linarith)).resolve_left hne))
    rw [List.splice_length,
      takeCounters_of_le (s := s.afterWrite _ _ _ _) io hz.le h.ring.lost_eq] at hwrite
    refine ⟨_, (if_pos hne).trans hwrite, ?_, ?_, rfl, rfl⟩
    · rw [hp, Option.getD_some]
      refine ⟨⟨⟨h.ring.slot_ge, h.ring.slot_lt, rfl, by simp, by simp, h.ring.buffers⟩, ?_,
        h.noWrap, h.noZap, h.path_eq, h.fsize_eq, .inl rfl⟩, h.doOpen, rfl, ?_, ?_, h.nrRecords, ?_⟩
      · exact h.flags_open
      · exact Function.update_self _ _ _
      · exact h.nextWrapPos _
      · simp only [Sys.afterWrite, h.writePos, List.length_append, Shm.altRecords,
          length_bufRecords]
        ring
    · simp only [Shm.view, Shm.activeRecords, DoubleBuffer.drain, Sys.afterWrite, if_true,
        DoubleBuffer.mk.injEq, true_and]
      exact ⟨h.ring.activeRecords_clear, rfl⟩

/-- **Writing the active buffer** moves the rest to the file. -/
theorem Recording.flushActive {io : DataIo} (h : Recording cfg path limit s written) (hio : io.Ok)
    (hz : s.ri.riFlush = 0) (hc : s.ri.riFlags.doClose = true) :
    ∃ t, flushActive cfg io s = some t ∧
      t.disk path = some (traceFile t.hdr (written ++ s.activeRecords)) ∧
      t.hdr.hdr.wrapPos = 0 ∧ t.hdr.hdr.nrRecords = cfg.rcSize := by
  have hwrite := rbtraceWriteData_of_ok hio h.fd h.file (selectBuffer_active h.ring) h.writePos
    le_rfl (fun _ ↦ .inl hc)
  rw [List.splice_length] at hwrite
  have hflush : s.ri.riFlags.doFlush = true := h.flags.flush_eq.trans hc
  rw [takeCounters_of_le (s := s.afterWrite _ _ _ _) io (hz.le.trans (by decide)) h.ring.lost_eq]
    at hwrite
  refine ⟨_, (if_pos hflush).trans (congrArg (Option.map _) hwrite), ?_, h.nextWrapPos _,
    h.nrRecords⟩
  exact Function.update_self _ _ _

/-- **The closing pass** leaves the file with everything in it. -/
theorem Recording.close {io : PassIo} (h : Recording cfg path limit s written) (hio : io.Ok)
    (hc : s.ri.riFlags.doClose = true) :
    ∃ t prf, rbtraceThreadFn cfg io s = some t ∧
      t.disk path = some (traceFile prf (written ++ (s.view cfg).stored)) ∧
      prf.hdr.wrapPos = 0 ∧ prf.hdr.nrRecords = cfg.rcSize := by
  obtain ⟨u, hu, hrec, hview, hz, hflags⟩ := h.flushInactive hio.inactive fun _ ↦ .inr hc
  obtain ⟨v, hv, hfile, hwrap, hnr⟩ := hrec.flushActive hio.active hz (hflags ▸ hc)
  have hactive : u.activeRecords = s.activeRecords := congrArg DoubleBuffer.active hview
  obtain ⟨t, ht, hdisk⟩ := rbtraceThreadFn_close hc hu hv
  refine ⟨t, v.hdr, ht, ?_, hwrap, hnr⟩
  rw [hdisk, hfile, hactive, List.append_assoc]
  rfl

/-- If all that is stored fits below the limit, so does what is pending. -/
theorem stored_fits
    (h : RBTRACE_FHEADER_SIZE + sizeofEntry * (written ++ (s.view cfg).stored).length < limit)
    (hflush : s.ri.riFlush ≠ 0) :
    RBTRACE_FHEADER_SIZE + sizeofEntry * (written.length + cfg.rcSize) < limit := by
  have hp : (s.view cfg).pending = some (s.altRecords cfg) := if_neg hflush
  have hlen : written.length + cfg.rcSize ≤ (written ++ (s.view cfg).stored).length := by
    simp only [DoubleBuffer.stored, hp, List.length_append, Option.getD_some, Shm.altRecords,
      length_bufRecords]
    omega
  have hmul := Nat.mul_le_mul_left sizeofEntry hlen
  omega

/-- A normal pass. -/
theorem Recording.pass {io : PassIo} (h : Recording cfg path limit s written) (hio : io.Ok)
    (hc : s.ri.riFlags.doClose = false)
    (hlimit : RBTRACE_FHEADER_SIZE + sizeofEntry * (written ++ (s.view cfg).stored).length <
      limit) :
    ∃ t written', rbtraceThreadFn cfg io s = some t ∧ Recording cfg path limit t written' ∧
      written' ++ (t.view cfg).stored = written ++ (s.view cfg).stored ∧
      (t.view cfg).pending = none := by
  have hdisk : s.ri.riFlags.doDisk = true :=
    h.flags.doDisk_of_fd (h.fd.trans_ne (Option.some_ne_none _)) hc
  have hroom : limit ≤ RBTRACE_FHEADER_SIZE + sizeofEntry * (written.length + cfg.rcSize) →
      s.ri.riFlush = 0 ∨ s.ri.riFlags.doClose := by
    intro hl
    by_contra hne
    exact absurd (stored_fits hlimit (not_or.1 hne).1) (not_lt.2 hl)
  obtain ⟨t, ht, hrec, hview, hz, hflags⟩ := h.flushInactive hio.inactive hroom
  have hnf : ¬ t.ri.riFlags.doFlush = true := by
    rw [hflags, show s.ri.riFlags.doFlush = s.ri.riFlags.doClose from h.flags.flush_eq, hc]
    decide
  refine ⟨t, _, ?_, hrec, ?_, by rw [hview]; rfl⟩
  · rw [rbtraceThreadFn, if_neg (by rw [hc]; decide), if_neg (by rw [h.doOpen]; decide),
      if_pos hdisk, ht, Option.bind_some, Rbtrace.flushActive, if_neg hnf]
  · rw [hview, List.append_assoc]
    rfl

/-- The pass that opens the file. -/
theorem Opening.pass {io : PassIo} (h : Opening cfg path limit s) (hio : io.Ok) :
    ∃ t, rbtraceThreadFn cfg io s = some t ∧ Recording cfg path limit t [] ∧
      t.view cfg = s.view cfg := by
  have hopen := @rbtraceThreadFn_open cfg s path io hio h.flags h.noZap h.doClose h.doOpen h.path_eq
    h.new
  have hflags : FlagsOk ⟨{ s.ri.riFlags with doDisk := true, doOpen := false }, some path⟩ :=
    ⟨h.flags.flush_eq, fun _ ↦ h.doClose, by simp, h.flags.zap_of_wrap, fun _ ↦ .inl rfl⟩
  exact ⟨_, hopen, ⟨⟨h.ring.of_ringWords rfl, hflags, h.noWrap, h.noZap, h.path_eq, h.fsize_eq,
    h.flush⟩, rfl, rfl, Function.update_self _ _ _, rfl, rfl, rfl⟩, rfl⟩

/-! ## Whole sessions -/

/-- A step that is not a control operation. -/
def Event.IsWork : Event → Prop
  | .ctrl _ => False
  | _ => True

/-- The number of bytes of a plain trace file with these records. -/
def plainFileSize (es : List RbtraceEntry) : Nat := RBTRACE_FHEADER_SIZE + sizeofEntry * es.length

theorem plainFileSize_le_append (es es' : List RbtraceEntry) :
    plainFileSize es ≤ plainFileSize (es ++ es') := by
  unfold plainFileSize
  rw [List.length_append, Nat.mul_add]
  omega

theorem InSession.flags (h : InSession cfg path limit s acc) : FlagsOk s.ctl := by
  rcases h with ⟨h, -⟩ | ⟨written, h, -⟩ <;> exact h.flags

/-- **A pass in a session** accepts nothing and loses nothing. -/
theorem InSession.pass {io : PassIo} (h : InSession cfg path limit s acc) (hio : io.Ok)
    (hc : s.ri.riFlags.doClose = false) (hsize : plainFileSize acc < limit) :
    ∃ t, rbtraceThreadFn cfg io s = some t ∧ InSession cfg path limit t acc := by
  rcases h with ⟨h, rfl⟩ | ⟨written, h, rfl⟩
  · obtain ⟨t, ht, hrec, hview⟩ := h.pass hio
    exact ⟨t, ht, .inr ⟨[], hrec, by rw [hview, List.nil_append]⟩⟩
  · obtain ⟨t, written', ht, hrec, hacc, -⟩ := h.pass hio hc hsize
    exact ⟨t, ht, .inr ⟨written', hrec, hacc.symm⟩⟩

/-- One step while the file is being opened or is open. -/
theorem InSession.step {e : Event} (hN : 0 < cfg.rcSize) (hwork : e.IsWork) (hio : e.IoOk)
    (hd : NoDiscard cfg s e) (hc : s.ri.riFlags.doClose = false)
    (h : InSession cfg path limit s acc) (hsize : plainFileSize acc < limit)
    (ht : (system cfg).step s e = some t) :
    InSession cfg path limit t (acc ++ accepted cfg s e) := by
  cases e with
  | call st a =>
      cases ht
      exact h.call hN st a hd
  | pass io =>
      obtain ⟨t', ht', h'⟩ := h.pass hio hc hsize
      obtain rfl : t' = t := Option.some.inj (ht'.symm.trans ht)
      rwa [show accepted cfg s (.pass io) = [] from rfl, List.append_nil]
  | ctrl op => exact absurd hwork id

/-- The doings of a session: calls and passes, no I/O failure, nothing discarded. -/
def SessionStep (cfg : RingConfig) (s : Sys) (e : Event) : Prop :=
  NoDiscard cfg s e ∧ e.IsWork ∧ e.IoOk

/-- **From the open to the close** the session goes on. -/
theorem InSession.run {es : List Event} (hN : 0 < cfg.rcSize)
    (hg : (system cfg).Guarded (SessionStep cfg) s es) (hr : (system cfg).run s es = some t)
    (h : InSession cfg path limit s acc) (hc : s.ri.riFlags.doClose = false)
    (hsize : plainFileSize (acc ++ (system cfg).collect (accepted cfg) s es) < limit) :
    InSession cfg path limit t (acc ++ (system cfg).collect (accepted cfg) s es) := by
  -- a bound on what will have been accepted bounds what has been accepted so far
  have hinv : FlagsOk t.ctl ∧ t.ri.riFlags.doClose = false ∧
      (plainFileSize (acc ++ (system cfg).collect (accepted cfg) s es) < limit →
        InSession cfg path limit t (acc ++ (system cfg).collect (accepted cfg) s es)) := by
    refine hg.collect_invariant (P := fun s acc ↦ FlagsOk s.ctl ∧ s.ri.riFlags.doClose = false ∧
      (plainFileSize acc < limit → InSession cfg path limit s acc)) ?_ ?_ hr
    · rintro s acc e t ⟨hf, hc, h⟩ ⟨hd, hwork, hio⟩ ht
      refine ⟨hf.step ht, ?_, fun hlt ↦ ?_⟩
      · cases e with
        | call st a =>
            cases ht
            exact (congrArg RiFlags.doClose (rbtrace_riFlags cfg st s.toShm a)).trans hc
        | pass io => exact doClose_of_rbtraceThreadFn hf ht
        | ctrl op => exact absurd hwork id
      · have hlt' := (plainFileSize_le_append acc _).trans_lt hlt
        exact (h hlt').step hN hwork hio hd hc hlt' ht
    · exact ⟨h.flags, hc, fun _ ↦ h⟩
  exact hinv.2.2 hsize

/-- **From the close to the closing pass** only calls are made. -/
theorem InSession.run_closing {es : List Event} (hN : 0 < cfg.rcSize)
    (hg : (system cfg).Guarded (SessionStep cfg) s es) (hr : (system cfg).run s es = some t)
    (h : InSession cfg path limit s acc) (hc : t.ri.riFlags.doClose = true) :
    InSession cfg path limit t (acc ++ (system cfg).collect (accepted cfg) s es) := by
  have hinv : FlagsOk t.ctl ∧ (t.ri.riFlags.doClose = true →
      InSession cfg path limit t (acc ++ (system cfg).collect (accepted cfg) s es)) := by
    refine hg.collect_invariant (P := fun s acc ↦ FlagsOk s.ctl ∧
      (s.ri.riFlags.doClose = true → InSession cfg path limit s acc)) ?_ ?_ hr
    · rintro s acc e t ⟨hf, h⟩ ⟨hd, hwork, hio⟩ ht
      refine ⟨hf.step ht, fun hc ↦ ?_⟩
      cases e with
      | call st a =>
          cases ht
          have hflags := congrArg RiFlags.doClose (rbtrace_riFlags cfg st s.toShm a)
          exact (h (hflags.symm.trans hc)).call hN st a hd
      | pass io =>
          -- the pass that comes first is the closing one
          exact absurd ((doClose_of_rbtraceThreadFn hf ht).symm.trans hc) Bool.false_ne_true
      | ctrl op => exact absurd hwork id
    · exact ⟨h.flags, fun _ ↦ h⟩
  exact hinv.2 hc

/-- A successful `rbtrace_ctrl_open` starts a session. -/
theorem inSession_of_open (hring : RingOk cfg 0 s.toShm) (hf : FlagsOk s.ctl)
    (hw : s.ri.riFlags.doWrap = false) (hz : s.ri.riFlags.doZap = false)
    (hc : s.ri.riFlags.doClose = false) (hnew : s.disk path = none)
    (hret : (rbtraceCtrl (.open (some path)) s.toShm).2 = 0) :
    InSession cfg path s.fsize.toNat
      { s with toShm := (rbtraceCtrl (.open (some path)) s.toShm).1 } [] := by
  have hflags := (hf.ctrlCtl (.open (some path))).1
  have hok := hring.rbtraceCtrl (.open (some path))
  obtain ⟨-, -, heq⟩ := rbtraceCtrl_open hret
  rw [ctrlCtl, heq] at hflags
  rw [heq] at hok ⊢
  exact .inl ⟨⟨⟨hok, hflags, hw, hz, rfl, rfl, .inl rfl⟩, rfl, hc, hnew⟩, rfl⟩

/-- A close succeeds only while the file is traced to. -/
theorem doDisk_of_close {sh : Shm} (hret : (rbtraceCtrl .close sh).2 = 0) :
    sh.ri.riFlags.doDisk = true := by
  by_contra hd
  rw [rbtraceCtrl, rbtraceCtrlClose, if_neg hd] at hret
  exact absurd hret (show ¬ (-1 : Int) = 0 by decide)

/-- A successful `rbtrace_ctrl_close` leaves the buffers and the file alone. -/
theorem InSession.close (h : InSession cfg path limit s acc)
    (hret : (rbtraceCtrl .close s.toShm).2 = 0) :
    InSession cfg path limit { s with toShm := (rbtraceCtrl .close s.toShm).1 } acc := by
  have hd := doDisk_of_close hret
  rcases h with ⟨h, -⟩ | ⟨written, h, rfl⟩
  · exact absurd (hd.symm.trans (h.flags.disk_of_open h.doOpen)) (by decide)
  · have hflags := (h.flags.ctrlCtl .close).1
    have hok := h.ring.rbtraceCtrl .close
    simp only [ctrlCtl, rbtraceCtrl, rbtraceCtrlClose, if_pos hd] at hflags hok ⊢
    exact .inr ⟨written, ⟨⟨hok, hflags, h.noWrap, h.noZap, h.path_eq, h.fsize_eq, h.flush⟩,
      h.doOpen, h.fd, h.file, h.wrapPos, h.nrRecords, h.seek⟩, rfl⟩

instance (cfg : RingConfig) (s : Sys) : ∀ e, Decidable (NoDiscard cfg s e)
  | .call _ _ => inferInstanceAs (Decidable (_ → _))
  | .pass _ => .isTrue trivial
  | .ctrl _ => .isTrue trivial

/-- **A plain session, end to end.**  What the reader lists is what was accepted, in the
order in which it was accepted. -/
theorem listing_of_session (cfg : ValidRingConfig) (hN : 2 ≤ cfg.rcSize) {disk : Disk}
    {pre es₁ es₂ : List Event} {last : PassIo} {path : CStr} {s₀ s₁ s₂ : Sys}
    (h₀ : (system cfg).run (rbtraceDaemonInit cfg disk) pre = some s₀)
    (hnew : s₀.disk path = none) (hwrap : s₀.ri.riFlags.doWrap = false)
    (hzap : s₀.ri.riFlags.doZap = false) (hpending : s₀.ri.riFlags.doClose = false)
    (hopen : (rbtraceCtrl (.open (some path)) s₀.toShm).2 = 0)
    (h₁ : (system cfg).run s₀ (.ctrl (.open (some path)) :: es₁) = some s₁)
    (hclose : (rbtraceCtrl .close s₁.toShm).2 = 0)
    (h₂ : (system cfg).run s₁ (.ctrl .close :: es₂) = some s₂)
    (hlast : s₂.ri.riFlags.doClose = true)
    (hwork : ∀ e ∈ es₁ ++ es₂, e.IsWork) (hio : ∀ e ∈ .pass last :: (es₁ ++ es₂), e.IoOk)
    (hdiscard : (system cfg).Guarded (NoDiscard cfg) s₀
      (.ctrl (.open (some path)) :: es₁ ++ .ctrl .close :: es₂))
    (hlimit : 512 + 56 * ((system cfg).collect (accepted cfg) s₀
      (.ctrl (.open (some path)) :: es₁ ++ .ctrl .close :: es₂)).length < s₀.fsize.toNat)
    {pio : PrbtIo} (hpio : pio.Ok) :
    ∃ t file, (system cfg).step s₂ (.pass last) = some t ∧ t.ri.riFlags.doClose = false ∧
      t.disk path = some file ∧
      listing pio file = (system cfg).collect (accepted cfg) s₀
        (.ctrl (.open (some path)) :: es₁ ++ .ctrl .close :: es₂) := by
  have hpos : 0 < cfg.rcSize := by omega
  obtain ⟨hring, hf⟩ := ok_of_run hpos h₀
  obtain ⟨hg₁, hg₂⟩ := (Machine.guarded_append h₁).1 hdiscard
  obtain ⟨s₀', hs₀', h₁'⟩ := (system cfg).run_cons_eq_some.1 h₁
  obtain ⟨s₁', hs₁', h₂'⟩ := (system cfg).run_cons_eq_some.1 h₂
  have hstep₁ : (system cfg).Guarded (SessionStep cfg) s₀' es₁ :=
    (hg₁.tail hs₀').and_forall fun e he ↦
      ⟨hwork e (List.mem_append_left _ he), hio e (by simp [he])⟩
  have hstep₂ : (system cfg).Guarded (SessionStep cfg) s₁' es₂ :=
    (hg₂.tail hs₁').and_forall fun e he ↦
      ⟨hwork e (List.mem_append_right _ he), hio e (by simp [he])⟩
  have hacc : (system cfg).collect (accepted cfg) s₀
      (.ctrl (.open (some path)) :: es₁ ++ .ctrl .close :: es₂) =
      (system cfg).collect (accepted cfg) s₀' es₁ ++
        (system cfg).collect (accepted cfg) s₁' es₂ := by
    rw [Machine.collect_append _ h₁, Machine.collect_cons _ hs₀', Machine.collect_cons _ hs₁']
    rfl
  rw [hacc] at hlimit ⊢
  -- the open, what comes between, the close, the calls after it, and the closing pass
  have hin₀ : InSession cfg path s₀.fsize.toNat s₀' [] := by
    cases hs₀'
    exact inSession_of_open hring hf hwrap hzap hpending hnew hopen
  have hc₀ : s₀'.ri.riFlags.doClose = false := by
    cases hs₀'
    obtain ⟨-, -, heq⟩ := rbtraceCtrl_open hopen
    dsimp only
    rw [heq]
    exact hpending
  have hin₁ := hin₀.run hpos hstep₁ h₁' hc₀
    ((plainFileSize_le_append _ ((system cfg).collect (accepted cfg) s₁' es₂)).trans_lt hlimit)
  have hin₁' : InSession cfg path s₀.fsize.toNat s₁'
      ([] ++ (system cfg).collect (accepted cfg) s₀' es₁) := by
    cases hs₁'
    exact hin₁.close hclose
  have hin₂ := hin₁'.run_closing hpos hstep₂ h₂' hlast
  rcases hin₂ with ⟨h, -⟩ | ⟨written, h, hall⟩
  · exact absurd (hlast.symm.trans h.doClose) (by decide)
  · obtain ⟨t, prf, ht, hfile, hw, hnr⟩ := h.close (hio (.pass last) List.mem_cons_self) hlast
    refine ⟨t, _, ht, doClose_of_rbtraceThreadFn h.flags ht, hfile, ?_⟩
    rw [← hall, List.nil_append]
    have hsize : sizeofEntry * prf.hdr.nrRecords < 2 ^ 64 :=
      cfg.pageSize_lt hnr
    exact (listing_traceFile hpio (hnr ▸ hpos) hsize (.inl ⟨hw, rfl⟩) (hw ▸ by decide)
      (Nat.zero_le _) (.inr (Nat.zero_mod _))).trans (List.rotate_zero _)

/-- A session of five records in a ring of two, up to its close. -/
def fiveRecords : List Event :=
  [.pass .smooth, .trace 2, .trace 3, .trace 4, .pass .smooth, .trace 5, .trace 6]

/-- The daemon of a ring of two records, on an empty disk. -/
def startOfTwo : Sys := rbtraceDaemonInit (ioRing 2 two_mul_sizeofEntry_lt) fun _ ↦ none

theorem listing_of_session_five : ∃ s₁ s₂ t file,
    (system (ioRing 2 (by decide))).run startOfTwo (.ctrl (.open (some [47])) :: fiveRecords) =
      some s₁ ∧
    (system (ioRing 2 (by decide))).run s₁ [.ctrl .close, .trace 7] = some s₂ ∧
    (system (ioRing 2 (by decide))).step s₂ (.pass .smooth) = some t ∧
    t.disk [47] = some file ∧
    (listing .smooth file).map RbtraceEntry.traceid = [2, 3, 4, 5, 6, 7] := by
  have hsome : ((system (ioRing 2 (by decide))).run startOfTwo
      ((.ctrl (.open (some [47])) :: fiveRecords) ++ [.ctrl .close, .trace 7])).isSome := by decide
  obtain ⟨s₂, hr⟩ := Option.isSome_iff_exists.1 hsome
  obtain ⟨s₁, h₁, h₂⟩ := (Machine.run_append_eq_some _).1 hr
  have hclose : ((system (ioRing 2 (by decide))).run startOfTwo
      (.ctrl (.open (some [47])) :: fiveRecords)).map (fun s ↦ (rbtraceCtrl .close s.toShm).2) =
      some 0 := by decide
  have hlast : ((system (ioRing 2 (by decide))).run startOfTwo
      ((.ctrl (.open (some [47])) :: fiveRecords) ++ [.ctrl .close, .trace 7])).map
      (fun s ↦ s.ri.riFlags.doClose) = some true := by decide
  rw [h₁] at hclose
  rw [hr] at hlast
  have hwork : ∀ e ∈ fiveRecords ++ [.trace 7], e.IsWork := by
    simp [fiveRecords, Event.IsWork, Event.trace]
  have hio : ∀ e ∈ .pass .smooth :: (fiveRecords ++ [.trace 7]), e.IoOk := by
    simp [fiveRecords, Event.IoOk, Event.trace, PassIo.smooth_ok]
  have h₀ : (system (ioRing 2 (by decide))).run
      (rbtraceDaemonInit (ioRing 2 (by decide)) fun _ ↦ none) [] = some startOfTwo := rfl
  obtain ⟨t, file, ht, -, hfile, hlist⟩ := listing_of_session (ioRing 2 (by decide)) (by decide)
    h₀ rfl rfl rfl rfl (by decide) h₁ (Option.some.inj hclose) h₂ (Option.some.inj hlast) hwork hio
    (by decide) (by decide) PrbtIo.smooth_ok
  refine ⟨s₁, s₂, t, file, h₁, h₂, ht, hfile, ?_⟩
  rw [hlist]
  decide

end Rbtrace
