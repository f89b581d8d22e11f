import Rbtrace.Passes

/-!
# The daemon does not look at what is in its files

Nothing but the disk itself depends on what the files hold: whether a `pwrite` succeeds,
where the next one goes and what it writes are the same on every disk.  So a run can be
taken over to another disk (`run_withDisk`), and it writes the same buffers there.
-/

namespace Rbtrace

/-- The same system on another disk. -/
def Sys.withDisk (s : Sys) (d : Disk) : Sys := { s with disk := d }

variable {cfg : RingConfig} {s : Sys} {d : Disk}

/-! ## One write -/

theorem pwriteFd_snd (outs : List PwriteOutcome) (d d' : Disk) (fd : Option CStr)
    (buf : List UInt8) (off : Nat) :
    (pwriteFd outs d fd buf off).2 = (pwriteFd outs d' fd buf off).2 := by
  cases fd with
  | none => rfl
  | some path => exact safePwrite_snd outs buf _ _ off off

theorem writeBuffer_withDisk (outs : List PwriteOutcome) (off n : Nat) (s : Sys) (d : Disk) :
    ∃ d', writeBuffer outs off n (s.withDisk d) =
      ((writeBuffer outs off n s).1.withDisk d', (writeBuffer outs off n s).2) := by
  have hsnd := pwriteFd_snd outs d s.disk s.rfd.fd
    ((bufRecords s.reBase off n).flatMap RbtraceEntry.toBytes) s.rfd.seek
  simp only [writeBuffer, Sys.withDisk, hsnd]
  split <;> exact ⟨_, rfl⟩

theorem wrapSeek_withDisk (doWrap : Bool) (size : Nat) (s : Sys) (d : Disk) :
    wrapSeek doWrap size (s.withDisk d) =
      ((wrapSeek doWrap size s).1.withDisk d, (wrapSeek doWrap size s).2) := by
  by_cases h : s.hdr.hdr.wrapPos ≠ 0 ∧ doWrap
  · have h' : (s.withDisk d).hdr.hdr.wrapPos ≠ 0 ∧ doWrap := h
    rw [wrapSeek, wrapSeek, if_pos h, if_pos h']
    rfl
  · have h' : ¬ ((s.withDisk d).hdr.hdr.wrapPos ≠ 0 ∧ doWrap) := h
    rw [wrapSeek, wrapSeek, if_neg h, if_neg h']

theorem openFile_withDisk (cfg : RingConfig) (zap : Bool) (io : HeaderIo) (s : Sys) (d : Disk) :
    ∃ d', openFile cfg zap io (s.withDisk d) =
      ((openFile cfg zap io s).1.withDisk d', (openFile cfg zap io s).2) := by
  cases he : io.openError with
  | some e =>
      simp only [openFile, he]
      exact ⟨_, rfl⟩
  | none =>
      simp only [openFile, he, pwriteFd_some_snd]
      split <;> exact ⟨_, rfl⟩

theorem rbtraceWriteHeader_withDisk (cfg : RingConfig) (io : HeaderIo) (s : Sys) (d : Disk) :
    ∃ d', rbtraceWriteHeader cfg io (s.withDisk d) =
      (rbtraceWriteHeader cfg io s).withDisk d' := by
  obtain ⟨d', hopen⟩ := openFile_withDisk cfg s.ri.riFlags.doZap io s d
  by_cases hfd : s.rfd.fd ≠ none
  · have hfd' : (s.withDisk d).rfd.fd ≠ none := hfd
    rw [rbtraceWriteHeader, rbtraceWriteHeader, if_pos hfd, if_pos hfd']
    exact ⟨d, rfl⟩
  · have hfd' : ¬ (s.withDisk d).rfd.fd ≠ none := hfd
    have hopen' : openFile cfg (s.withDisk d).ri.riFlags.doZap io (s.withDisk d) = _ := hopen
    rw [rbtraceWriteHeader, rbtraceWriteHeader, if_neg hfd, if_neg hfd', hopen']
    dsimp only
    split <;> exact ⟨d', rfl⟩

theorem limitReached_withDisk (cfg : RingConfig) (io : DataIo) (s : Sys) (upd : Bool) (d : Disk) :
    ∃ d', limitReached cfg io (s.withDisk d) upd =
      ((limitReached cfg io s upd).1.withDisk d', (limitReached cfg io s upd).2) := by
  obtain ⟨d', hroll⟩ := rbtraceWriteHeader_withDisk cfg io.reopen (closeFd s) d
  have hroll' : rbtraceWriteHeader cfg io.reopen (closeFd (s.withDisk d)) = _ := hroll
  have hri : (s.withDisk d).ri = s.ri := rfl
  have hfsize : (s.withDisk d).fsize = s.fsize := rfl
  have hrfd : (s.withDisk d).rfd = s.rfd := rfl
  simp only [limitReached, hri, hfsize, hrfd, hroll']
  split_ifs
  · exact ⟨d, rfl⟩
  · exact ⟨d, rfl⟩
  · exact ⟨d', rfl⟩
  · exact ⟨d, rfl⟩
  · exact ⟨d, rfl⟩

theorem updateHeader_withDisk (outs : List PwriteOutcome) (upd : Bool) (s : Sys) (d : Disk) :
    ∃ d', updateHeader outs upd (s.withDisk d) = (updateHeader outs upd s).withDisk d' := by
  unfold updateHeader
  split <;> exact ⟨_, rfl⟩

theorem takeCounters_withDisk (cfg : RingConfig) (io : DataIo) (s : Sys) (d : Disk) :
    takeCounters cfg io (s.withDisk d) = (takeCounters cfg io s).withDisk d := by
  by_cases h : 1 < s.ri.riFlush ∨ s.ri.riLost ≠ 0
  · have h' : 1 < (s.withDisk d).ri.riFlush ∨ (s.withDisk d).ri.riLost ≠ 0 := h
    simp only [takeCounters, if_pos h, if_pos h']
    rfl
  · have h' : ¬ (1 < (s.withDisk d).ri.riFlush ∨ (s.withDisk d).ri.riLost ≠ 0) := h
    simp only [takeCounters, if_neg h, if_neg h']
    rfl

theorem rbtraceWriteData_withDisk (cfg : RingConfig) (io : DataIo) (doFlush : Bool) (s : Sys)
    (d : Disk) :
    ∃ d', rbtraceWriteData cfg io doFlush (s.withDisk d) =
      (rbtraceWriteData cfg io doFlush s).map (·.withDisk d') := by
  have hrfd : (s.withDisk d).rfd = s.rfd := rfl
  have hri : (s.withDisk d).ri = s.ri := rfl
  have hbuf : selectBuffer cfg doFlush (s.withDisk d) = selectBuffer cfg doFlush s := rfl
  simp only [rbtraceWriteData, hrfd, hri, hbuf, wrapSeek_withDisk]
  split
  · exact ⟨d, rfl⟩
  · set buf := selectBuffer cfg doFlush s
    set s₁ := wrapSeek s.ri.riFlags.doWrap (buf.2 * sizeofEntry) s
    obtain ⟨d₂, h₂⟩ := writeBuffer_withDisk io.data buf.1 buf.2 s₁.1 d
    rw [h₂]
    dsimp only
    set s₂ := writeBuffer io.data buf.1 buf.2 s₁.1
    split
    · obtain ⟨d₃, h₃⟩ := limitReached_withDisk cfg io s₂.1 s₁.2 d₂
      rw [h₃]
      obtain ⟨d₄, h₄⟩ := updateHeader_withDisk io.update (limitReached cfg io s₂.1 s₁.2).2
        (limitReached cfg io s₂.1 s₁.2).1 d₃
      rw [h₄, takeCounters_withDisk]
      exact ⟨d₄, rfl⟩
    · rw [takeCounters_withDisk]
      exact ⟨d₂, rfl⟩

/-! ## A pass -/

theorem flushInactive_withDisk (cfg : RingConfig) (io : DataIo) (s : Sys) (d : Disk) :
    ∃ d', flushInactive cfg io (s.withDisk d) = (flushInactive cfg io s).map (·.withDisk d') := by
  obtain ⟨d', h⟩ := rbtraceWriteData_withDisk cfg io false s d
  have hri : (s.withDisk d).ri = s.ri := rfl
  simp only [flushInactive, hri, h]
  split
  · exact ⟨d', rfl⟩
  · exact ⟨d, rfl⟩

theorem flushActive_withDisk (cfg : RingConfig) (io : DataIo) (s : Sys) (d : Disk) :
    ∃ d', flushActive cfg io (s.withDisk d) = (flushActive cfg io s).map (·.withDisk d') := by
  obtain ⟨d', h⟩ := rbtraceWriteData_withDisk cfg io true s d
  have hri : (s.withDisk d).ri = s.ri := rfl
  simp only [flushActive, hri, h]
  split
  · refine ⟨d', ?_⟩
    cases rbtraceWriteData cfg io true s <;> rfl
  · exact ⟨d, rfl⟩

theorem rbtraceThreadFn_withDisk (cfg : RingConfig) (io : PassIo) (s : Sys) (d : Disk) :
    ∃ d', rbtraceThreadFn cfg io (s.withDisk d) =
      (rbtraceThreadFn cfg io s).map (·.withDisk d') := by
  have hri : (s.withDisk d).ri = s.ri := rfl
  have hclose : ∀ (v : Sys) (d : Disk), closeFile (v.withDisk d) = (closeFile v).withDisk d := by
    intro v d
    by_cases hfd : v.rfd.fd ≠ none
    · have hfd' : (v.withDisk d).rfd.fd ≠ none := hfd
      rw [closeFile, closeFile, if_pos hfd, if_pos hfd']
      rfl
    · have hfd' : ¬ (v.withDisk d).rfd.fd ≠ none := hfd
      rw [closeFile, closeFile, if_neg hfd, if_neg hfd']
  obtain ⟨d₁, h₁⟩ := flushInactive_withDisk cfg io.inactive s d
  simp only [rbtraceThreadFn, hri, h₁]
  split_ifs
  · cases flushInactive cfg io.inactive s with
    | none => exact ⟨d, rfl⟩
    | some u =>
        obtain ⟨d₂, h₂⟩ := flushActive_withDisk cfg io.active u d₁
        refine ⟨d₂, ?_⟩
        simp only [Option.map_some, Option.bind_some, h₂]
        cases flushActive cfg io.active u with
        | none => rfl
        | some v =>
            simp only [Option.map_some, hclose]
            rfl
  · obtain ⟨d₂, h₂⟩ := rbtraceWriteHeader_withDisk cfg io.header s d
    exact ⟨d₂, congrArg some h₂⟩
  · cases flushInactive cfg io.inactive s with
    | none => exact ⟨d, rfl⟩
    | some u => exact flushActive_withDisk cfg io.active u d₁
  · exact ⟨d, rfl⟩

/-- The output of a pass does not depend on the disk, if that of a write does not. -/
theorem passOut_withDisk {β : Type*} {out : DataIo → Bool → Sys → List β}
    (hout : ∀ io b s d, out io b (s.withDisk d) = out io b s) (io : PassIo) (s : Sys) (d : Disk) :
    passOut cfg out io (s.withDisk d) = passOut cfg out io s := by
  obtain ⟨d', h⟩ := flushInactive_withDisk cfg io.inactive s d
  have hri : (s.withDisk d).ri = s.ri := rfl
  simp only [passOut, hri, h, hout]
  cases flushInactive cfg io.inactive s with
  | none => rfl
  | some u =>
      have hu : (u.withDisk d').ri = u.ri := rfl
      simp only [Option.map_some, hu, hout]

/-! ## Runs -/

/-- What is written does not depend on the disk. -/
theorem writes_withDisk (s : Sys) (d : Disk) (e : Event) :
    writes cfg (s.withDisk d) e = writes cfg s e := by
  cases e with
  | pass io => exact passOut_withDisk (fun _ _ _ _ ↦ rfl) io s d
  | _ => rfl

theorem step_withDisk (cfg : RingConfig) (s : Sys) (d : Disk) (e : Event) :
    ∃ d', (system cfg).step (s.withDisk d) e = ((system cfg).step s e).map (·.withDisk d') := by
  cases e with
  | pass io => exact rbtraceThreadFn_withDisk cfg io s d
  | call st a => exact ⟨d, rfl⟩
  | ctrl op => exact ⟨d, rfl⟩

/-- **A run can be taken over to another disk.**  It goes the same way there, and writes
the same buffers. -/
theorem run_withDisk {evs : List Event} {t : Sys} (h : (system cfg).run s evs = some t) (d : Disk) :
    (∃ d', (system cfg).run (s.withDisk d) evs = some (t.withDisk d')) ∧
      (system cfg).collect (writes cfg) (s.withDisk d) evs =
        (system cfg).collect (writes cfg) s evs := by
  induction evs generalizing s d with
  | nil =>
      cases h
      exact ⟨⟨d, rfl⟩, rfl⟩
  | cons e evs ih =>
      obtain ⟨u, hu, ht⟩ := (system cfg).run_cons_eq_some.1 h
      obtain ⟨d₁, h₁⟩ := step_withDisk cfg s d e
      rw [hu, Option.map_some] at h₁
      obtain ⟨⟨d₂, h₂⟩, hw⟩ := ih ht d₁
      refine ⟨⟨d₂, (system cfg).run_cons_eq_some.2 ⟨_, h₁, h₂⟩⟩, ?_⟩
      rw [Machine.collect_cons _ h₁, Machine.collect_cons _ hu, writes_withDisk, hw]

end Rbtrace
