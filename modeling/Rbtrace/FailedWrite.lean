import Rbtrace.Writer

/-!
# A data write that fails

When the `pwrite` of the trace data fails, `rbtrace_write_data` jumps to its end label.
By then a wrapped file has already moved its position on, and the end label takes
`ri_flush` as it does after a write that went well: the buffer is no longer pending, and
the amount of the report counts the buffers that were discarded meanwhile but not the
one that could not be written.
-/

namespace Rbtrace

open CInt

/-! ## The report at the end of a write -/

/-- The amount of the report that `rbtrace_write_data` makes at its end label, if it
makes one. -/
def lossReport (cfg : RingConfig) (s : Sys) : Option Int :=
  if 1 < s.ri.riFlush ∨ s.ri.riLost ≠ 0 then some (lossAmount cfg s.ri.riLost s.ri.riFlush)
  else none

/-- The end label clears the two counters and makes that report. -/
theorem takeCounters_eq_lossReport (cfg : RingConfig) (io : DataIo) (s : Sys) :
    (takeCounters cfg io s).toShm =
      match lossReport cfg s with
      | some lost =>
          (rbtrace cfg io.stamps { s.toShm with ri := { s.ri with riLost := 0, riFlush := 0 } }
            (lostArgs lost)).1
      | none => { s.toShm with ri := { s.ri with riLost := 0, riFlush := 0 } } := by
  unfold takeCounters lossReport
  dsimp only
  split <;> rfl

/-- The records that were lost before the write: those the callers counted, and those of
the buffers they discarded while this one was pending. -/
def Sys.lostBefore (cfg : RingConfig) (s : Sys) : Int :=
  s.ri.riLost + if 1 < s.ri.riFlush then (s.ri.riFlush - 1) * cfg.rcSize else 0

/-- A report never counts one buffer more. -/
theorem lossAmount_ne {cfg : RingConfig} {s : Sys} (hpos : 0 < cfg.rcSize)
    (hlt : cfg.rcSize < 2 ^ 31) :
    lossAmount cfg s.ri.riLost s.ri.riFlush ≠ i32 (s.lostBefore cfg + cfg.rcSize) := by
  unfold lossAmount Sys.lostBefore
  split
  · generalize s.ri.riLost + (s.ri.riFlush - 1) * cfg.rcSize = x
    unfold i32
    omega
  · rw [Int.add_zero]
    unfold i32
    omega

/-! ## Pending buffers -/

/-- The buffer at offset `off` waits to be written: it is the inactive one, and a flush
is requested. -/
structure Shm.Pending (sh : Shm) (off : Nat) : Prop where
  flush_ne : sh.ri.riFlush ≠ 0
  alt_eq : sh.ri.riAltOff = off
  cir_ne : sh.ri.riCirOff ≠ off

/-- A call can ask for a flush only by swapping the buffers. -/
theorem rbtrace_flush_or_swapped {sh : Shm} (hf : sh.ri.riFlush = 0) (hl : sh.ri.riLost = 0)
    (cfg : RingConfig) (st : Nat → Stamp) (a : TraceArgs) :
    (rbtrace cfg st sh a).1.ri.riFlush = 0 ∨
      (rbtrace cfg st sh a).1.ri.riCirOff = sh.ri.riAltOff := by
  have h1 : i32 (0 + 1) = 1 := rfl
  simp only [rbtrace, rbtraceAt, rbtraceWith, ringwrap, ringwrapSlot, fetchSlot, claimSlot, hf, hl,
    h1, if_true, ne_eq, not_true_eq_false, if_false]
  split_ifs
  all_goals first | exact .inl rfl | exact .inr rfl

/-- After the end label the buffer that was inactive is not pending. -/
theorem not_pending_takeCounters (cfg : RingConfig) (io : DataIo) (s : Sys) :
    ¬ (takeCounters cfg io s).toShm.Pending s.ri.riAltOff := by
  intro h
  rw [takeCounters_eq_lossReport] at h
  cases hr : lossReport cfg s with
  | none =>
      rw [hr] at h
      exact h.flush_ne rfl
  | some lost =>
      rw [hr] at h
      have hcall := @rbtrace_flush_or_swapped
        { s.toShm with ri := { s.ri with riLost := 0, riFlush := 0 } } rfl rfl cfg io.stamps
        (lostArgs lost)
      rcases hcall with h₀ | h₀
      · exact h.flush_ne h₀
      · exact h.cir_ne h₀

/-! ## A failed write -/

/-- The position, the selection of the buffer and its write, in that order: lines 187 to
213.  Returns whether the write went through. -/
def dataWrite (cfg : RingConfig) (io : DataIo) (doFlush : Bool) (s : Sys) : Sys × Bool :=
  let buf := selectBuffer cfg doFlush s
  writeBuffer io.data buf.1 buf.2 (wrapSeek s.ri.riFlags.doWrap (buf.2 * sizeofEntry) s).1

/-- What a failed write should leave: the positions as they were, and the records either
pending or counted by the report. -/
structure Unharmed (cfg : RingConfig) (s s' : Sys) : Prop where
  seek_eq : s'.rfd.seek = s.rfd.seek
  wrapPos_eq : s'.hdr.hdr.wrapPos = s.hdr.hdr.wrapPos
  records : s'.toShm.Pending s.ri.riAltOff ∨
    lossReport cfg s = some (i32 (s.lostBefore cfg + cfg.rcSize))

variable {io : DataIo} {s : Sys}

/-- A failed write goes straight to the end label. -/
theorem rbtraceWriteData_of_failed {cfg : RingConfig} {doFlush : Bool} (hfd : s.rfd.fd ≠ none)
    (hfail : (dataWrite cfg io doFlush s).2 = false) :
    rbtraceWriteData cfg io doFlush s =
      some (takeCounters cfg io (dataWrite cfg io doFlush s).1) := by
  unfold dataWrite at hfail
  dsimp only at hfail
  simp only [rbtraceWriteData, dataWrite, if_neg hfd, hfail, Bool.false_eq_true, if_false]

/-- Before the end label nothing has happened to the ring words. -/
theorem dataWrite_ri (cfg : RingConfig) (io : DataIo) (doFlush : Bool) (s : Sys) :
    (dataWrite cfg io doFlush s).1.ri = s.ri := by
  simp only [dataWrite, writeBuffer, wrapSeek]
  split_ifs <;> rfl

/-- There is nothing to write of an empty buffer, so nothing fails. -/
theorem writeBuffer_zero (outs : List PwriteOutcome) (off : Nat) {path : CStr}
    (hfd : s.rfd.fd = some path) : (writeBuffer outs off 0 s).2 = true := by
  have hnil : ∀ file pos, (safePwrite outs file [] pos).2 = 0 := by
    intro file pos
    cases outs <;> simp [safePwrite]
  have hempty : (bufRecords s.reBase off 0).flatMap RbtraceEntry.toBytes = [] := rfl
  simp only [writeBuffer, hempty, hfd, pwriteFd, hnil, if_true]

theorem pos_of_failed (cfg : ValidRingConfig) (hfd : s.rfd.fd ≠ none)
    (hfail : (dataWrite cfg io false s).2 = false) : 0 < cfg.rcSize := by
  rcases Nat.eq_zero_or_pos cfg.rcSize with h0 | hpos
  · obtain ⟨path, hpath⟩ := Option.ne_none_iff_exists'.1 hfd
    simp only [dataWrite, selectBuffer_inactive, h0] at hfail
    have hopen : (wrapSeek s.ri.riFlags.doWrap (0 * sizeofEntry) s).1.rfd.fd = some path := by
      rw [wrapSeek_seek]
      exact hpath
    rw [writeBuffer_zero _ _ hopen] at hfail
    cases hfail
  · exact hpos

/-- **The positions after a failed write.**  A wrapped file has moved on to where the
write would have ended. -/
theorem positions_of_failed (cfg : ValidRingConfig)
    (hfail : (dataWrite cfg io false s).2 = false) :
    let s' := takeCounters cfg io (dataWrite cfg io false s).1
    (s'.rfd.seek, s'.hdr.hdr.wrapPos) =
      if s.hdr.hdr.wrapPos ≠ 0 ∧ s.ri.riFlags.doWrap then
        (s.hdr.hdr.wrapPos, s.hdr.hdr.wrapPos + cfg.rcSize * sizeofEntry)
      else (s.rfd.seek, s.hdr.hdr.wrapPos) := by
  have hframe := takeCounters_frame cfg io (dataWrite cfg io false s).1
  dsimp only
  rw [hframe.1, hframe.2.1]
  simp only [dataWrite, selectBuffer_inactive, writeBuffer] at hfail ⊢
  split at hfail
  · cases hfail
  · rename_i hw
    rw [if_neg hw]
    unfold wrapSeek
    split <;> rfl

/-- **A failed write always does harm.**  Whatever the mode and the counters, the buffer
is neither pending afterwards nor counted as lost. -/
theorem not_unharmed_of_failed (cfg : ValidRingConfig) (hfd : s.rfd.fd ≠ none)
    (hfail : (dataWrite cfg io false s).2 = false) :
    ∃ s', rbtraceWriteData cfg io false s = some s' ∧ ¬ Unharmed cfg s s' := by
  refine ⟨_, rbtraceWriteData_of_failed hfd hfail, ?_⟩
  rintro ⟨-, -, hpending | hreport⟩
  · have hnot := not_pending_takeCounters cfg io (dataWrite cfg io false s).1
    rw [dataWrite_ri] at hnot
    exact hnot hpending
  · unfold lossReport at hreport
    split at hreport
    · have hlt := cfg.rcSize_lt
      exact lossAmount_ne (pos_of_failed cfg hfd hfail) (by omega) (Option.some.inj hreport)
    · cases hreport

/-- A disk that is full. -/
def DataIo.noSpace : DataIo := { DataIo.smooth with data := [.error ENOSPC] }

/-- A ring of one record that has a file open and a buffer pending, in plain mode. -/
def pendingOfOne : Sys :=
  { rbtraceDaemonInit (ioRing 1 one_mul_sizeofEntry_lt) fun _ ↦ none with
    ri := { (rbtraceInitTraceInfo (ioRing 1 one_mul_sizeofEntry_lt) 0).1 with
      riFilePath := [116], riFlags := { doDisk := true }, riFlush := 1 }
    rfd := ⟨some [116], RBTRACE_FHEADER_SIZE⟩ }

theorem not_unharmed_pendingOfOne :
    ∃ s', rbtraceWriteData (ioRing 1 (by decide)).toRingConfig .noSpace false pendingOfOne = some s' ∧
      ¬ Unharmed (ioRing 1 (by decide)).toRingConfig pendingOfOne s' :=
  not_unharmed_of_failed (ioRing 1 (by decide)) (by decide) (by decide)

/-- A ring of one record, a limit of one record, wrap mode: one lap has been written, and
the next buffer is pending. -/
def secondLap : List Event :=
  [.ctrl (.size (some 568)), .ctrl (.wrap (some true)), .ctrl (.open (some [116])), .pass .smooth,
    .trace 2, .trace 3, .pass .smooth, .trace 4]

/-- The write of the second lap fails: the write position has gone back to the start and
the wrap position on to the end, nothing is pending, and nothing is reported. -/
theorem not_unharmed_secondLap :
    ∃ s ∈ (system (ioRing 1 (by decide)).toRingConfig).run
        (rbtraceDaemonInit (ioRing 1 (by decide)).toRingConfig fun _ ↦ none) secondLap,
      s.rfd.fd ≠ none ∧ (dataWrite (ioRing 1 (by decide)).toRingConfig .noSpace false s).2 = false ∧
        ∃ s' ∈ rbtraceWriteData (ioRing 1 (by decide)).toRingConfig .noSpace false s,
          ¬ Unharmed (ioRing 1 (by decide)).toRingConfig s s' := by
  have h : ∃ s ∈ (system (ioRing 1 (by decide)).toRingConfig).run
        (rbtraceDaemonInit (ioRing 1 (by decide)).toRingConfig fun _ ↦ none) secondLap,
      s.rfd.fd ≠ none ∧ (dataWrite (ioRing 1 (by decide)).toRingConfig .noSpace false s).2 = false ∧
        ∃ s' ∈ rbtraceWriteData (ioRing 1 (by decide)).toRingConfig .noSpace false s,
          s'.hdr.hdr.wrapPos ≠ s.hdr.hdr.wrapPos := by decide
  obtain ⟨s, hs, hfd, hfail, s', hs', hpos⟩ := h
  exact ⟨s, hs, hfd, hfail, s', hs', fun hu ↦ hpos hu.wrapPos_eq⟩

end Rbtrace
