import Rbtrace.Control
import Rbtrace.Interleave

/-!
# What the flags rule out

The relations between the flags and the descriptor hold between whole steps
(`FlagsOk`), and a pass that nothing falls into starts from them.  Two branches of the
daemon are never taken in such a pass: `rbtrace_write_header` never finds a file open,
and the normal branch never finds `RBTRACE_DO_FLUSH` set.  Here a pass is followed
access by access, so that the statement is about the branches themselves and not about
what they would have done.
-/

namespace Rbtrace

/-- `rbtrace_write_header` has just been called. -/
def DaemonPc.EntersHeader (pc : DaemonPc) : Prop :=
  pc = .header .enter ∨ ∃ w upd, pc = .rollover w upd .enter

/-- The thread is about to write the active buffer in the normal branch of a pass. -/
def DaemonPc.FlushesNormally (pc : DaemonPc) : Prop := pc = .data ⟨false, true⟩ .off

/-- What is known of a pass on its own at each of its points. -/
structure PassOk (t : Inter) : Prop where
  testClose : t.pc = .testClose → FlagsOk t.sys.ctl
  testOpen : t.pc = .testOpen → FlagsOk t.sys.ctl ∧ t.sys.ri.riFlags.doClose = false
  header : t.pc.EntersHeader → t.sys.rfd.fd = none
  /-- Outside the closing branch nobody has asked for a flush. -/
  quiet : t.pc ≠ .testClose → t.pc ≠ .idle → t.pc.closing = false → Quiet t.sys.ri.riFlags t.pc

variable {cfg : RingConfig}

section

variable {ri ri' : RingInfo} {pc pc' : DaemonPc}

/-- The closing branch is left only by finishing the pass. -/
theorem Flow.closing (hf : Flow cfg ri pc ri' pc') (h : pc'.closing = false) (hi : pc' ≠ .idle) :
    pc.closing = false := by
  cases hf with
  | @dataReturn w => obtain ⟨c, _ | _⟩ := w <;> exact h
  | clearStoreClosing | closeFile | closedFile | closeLoad | noFlushClosing => cases h
  | closeStore => exact absurd rfl hi
  | _ => first | exact h | rfl

/-- A pass starts only when the daemon is woken. -/
theorem Flow.ne_testClose (hf : Flow cfg ri pc ri' pc') : pc' ≠ .testClose := by
  cases hf with
  | @dataReturn w => obtain ⟨c, _ | _⟩ := w <;> exact nofun
  | _ => exact nofun

/-- The test of `RBTRACE_DO_OPEN` follows the test of `RBTRACE_DO_CLOSE`. -/
theorem Flow.testOpen (hf : Flow cfg ri pc ri' pc') (h : pc' = .testOpen) :
    pc = .testClose ∧ ri.riFlags.doClose = false := by
  cases hf with
  | noClose hc => exact ⟨rfl, hc⟩
  | @dataReturn w => obtain ⟨c, _ | _⟩ := w <;> cases h
  | _ => cases h

/-- `rbtrace_write_header` is called because of `RBTRACE_DO_OPEN`, or to roll over. -/
theorem Flow.entersHeader (hf : Flow cfg ri pc ri' pc') (h : pc'.EntersHeader) :
    (pc = .testOpen ∧ ri.riFlags.doOpen = true) ∨ ∃ w upd, pc = .data w (.limZap upd) := by
  cases hf with
  | «open» ho => exact .inl ⟨rfl, ho⟩
  | dataRollover hf =>
      cases hf
      exact .inr ⟨_, _, rfl⟩
  | header hf | rollover hf => cases hf <;> simp [DaemonPc.EntersHeader] at h
  | @dataReturn w => obtain ⟨c, _ | _⟩ := w <;> simp [DaemonPc.EntersHeader, Site.return] at h
  | _ => simp [DaemonPc.EntersHeader] at h

end

/-- **A pass on its own keeps to what is known.** -/
theorem PassOk.daemon {s t : Inter} (h : PassOk s) (ht : s.daemon cfg = some t) : PassOk t := by
  unfold Inter.daemon at ht
  split at ht
  · -- a report: the flags are as before, and so is the branch
    rename_i w l hpc
    cases ht
    have hpc := report_eq_some hpc
    have hquiet : w.closing = false → w.doFlush = false ∧ s.sys.ri.riFlags.doFlush = false := by
      intro hw
      obtain ⟨⟨hf, -⟩, hw'⟩ := h.quiet (by simp [hpc]) (by simp [hpc]) (by simp [hpc, hw])
      simp only [hpc, DaemonPc.flushing] at hw'
      exact ⟨hw', hf⟩
    obtain ⟨c, b⟩ := w
    cases b with
    | true =>
        refine ⟨nofun, nofun, ?_, ?_⟩
        · rintro (h' | ⟨w', upd, h'⟩) <;> cases h'
        · intro _ _ hc
          exact nomatch (hquiet hc).1
    | false =>
        refine ⟨nofun, nofun, ?_, ?_⟩
        · rintro (h' | ⟨w', upd, h'⟩) <;> cases h'
        · intro _ _ hc
          simp only [Sys.trace, rbtrace_riFlags]
          exact ⟨⟨(hquiet hc).2, by simp [Site.return]⟩, rfl⟩
  · obtain ⟨⟨s', pc'⟩, hr, rfl⟩ := Option.map_eq_some_iff.1 ht
    have hf := daemonStep_flow hr
    refine ⟨fun hpc ↦ absurd hpc hf.ne_testClose, ?_, ?_, ?_⟩
    · intro hpc
      obtain ⟨hs, hc⟩ := hf.testOpen hpc
      rw [hs] at hr
      cases hr
      exact ⟨h.testClose hs, hc⟩
    · intro hin
      rcases hf.entersHeader hin with ⟨hpc, ho⟩ | ⟨w, upd, hpc⟩
      · -- nothing keeps a file open when an open is requested and no close is pending
        obtain ⟨hok, hc⟩ := h.testOpen hpc
        rw [hpc] at hr
        cases hr
        exact hok.fd_eq_none ho hc
      · rw [hpc] at hr
        cases hr
        rfl
    · intro _ hidle hc
      by_cases hpc : s.pc = .testClose
      · -- past the first test no close is pending, so no flush is asked for
        have hok := h.testClose hpc
        rw [hpc] at hr
        simp only [daemonStep] at hr
        split at hr <;> rename_i hclose <;> cases hr
        · cases hc
        · exact ⟨⟨hok.flush_eq.trans (Bool.eq_false_iff.2 hclose), by simp⟩, rfl⟩
      · exact (h.quiet hpc (fun hi ↦ by rw [hi] at hr; cases hr) (hf.closing hc hidle)).flow hf

/-- What is known holds all through a pass that starts with the flags in order. -/
theorem PassOk.of_alone {s : Sys} {io : PassIo} {t : Inter} (hs : FlagsOk s.ctl)
    (ht : Alone cfg ⟨s, io, .testClose⟩ t) : PassOk t := by
  have hstart : PassOk ⟨s, io, .testClose⟩ := by
    refine ⟨fun _ ↦ hs, nofun, ?_, fun h ↦ absurd rfl h⟩
    rintro (h | ⟨w, upd, h⟩) <;> cases h
  exact ht.invariant (fun _ _ h ht ↦ h.daemon ht) hstart

/-- **The control state.**  In every state that whole steps reach from the start of the
daemon, however the I/O goes, five relations hold between the flags and the descriptor;
and a pass from there neither calls `rbtrace_write_header` on an open file nor flushes
the active buffer in its normal branch. -/
theorem control_of_run (cfg : ValidRingConfig) (disk : Disk) {evs : List Event} {s : Sys}
    (h : (system cfg).run (rbtraceDaemonInit cfg disk) evs = some s) :
    (¬ (s.ri.riFlags.doWrap ∧ s.ri.riFlags.doZap) ∧
      ¬ (s.ri.riFlags.doOpen ∧ s.ri.riFlags.doDisk) ∧
      ¬ (s.ri.riFlags.doDisk ∧ s.ri.riFlags.doClose) ∧
      (s.ri.riFlags.doFlush ↔ s.ri.riFlags.doClose) ∧
      (s.rfd.fd ≠ none → s.ri.riFlags.doDisk ∨ s.ri.riFlags.doClose)) ∧
    ∀ io t, Alone cfg ⟨s, io, .testClose⟩ t →
      (t.pc.EntersHeader → t.sys.rfd.fd = none) ∧ ¬ t.pc.FlushesNormally := by
  have hok : FlagsOk s.ctl := Machine.run_invariant (P := fun s : Sys ↦ FlagsOk s.ctl)
    (fun _ _ _ hs ht ↦ hs.step ht) (FlagsOk.rbtraceDaemonInit cfg disk) h
  refine ⟨⟨?_, ?_, ?_, ?_, hok.flag_of_fd⟩, fun io t ht ↦ ⟨?_, ?_⟩⟩
  · rintro ⟨hw, hz⟩
    exact Bool.eq_false_iff.1 (hok.zap_of_wrap hw) hz
  · rintro ⟨ho, hd⟩
    exact Bool.eq_false_iff.1 (hok.disk_of_open ho) hd
  · rintro ⟨hd, hc⟩
    exact Bool.eq_false_iff.1 (hok.close_of_disk hd) hc
  · exact iff_of_eq (congrArg (· = true) hok.flush_eq)
  · exact (PassOk.of_alone hok ht).header
  · intro hpc
    have hq := (PassOk.of_alone hok ht).quiet
    rw [hpc] at hq
    exact nomatch (hq nofun nofun rfl).2

/-- A zap session with a failed rollover in it, closed while the next open is pending. -/
theorem control_of_failedZapRun : ∃ s,
    (system oneRing).run (rbtraceDaemonInit oneRing fun _ ↦ none)
      (failedZapRun ++ [.ctrl .close, .ctrl (.open (some [48]))]) = some s ∧
    (s.ri.riFlags.doFlush ↔ s.ri.riFlags.doClose) ∧
    ∀ t, Alone oneRing ⟨s, .smooth, .testClose⟩ t → ¬ t.pc.FlushesNormally := by
  have hsome : ((system oneRing).run (rbtraceDaemonInit oneRing fun _ ↦ none)
      (failedZapRun ++ [.ctrl .close, .ctrl (.open (some [48]))])).isSome := by decide
  obtain ⟨s, hs⟩ := Option.isSome_iff_exists.1 hsome
  obtain ⟨⟨-, -, -, hflush, -⟩, hpass⟩ := control_of_run oneRing (fun _ ↦ none) hs
  exact ⟨s, hs, hflush, fun t ht ↦ (hpass .smooth t ht).2⟩

end Rbtrace
