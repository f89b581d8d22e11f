import Rbtrace.ControlState

/-!
# The flags along a pass

Where a pass that nothing falls into has got to tells what the flags are, as a function of
what they were when it started (`Course`).  What others may rely on while a pass is under
way is read off there: which bits the daemon leaves alone, and which it only takes away.
-/

namespace Rbtrace

/-! ## Where a pass is, and what the flags are there -/

/-- The two branches of a pass that write data: the closing one and the normal one. -/
def RiFlags.Branch (f₀ : RiFlags) : Bool → Prop
  | true => f₀.doClose = true
  | false => f₀.doClose = false ∧ f₀.doOpen = false ∧ f₀.doDisk = true

/-- The flags `f` at a point of `rbtrace_write_header`, called with `f₀`. -/
@[simp] def HeaderPc.Course (f₀ f : RiFlags) : HeaderPc → Prop
  | .enter | .opening _ => f = f₀
  | .diskStore g | .outStore g => f = f₀ ∧ g = f₀
  | .openLoad => f = { f₀ with doDisk := true }
  | .openStore g => f = { f₀ with doDisk := true } ∧ g = f

/-- The flags `f` at a point of `rbtrace_write_data`, called with `f₀`.  Only the normal
branch gets past line 217, and only there can the session have been stopped. -/
@[simp] def DataPc.Course (f₀ f : RiFlags) (closing : Bool) : DataPc → Prop
  | .off | .slot _ | .wrap _ _ | .write _ _ _ | .limClose _ => f = f₀
  | .limWrap _ | .limZap _ | .stopLoad _ => closing = false ∧ f = f₀
  | .stopStore _ g => closing = false ∧ f = f₀ ∧ g = f₀
  | .takeLost _ | .takeFlush _ | .report _ =>
      f = f₀ ∨ closing = false ∧ f = { f₀ with doDisk := false }

/-- The flags `f` at a point of a pass that started with `f₀`. -/
@[simp] def DaemonPc.Course (f₀ f : RiFlags) : DaemonPc → Prop
  | .idle => True
  | .testClose => f = f₀
  | .testOpen => f₀.doClose = false ∧ f = f₀
  | .testDisk => f₀.doClose = false ∧ f₀.doOpen = false ∧ f = f₀
  | .testFlush c => f₀.Branch c ∧ f = f₀
  | .testDoFlush c => f₀.Branch c ∧ (f = f₀ ∨ c = false ∧ f = { f₀ with doDisk := false })
  | .clearLoad c => c = true ∧ f₀.doClose = true ∧ f = f₀
  | .clearStore c g => c = true ∧ f₀.doClose = true ∧ f = f₀ ∧ g = f₀
  | .closeFile | .closeLoad => f₀.doClose = true ∧ f = { f₀ with doFlush := false }
  | .closeStore g => f₀.doClose = true ∧ f = { f₀ with doFlush := false } ∧ g = f
  | .header pc => f₀.doClose = false ∧ f₀.doOpen = true ∧ pc.Course f₀ f
  | .data w pc =>
      f₀.Branch w.closing ∧ (w.closing = false → w.doFlush = false) ∧ pc.Course f₀ f w.closing
  | .rollover w _ pc =>
      w.closing = false ∧ w.doFlush = false ∧ f₀.Branch false ∧ pc.Course f₀ f

section

variable {cfg : RingConfig} {ri ri' : RingInfo} {pc pc' : DaemonPc} {f₀ f : RiFlags}

/-- Nobody asks for a flush in the normal branch, so it ends without one. -/
theorem DaemonPc.Course.return {w : Site} (hb : f₀.Branch w.closing)
    (hw : w.closing = false → w.doFlush = false)
    (hf : f = f₀ ∨ w.closing = false ∧ f = { f₀ with doDisk := false }) :
    w.return.Course f₀ f := by
  obtain ⟨c, _ | _⟩ := w
  · exact ⟨hb, hf⟩
  · cases c with
    | true => exact ⟨rfl, hb, hf.resolve_right nofun⟩
    | false => exact nomatch hw rfl

/-- Which branch it is, the test of line 292 has decided. -/
theorem RiFlags.Branch.eq {c : Bool} (hb : f₀.Branch c) : c = f₀.doClose := by
  cases c with
  | true => exact hb.symm
  | false => exact hb.1.symm

theorem HeaderFlow.course {hpc hpc' : HeaderPc} (h : hpc.Course f₀ ri.riFlags)
    (hf : HeaderFlow ri hpc ri' (some hpc')) : hpc'.Course f₀ ri'.riFlags := by
  cases hf <;> simp_all

/-- A rollover leaves the flags of the normal branch as they are. -/
theorem HeaderFlow.rollover {hpc : HeaderPc} (hb : f₀.Branch false)
    (h : hpc.Course f₀ ri.riFlags) (hf : HeaderFlow ri hpc ri' none) : ri'.riFlags = f₀ := by
  obtain ⟨-, ho, hd⟩ := hb
  obtain ⟨disk, «open», wrap, zap, close, flush⟩ := f₀
  cases hf <;> simp_all

theorem DataFlow.course {doFlush : Bool} {w : Site} {dpc dpc' : DataPc}
    (hb : f₀.Branch w.closing) (h : dpc.Course f₀ ri.riFlags w.closing)
    (hf : DataFlow cfg doFlush ri dpc ri' (.goto dpc')) : dpc'.Course f₀ ri'.riFlags w.closing := by
  have hc := hb.eq
  cases hf <;> simp_all

/-- **The flags keep to the course of the pass.** -/
theorem DaemonPc.Course.flow (hflush : f₀.doFlush = f₀.doClose) (h : pc.Course f₀ ri.riFlags)
    (hf : Flow cfg ri pc ri' pc') : pc'.Course f₀ ri'.riFlags := by
  cases hf with
  | header hf => exact ⟨h.1, h.2.1, hf.course h.2.2⟩
  | headerReturn => trivial
  | rollover hf => exact ⟨h.1, h.2.1, h.2.2.1, hf.course h.2.2.2⟩
  | @rolloverReturn w =>
      obtain ⟨hc, hw, hb, h⟩ := h
      exact ⟨hc ▸ hb, fun _ ↦ hw, .inl (HeaderFlow.rollover hb h ‹_›)⟩
  | data hf => exact ⟨h.1, h.2.1, hf.course h.1 h.2.2⟩
  | @dataRollover w _ _ _ hf =>
      cases hf
      obtain ⟨hb, hw, hc, h⟩ := h
      exact ⟨hc, hw hc, hc ▸ hb, h⟩
  | dataReturn hf =>
      cases hf
      obtain ⟨hb, hw, hf⟩ := h
      exact Course.return hb hw hf
  | @flush c =>
      cases c with
      | true => simp_all
      | false =>
          -- the normal branch starts with no flush asked for, and a stop does not ask for one
          obtain ⟨⟨hc, -⟩, h | ⟨-, h⟩⟩ := h
          all_goals simp_all
  | _ => simp_all [RiFlags.Branch]

end

/-! ## What a step does to the flags -/

/-- What a step of `rbtrace_write_header` does to the flags, if they are as it loaded them. -/
@[simp] def HeaderPc.update (f : RiFlags) : HeaderPc → RiFlags
  | .diskStore _ => { f with doDisk := true }
  | .openStore _ | .outStore _ => { f with doOpen := false }
  | _ => f

/-- What a step of the daemon does to the flags, if they are as it loaded them. -/
@[simp] def DaemonPc.update (f : RiFlags) : DaemonPc → RiFlags
  | .clearStore _ _ => { f with doFlush := false }
  | .closeStore _ => { f with doClose := false }
  | .data _ (.stopStore _ _) => { f with doDisk := false }
  | .header pc | .rollover _ _ pc => pc.update f
  | _ => f

section

variable {cfg : RingConfig} {ri ri' : RingInfo} {pc pc' : DaemonPc} {f₀ f : RiFlags}

/-- In a pass that nothing falls into the flags are as the daemon loaded them. -/
theorem DaemonPc.Course.held (h : pc.Course f₀ f) : ∀ g ∈ pc.held, g = f := by
  cases pc with
  | header pc | rollover _ _ pc => cases pc <;> simp_all
  | data w pc => cases pc <;> simp_all
  | _ => simp_all

theorem DaemonPc.update_of_held_eq_none (h : pc.held = none) (f : RiFlags) : pc.update f = f := by
  cases pc with
  | header pc | rollover _ _ pc => cases pc <;> first | rfl | cases h
  | data w pc => cases pc <;> first | rfl | cases h
  | _ => first | rfl | cases h

theorem Flow.update (hheld : ∀ g ∈ pc.held, g = ri.riFlags) (hf : Flow cfg ri pc ri' pc') :
    ri'.riFlags = pc.update ri.riFlags := by
  cases hf with
  | header hf | headerReturn hf | rollover hf | rolloverReturn hf => cases hf <;> simp_all
  | data hf | dataRollover hf | dataReturn hf => cases hf <;> simp_all
  | _ => simp_all

/-- The daemon leaves the traffic flags alone. -/
theorem Flow.riTflags (hf : Flow cfg ri pc ri' pc') : ri'.riTflags = ri.riTflags := by
  cases hf with
  | header hf | headerReturn hf | rollover hf | rolloverReturn hf => cases hf <;> rfl
  | data hf | dataRollover hf | dataReturn hf => cases hf <;> rfl
  | _ => rfl

/-- The daemon leaves the policy alone. -/
theorem DaemonPc.update_policy (pc : DaemonPc) (f : RiFlags) :
    (pc.update f).doWrap = f.doWrap ∧ (pc.update f).doZap = f.doZap := by
  cases pc with
  | header pc | rollover _ _ pc => cases pc <;> exact ⟨rfl, rfl⟩
  | data w pc => cases pc <;> exact ⟨rfl, rfl⟩
  | _ => exact ⟨rfl, rfl⟩

/-- A session that is neither open nor asked for does not come about. -/
theorem DaemonPc.Course.update_idle (h : pc.Course f₀ f) (ho : f.doOpen = false) (hd : f.doDisk = false) :
    (pc.update f).doOpen = false ∧ (pc.update f).doDisk = false := by
  cases pc with
  | header pc => cases pc <;> simp_all
  | rollover _ _ pc => cases pc <;> simp_all [RiFlags.Branch]
  | data w pc => cases pc <;> simp_all
  | _ => simp_all

/-- The session is stopped in one place only. -/
theorem DaemonPc.update_doDisk (hd : f.doDisk = true) (hs : ∀ w upd g, pc ≠ .data w (.stopStore upd g)) :
    (pc.update f).doDisk = true := by
  cases pc with
  | header pc | rollover _ _ pc => cases pc <;> simp_all
  | data w pc => cases pc <;> simp_all
  | _ => simp_all

end

/-! ## What a pass does to the flags -/

section

variable {cfg : RingConfig} {f₀ : RiFlags} {s t : Inter}

/-- A step of the daemon, seen from the control words: one of its accesses, or a report,
which leaves them alone. -/
theorem Inter.daemon_cases (ht : s.daemon cfg = some t) :
    t.io = s.io ∧ (Flow cfg s.sys.ri s.pc t.sys.ri t.pc ∨
      ∃ w l, s.pc = .data w (.report l) ∧ t.pc = w.return ∧
        t.sys.controlWords = s.sys.controlWords) := by
  unfold Inter.daemon at ht
  split at ht
  · rename_i w l hpc
    cases ht
    exact ⟨rfl, .inr ⟨w, l, report_eq_some hpc, rfl, rbtrace_controlWords ..⟩⟩
  · obtain ⟨r, hr, rfl⟩ := Option.map_eq_some_iff.1 ht
    exact ⟨rfl, .inl (daemonStep_flow hr)⟩

/-- A step keeps to the course, and does to the flags what its point says. -/
theorem DaemonPc.Course.daemon (hflush : f₀.doFlush = f₀.doClose) (h : s.pc.Course f₀ s.sys.ri.riFlags)
    (ht : s.daemon cfg = some t) :
    t.pc.Course f₀ t.sys.ri.riFlags ∧ t.sys.ri.riFlags = s.pc.update s.sys.ri.riFlags ∧
      t.sys.ri.riTflags = s.sys.ri.riTflags := by
  obtain ⟨-, hf | ⟨w, l, hpc, hpc', hw⟩⟩ := Inter.daemon_cases ht
  · exact ⟨Course.flow hflush h hf, hf.update (Course.held h), hf.riTflags⟩
  · have hflags : t.sys.ri.riFlags = s.sys.ri.riFlags := congrArg ControlWords.riFlags hw
    rw [hpc] at h
    rw [hpc, hpc', hflags]
    exact ⟨Course.return h.1 h.2.1 h.2.2, rfl, congrArg ControlWords.riTflags hw⟩

/-- **A pass on its own keeps to its course.** -/
theorem DaemonPc.Course.of_alone {u : Sys} {io : PassIo}
    (hflush : u.ri.riFlags.doFlush = u.ri.riFlags.doClose)
    (h : Alone cfg ⟨u, io, .testClose⟩ t) :
    t.pc.Course u.ri.riFlags t.sys.ri.riFlags := by
  refine Alone.invariant (P := fun t ↦ t.pc.Course u.ri.riFlags t.sys.ri.riFlags) ?_ ?_ h
  · intro s t hs ht
    exact (Course.daemon hflush hs ht).1
  · exact rfl

theorem Alone.io_eq (h : Alone cfg s t) : t.io = s.io :=
  h.invariant (P := fun t ↦ t.io = s.io) (fun _ _ h ht ↦ (Inter.daemon_cases ht).1.trans h) rfl

end

section

variable {pc : DaemonPc} {f₀ f : RiFlags}

/-- The policy is as it was when the pass started. -/
theorem DaemonPc.Course.policy (h : pc.Course f₀ f) (hpc : pc ≠ .idle) :
    f.doWrap = f₀.doWrap ∧ f.doZap = f₀.doZap := by
  cases pc with
  | header pc | rollover _ _ pc => cases pc <;> simp_all
  | data w pc =>
      obtain ⟨-, -, h⟩ := h
      cases pc <;> simp_all
      all_goals rcases h with rfl | ⟨-, rfl⟩ <;> exact ⟨rfl, rfl⟩
  | testDoFlush c => obtain ⟨-, rfl | ⟨-, rfl⟩⟩ := h <;> exact ⟨rfl, rfl⟩
  | _ => simp_all

/-- A session that is open, or asked for, was so when the pass started. -/
theorem DaemonPc.Course.of_session (h : pc.Course f₀ f) (hpc : pc ≠ .idle) (hs : f.doOpen ∨ f.doDisk) :
    f₀.doOpen ∨ f₀.doDisk := by
  cases pc with
  | header pc => exact .inl h.2.1
  | rollover _ _ pc => exact .inr h.2.2.1.2.2
  | data w pc =>
      obtain ⟨-, -, h⟩ := h
      cases pc <;> simp_all
      all_goals rcases h with rfl | ⟨-, rfl⟩ <;> simp_all
  | testDoFlush c => obtain ⟨-, rfl | ⟨-, rfl⟩⟩ := h <;> simp_all
  | _ => simp_all

/-- Once it has been stopped, it stays so until the end of the pass. -/
theorem DaemonPc.Course.update_stopped (h : pc.Course f₀ f) (hd₀ : f₀.doDisk = true)
    (hc₀ : f₀.doClose = false) (ho₀ : f₀.doOpen = false) (hpc : pc ≠ .idle)
    (hd : f.doDisk = false) : (pc.update f).doDisk = false := by
  cases pc with
  | header pc => simp_all
  | rollover _ _ pc => cases pc <;> simp_all
  | data w pc => cases pc <;> simp_all
  | _ => simp_all

end

end Rbtrace
