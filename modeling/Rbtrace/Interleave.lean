import Rbtrace.Flow

/-!
# Whole calls between the daemon's accesses

The machine of `Rbtrace.System` with its passes cut open: the daemon takes one access at
a time (`daemonStep`), and whole `rbtrace()` calls and whole control operations fall in
between, in any order.  The daemon's own reports are whole calls too.

A pass that nothing falls into is a pass of `rbtrace_thread_fn` (`alone_pass`), so the
two machines speak about the same program.
-/

namespace Rbtrace

/-! ## The machine -/

/-- The system, the daemon's point, and what the system contributes to its pass. -/
structure Inter where
  sys : Sys
  io : PassIo
  pc : DaemonPc

/-- One step: a call, the start of a pass, an access of the daemon, a control operation. -/
inductive InterEvent where
  | call (st : Nat → Stamp) (a : TraceArgs)
  | wake (io : PassIo)
  | daemon
  | ctrl (op : RbtraceOp)

/-- A call with trace ID `n`. -/
def InterEvent.trace (n : Nat) : InterEvent :=
  .call (fun _ ↦ .epoch) ⟨BitVec.ofNat 8 n, 0, 0, 0, 0⟩

/-- The report the daemon is about to make. -/
def DaemonPc.report : DaemonPc → Option (Site × Int)
  | .data w (.report lost) => some (w, lost)
  | _ => none

theorem report_eq_some {pc : DaemonPc} {w : Site} {lost : Int} (h : pc.report = some (w, lost)) :
    pc = .data w (.report lost) := by
  unfold DaemonPc.report at h
  split at h <;> cases h
  rfl

/-- A whole call of `rbtrace()`. -/
def Sys.trace (cfg : RingConfig) (st : Nat → Stamp) (a : TraceArgs) (s : Sys) : Sys :=
  { s with toShm := (rbtrace cfg st s.toShm a).1 }

/-- The daemon's next step. -/
def Inter.daemon (cfg : RingConfig) (s : Inter) : Option Inter :=
  match s.pc.report with
  | some (w, lost) =>
      some { s with sys := s.sys.trace cfg (s.io.data w).stamps (lostArgs lost), pc := w.return }
  | none => (daemonStep cfg s.io s.sys s.pc).map fun r ↦ { s with sys := r.1, pc := r.2 }

/-- The state after one event; `none` if it cannot happen, or if the daemon crashes. -/
def Inter.step (cfg : RingConfig) (s : Inter) : InterEvent → Option Inter
  | .call st a => some { s with sys := s.sys.trace cfg st a }
  | .wake io => if s.pc = .idle then some { s with io := io, pc := .testClose } else none
  | .daemon => s.daemon cfg
  | .ctrl op => some { s with sys := { s.sys with toShm := (rbtraceCtrl op s.sys.toShm).1 } }

/-- The system of a ring with its daemon cut into accesses. -/
def interleaved (cfg : RingConfig) : Machine Inter InterEvent := ⟨Inter.step cfg⟩

/-- The daemon has just been started. -/
def Inter.init (cfg : RingConfig) (disk : Disk) : Inter :=
  ⟨rbtraceDaemonInit cfg disk, .smooth, .idle⟩

/-! ## A pass on its own -/

section

variable {cfg : RingConfig}

/-- The daemon gets from one state to another on its own. -/
def Alone (cfg : RingConfig) (s t : Inter) : Prop :=
  ∃ k, (interleaved cfg).run s (List.replicate k .daemon) = some t

theorem Alone.refl (s : Inter) : Alone cfg s s := ⟨0, rfl⟩

theorem Alone.head {s t u : Inter} (h : s.daemon cfg = some t) (ht : Alone cfg t u) :
    Alone cfg s u := by
  obtain ⟨k, hk⟩ := ht
  exact ⟨k + 1, (interleaved cfg).run_cons_eq_some.2 ⟨t, h, hk⟩⟩

theorem Alone.trans {s t u : Inter} (h : Alone cfg s t) (h' : Alone cfg t u) : Alone cfg s u := by
  obtain ⟨k, hk⟩ := h
  obtain ⟨l, hl⟩ := h'
  refine ⟨k + l, ?_⟩
  rw [List.replicate_add]
  exact (interleaved cfg).run_append_eq_some.2 ⟨t, hk, hl⟩

/-- What every step of the daemon keeps, the daemon on its own keeps. -/
theorem Alone.invariant {P : Inter → Prop}
    (hstep : ∀ s t, P s → s.daemon cfg = some t → P t) {s t : Inter} (hs : P s)
    (h : Alone cfg s t) : P t := by
  obtain ⟨k, hk⟩ := h
  induction k generalizing s with
  | zero =>
      cases hk
      exact hs
  | succ k ih =>
      obtain ⟨u, hu, hk⟩ := (interleaved cfg).run_cons_eq_some.1 hk
      exact ih (hstep s u hs hu) hk

/-- `rbtrace_write_header` on its own; `k` says which of its two calls this is. -/
theorem alone_header {io : PassIo} {hio : HeaderIo} {k : Option HeaderPc → DaemonPc}
    (hk : ∀ s pc, Inter.daemon cfg ⟨s, io, k (some pc)⟩ =
      some ⟨(headerStep cfg hio s pc).1, io, k (headerStep cfg hio s pc).2⟩) (s : Sys) :
    Alone cfg ⟨s, io, k (some .enter)⟩ ⟨rbtraceWriteHeader cfg hio s, io, k none⟩ := by
  refine .head (hk _ _) ?_
  unfold rbtraceWriteHeader
  by_cases hfd : s.rfd.fd ≠ none
  · simp only [headerStep, if_pos hfd]
    exact .head (hk _ _) (.refl _)
  · simp only [headerStep, if_neg hfd]
    refine .head (hk _ _) ?_
    have hshm := openFile_toShm cfg s.ri.riFlags.doZap hio s
    simp only [headerStep]
    split
    · refine .head (hk _ _) (.head (hk _ _) (.head (hk _ _) ?_))
      simp only [headerStep, Sys.setFlags, Sys.mapFlags, hshm]
      exact .refl _
    · refine .head (hk _ _) ?_
      simp only [headerStep, Sys.setFlags, Sys.mapFlags, hshm]
      exact .refl _

/-- The `end` label of `rbtrace_write_data` on its own. -/
theorem alone_takeCounters (io : PassIo) (w : Site) (upd : Bool) (s : Sys) :
    Alone cfg ⟨s, io, .data w (.takeLost upd)⟩
      ⟨takeCounters cfg (io.data w) (updateHeader (io.data w).update upd s), io, w.return⟩ := by
  refine .head rfl (.head rfl ?_)
  simp only [takeCounters]
  split
  · exact .head rfl (.refl _)
  · exact .refl _

/-- What follows the write of the records, on its own. -/
theorem alone_limitReached (io : PassIo) (w : Site) (upd : Bool) (s : Sys) :
    Alone cfg ⟨s, io, .data w (if s.fsize.toNat ≤ s.rfd.seek then .limClose upd else .takeLost upd)⟩
      ⟨(limitReached cfg (io.data w) s upd).1, io,
        .data w (.takeLost (limitReached cfg (io.data w) s upd).2)⟩ := by
  unfold limitReached
  by_cases hl : s.fsize.toNat ≤ s.rfd.seek
  · rw [if_pos hl, if_pos hl]
    refine .head rfl ?_
    by_cases hc : s.ri.riFlags.doClose = true
    · simp only [hc, if_true]
      exact .refl _
    · simp only [hc, Bool.false_eq_true, if_false]
      refine .head rfl ?_
      by_cases hw : s.ri.riFlags.doWrap = true
      · simp only [hw, if_true]
        exact .refl _
      · simp only [hw, Bool.false_eq_true, if_false]
        refine .head rfl ?_
        by_cases hz : s.ri.riFlags.doZap = true
        · simp only [hz, if_true]
          let k : Option HeaderPc → DaemonPc :=
            fun o ↦ o.elim (.data w (.takeLost upd)) fun pc ↦ .rollover w upd pc
          have hk : ∀ s pc, Inter.daemon cfg ⟨s, io, k (some pc)⟩ =
              some ⟨(headerStep cfg (io.data w).reopen s pc).1, io,
                k (headerStep cfg (io.data w).reopen s pc).2⟩ := fun s pc ↦ by
            cases pc <;> rfl
          exact alone_header hk (closeFd s)
        · simp only [hz, Bool.false_eq_true, if_false]
          exact .head rfl (.head rfl (.refl _))
  · rw [if_neg hl, if_neg hl]
    exact .refl _

/-- `rbtrace_write_data` on its own. -/
theorem alone_data {io : PassIo} {w : Site} {s t : Sys}
    (h : rbtraceWriteData cfg (io.data w) w.doFlush s = some t) :
    Alone cfg ⟨s, io, .data w .off⟩ ⟨t, io, w.return⟩ := by
  unfold rbtraceWriteData at h
  split at h
  · cases h
  rename_i hfd
  dsimp only at h
  have hselect : Alone cfg ⟨s, io, .data w .off⟩ ⟨s, io, .data w
      (.wrap (selectBuffer cfg w.doFlush s).1 (selectBuffer cfg w.doFlush s).2)⟩ := by
    have hoff : Inter.daemon cfg ⟨s, io, .data w .off⟩ = some ⟨s, io, .data w
        (if w.doFlush then .slot s.ri.riCirOff
          else .wrap s.ri.riAltOff (cfg.rcDataSize / sizeofEntry))⟩ := by
      simp only [Inter.daemon, DaemonPc.report, daemonStep, dataStep, if_neg hfd, Option.map_some,
        Site.next]
    refine .head hoff ?_
    unfold selectBuffer
    split
    · exact .head rfl (.refl _)
    · exact .refl _
  refine hselect.trans (.head rfl (.head rfl ?_))
  dsimp only
  split at h <;> rename_i hw <;> cases h
  · simp only [hw, if_true, Site.next]
    exact (alone_limitReached io w _ _).trans (alone_takeCounters io w _ _)
  · simp only [hw, Site.next]
    exact alone_takeCounters io w false _

/-- Writing the inactive buffer, if there is one to write, on its own. -/
theorem alone_flushInactive {io : PassIo} (c : Bool) {s t : Sys}
    (h : flushInactive cfg io.inactive s = some t) :
    Alone cfg ⟨s, io, .testFlush c⟩ ⟨t, io, .testDoFlush c⟩ := by
  refine .head rfl ?_
  unfold flushInactive at h
  split at h <;> rename_i hf
  · dsimp only
    rw [if_pos hf]
    exact alone_data (w := ⟨c, false⟩) h
  · cases h
    dsimp only
    rw [if_neg hf]
    exact .refl _

/-- Writing the active buffer, if that was asked for, on its own. -/
theorem alone_flushActive {io : PassIo} (c : Bool) {s t : Sys}
    (h : flushActive cfg io.active s = some t) :
    Alone cfg ⟨s, io, .testDoFlush c⟩ ⟨t, io, if c then .closeFile else .idle⟩ := by
  refine .head rfl ?_
  unfold flushActive at h
  split at h <;> rename_i hf
  · obtain ⟨u, hu, rfl⟩ := Option.map_eq_some_iff.1 h
    simp only [hf, if_true]
    exact (alone_data (w := ⟨c, true⟩) hu).trans (.head rfl (.head rfl (.refl _)))
  · cases h
    simp only [hf, Bool.false_eq_true, if_false]
    exact .refl _

/-- **A pass that nothing falls into** is a pass of `rbtrace_thread_fn`. -/
theorem alone_pass {io : PassIo} {s t : Sys} (h : rbtraceThreadFn cfg io s = some t) :
    Alone cfg ⟨s, io, .testClose⟩ ⟨t, io, .idle⟩ := by
  refine .head rfl ?_
  unfold rbtraceThreadFn at h
  split at h <;> rename_i hc
  · simp only [hc, if_true]
    obtain ⟨u, hu, h⟩ := Option.bind_eq_some_iff.1 h
    obtain ⟨v, hv, rfl⟩ := Option.map_eq_some_iff.1 h
    exact (alone_flushInactive true hu).trans ((alone_flushActive true hv).trans
      (.head rfl (.head rfl (.head rfl (.refl _)))))
  · simp only [hc, Bool.false_eq_true, if_false]
    refine .head rfl ?_
    split at h <;> rename_i ho
    · cases h
      simp only [ho, if_true]
      let k : Option HeaderPc → DaemonPc := fun o ↦ o.elim .idle .header
      have hk : ∀ s pc, Inter.daemon cfg ⟨s, io, k (some pc)⟩ =
          some ⟨(headerStep cfg io.header s pc).1, io, k (headerStep cfg io.header s pc).2⟩ :=
        fun s pc ↦ by cases pc <;> rfl
      exact alone_header hk s
    · simp only [ho, Bool.false_eq_true, if_false]
      refine .head rfl ?_
      split at h <;> rename_i hd
      · simp only [hd, if_true]
        obtain ⟨u, hu, h⟩ := Option.bind_eq_some_iff.1 h
        exact (alone_flushInactive false hu).trans (alone_flushActive false h)
      · cases h
        simp only [hd, Bool.false_eq_true, if_false]
        exact .refl _

/-- `rbtrace_write_data` crashes on a closed file only, before its first access. -/
theorem alone_dataCrash {io : PassIo} {w : Site} {s : Sys}
    (h : rbtraceWriteData cfg (io.data w) w.doFlush s = none) :
    Inter.daemon cfg ⟨s, io, .data w .off⟩ = none := by
  unfold rbtraceWriteData at h
  split at h
  · rename_i hfd
    simp only [Inter.daemon, DaemonPc.report, daemonStep, dataStep, if_pos hfd, Option.map_none]
  · dsimp only at h
    split at h <;> cases h

/-- A pass that crashes does so on its own too, and gets stuck on the way. -/
theorem alone_crash {io : PassIo} {s : Sys} (h : rbtraceThreadFn cfg io s = none) :
    ∃ u w, Alone cfg ⟨s, io, .testClose⟩ ⟨u, io, .data w .off⟩ ∧
      Inter.daemon cfg ⟨u, io, .data w .off⟩ = none := by
  have hinactive : ∀ {c : Bool}, flushInactive cfg io.inactive s = none →
      Alone cfg ⟨s, io, .testFlush c⟩ ⟨s, io, .data ⟨c, false⟩ .off⟩ ∧
        Inter.daemon cfg ⟨s, io, .data ⟨c, false⟩ .off⟩ = none := by
    intro c hs
    unfold flushInactive at hs
    split at hs <;> rename_i hf
    · refine ⟨.head rfl ?_, alone_dataCrash (w := ⟨c, false⟩) hs⟩
      dsimp only
      rw [if_pos hf]
      exact .refl _
    · cases hs
  have hactive : ∀ {c : Bool} {u : Sys}, flushActive cfg io.active u = none →
      Alone cfg ⟨u, io, .testDoFlush c⟩ ⟨u, io, .data ⟨c, true⟩ .off⟩ ∧
        Inter.daemon cfg ⟨u, io, .data ⟨c, true⟩ .off⟩ = none := by
    intro c u hu
    unfold flushActive at hu
    split at hu <;> rename_i hf
    · refine ⟨.head rfl ?_, alone_dataCrash (w := ⟨c, true⟩) (Option.map_eq_none_iff.1 hu)⟩
      simp only [hf, if_true]
      exact .refl _
    · cases hu
  have hflush : ∀ {c : Bool},
      (∀ u, flushInactive cfg io.inactive s = some u → flushActive cfg io.active u = none) →
      ∃ u w, Alone cfg ⟨s, io, .testFlush c⟩ ⟨u, io, .data w .off⟩ ∧
        Inter.daemon cfg ⟨u, io, .data w .off⟩ = none := by
    intro c hs
    cases hu : flushInactive cfg io.inactive s with
    | none => exact ⟨s, _, hinactive hu⟩
    | some u =>
        obtain ⟨hv, hstuck⟩ := hactive (c := c) (hs u hu)
        exact ⟨u, _, (alone_flushInactive c hu).trans hv, hstuck⟩
  unfold rbtraceThreadFn at h
  split at h <;> rename_i hc
  · obtain ⟨u, w, hu, hstuck⟩ := hflush (c := true) fun u hu ↦
      Option.map_eq_none_iff.1 (Option.bind_eq_none_iff.1 h u hu)
    refine ⟨u, w, .head rfl ?_, hstuck⟩
    simpa only [hc, if_true] using hu
  · split at h <;> rename_i ho
    · cases h
    · split at h <;> rename_i hd
      · obtain ⟨u, w, hu, hstuck⟩ := hflush (c := false) (Option.bind_eq_none_iff.1 h)
        refine ⟨u, w, .head rfl ?_, hstuck⟩
        simp only [hc, Bool.false_eq_true, if_false]
        refine .head rfl ?_
        simp only [ho, Bool.false_eq_true, if_false]
        refine .head rfl ?_
        simpa only [hd, if_true] using hu
      · cases h

/-- **The passes are what the daemon gets to on its own.** -/
theorem alone_pass_iff {io : PassIo} {s t : Sys} :
    Alone cfg ⟨s, io, .testClose⟩ ⟨t, io, .idle⟩ ↔ rbtraceThreadFn cfg io s = some t := by
  refine ⟨?_, alone_pass⟩
  rintro ⟨k, hk⟩
  cases h : rbtraceThreadFn cfg io s with
  | none =>
      obtain ⟨u, w, ⟨l, hl⟩, hstuck⟩ := alone_crash h
      cases (interleaved cfg).run_replicate_unique hk rfl hl hstuck
  | some u =>
      obtain ⟨l, hl⟩ := alone_pass h
      cases (interleaved cfg).run_replicate_unique hk rfl hl rfl
      rfl

end

/-! ## Where the daemon can be

Only the daemon withdraws a request: a control operation can set `RBTRACE_DO_OPEN`,
`RBTRACE_DO_CLOSE` and `RBTRACE_DO_FLUSH`, never clear them.  So what the daemon has read
in the flags stays true until it stores them itself, and its point tells what they are. -/

/-- `rbtrace_write_data(ring, false)` has not left its limit test yet, or is about to be
called. -/
@[simp] def DaemonPc.writing : DaemonPc → Bool
  | .testFlush _ => true
  | .rollover w _ _ => !w.doFlush
  | .data w (.off) | .data w (.slot _) | .data w (.wrap _ _) | .data w (.write _ _ _)
  | .data w (.limClose _) | .data w (.limWrap _) | .data w (.limZap _) | .data w (.stopLoad _)
  | .data w (.stopStore _ _) => !w.doFlush
  | _ => false

/-- The daemon is in `rbtrace_write_header` because of `RBTRACE_DO_OPEN`. -/
@[simp] def DaemonPc.opening : DaemonPc → Bool
  | .header _ => true
  | _ => false

/-- `P` holds of the flags `f`, and of a value of them that is held to be stored. -/
def HoldsOf (P : RiFlags → Prop) (f : RiFlags) (pc : DaemonPc) : Prop := P f ∧ ∀ g ∈ pc.held, P g

/-- The regions of the program in which the daemon knows something about the flags. -/
inductive Region where
  | closing
  | flushing
  | writing
  | opening

/-- The point is in the region. -/
@[simp] def Region.Has : Region → DaemonPc → Prop
  | .closing, pc => pc.closing
  | .flushing, pc => pc.flushing
  | .writing, pc => pc.writing
  | .opening, pc => pc.opening

/-- What the daemon knows in the region. -/
@[simp] def Region.Tells : Region → RiFlags → Prop
  | .closing, f => f.doClose
  | .flushing, f => f.doFlush
  | .writing, f => f.doDisk ∨ f.doClose
  | .opening, f => f.doOpen

/-- What the daemon's point says about the flags and about what it took. -/
structure PcOk (f : RiFlags) (pc : DaemonPc) : Prop where
  tells : ∀ r : Region, r.Has pc → HoldsOf r.Tells f pc
  held : ∀ g ∈ pc.held, (g.doClose → f.doClose) ∧ (g.doFlush → f.doFlush)
  /-- With whole calls nothing is ever counted in `ri_lost`. -/
  lost : ∀ w l, pc = .data w (.takeFlush l) → l = 0

section

variable {cfg : RingConfig} {ri ri' : RingInfo} {pc pc' : DaemonPc}

/-- What the daemon holds to store it has just loaded. -/
theorem Flow.held (hf : Flow cfg ri pc ri' pc') :
    ∀ g ∈ pc'.held, g = ri.riFlags ∧ ri'.riFlags = ri.riFlags := by
  cases hf with
  | header hf | headerReturn hf | rollover hf | rolloverReturn hf => cases hf <;> simp [eq_comm]
  | data hf | dataRollover hf => cases hf <;> simp [eq_comm]
  | @dataReturn w =>
      unfold Site.return
      split <;> simp
  | _ => simp [eq_comm]

/-- The daemon finds out what a region says before it gets there. -/
theorem Region.flow {r : Region} (hf : Flow cfg ri pc ri' pc')
    (h : r.Has pc → HoldsOf r.Tells ri.riFlags pc) (hr : r.Has pc') :
    HoldsOf r.Tells ri'.riFlags pc' := by
  cases r
  all_goals
    cases hf with
    | header hf | headerReturn hf | rollover hf | rolloverReturn hf =>
        cases hf <;> simp_all [HoldsOf]
    | data hf | dataRollover hf => cases hf <;> simp_all [HoldsOf]
    | @dataReturn w pc ri' hf =>
        cases hf
        obtain ⟨c, _ | _⟩ := w <;> simp_all [HoldsOf, Site.return]
    | _ => simp_all [HoldsOf]

/-- The daemon takes what is there. -/
theorem Flow.takeFlush {w : Site} {l : Int} (hf : Flow cfg ri pc ri' (.data w (.takeFlush l))) :
    l = ri.riLost := by
  generalize hpc : DaemonPc.data w (.takeFlush l) = pc' at hf
  cases hf with
  | data hf => cases hf <;> simp_all
  | @dataReturn w' =>
      unfold Site.return at hpc
      split at hpc <;> cases hpc
  | _ => cases hpc

/-- What the daemon's point says stays true when the daemon moves on. -/
theorem PcOk.flow (h : PcOk ri.riFlags pc) (hlost : ri.riLost = 0)
    (hf : Flow cfg ri pc ri' pc') : PcOk ri'.riFlags pc' := by
  refine ⟨fun r ↦ Region.flow hf (h.tells r), fun g hg ↦ ?_, ?_⟩
  · obtain ⟨rfl, he⟩ := hf.held g hg
    rw [he]
    exact ⟨id, id⟩
  · rintro w l rfl
    exact hf.takeFlush.trans hlost

end

/-- A control operation withdraws no request. -/
theorem rbtraceCtrl_requests (op : RbtraceOp) (sh : Shm) (r : Region)
    (h : r.Tells sh.ri.riFlags) : r.Tells (rbtraceCtrl op sh).1.ri.riFlags := by
  have hstep := rbtraceCtrl_step op sh
  generalize rbtraceCtrl op sh = x at hstep ⊢
  cases hstep with
  | opens | closes => cases r <;> simp_all
  | wraps | zaps => cases r <;> exact h
  | _ => exact h

/-- So it does not falsify what the daemon's point says. -/
theorem PcOk.rbtraceCtrl {sh : Shm} {pc : DaemonPc} (h : PcOk sh.ri.riFlags pc) (op : RbtraceOp) :
    PcOk (rbtraceCtrl op sh).1.ri.riFlags pc :=
  have hreq := rbtraceCtrl_requests op sh
  ⟨fun r hr ↦ ⟨hreq r (h.tells r hr).1, (h.tells r hr).2⟩,
    fun g hg ↦ ⟨hreq .closing ∘ (h.held g hg).1, hreq .flushing ∘ (h.held g hg).2⟩, h.lost⟩

/-! ## What holds in every state -/

/-- The ring is in order, and so is the daemon. -/
structure Inter.Ok (cfg : RingConfig) (s : Inter) : Prop where
  ring : RingOk cfg 0 s.sys.toShm
  pc : PcOk s.sys.ri.riFlags s.pc

/-- Between passes, and at the start of one, the daemon knows nothing. -/
theorem pcOk_of_start {f : RiFlags} {pc : DaemonPc} (h : pc = .idle ∨ pc = .testClose) :
    PcOk f pc := by
  rcases h with rfl | rfl
  all_goals exact ⟨fun r hr ↦ by cases r <;> simp at hr, by simp, by simp⟩

/-- After a report `rbtrace_write_data` returns. -/
theorem PcOk.report {f : RiFlags} {pc : DaemonPc} {w : Site} {l : Int} (h : PcOk f pc)
    (hpc : pc.report = some (w, l)) : PcOk f w.return := by
  obtain rfl := report_eq_some hpc
  obtain ⟨c, _ | _⟩ := w
  all_goals
    refine ⟨fun r hr ↦ ⟨(h.tells r ?_).1, by simp [Site.return]⟩, by simp [Site.return],
      by simp [Site.return]⟩
    cases r <;> simp_all [Site.return]

section

variable {cfg : RingConfig} {s t : Inter}

/-- The daemon's own accesses keep the ring in order. -/
theorem RingOk.flow {off : Nat} {sh sh' : Shm} {pc pc' : DaemonPc} (h : RingOk cfg off sh)
    (hf : Flow cfg sh.ri pc sh'.ri pc') : RingOk cfg off sh' := by
  obtain ⟨hc, ha, hs, hfl, hl⟩ := hf.ring
  have hlost := h.lost_eq
  have hge := h.flush_ge
  have hlt := h.flush_lt
  exact ⟨hs ▸ h.slot_ge, hs ▸ h.slot_lt, by omega, by omega, by omega, hc ▸ ha ▸ h.buffers⟩

/-- The daemon keeps the ring in order. -/
theorem Inter.Ok.daemon (hpos : 0 < cfg.rcSize) (hlt : cfg.rcSize < 2 ^ 31) (h : s.Ok cfg)
    (ht : s.daemon cfg = some t) : t.Ok cfg := by
  unfold Inter.daemon at ht
  split at ht
  · rename_i w l hpc
    cases ht
    refine ⟨(h.ring.rbtrace hpos hlt _ _).1, ?_⟩
    simp only [Sys.trace, rbtrace_riFlags]
    exact h.pc.report hpc
  · obtain ⟨r, hr, rfl⟩ := Option.map_eq_some_iff.1 ht
    exact ⟨h.ring.flow (daemonStep_flow hr), h.pc.flow h.ring.lost_eq (daemonStep_flow hr)⟩

/-- **Every step keeps the ring and the daemon in order.** -/
theorem Inter.Ok.step (hpos : 0 < cfg.rcSize) (hlt : cfg.rcSize < 2 ^ 31) {e : InterEvent}
    (h : s.Ok cfg) (ht : (interleaved cfg).step s e = some t) : t.Ok cfg := by
  cases e with
  | call st a =>
      cases ht
      refine ⟨(h.ring.rbtrace hpos hlt st a).1, ?_⟩
      simpa only [Sys.trace, rbtrace_riFlags] using h.pc
  | wake io =>
      simp only [interleaved, Inter.step] at ht
      split at ht <;> cases ht
      exact ⟨h.ring, pcOk_of_start (.inr rfl)⟩
  | daemon => exact h.daemon hpos hlt ht
  | ctrl op =>
      cases ht
      exact ⟨h.ring.rbtraceCtrl op, h.pc.rbtraceCtrl op⟩

/-- So they are in order in every state that is reached from the start of the daemon. -/
theorem Inter.Ok.of_run (hpos : 0 < cfg.rcSize) (hlt : cfg.rcSize < 2 ^ 31) {disk : Disk}
    {evs : List InterEvent} (h : (interleaved cfg).run (Inter.init cfg disk) evs = some s) :
    s.Ok cfg := by
  refine Machine.run_invariant (fun _ _ _ h ht ↦ Inter.Ok.step hpos hlt h ht) ?_ h
  exact ⟨.rbtraceDaemonInit hpos disk, pcOk_of_start (.inl rfl)⟩

end

/-! ## A daemon that is not asked to flush -/

/-- No flush is asked for, and none is under way. -/
def Quiet (f : RiFlags) (pc : DaemonPc) : Prop :=
  HoldsOf (fun f ↦ f.doFlush = false) f pc ∧ pc.flushing = false

/-- The daemon does not ask itself to flush. -/
theorem Quiet.flow {cfg : RingConfig} {ri ri' : RingInfo} {pc pc' : DaemonPc} (h : Quiet ri.riFlags pc)
    (hf : Flow cfg ri pc ri' pc') : Quiet ri'.riFlags pc' := by
  obtain ⟨⟨h₁, h₂⟩, h₃⟩ := h
  refine ⟨⟨?_, fun g hg ↦ (hf.held g hg).1 ▸ h₁⟩, ?_⟩
  all_goals
    cases hf with
    | header hf | headerReturn hf | rollover hf | rolloverReturn hf => cases hf <;> simp_all
    | data hf => cases hf <;> simp_all
    | dataRollover hf =>
        cases hf
        simp_all
    | @dataReturn w pc ri' hf =>
        cases hf
        obtain ⟨c, _ | _⟩ := w <;> simp_all [Site.return]
    | _ => simp_all

end Rbtrace
