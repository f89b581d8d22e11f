import Rbtrace.WrapClose
import Rbtrace.Passes

/-!
# Opening a file while the last one is being closed

`rbtrace_ctrl_open` is accepted as soon as `RBTRACE_DO_DISK` is off, and that is
immediately after a close has been requested.  The open takes over the path, the slot
and the counters at once; the closing pass still to come needs the slot and the
counters of the old file, and when it is done it clears the path.

So a request that meets a pending close loses what the old file was still to get, and
its own path.  `handover_iff` says that this is the only way in which an open can go
wrong.
-/

namespace Rbtrace

variable {cfg : RingConfig} {path : CStr} {s t : Sys}

/-! ## What an open promises -/

/-- The state after a request to open `path`. -/
def Sys.requestOpen (path : CStr) (s : Sys) : Sys :=
  { s with toShm := (rbtraceCtrl (.open (some path)) s.toShm).1 }

/-- The pass that next clears `RBTRACE_DO_OPEN` opens the path of the request. -/
def OpensRequested (cfg : RingConfig) (path : CStr) (s : Sys) : Prop :=
  ∀ evs t io t', (∀ e ∈ evs, e.IoOk) → io.Ok →
    (system cfg).Guarded (fun u _ ↦ u.ri.riFlags.doOpen = true) (s.requestOpen path) evs →
    (system cfg).run (s.requestOpen path) evs = some t → t.ri.riFlags.doOpen = true →
    (system cfg).step t (.pass io) = some t' → t'.ri.riFlags.doOpen = false →
    t'.rfd.fd =
      some (if t.ri.riFlags.doZap then zapPath path io.header.ts io.header.gm else path)

/-- The step is a pass of the thread. -/
def Event.IsPass : Event → Prop
  | .pass _ => True
  | _ => False

/-- The first pass after the request writes to the old file what the ring held for it
at the request. -/
def SavesRest (cfg : RingConfig) (path : CStr) (s : Sys) : Prop :=
  ∀ evs t io, (∀ e ∈ evs, ¬ e.IsPass) → io.Ok →
    (system cfg).run (s.requestOpen path) evs = some t →
    t.rfd.fd = s.rfd.fd ∧
      (pendingRecords cfg s ++ s.activeRecords).Sublist (writes cfg t (.pass io)).flatten

/-! ## The path -/

/-- **The pass that serves a request** opens the path of the moment. -/
theorem rbtraceThreadFn_of_open {io : PassIo} (hf : FlagsOk s.ctl)
    (ho : s.ri.riFlags.doOpen = true) (hc : s.ri.riFlags.doClose = false) (hio : io.Ok)
    (ht : rbtraceThreadFn cfg io s = some t) :
    t.ri.riFlags.doOpen = false ∧
      t.rfd.fd = some (headerPath s.ri.riFlags.doZap io.header s) := by
  have hctl := rbtraceThreadFn_ctl hf ht
  rw [passCtl, if_neg (Bool.eq_false_iff.1 hc), if_pos ho, Ctl.opened,
    if_pos (decide_eq_true hio.header.opens)] at hctl
  exact ⟨congrArg (fun c ↦ c.flags.doOpen) hctl, congrArg Ctl.fd hctl⟩

/-- **A closing pass forgets the path.** -/
theorem rbtraceThreadFn_of_close {io : PassIo} (hf : FlagsOk s.ctl) (hb : Backed s.ctl)
    (hc : s.ri.riFlags.doClose = true) :
    ∃ t, rbtraceThreadFn cfg io s = some t ∧ t.ri.riFilePath = [] ∧
      t.ri.riFlags = { s.ri.riFlags with doFlush := false, doClose := false } := by
  have hwrite : ∀ {u : Sys} {d : DataIo} {b : Bool}, u.ctl = s.ctl →
      ∃ v, rbtraceWriteData cfg d b u = some v ∧ v.ctl = s.ctl := by
    intro u d b hu
    have hfd : u.rfd.fd ≠ none := (congrArg Ctl.fd hu).trans_ne (hb (.inr hc))
    have huc : u.ri.riFlags.doClose = true := (congrArg (fun c ↦ c.flags.doClose) hu).trans hc
    obtain ⟨v, hv, -⟩ := @rbtraceWriteData_ctl cfg d b u hfd
    exact ⟨v, hv, (ctl_of_rbtraceWriteData_of_close huc hv).2.trans hu⟩
  have hfinish : ∀ {v : Sys}, v.ctl = s.ctl → v.finishClose.ri.riFilePath = [] ∧
      v.finishClose.ri.riFlags = { s.ri.riFlags with doFlush := false, doClose := false } := by
    intro v hv
    have hfd : v.rfd.fd ≠ none := (congrArg Ctl.fd hv).trans_ne (hb (.inr hc))
    have hflags : v.ri.riFlags = s.ri.riFlags := congrArg Ctl.flags hv
    refine ⟨?_, by rw [finishClose_riFlags, hflags]⟩
    unfold Sys.finishClose closeFile
    dsimp only
    split <;> rename_i hnone
    · rfl
    · exact absurd hfd hnone
  have hnot {p : Prop} (h : s.ri.riFlags.doClose = false) : p := absurd hc (Bool.eq_false_iff.1 h)
  obtain ⟨t, ht, hfin⟩ := @pass_rule Unit cfg s (fun u _ ↦ u.ctl = s.ctl)
    (fun t _ ↦ t.ri.riFilePath = [] ∧
      t.ri.riFlags = { s.ri.riFlags with doFlush := false, doClose := false })
    (fun _ _ _ ↦ []) io [] hf hb hnot rfl (fun _ _ ↦ hwrite rfl) (fun h ↦ hnot h)
    fun _ _ _ hu ↦ (hwrite hu).imp fun v hv ↦ ⟨hv.1, hfinish hv.2⟩
  exact ⟨t, ht, hfin⟩

/-- While an open is pending, no control operation touches the path, the request or a
close before it. -/
theorem rbtraceCtrl_of_doOpen {sh : Shm} (ho : sh.ri.riFlags.doOpen = true)
    (hd : sh.ri.riFlags.doDisk = false) (op : RbtraceOp) :
    (rbtraceCtrl op sh).1.ri.riFilePath = sh.ri.riFilePath ∧
      (rbtraceCtrl op sh).1.ri.riFlags.doOpen = true ∧
      (rbtraceCtrl op sh).1.ri.riFlags.doClose = sh.ri.riFlags.doClose := by
  have hstep := rbtraceCtrl_step op sh
  generalize rbtraceCtrl op sh = r at hstep ⊢
  cases hstep with
  | opens path hs => exact absurd (.inl ho) hs
  | closes hd' => exact absurd hd' (Bool.eq_false_iff.1 hd)
  | _ => exact ⟨rfl, ho, rfl⟩

/-- The open of `path` is pending, and a close before it does no harm to the path. -/
structure Handing (path : CStr) (s : Sys) : Prop where
  flags : FlagsOk s.ctl
  backed : Backed s.ctl
  doOpen : s.ri.riFlags.doOpen = true
  path_eq : s.ri.riFilePath = path
  path_nil : s.ri.riFlags.doClose = true → path = []

/-- **One step** either leaves the request as it is or is the pass that serves it. -/
theorem Handing.step {e : Event} (h : Handing path s) (hio : e.IoOk)
    (ht : (system cfg).step s e = some t) (ho : t.ri.riFlags.doOpen = true) : Handing path t := by
  obtain ⟨u, hu, hf, hiff⟩ := @backed_step_iff cfg s e h.flags h.backed
  obtain rfl : u = t := Option.some.inj (hu.symm.trans ht)
  have hb : Backed u.ctl := hiff.2 (zapReopens_of_ioOk hio)
  clear hiff
  cases e with
  | call st a =>
      cases ht
      refine ⟨hf, hb, ho, (rbtrace_riFilePath cfg st s.toShm a).trans h.path_eq, fun hc ↦ ?_⟩
      exact h.path_nil ((congrArg RiFlags.doClose (rbtrace_riFlags cfg st s.toShm a)).symm.trans hc)
  | ctrl op =>
      cases ht
      obtain ⟨hpath, -, hclose⟩ :=
        rbtraceCtrl_of_doOpen h.doOpen (h.flags.disk_of_open h.doOpen) op
      exact ⟨hf, hb, ho, hpath.trans h.path_eq, fun hc ↦ h.path_nil (hclose.symm.trans hc)⟩
  | pass io =>
      by_cases hc : s.ri.riFlags.doClose = true
      · obtain ⟨v, hv, hpath, hflags⟩ := @rbtraceThreadFn_of_close cfg s io h.flags h.backed hc
        obtain rfl : v = u := Option.some.inj (hv.symm.trans ht)
        refine ⟨hf, hb, ho, hpath.trans (h.path_nil hc).symm, fun hc' ↦ ?_⟩
        rw [hflags] at hc'
        cases hc'
      · obtain ⟨hopen, -⟩ := rbtraceThreadFn_of_open h.flags h.doOpen (Bool.eq_false_iff.2 hc) hio ht
        exact absurd ho (Bool.eq_false_iff.1 hopen)

/-- The flags stay in order, with a file behind them, when an open is requested. -/
theorem requestOpen_ok (path : CStr) (hf : FlagsOk s.ctl) (hb : Backed s.ctl) :
    FlagsOk (s.requestOpen path).ctl ∧ Backed (s.requestOpen path).ctl := by
  obtain ⟨hf', hb'⟩ := hf.ctrlCtl (.open (some path))
  exact ⟨hf', hb' hb⟩

/-- A request that meets no pending close, or has nothing to lose to it. -/
theorem handing_of_open (hf : FlagsOk s.ctl) (hb : Backed s.ctl)
    (hret : (rbtraceCtrl (.open (some path)) s.toShm).2 = 0)
    (hnil : s.ri.riFlags.doClose = true → path = []) : Handing path (s.requestOpen path) := by
  obtain ⟨hf', hb'⟩ := requestOpen_ok path hf hb
  obtain ⟨-, -, heq⟩ := rbtraceCtrl_open hret
  refine ⟨hf', hb', ?_, ?_, ?_⟩ <;> rw [Sys.requestOpen, heq]
  exact hnil

/-- **The request is served** if nothing happens to its path on the way. -/
theorem Handing.opensRequested (h : Handing path (s.requestOpen path)) :
    OpensRequested cfg path s := by
  intro evs t io t' hevs hio hg hrun ho ht' ho'
  have hlast : Handing path t :=
    (hg.and_forall hevs).invariant (P := fun u ↦ u.ri.riFlags.doOpen = true → Handing path u)
      (fun _ _ _ hu hok hv hov ↦ (hu hok.1).step hok.2 hv hov) (fun _ ↦ h) hrun ho
  by_cases hc : t.ri.riFlags.doClose = true
  · obtain ⟨v, hv, -, hflags⟩ := @rbtraceThreadFn_of_close cfg t io hlast.flags hlast.backed hc
    obtain rfl : v = t' := Option.some.inj (hv.symm.trans ht')
    rw [hflags] at ho'
    exact absurd ho (Bool.eq_false_iff.1 ho')
  · obtain ⟨-, hfd⟩ := rbtraceThreadFn_of_open hlast.flags ho (Bool.eq_false_iff.2 hc) hio ht'
    rw [hfd, headerPath, hlast.path_eq]

/-- **A pending close costs the request its path.** -/
theorem opensRequested_path_nil (hf : FlagsOk s.ctl) (hb : Backed s.ctl)
    (hc : s.ri.riFlags.doClose = true) (hret : (rbtraceCtrl (.open (some path)) s.toShm).2 = 0)
    (h : OpensRequested cfg path s) : path = [] := by
  obtain ⟨-, -, heq⟩ := rbtraceCtrl_open hret
  obtain ⟨hf₁, hb₁⟩ := requestOpen_ok path hf hb
  have hflags : (s.requestOpen path).ri.riFlags = { s.ri.riFlags with doOpen := true } := by
    rw [Sys.requestOpen, heq]
  have hclose : (s.requestOpen path).ri.riFlags.doClose = true := by
    rw [hflags]
    exact hc
  have hasked : (s.requestOpen path).ri.riFlags.doOpen = true := by rw [hflags]
  -- the closing pass, and the pass that serves the request after it
  obtain ⟨t, ht, htp, htf⟩ :=
    @rbtraceThreadFn_of_close cfg (s.requestOpen path) .smooth hf₁ hb₁ hclose
  have hopen : t.ri.riFlags.doOpen = true := by rw [htf, hasked]
  have hnone : t.ri.riFlags.doClose = false := by rw [htf]
  obtain ⟨v, hv, hf₂, hb₂⟩ :=
    @backed_step_iff cfg (s.requestOpen path) (.pass .smooth) hf₁ hb₁
  obtain rfl : v = t := Option.some.inj (hv.symm.trans ht)
  obtain ⟨t', ht', -⟩ := @backed_step_iff cfg v (.pass .smooth) hf₂
    (hb₂.2 (zapReopens_of_ioOk PassIo.smooth_ok))
  obtain ⟨hdone, hfd⟩ := rbtraceThreadFn_of_open hf₂ hopen hnone PassIo.smooth_ok ht'
  have hsame := h [.pass .smooth] v .smooth t'
    (fun e he ↦ List.mem_singleton.1 he ▸ PassIo.smooth_ok) PassIo.smooth_ok
    ⟨hasked, fun _ _ ↦ trivial⟩ ((Machine.run_singleton _ _ _).trans ht) hopen ht' hdone
  rw [hfd, headerPath, htp, Option.some.injEq] at hsame
  split at hsame
  · simpa only [zapPath, List.nil_append, List.append_assoc, List.self_eq_append_left] using hsame
  · exact hsame.symm

/-! ## What the old file is still to get -/

/-- **The request has taken the slot and the counters**: a closing pass right after it
writes no record. -/
theorem writes_of_requestOpen {io : PassIo} (hc : s.ri.riFlags.doClose = true)
    (hret : (rbtraceCtrl (.open (some path)) s.toShm).2 = 0) :
    (writes cfg (s.requestOpen path) (.pass io)).flatten = [] := by
  obtain ⟨-, -, heq⟩ := rbtraceCtrl_open hret
  have hflush : (s.requestOpen path).ri.riFlush = 0 := by rw [Sys.requestOpen, heq]
  have hslot : (s.requestOpen path).ri.riSlot = -1 := by rw [Sys.requestOpen, heq]
  have hclose : (s.requestOpen path).ri.riFlags.doClose = true := by
    rw [Sys.requestOpen, heq]
    exact hc
  have hempty : (selectBuffer cfg true (s.requestOpen path)).2 = 0 := by
    rw [selectBuffer, if_pos rfl, hslot]
    rfl
  have hdata : (dataWritten cfg io.active true (s.requestOpen path)).flatten = [] := by
    unfold dataWritten
    split
    · rw [hempty]
      rfl
    · rfl
  rw [writes, if_pos (.inl hclose), if_neg (not_not.2 hflush), List.nil_append, flushInactive,
    if_neg (not_not.2 hflush)]
  dsimp only
  split
  · exact hdata
  · rfl

/-- Until the next pass the descriptor is the one of the old file. -/
theorem rfd_of_noPass {evs : List Event} (hevs : ∀ e ∈ evs, ¬ e.IsPass)
    (h : (system cfg).run s evs = some t) : t.rfd = s.rfd := by
  have hg : (system cfg).Guarded (fun _ e ↦ True ∧ ¬ e.IsPass) s evs :=
    (Machine.guarded_true s evs).and_forall hevs
  refine hg.invariant (P := fun u ↦ u.rfd = s.rfd) ?_ rfl h
  rintro u e v hu ⟨-, he⟩ hv
  cases e with
  | pass io => exact absurd trivial he
  | call st a | ctrl op =>
      cases hv
      exact hu

/-- The ring holds nothing for the old file. -/
theorem rest_eq_nil_iff {cfg : ValidRingConfig} (hN : 0 < cfg.rcSize) (h : RingOk cfg 0 s.toShm) :
    pendingRecords cfg s ++ s.activeRecords = [] ↔ s.ri.riFlush = 0 ∧ s.ri.riSlot = -1 := by
  have hactive : s.activeRecords = [] ↔ s.ri.riSlot = -1 := by
    have hge := h.slot_ge
    rw [← List.length_eq_zero_iff, Shm.activeRecords, length_bufRecords]
    omega
  rw [List.append_eq_nil_iff, hactive, ← not_iff_not.1 (@pendingRecords_ne_nil_iff cfg s hN)]

/-- **Close and open.**  An accepted open is served with the path that was asked for, and
costs a pending close nothing, exactly if no close is pending, or the old file has all its
records already and the path asked for is the empty one. -/
theorem handover_iff (cfg : ValidRingConfig) (hN : 0 < cfg.rcSize) {disk : Disk}
    {evs : List Event} {path : CStr} {s : Sys}
    (hrun : (system cfg).run (rbtraceDaemonInit cfg disk) evs = some s)
    (hevs : ∀ e ∈ evs, e.IoOk) (hret : (rbtraceCtrl (.open (some path)) s.toShm).2 = 0) :
    (OpensRequested cfg path s ∧ (s.ri.riFlags.doClose = true → SavesRest cfg path s)) ↔
      s.ri.riFlags.doClose = false ∨ (path = [] ∧ s.ri.riFlush = 0 ∧ s.ri.riSlot = -1) := by
  obtain ⟨hf, hb⟩ := backed_of_run hevs hrun
  obtain ⟨hring, -⟩ := ok_of_run hN hrun
  constructor
  · rintro ⟨hpath, hrest⟩
    rw [or_iff_not_imp_left, Bool.not_eq_false]
    intro hc
    refine ⟨opensRequested_path_nil hf hb hc hret hpath, (rest_eq_nil_iff hN hring).1 ?_⟩
    obtain ⟨-, hsub⟩ := hrest hc [] _ .smooth (by simp) PassIo.smooth_ok rfl
    rw [writes_of_requestOpen hc hret] at hsub
    exact List.sublist_nil.1 hsub
  · intro h
    have hnil : s.ri.riFlags.doClose = true → path = [] := by
      rintro hc
      rcases h with h | h
      · exact absurd hc (Bool.eq_false_iff.1 h)
      · exact h.1
    refine ⟨(handing_of_open hf hb hret hnil).opensRequested, ?_⟩
    rintro hc evs t io hevs - ht
    have hempty : pendingRecords cfg s ++ s.activeRecords = [] := by
      rcases h with h | h
      · exact absurd hc (Bool.eq_false_iff.1 h)
      · exact (rest_eq_nil_iff hN hring).2 h.2
    have hrfd : t.rfd = (s.requestOpen path).rfd := rfd_of_noPass hevs ht
    refine ⟨congrArg RingFileData.fd hrfd, ?_⟩
    rw [hempty]
    exact List.nil_sublist _

/-- One record is traced to a first file in zap mode, and its close is requested. -/
def closeRequested : List Event :=
  [.ctrl (.zap (some true)), .ctrl (.open (some [116])), .pass .smooth, .trace 2, .ctrl .close]

theorem closeRequested_ioOk : ∀ e ∈ closeRequested ++ [.pass .smooth], e.IoOk := by
  simp [closeRequested, Event.IoOk, Event.trace, PassIo.smooth_ok]

/-- Once the closing pass has been made, the next open is safe. -/
theorem handover_afterClose : ∃ s,
    (system twoRing).run (rbtraceDaemonInit twoRing fun _ ↦ none)
      (closeRequested ++ [.pass .smooth]) = some s ∧
    (rbtraceCtrl (.open (some [117])) s.toShm).2 = 0 ∧
    OpensRequested twoRing [117] s ∧ (s.ri.riFlags.doClose = true → SavesRest twoRing [117] s) := by
  have h : ∃ s ∈ (system twoRing).run (rbtraceDaemonInit twoRing fun _ ↦ none)
      (closeRequested ++ [.pass .smooth]),
      (rbtraceCtrl (.open (some [117])) s.toShm).2 = 0 ∧ s.ri.riFlags.doClose = false := by decide
  obtain ⟨s, hrun, hret, hc⟩ := h
  exact ⟨s, hrun, hret, (handover_iff twoRing (by decide) hrun closeRequested_ioOk hret).2 (.inl hc)⟩

/-- Before it, the next open takes the record from the first file and loses its own
path. -/
theorem handover_beforeClose : ∃ s,
    (system twoRing).run (rbtraceDaemonInit twoRing fun _ ↦ none) closeRequested = some s ∧
    (rbtraceCtrl (.open (some [117])) s.toShm).2 = 0 ∧ s.ri.riFlags.doClose = true ∧
    ¬ OpensRequested twoRing [117] s ∧ ¬ SavesRest twoRing [117] s := by
  have h : ∃ s ∈ (system twoRing).run (rbtraceDaemonInit twoRing fun _ ↦ none) closeRequested,
      (rbtraceCtrl (.open (some [117])) s.toShm).2 = 0 ∧ s.ri.riFlags.doClose = true ∧
        s.activeRecords.map RbtraceEntry.traceid = [2] := by decide
  obtain ⟨s, hrun, hret, hc, hactive⟩ := h
  obtain ⟨hf, hb⟩ := backed_of_run
    (fun e he ↦ closeRequested_ioOk e (List.mem_append_left _ he)) hrun
  refine ⟨s, hrun, hret, hc, fun hpath ↦ ?_, fun hrest ↦ ?_⟩
  · exact absurd (opensRequested_path_nil hf hb hc hret hpath) (by decide)
  · obtain ⟨-, hsub⟩ := hrest [] _ .smooth (by simp) PassIo.smooth_ok rfl
    rw [writes_of_requestOpen hc hret] at hsub
    rw [(List.append_eq_nil_iff.1 (List.sublist_nil.1 hsub)).2] at hactive
    cases hactive

end Rbtrace
