import Rbtrace.Writer

/-!
# Wrap mode

In wrap mode the file does not grow past the limit: once a write ends at or behind it,
the next one goes to the start of the records, and the wrap position in the header
says where the oldest record is.  With buffers of `N` records the file holds `k`
buffers, where `k` is the least number of them that reaches the limit, and the `m`-th
write of a buffer goes to place `m % k` (`List.BlockLog`).
-/

namespace Rbtrace

/-! ## What passes write -/

/-- The records one `rbtrace_write_data` puts into the file, if it does. -/
def dataWritten (cfg : RingConfig) (io : DataIo) (doFlush : Bool) (s : Sys) :
    List (List RbtraceEntry) :=
  if s.rfd.fd ≠ none ∧ GetsThrough io.data (bufferBytes cfg doFlush s) then
    [bufRecords s.reBase (selectBuffer cfg doFlush s).1 (selectBuffer cfg doFlush s).2]
  else []

/-- The buffers that a step writes to the file, in order. -/
def writes (cfg : RingConfig) (s : Sys) : Event → List (List RbtraceEntry)
  | .pass io =>
      if s.ri.riFlags.doClose ∨ (s.ri.riFlags.doOpen = false ∧ s.ri.riFlags.doDisk) then
        (if s.ri.riFlush ≠ 0 then dataWritten cfg io.inactive false s else []) ++
          match flushInactive cfg io.inactive s with
          | some u => if u.ri.riFlags.doFlush then dataWritten cfg io.active true u else []
          | none => []
      else []
  | _ => []

/-- The step does not change the mode or the limit. -/
def KeepsMode (cfg : RingConfig) (s : Sys) (e : Event) : Prop :=
  ∀ t, (system cfg).step s e = some t →
    t.ri.riFlags.doWrap = s.ri.riFlags.doWrap ∧ t.fsize = s.fsize

/-- The step is not a closing pass. -/
def NotClosing (s : Sys) : Event → Prop
  | .pass _ => s.ri.riFlags.doClose = false
  | _ => True

/-- The number of buffers that a file with limit `limit` holds in wrap mode. -/
def IsCapacity (cfg : RingConfig) (limit k : Nat) : Prop :=
  IsLeast { k | 1 ≤ k ∧ limit ≤ 512 + k * cfg.rcSize * 56 } k

/-! ## The states of a session -/

section

variable {cfg : ValidRingConfig} {path : CStr} {limit k : Nat} {s t : Sys}
  {bufs : List (List RbtraceEntry)} {es : List RbtraceEntry}

/-- What holds throughout a session in wrap mode. -/
structure WrapMode (cfg : ValidRingConfig) (limit : Nat) (s : Sys) : Prop where
  ring : RingOk cfg 0 s.toShm
  flags : FlagsOk s.ctl
  doWrap : s.ri.riFlags.doWrap = true
  fsize_eq : s.fsize.toNat = limit

/-- The file is open, the buffers `bufs` have been written to it, and it holds the
records `es`. -/
structure WrapFile (cfg : ValidRingConfig) (path : CStr) (k : Nat) (s : Sys)
    (bufs : List (List RbtraceEntry)) (es : List RbtraceEntry) : Prop where
  fd : s.rfd.fd = some path
  file : s.disk path = some (traceFile s.hdr es)
  nrRecords : s.hdr.hdr.nrRecords = cfg.rcSize
  log : List.BlockLog k cfg.rcSize bufs es
  wrapPos : s.hdr.hdr.wrapPos =
    if bufs.length < k then 0
    else RBTRACE_FHEADER_SIZE + sizeofEntry * (bufs.length % k * cfg.rcSize)
  seek : bufs.length < k → s.rfd.seek = RBTRACE_FHEADER_SIZE + sizeofEntry * es.length

/-- The next write goes to place `m % k`. -/
theorem WrapFile.writePos (h : WrapFile cfg path k s bufs es) (hw : s.ri.riFlags.doWrap = true) :
    s.writePos = RBTRACE_FHEADER_SIZE + sizeofEntry * (bufs.length % k * cfg.rcSize) := by
  unfold Sys.writePos
  by_cases hlt : bufs.length < k
  · rw [if_neg (by rw [h.wrapPos, if_pos hlt]; simp), h.seek hlt, h.log.length_eq,
      Nat.mod_eq_of_lt hlt, Nat.min_eq_left hlt.le]
  · have hwp := h.wrapPos
    rw [if_neg hlt] at hwp
    rw [if_pos ⟨by rw [hwp, RBTRACE_FHEADER_SIZE]; omega, hw⟩, hwp]

/-- The limit is reached by the last place, and by no place before it. -/
theorem IsCapacity.le_iff (hk : IsCapacity cfg limit k) {q : Nat} (hq : 1 ≤ q) :
    limit ≤ RBTRACE_FHEADER_SIZE + sizeofEntry * (q * cfg.rcSize) ↔ k ≤ q := by
  have hcomm : ∀ q, 512 + q * cfg.rcSize * 56 =
      RBTRACE_FHEADER_SIZE + sizeofEntry * (q * cfg.rcSize) := fun q ↦ by
    rw [Nat.mul_comm sizeofEntry]
    rfl
  constructor
  · intro h
    exact hk.2 ⟨hq, by rwa [hcomm]⟩
  · intro h
    have h₁ := hk.1.2
    rw [hcomm] at h₁
    exact h₁.trans (Nat.add_le_add_left (Nat.mul_le_mul_left _ (Nat.mul_le_mul_right _ h)) _)

/-- **A normal write of a buffer.** -/
theorem WrapFile.write {io : DataIo} (h : WrapFile cfg path k s bufs es)
    (hm : WrapMode cfg limit s) (hk : IsCapacity cfg limit k) (hio : io.Ok)
    (hc : s.ri.riFlags.doClose = false) :
    ∃ t es', rbtraceWriteData cfg io false s = some t ∧
      WrapFile cfg path k t (bufs ++ [s.altRecords cfg]) es' := by
  have hpos := h.writePos hm.doWrap
  have hkpos : 0 < k := hk.1.1
  have hmod := List.BlockLog.succ_mod_eq hkpos bufs.length
  have hlog : List.BlockLog k cfg.rcSize (bufs ++ [s.altRecords cfg]) _ :=
    h.log.push hkpos .zero (length_bufRecords s.reBase s.ri.riAltOff cfg.rcSize)
  have hend : s.writePos + cfg.rcSize * sizeofEntry =
      RBTRACE_FHEADER_SIZE + sizeofEntry * ((bufs.length % k + 1) * cfg.rcSize) := by
    rw [hpos]
    ring
  have hlimit : s.fsize.toNat ≤ s.writePos + cfg.rcSize * sizeofEntry ↔ bufs.length % k + 1 = k := by
    have hlt := Nat.mod_lt bufs.length hkpos
    rw [hend, hm.fsize_eq, hk.le_iff (by omega)]
    omega
  have hwrite := rbtraceWriteData_of_ok hio h.fd h.file (selectBuffer_inactive cfg s) hpos
    (h.log.next_le hkpos) fun _ ↦ .inr hm.doWrap
  obtain ⟨hrfd, hhdr, hdisk, -⟩ := takeCounters_frame cfg io (s.afterWrite path s.ri.riAltOff
    cfg.rcSize (es.splice .zero (bufs.length % k * cfg.rcSize)
      (bufRecords s.reBase s.ri.riAltOff cfg.rcSize)))
  have hlen : (bufs ++ [s.altRecords cfg]).length = bufs.length + 1 := by simp
  refine ⟨_, _, hwrite, ⟨by rw [hrfd]; rfl, ?_, by rw [hhdr]; exact h.nrRecords, hlog, ?_, ?_⟩⟩
  · rw [hdisk, hhdr]
    exact Function.update_self _ _ _
  · -- the wrap position, once it is set, is that of the next write
    have hwp := h.wrapPos
    rw [hhdr, hlen]
    change s.nextWrapPos cfg.rcSize = _
    simp only [Sys.nextWrapPos, hlimit, hc, hm.doWrap, and_true]
    split
    · rename_i hlast
      have hle := Nat.mod_le bufs.length k
      rw [if_neg (by omega), hmod, if_pos hlast, Nat.zero_mul, Nat.mul_zero, Nat.add_zero]
    · rename_i hlast
      rw [hmod, if_neg hlast]
      by_cases hlt : bufs.length < k
      · rw [if_pos hlt] at hwp
        have hlt' : bufs.length + 1 < k := by
          rw [Nat.mod_eq_of_lt hlt] at hlast
          omega
        rw [if_neg (not_not.2 hwp), hwp, if_pos hlt']
      · rw [if_neg hlt] at hwp
        rw [if_pos (by rw [hwp, RBTRACE_FHEADER_SIZE]; omega), if_neg (by omega), hwp]
        ring
  · intro hlt
    rw [hlen] at hlt
    rw [hrfd, hlog.length_eq, hlen, Nat.min_eq_left hlt.le]
    change s.writePos + cfg.rcSize * sizeofEntry = _
    rw [hend, Nat.mod_eq_of_lt (by omega)]

/-- A session in wrap mode in which the buffers `bufs` have been written: the file is
still to be opened, or it is open. -/
def WrapSession (cfg : ValidRingConfig) (path : CStr) (limit k : Nat) (s : Sys)
    (bufs : List (List RbtraceEntry)) : Prop :=
  WrapMode cfg limit s ∧
    ((bufs = [] ∧ s.disk path = none ∧
        (s.ri.riFlags.doClose = false → s.ri.riFlags.doOpen = true ∧ s.ri.riFilePath = path)) ∨
      ∃ es, WrapFile cfg path k s bufs es)

theorem WrapMode.step {e : Event} (hN : 0 < cfg.rcSize) (h : WrapMode cfg limit s)
    (hkeep : KeepsMode cfg s e) (ht : (system cfg).step s e = some t) : WrapMode cfg limit t where
  ring := h.ring.step hN cfg.rcSize_lt_int ht
  flags := h.flags.step ht
  doWrap := (hkeep t ht).1.trans h.doWrap
  fsize_eq := (congrArg BitVec.toNat (hkeep t ht).2).trans h.fsize_eq

/-- **The pass that opens the file.** -/
theorem WrapSession.openPass {io : PassIo} (hm : WrapMode cfg limit s) (hk : 0 < k)
    (hnew : s.disk path = none) (hc : s.ri.riFlags.doClose = false)
    (ho : s.ri.riFlags.doOpen = true) (hpath : s.ri.riFilePath = path) (hio : io.Ok) :
    ∃ t, rbtraceThreadFn cfg io s = some t ∧ WrapFile cfg path k t [] [] := by
  have hz : s.ri.riFlags.doZap = false := hm.flags.zap_of_wrap hm.doWrap
  have hopen := @rbtraceThreadFn_open cfg s path io hio hm.flags hz hc ho hpath hnew
  exact ⟨_, hopen, ⟨rfl, Function.update_self _ _ _, rfl, List.BlockLog.empty k _,
    (if_pos hk).symm, fun _ ↦ rfl⟩⟩

/-- In an open file's session a pass that does not close is a normal one. -/
theorem WrapFile.normal (h : WrapFile cfg path k s bufs es) (hm : WrapMode cfg limit s)
    (hc : s.ri.riFlags.doClose = false) :
    s.ri.riFlags.doDisk = true ∧ s.ri.riFlags.doOpen = false ∧ s.ri.riFlags.doFlush = false := by
  have hd : s.ri.riFlags.doDisk = true :=
    hm.flags.doDisk_of_fd (h.fd.trans_ne (Option.some_ne_none _)) hc
  refine ⟨hd, ?_, hm.flags.flush_eq.trans hc⟩
  by_contra ho
  exact absurd (hd.symm.trans (hm.flags.disk_of_open (Bool.not_eq_false _ ▸ ho))) (by decide)

/-- **A normal pass** writes the pending buffer, if there is one. -/
theorem WrapFile.pass {io : PassIo} (h : WrapFile cfg path k s bufs es)
    (hm : WrapMode cfg limit s) (hk : IsCapacity cfg limit k) (hio : io.Ok)
    (hc : s.ri.riFlags.doClose = false) :
    ∃ t es', rbtraceThreadFn cfg io s = some t ∧
      WrapFile cfg path k t (bufs ++ writes cfg s (.pass io)) es' := by
  obtain ⟨hd, ho, hf⟩ := h.normal hm hc
  have hrun : rbtraceThreadFn cfg io s =
      (flushInactive cfg io.inactive s).bind (flushActive cfg io.active) := by
    rw [rbtraceThreadFn, if_neg (Bool.eq_false_iff.1 hc), if_neg (Bool.eq_false_iff.1 ho), if_pos hd]
  by_cases hz : s.ri.riFlush = 0
  · have hu : flushInactive cfg io.inactive s = some s := if_neg (not_not.2 hz)
    have hw : writes cfg s (.pass io) = [] := by
      simp only [writes, hu, hz, hf, ne_eq, not_true_eq_false, if_false, Bool.false_eq_true,
        List.nil_append, ite_self]
    refine ⟨s, es, ?_, by rwa [hw, List.append_nil]⟩
    rw [hrun, hu, Option.bind_some, flushActive, if_neg (Bool.eq_false_iff.1 hf)]
  · obtain ⟨t, es', ht, hfile⟩ := h.write hm hk hio.inactive hc
    have hu : flushInactive cfg io.inactive s = some t := (if_pos hz).trans ht
    have htf : t.ri.riFlags.doFlush = false := by
      have := congrArg (fun c ↦ c.flags.doFlush) (ctl_of_rbtraceWriteData ht).2
      refine this.trans ?_
      split
      · exact (Ctl.atLimit_doFlush _ _ _).trans hf
      · exact hf
    have hw : writes cfg s (.pass io) = [s.altRecords cfg] := by
      simp only [writes, hu, hz, hd, ho, htf, ne_eq, not_false_eq_true, if_true, if_false,
        Bool.false_eq_true, List.append_nil, and_self, or_true, dataWritten, h.fd, reduceCtorEq,
        getsThrough_of_noError hio.inactive.data, selectBuffer_inactive]
      rfl
    refine ⟨t, es', ?_, hw ▸ hfile⟩
    rw [hrun, hu, Option.bind_some, flushActive, if_neg (Bool.eq_false_iff.1 htf)]

/-- A step that waits for the file to be opened, or has nothing to do with it. -/
private theorem ctrl_wait {op : RbtraceOp}
    (hwait : s.ri.riFlags.doClose = false → s.ri.riFlags.doOpen = true ∧ s.ri.riFilePath = path)
    (hc : (rbtraceCtrl op s.toShm).1.ri.riFlags.doClose = false) :
    (rbtraceCtrl op s.toShm).1.ri.riFlags.doOpen = true ∧
      (rbtraceCtrl op s.toShm).1.ri.riFilePath = path := by
  have hstep := rbtraceCtrl_step op s.toShm
  generalize rbtraceCtrl op s.toShm = r at hc hstep ⊢
  cases hstep with
  | opens p hs => exact absurd (.inl (hwait hc).1) hs
  | closes hd => exact absurd hc.symm Bool.false_ne_true
  | _ => exact hwait hc

/-- **One step of a session in wrap mode.** -/
theorem WrapSession.step {e : Event} (hN : 0 < cfg.rcSize) (hk : IsCapacity cfg limit k)
    (h : WrapSession cfg path limit k s bufs) (hkeep : KeepsMode cfg s e) (hnc : NotClosing s e)
    (hio : e.IoOk) (ht : (system cfg).step s e = some t) :
    WrapSession cfg path limit k t (bufs ++ writes cfg s e) := by
  obtain ⟨hm, h⟩ := h
  refine ⟨hm.step hN hkeep ht, ?_⟩
  cases e with
  | call st a =>
      cases ht
      rw [show writes cfg s (.call st a) = [] from rfl, List.append_nil]
      rcases h with ⟨hb, hnew, hwait⟩ | ⟨es, h⟩
      · refine .inl ⟨hb, hnew, ?_⟩
        simpa only [rbtrace_riFlags, rbtrace_riFilePath] using hwait
      · exact .inr ⟨es, ⟨h.fd, h.file, h.nrRecords, h.log, h.wrapPos, h.seek⟩⟩
  | ctrl op =>
      cases ht
      rw [show writes cfg s (.ctrl op) = [] from rfl, List.append_nil]
      rcases h with ⟨hb, hnew, hwait⟩ | ⟨es, h⟩
      · exact .inl ⟨hb, hnew, fun hc ↦ ctrl_wait hwait hc⟩
      · exact .inr ⟨es, ⟨h.fd, h.file, h.nrRecords, h.log, h.wrapPos, h.seek⟩⟩
  | pass io =>
      rcases h with ⟨rfl, hnew, hwait⟩ | ⟨es, h⟩
      · obtain ⟨ho, hpath⟩ := hwait hnc
        obtain ⟨t', ht', hfile⟩ := WrapSession.openPass hm hk.1.1 hnew hnc ho hpath hio
        obtain rfl : t' = t := Option.some.inj (ht'.symm.trans ht)
        have hw : writes cfg s (.pass io) = [] :=
          if_neg (not_or.2 ⟨Bool.eq_false_iff.1 hnc, fun h ↦ absurd (h.1.symm.trans ho) (by decide)⟩)
        exact .inr ⟨[], by rwa [hw, List.append_nil]⟩
      · obtain ⟨t', es', ht', hfile⟩ := h.pass hm hk hio hnc
        obtain rfl : t' = t := Option.some.inj (ht'.symm.trans ht)
        exact .inr ⟨es', hfile⟩

/-- A successful open starts a session in wrap mode. -/
theorem wrapSession_of_open (hring : RingOk cfg 0 s.toShm) (hf : FlagsOk s.ctl)
    (hw : s.ri.riFlags.doWrap = true) (hnew : s.disk path = none)
    (hret : (rbtraceCtrl (.open (some path)) s.toShm).2 = 0) :
    WrapSession cfg path s.fsize.toNat k
      { s with toShm := (rbtraceCtrl (.open (some path)) s.toShm).1 } [] := by
  have hflags := (hf.ctrlCtl (.open (some path))).1
  have hok := hring.rbtraceCtrl (.open (some path))
  obtain ⟨-, -, heq⟩ := rbtraceCtrl_open hret
  rw [ctrlCtl, heq] at hflags
  rw [heq] at hok ⊢
  exact ⟨⟨hok, hflags, hw, rfl⟩, .inl ⟨rfl, hnew, fun _ ↦ ⟨rfl, rfl⟩⟩⟩

/-- What the steps of a session in wrap mode have to meet. -/
def WrapStep (cfg : RingConfig) (s : Sys) (e : Event) : Prop :=
  (KeepsMode cfg s e ∧ NotClosing s e) ∧ e.IoOk

/-- **A whole session in wrap mode.** -/
theorem WrapSession.run {evs : List Event} (hN : 0 < cfg.rcSize) (hk : IsCapacity cfg limit k)
    (hg : (system cfg).Guarded (WrapStep cfg) s evs) (hr : (system cfg).run s evs = some t)
    (h : WrapSession cfg path limit k s bufs) :
    WrapSession cfg path limit k t (bufs ++ (system cfg).collect (writes cfg) s evs) :=
  hg.collect_invariant (P := fun s bufs ↦ WrapSession cfg path limit k s bufs)
    (fun _ _ _ _ h hok ht ↦ h.step hN hk hok.1.1 hok.1.2 hok.2 ht) h hr

/-- A reader starts where the header of the file in memory says. -/
theorem WrapFile.listing_eq_rotate {pio : PrbtIo} (h : WrapFile cfg path k s bufs es) (hN : 0 < cfg.rcSize)
    (hk : IsCapacity cfg limit k) (hlimit : limit < 2 ^ 64) (hpio : pio.Ok) {es' : List RbtraceEntry}
    (hle : bufs.length % k * cfg.rcSize ≤ es'.length) :
    listing pio (traceFile s.hdr es') =
      es'.rotate (if bufs.length < k then 0 else bufs.length % k * cfg.rcSize) := by
  have hkpos : 0 < k := hk.1.1
  have hwrap : WrapAt s.hdr (if bufs.length < k then 0 else bufs.length % k * cfg.rcSize) := by
    have hwp := h.wrapPos
    split at hwp <;> rename_i hlt
    · rw [if_pos hlt]
      exact .inl ⟨hwp, rfl⟩
    · rw [if_neg hlt]
      exact .inr hwp
  have hsize : sizeofEntry * s.hdr.hdr.nrRecords < 2 ^ 64 :=
    cfg.pageSize_lt h.nrRecords
  have hlt : s.hdr.hdr.wrapPos < 2 ^ 64 := by
    rw [h.wrapPos]
    split
    · decide
    · rcases Nat.eq_zero_or_pos (bufs.length % k) with hz | hq
      · rw [hz, Nat.zero_mul]
        decide
      · have hno := mt (hk.le_iff hq).1 (Nat.not_le.2 (Nat.mod_lt bufs.length hkpos))
        omega
  refine listing_traceFile hpio (h.nrRecords ▸ hN) hsize hwrap hlt ?_ ?_
  · split
    · exact Nat.zero_le _
    · exact hle
  · right
    rw [h.nrRecords]
    split
    · exact Nat.zero_mod _
    · exact Nat.mul_mod_left _ _

/-- What a reader makes of the file at any moment of the session. -/
theorem WrapFile.listing {pio : PrbtIo} (h : WrapFile cfg path k s bufs es) (hN : 0 < cfg.rcSize)
    (hk : IsCapacity cfg limit k) (hlimit : limit < 2 ^ 64) (hpio : pio.Ok) :
    listing pio (traceFile s.hdr es) = (bufs.drop (bufs.length - k)).flatten := by
  rw [h.listing_eq_rotate hN hk hlimit hpio (h.log.next_le hk.1.1), ← h.log.rotate_eq]
  split <;> rename_i hb
  · rw [List.rotate_zero, Nat.mod_eq_of_lt hb,
      show bufs.length * cfg.rcSize = es.length by rw [h.log.length_eq, Nat.min_eq_left hb.le],
      List.rotate_length]
  · rfl

end

/-- **Retention while tracing.**  In wrap mode the file holds, at every moment before the
close, the last `k` buffers that were written to it, or all of them if they are fewer. -/
theorem listing_of_wrap_session (cfg : ValidRingConfig) (hN : 1 ≤ cfg.rcSize) {disk : Disk}
    {pre evs : List Event} {path : CStr} {s₀ s : Sys} {k : Nat}
    (h₀ : (system cfg).run (rbtraceDaemonInit cfg disk) pre = some s₀)
    (hnew : s₀.disk path = none) (hwrap : s₀.ri.riFlags.doWrap = true)
    (hopen : (rbtraceCtrl (.open (some path)) s₀.toShm).2 = 0)
    (hrun : (system cfg).run s₀ (.ctrl (.open (some path)) :: evs) = some s)
    (hkeep : (system cfg).Guarded (KeepsMode cfg) s₀ (.ctrl (.open (some path)) :: evs))
    (hnormal : (system cfg).Guarded NotClosing s₀ (.ctrl (.open (some path)) :: evs))
    (hio : ∀ e ∈ evs, e.IoOk)
    (hk : IsLeast { k | 1 ≤ k ∧ s₀.fsize.toNat ≤ 512 + k * cfg.rcSize * 56 } k)
    {pio : PrbtIo} (hpio : pio.Ok) {file : List UInt8} (hfile : s.disk path = some file) :
    let bufs := (system cfg).collect (writes cfg) s₀ (.ctrl (.open (some path)) :: evs)
    listing pio file = (bufs.drop (bufs.length - min bufs.length k)).flatten := by
  obtain ⟨hring, hf⟩ := ok_of_run hN h₀
  obtain ⟨s₁, hs₁, hrun'⟩ := (system cfg).run_cons_eq_some.1 hrun
  have hg : (system cfg).Guarded (WrapStep cfg) s₁ evs :=
    ((hkeep.tail hs₁).and (hnormal.tail hs₁)).and_forall hio
  have hs : WrapSession cfg path s₀.fsize.toNat k s₁ [] := by
    cases hs₁
    exact wrapSession_of_open hring hf hwrap hnew hopen
  obtain ⟨-, ⟨-, hnone, -⟩ | ⟨es, h⟩⟩ := hs.run hN hk hg hrun'
  · exact absurd (hnone.symm.trans hfile) (by simp)
  · have hbufs : (system cfg).collect (writes cfg) s₀ (.ctrl (.open (some path)) :: evs) =
        [] ++ (system cfg).collect (writes cfg) s₁ evs := Machine.collect_cons _ hs₁
    obtain rfl : traceFile s.hdr es = file := Option.some.inj (h.file.symm.trans hfile)
    have hmin : ∀ m : Nat, m - min m k = m - k := fun m ↦ by omega
    rw [h.listing hN hk s₀.fsize.isLt hpio, ← hbufs]
    dsimp only
    rw [hmin]

instance (cfg : RingConfig) (s : Sys) (e : Event) : Decidable (KeepsMode cfg s e) :=
  match h : (system cfg).step s e with
  | none => .isTrue fun _ ht ↦ nomatch h.symm.trans ht
  | some u => decidable_of_iff
      (u.ri.riFlags.doWrap = s.ri.riFlags.doWrap ∧ u.fsize = s.fsize)
      ⟨fun hu _ ht ↦ Option.some.inj (h.symm.trans ht) ▸ hu, fun hu ↦ hu u h⟩

instance (s : Sys) : ∀ e, Decidable (NotClosing s e)
  | .call _ _ => .isTrue trivial
  | .pass _ => inferInstanceAs (Decidable (_ = _))
  | .ctrl _ => .isTrue trivial

/-- The daemon of a ring of one record, in wrap mode with a limit of two buffers. -/
def wrapOfTwo : Sys :=
  { rbtraceDaemonInit (ioRing 1 one_mul_sizeofEntry_lt) fun _ ↦ none with
    ri := { (rbtraceInitTraceInfo (ioRing 1 one_mul_sizeofEntry_lt) 0).1 with
      riFlags := { doWrap := true } }
    fsize := 624 }

/-- Three buffers written. -/
def threeBuffers : List Event :=
  [.pass .smooth, .trace 2, .trace 3, .pass .smooth, .trace 4, .pass .smooth, .trace 5,
    .pass .smooth]

theorem listing_of_wrap_session_three : ∃ s file,
    (system (ioRing 1 (by decide))).run
      (rbtraceDaemonInit (ioRing 1 (by decide)) fun _ ↦ none)
      [.ctrl (.wrap (some true)), .ctrl (.size (some 624))] = some wrapOfTwo ∧
    (system (ioRing 1 (by decide))).run wrapOfTwo (.ctrl (.open (some [47])) :: threeBuffers) =
      some s ∧
    s.disk [47] = some file ∧ (listing .smooth file).map RbtraceEntry.traceid = [3, 4] := by
  have hsome : ((system (ioRing 1 (by decide))).run wrapOfTwo
      (.ctrl (.open (some [47])) :: threeBuffers)).isSome := by decide
  obtain ⟨s, hrun⟩ := Option.isSome_iff_exists.1 hsome
  have hdisk : ((system (ioRing 1 (by decide))).run wrapOfTwo
      (.ctrl (.open (some [47])) :: threeBuffers)).map (fun s ↦ (s.disk [47]).isSome) =
      some true := by decide
  rw [hrun] at hdisk
  obtain ⟨file, hfile⟩ := Option.isSome_iff_exists.1 (Option.some.inj hdisk)
  have h₀ : (system (ioRing 1 (by decide))).run
      (rbtraceDaemonInit (ioRing 1 (by decide)) fun _ ↦ none)
      [.ctrl (.wrap (some true)), .ctrl (.size (some 624))] = some wrapOfTwo := rfl
  have hk : IsLeast { k | 1 ≤ k ∧ 624 ≤ 512 + k * 1 * 56 } 2 :=
    ⟨⟨by decide, by decide⟩, fun k hk ↦ by have := hk.2; omega⟩
  have hio : ∀ e ∈ threeBuffers, e.IoOk := by
    simp [threeBuffers, Event.IoOk, Event.trace, PassIo.smooth_ok]
  refine ⟨s, file, h₀, hrun, hfile, ?_⟩
  rw [listing_of_wrap_session (ioRing 1 (by decide)) (by decide) h₀ rfl rfl (by decide) hrun
    (by decide) (by decide) hio hk PrbtIo.smooth_ok hfile]
  decide

end Rbtrace
