import Rbtrace.System

/-!
# Flags and the file descriptor

The flags live in shared memory, the descriptor in the daemon.  In every state that
whole steps reach, however the I/O goes, the flags are consistent with one another
and an open descriptor is always accounted for by a flag (`FlagsOk`).

The converse, that a flag which asks for writing is always backed by an open
descriptor, is what keeps `rbtrace_write_data` from being entered with `fd == -1`.
It fails in one place: a zap rollover closes the file, and if the next segment cannot
be opened, `rbtrace_write_header` clears `RBTRACE_DO_OPEN` (which was not set) and
leaves `RBTRACE_DO_DISK` on.
-/

namespace Rbtrace

/-! ## Outcomes of positioned writes -/

/-- Whether `safe_pwrite` succeeds does not depend on what is in the file. -/
theorem safePwrite_snd (outs : List PwriteOutcome) (buf : List UInt8) (file file' : List UInt8)
    (off off' : Nat) : (safePwrite outs file buf off).2 = (safePwrite outs file' buf off').2 := by
  induction outs generalizing buf file file' off off' with
  | nil => rfl
  | cons o os ih =>
      cases o with
      | eintr =>
          simp only [safePwrite]
          split
          · rfl
          · exact ih _ _ _ _ _
      | error e =>
          simp only [safePwrite]
          split <;> rfl
      | wrote n =>
          simp only [safePwrite]
          split
          · rfl
          · exact ih _ _ _ _ _

/-- The `pwrite`s with these outcomes get a buffer written. -/
def GetsThrough (outs : List PwriteOutcome) (buf : List UInt8) : Prop :=
  (safePwrite outs [] buf 0).2 = 0

instance (outs : List PwriteOutcome) (buf : List UInt8) : Decidable (GetsThrough outs buf) :=
  inferInstanceAs (Decidable (_ = _))

theorem pwriteFd_some_snd (outs : List PwriteOutcome) (disk : Disk) (path : CStr)
    (buf : List UInt8) (off : Nat) :
    (pwriteFd outs disk (some path) buf off).2 = 0 ↔ GetsThrough outs buf := by
  rw [pwriteFd, GetsThrough, safePwrite_snd outs buf _ []]

/-- A new trace file can be opened and given its header. -/
def HeaderIo.Opens (cfg : RingConfig) (io : HeaderIo) : Prop :=
  io.openError = none ∧ GetsThrough io.pwrites (rbtraceFormatHeader cfg io.ts io.gm).toBytes

instance (cfg : RingConfig) (io : HeaderIo) : Decidable (io.Opens cfg) :=
  inferInstanceAs (Decidable (_ ∧ _))

/-! ## What the daemon's functions do to flags and descriptor -/

/-- The flags and the descriptor. -/
structure Ctl where
  flags : RiFlags
  fd : Option CStr
deriving DecidableEq

/-- The flags and the descriptor of a state. -/
def Sys.ctl (s : Sys) : Ctl := ⟨s.ri.riFlags, s.rfd.fd⟩

/-- What `rbtrace_write_header` does, on a closed file. -/
def Ctl.opened (path : CStr) (opens : Bool) (c : Ctl) : Ctl :=
  if opens then ⟨{ c.flags with doDisk := true, doOpen := false }, some path⟩
  else ⟨{ c.flags with doOpen := false }, none⟩

/-- What reaching the limit does. -/
def Ctl.atLimit (path : CStr) (reopens : Bool) (c : Ctl) : Ctl :=
  if c.flags.doClose then c
  else if c.flags.doWrap then c
  else if c.flags.doZap then Ctl.opened path reopens ⟨c.flags, none⟩
  else ⟨{ c.flags with doDisk := false }, none⟩

/-- Opening a file succeeds exactly if the system calls do, and then it is open. -/
theorem openFile_snd (cfg : RingConfig) (zap : Bool) (io : HeaderIo) (s : Sys) :
    ((openFile cfg zap io s).2 = true ↔ io.Opens cfg) ∧
      (io.Opens cfg → (openFile cfg zap io s).1.rfd.fd = some (headerPath zap io s)) := by
  cases he : io.openError with
  | some e => simp [openFile, HeaderIo.Opens, he]
  | none =>
      simp only [openFile, HeaderIo.Opens, he, pwriteFd_some_snd, true_and]
      split <;> rename_i h
      · exact ⟨iff_of_true rfl h, fun _ ↦ rfl⟩
      · exact ⟨iff_of_false Bool.false_ne_true h, fun h' ↦ absurd h' h⟩

/-- What `rbtrace_write_header` does to flags and descriptor. -/
theorem rbtraceWriteHeader_ctl {cfg : RingConfig} {io : HeaderIo} {s : Sys}
    (hfd : s.rfd.fd = none) :
    (rbtraceWriteHeader cfg io s).ctl =
      s.ctl.opened (headerPath s.ri.riFlags.doZap io s) (io.Opens cfg) := by
  obtain ⟨hsnd, hopen⟩ := openFile_snd cfg s.ri.riFlags.doZap io s
  have hshm := openFile_toShm cfg s.ri.riFlags.doZap io s
  simp only [rbtraceWriteHeader, hfd, ne_eq, not_true_eq_false, if_false, hsnd, Ctl.opened,
    decide_eq_true_eq]
  split <;> rename_i h
  · simp only [Sys.ctl, Sys.mapFlags, hshm, hopen h]
  · simp only [Sys.ctl, Sys.mapFlags, abandonFile, hshm]

/-- What lines 216 to 235 do to flags and descriptor. -/
theorem limitReached_ctl (cfg : RingConfig) (io : DataIo) (s : Sys) (upd : Bool) :
    (limitReached cfg io s upd).1.ctl =
      if s.fsize.toNat ≤ s.rfd.seek then
        s.ctl.atLimit (headerPath s.ri.riFlags.doZap io.reopen s) (io.reopen.Opens cfg)
      else s.ctl := by
  unfold limitReached
  split
  · rw [Ctl.atLimit, show s.ctl.flags = s.ri.riFlags from rfl]
    split
    · rfl
    split
    · rfl
    split
    · exact @rbtraceWriteHeader_ctl cfg io.reopen (closeFd s) rfl
    · rfl
  · rfl

/-! ## One write -/

section

variable {cfg : RingConfig} {io : DataIo} {doFlush : Bool} {s : Sys}

/-- The place in the file the next write goes to. -/
def Sys.writePos (s : Sys) : Nat :=
  if s.hdr.hdr.wrapPos ≠ 0 ∧ s.ri.riFlags.doWrap then s.hdr.hdr.wrapPos else s.rfd.seek

/-- The bytes `rbtrace_write_data` is to write. -/
def bufferBytes (cfg : RingConfig) (doFlush : Bool) (s : Sys) : List UInt8 :=
  (bufRecords s.reBase (selectBuffer cfg doFlush s).1 (selectBuffer cfg doFlush s).2).flatMap
    RbtraceEntry.toBytes

/-- The write goes through and ends at the limit or behind it. -/
def MeetsLimit (cfg : RingConfig) (io : DataIo) (doFlush : Bool) (s : Sys) : Prop :=
  GetsThrough io.data (bufferBytes cfg doFlush s) ∧
    s.fsize.toNat ≤ s.writePos + (selectBuffer cfg doFlush s).2 * sizeofEntry

instance (cfg : RingConfig) (io : DataIo) (doFlush : Bool) (s : Sys) :
    Decidable (MeetsLimit cfg io doFlush s) := inferInstanceAs (Decidable (_ ∧ _))

@[simp] theorem updateHeader_ctl (outs : List PwriteOutcome) (upd : Bool) (s : Sys) :
    (updateHeader outs upd s).ctl = s.ctl := by
  unfold updateHeader
  split <;> rfl

@[simp] theorem takeCounters_ctl (cfg : RingConfig) (io : DataIo) (s : Sys) :
    (takeCounters cfg io s).ctl = s.ctl := by
  unfold takeCounters
  dsimp only
  split
  · exact congrArg (Ctl.mk · s.rfd.fd) (rbtrace_riFlags cfg io.stamps _ _)
  · rfl

theorem wrapSeek_seek (size : Nat) (s : Sys) :
    (wrapSeek s.ri.riFlags.doWrap size s).1.rfd = ⟨s.rfd.fd, s.writePos⟩ := by
  unfold wrapSeek Sys.writePos
  split <;> rfl

/-- **What one write does to flags and descriptor.** -/
theorem rbtraceWriteData_ctl (hfd : s.rfd.fd ≠ none) :
    ∃ t, rbtraceWriteData cfg io doFlush s = some t ∧
      t.ctl = if MeetsLimit cfg io doFlush s then
          s.ctl.atLimit (headerPath s.ri.riFlags.doZap io.reopen s) (io.reopen.Opens cfg)
        else s.ctl := by
  obtain ⟨path, hpath⟩ := Option.ne_none_iff_exists'.1 hfd
  set buf := selectBuffer cfg doFlush s with hbuf
  set s₁ := wrapSeek s.ri.riFlags.doWrap (buf.2 * sizeofEntry) s with hs₁
  have hshm : s₁.1.toShm = s.toShm := wrapSeek_toShm _ _ s
  have hrfd : s₁.1.rfd = ⟨s.rfd.fd, s.writePos⟩ := wrapSeek_seek _ s
  have hrun : rbtraceWriteData cfg io doFlush s =
      let s₂ := writeBuffer io.data buf.1 buf.2 s₁.1
      if s₂.2 then
        let s₃ := limitReached cfg io s₂.1 s₁.2
        some (takeCounters cfg io (updateHeader io.update s₃.2 s₃.1))
      else some (takeCounters cfg io s₂.1) := if_neg hfd
  rw [hrun]
  by_cases hg : GetsThrough io.data (bufferBytes cfg doFlush s)
  · have hwrite : writeBuffer io.data buf.1 buf.2 s₁.1 = _ := if_pos (by
      rw [hrfd, hpath, pwriteFd_some_snd, hshm]
      exact hg)
    rw [hwrite]
    refine ⟨_, rfl, ?_⟩
    rw [takeCounters_ctl, updateHeader_ctl, limitReached_ctl]
    simp only [MeetsLimit, hg, true_and, Sys.ctl, headerPath, hshm, hrfd, ← hbuf]
  · have hwrite : writeBuffer io.data buf.1 buf.2 s₁.1 = _ := if_neg (by
      rw [hrfd, hpath, pwriteFd_some_snd, hshm]
      exact hg)
    rw [hwrite]
    refine ⟨_, rfl, ?_⟩
    rw [takeCounters_ctl, if_neg fun hm ↦ hg hm.1]
    simp only [Sys.ctl, hshm, hrfd]

end

/-! ## Flags in order -/

/-- What holds of flags and descriptor between whole steps, however the I/O goes. -/
structure FlagsOk (c : Ctl) : Prop where
  /-- A flush is asked for exactly when a close is. -/
  flush_eq : c.flags.doFlush = c.flags.doClose
  close_of_disk : c.flags.doDisk → c.flags.doClose = false
  disk_of_open : c.flags.doOpen → c.flags.doDisk = false
  zap_of_wrap : c.flags.doWrap → c.flags.doZap = false
  /-- An open descriptor is accounted for by a flag. -/
  flag_of_fd : c.fd ≠ none → c.flags.doDisk ∨ c.flags.doClose

/-- A flag that makes the daemon write is backed by an open descriptor. -/
def Backed (c : Ctl) : Prop := c.flags.doDisk ∨ c.flags.doClose → c.fd ≠ none

/-- Outside a close an open descriptor means that the flags ask for writing. -/
theorem FlagsOk.doDisk_of_fd {c : Ctl} (h : FlagsOk c) (hfd : c.fd ≠ none)
    (hc : c.flags.doClose = false) : c.flags.doDisk = true :=
  (h.flag_of_fd hfd).resolve_right (Bool.eq_false_iff.1 hc)

/-- With a file to be opened and no close before it, no file is open. -/
theorem FlagsOk.fd_eq_none {c : Ctl} (h : FlagsOk c) (ho : c.flags.doOpen = true)
    (hc : c.flags.doClose = false) : c.fd = none := by
  by_contra hfd
  exact Bool.eq_false_iff.1 (h.disk_of_open ho) (h.doDisk_of_fd hfd hc)

/-- A close in progress shields the file from the limit. -/
theorem Ctl.atLimit_of_close {c : Ctl} (h : c.flags.doClose = true) (path : CStr)
    (reopens : Bool) : c.atLimit path reopens = c := if_pos h

/-- The limit has nothing to do with `RBTRACE_DO_FLUSH`. -/
theorem Ctl.atLimit_doFlush (c : Ctl) (path : CStr) (reopens : Bool) :
    (c.atLimit path reopens).flags.doFlush = c.flags.doFlush := by
  unfold Ctl.atLimit Ctl.opened
  split_ifs <;> rfl

/-- The limit does not put the flags in disorder. -/
theorem FlagsOk.atLimit {c : Ctl} (h : FlagsOk c) (path : CStr) (reopens : Bool) :
    FlagsOk (c.atLimit path reopens) := by
  obtain ⟨h₁, h₂, h₃, h₄, h₅⟩ := h
  unfold Ctl.atLimit
  split_ifs with hc hw hz
  · exact ⟨h₁, h₂, h₃, h₄, h₅⟩
  · exact ⟨h₁, h₂, h₃, h₄, h₅⟩
  · unfold Ctl.opened
    split
    · exact ⟨h₁, fun _ ↦ by simpa using hc, by simp, h₄, fun _ ↦ .inl rfl⟩
    · exact ⟨h₁, h₂, by simp, h₄, by simp⟩
  · exact ⟨h₁, by simp, fun _ ↦ rfl, h₄, by simp⟩

theorem FlagsOk.opened {c : Ctl} (h : FlagsOk c) (hc : c.flags.doClose = false) (path : CStr)
    (opens : Bool) : FlagsOk (c.opened path opens) := by
  obtain ⟨h₁, h₂, h₃, h₄, h₅⟩ := h
  unfold Ctl.opened
  split
  · exact ⟨h₁, fun _ ↦ hc, by simp, h₄, fun _ ↦ .inl rfl⟩
  · exact ⟨h₁, h₂, by simp, h₄, by simp⟩

/-! ## One pass -/

section

variable {cfg : RingConfig} {io : PassIo} {s t : Sys}

/-- What a pass does to flags and descriptor. -/
def passCtl (cfg : RingConfig) (io : PassIo) (s : Sys) : Ctl :=
  if s.ri.riFlags.doClose then
    ⟨{ s.ri.riFlags with doFlush := false, doClose := false }, none⟩
  else if s.ri.riFlags.doOpen then
    s.ctl.opened (headerPath s.ri.riFlags.doZap io.header s) (io.header.Opens cfg)
  else if s.ri.riFlags.doDisk ∧ s.ri.riFlush ≠ 0 ∧ MeetsLimit cfg io.inactive false s then
    s.ctl.atLimit (headerPath s.ri.riFlags.doZap io.inactive.reopen s)
      (io.inactive.reopen.Opens cfg)
  else s.ctl

/-- A write succeeds only on an open file, and then `rbtraceWriteData_ctl` applies. -/
theorem ctl_of_rbtraceWriteData {io : DataIo} {doFlush : Bool}
    (h : rbtraceWriteData cfg io doFlush s = some t) :
    s.rfd.fd ≠ none ∧ t.ctl = if MeetsLimit cfg io doFlush s then
        s.ctl.atLimit (headerPath s.ri.riFlags.doZap io.reopen s) (io.reopen.Opens cfg)
      else s.ctl := by
  have hfd : s.rfd.fd ≠ none := fun hn ↦ by
    rw [rbtraceWriteData, if_pos hn] at h
    cases h
  obtain ⟨t', ht', hctl⟩ := @rbtraceWriteData_ctl cfg io doFlush s hfd
  obtain rfl : t' = t := Option.some.inj (ht'.symm.trans h)
  exact ⟨hfd, hctl⟩

/-- While a close is pending, a write changes neither flags nor descriptor. -/
theorem ctl_of_rbtraceWriteData_of_close {io : DataIo} {doFlush : Bool}
    (hc : s.ri.riFlags.doClose = true) (h : rbtraceWriteData cfg io doFlush s = some t) :
    s.rfd.fd ≠ none ∧ t.ctl = s.ctl := by
  obtain ⟨hfd, ht⟩ := ctl_of_rbtraceWriteData h
  refine ⟨hfd, ?_⟩
  rw [ht, Ctl.atLimit_of_close hc, ite_self]

/-- **What a pass does to flags and descriptor**, if it does not crash. -/
theorem rbtraceThreadFn_ctl (hf : FlagsOk s.ctl) (ht : rbtraceThreadFn cfg io s = some t) :
    t.ctl = passCtl cfg io s := by
  have hflush : s.ri.riFlags.doFlush = s.ri.riFlags.doClose := hf.flush_eq
  unfold rbtraceThreadFn at ht
  unfold passCtl
  split at ht
  · rename_i hc
    rw [if_pos hc]
    obtain ⟨u, hu, ht⟩ := Option.bind_eq_some_iff.1 ht
    obtain ⟨v, hv, rfl⟩ := Option.map_eq_some_iff.1 ht
    have hu' : u.ctl = s.ctl := by
      unfold flushInactive at hu
      split at hu
      · exact (ctl_of_rbtraceWriteData_of_close hc hu).2
      · cases hu
        rfl
    have huf : u.ri.riFlags = s.ri.riFlags := congrArg Ctl.flags hu'
    have hv' : v.ctl = ⟨{ s.ri.riFlags with doFlush := false }, s.rfd.fd⟩ := by
      rw [flushActive, if_pos (by rw [huf, hflush, hc])] at hv
      obtain ⟨w, hw, rfl⟩ := Option.map_eq_some_iff.1 hv
      have hwc := (ctl_of_rbtraceWriteData_of_close (by rw [huf, hc]) hw).2.trans hu'
      obtain ⟨hwf, hwd⟩ := Ctl.mk.injEq .. ▸ hwc
      simp only [Sys.ctl, Sys.mapFlags, hwf, hwd]
    obtain ⟨hvf, hvd⟩ := Ctl.mk.injEq .. ▸ hv'
    unfold closeFile
    split <;> rename_i hfd
    · simp only [Sys.ctl, Sys.mapFlags, closeFd, hvf]
    · simp only [Sys.ctl, Sys.mapFlags, hvf, not_not.1 hfd]
  · rename_i hc
    rw [if_neg hc]
    split at ht
    · rename_i ho
      rw [if_pos ho]
      cases ht
      exact rbtraceWriteHeader_ctl (hf.fd_eq_none ho (Bool.eq_false_iff.2 hc))
    · rename_i ho
      rw [if_neg ho]
      split at ht
      · rename_i hd
        obtain ⟨u, hu, ht⟩ := Option.bind_eq_some_iff.1 ht
        have hnf : ¬ s.ri.riFlags.doFlush = true := hflush ▸ hc
        have hu' : u.ctl = if s.ri.riFlags.doDisk ∧ s.ri.riFlush ≠ 0 ∧
            MeetsLimit cfg io.inactive false s then
              s.ctl.atLimit (headerPath s.ri.riFlags.doZap io.inactive.reopen s)
                (io.inactive.reopen.Opens cfg)
            else s.ctl := by
          unfold flushInactive at hu
          split at hu <;> rename_i hfl
          · simp only [(ctl_of_rbtraceWriteData hu).2, hd, hfl, ne_eq, not_false_eq_true, true_and]
          · cases hu
            rw [if_neg fun h ↦ hfl h.2.1]
        have huf : u.ri.riFlags.doFlush = s.ri.riFlags.doFlush := by
          change u.ctl.flags.doFlush = s.ctl.flags.doFlush
          rw [hu']
          split
          · exact Ctl.atLimit_doFlush _ _ _
          · rfl
        rw [flushActive, if_neg (huf ▸ hnf)] at ht
        cases ht
        exact hu'
      · rename_i hd
        cases ht
        rw [if_neg fun h ↦ hd h.1]

/-- A pass does not put the flags in disorder. -/
theorem FlagsOk.passCtl (hf : FlagsOk s.ctl) : FlagsOk (passCtl cfg io s) := by
  unfold Rbtrace.passCtl
  split_ifs with hc ho hd
  · obtain ⟨h₁, h₂, h₃, h₄, h₅⟩ := hf
    exact ⟨rfl, fun _ ↦ rfl, h₃, h₄, by simp⟩
  · exact hf.opened (Bool.eq_false_iff.2 hc) _ _
  · exact hf.atLimit _ _
  · exact hf

/-- No close is pending after a pass. -/
theorem passCtl_doClose (cfg : RingConfig) (io : PassIo) (s : Sys) :
    (passCtl cfg io s).flags.doClose = false := by
  unfold Rbtrace.passCtl
  split_ifs with hc ho hd
  · rfl
  · unfold Ctl.opened
    split <;> exact Bool.eq_false_iff.2 hc
  · unfold Ctl.atLimit Ctl.opened
    split_ifs <;> exact Bool.eq_false_iff.2 hc
  · exact Bool.eq_false_iff.2 hc

theorem doClose_of_rbtraceThreadFn (hf : FlagsOk s.ctl) (ht : rbtraceThreadFn cfg io s = some t) :
    t.ri.riFlags.doClose = false := by
  have h := congrArg (fun c ↦ c.flags.doClose) (rbtraceThreadFn_ctl hf ht)
  exact h.trans (passCtl_doClose cfg io s)

/-- A pass that starts with a file behind the flags does not crash. -/
theorem rbtraceThreadFn_isSome (hf : FlagsOk s.ctl) (hb : Backed s.ctl) :
    ∃ t, rbtraceThreadFn cfg io s = some t := by
  have hwrite : ∀ {io : DataIo} {b : Bool} {u : Sys}, u.rfd.fd ≠ none →
      ∃ v, rbtraceWriteData cfg io b u = some v := fun hfd ↦
    (rbtraceWriteData_ctl hfd).imp fun _ h ↦ h.1
  unfold rbtraceThreadFn
  split_ifs with hc ho hd
  · have hfd : s.rfd.fd ≠ none := hb (.inr hc)
    obtain ⟨u, hu, hud⟩ : ∃ u, flushInactive cfg io.inactive s = some u ∧ u.rfd.fd ≠ none := by
      unfold flushInactive
      split
      · obtain ⟨u, hu⟩ := @hwrite io.inactive false s hfd
        have huc := (ctl_of_rbtraceWriteData_of_close hc hu).2
        exact ⟨u, hu, (congrArg Ctl.fd huc).trans_ne hfd⟩
      · exact ⟨s, rfl, hfd⟩
    obtain ⟨v, hv⟩ : ∃ v, flushActive cfg io.active u = some v := by
      unfold flushActive
      split
      · obtain ⟨v, hv⟩ := @hwrite io.active true u hud
        exact ⟨_, by rw [hv]; rfl⟩
      · exact ⟨u, rfl⟩
    exact ⟨_, by rw [hu, Option.bind_some, hv]; rfl⟩
  · exact ⟨_, rfl⟩
  · have hfd : s.rfd.fd ≠ none := hb (.inl hd)
    have hnf : ¬ s.ri.riFlags.doFlush = true := by
      rw [show s.ri.riFlags.doFlush = s.ri.riFlags.doClose from hf.flush_eq]
      exact hc
    unfold flushInactive
    split
    · obtain ⟨u, hu⟩ := @hwrite io.inactive false s hfd
      have huf : u.ri.riFlags.doFlush = s.ri.riFlags.doFlush := by
        change u.ctl.flags.doFlush = s.ctl.flags.doFlush
        rw [(ctl_of_rbtraceWriteData hu).2]
        split
        · exact Ctl.atLimit_doFlush _ _ _
        · rfl
      exact ⟨u, by rw [hu, Option.bind_some, flushActive, if_neg (huf ▸ hnf)]⟩
    · exact ⟨s, by rw [Option.bind_some, flushActive, if_neg hnf]⟩
  · exact ⟨s, rfl⟩

end

/-! ## Whole steps -/

/-- The flags and the descriptor after a control operation. -/
def ctrlCtl (op : RbtraceOp) (s : Sys) : Ctl := ⟨(rbtraceCtrl op s.toShm).1.ri.riFlags, s.rfd.fd⟩

/-- A control operation keeps the flags in order, and a file behind them. -/
theorem FlagsOk.ctrlCtl {s : Sys} (hf : FlagsOk s.ctl) (op : RbtraceOp) :
    FlagsOk (ctrlCtl op s) ∧ (Backed s.ctl → Backed (ctrlCtl op s)) := by
  obtain ⟨h₁, h₂, h₃, h₄, h₅⟩ := id hf
  have hstep := rbtraceCtrl_step op s.toShm
  rw [Rbtrace.ctrlCtl]
  generalize rbtraceCtrl op s.toShm = r at hstep ⊢
  cases hstep with
  | opens path hs =>
      exact ⟨⟨h₁, h₂, fun _ ↦ Bool.eq_false_iff.2 fun h ↦ hs (.inr h), h₄, h₅⟩, id⟩
  | closes hd => exact ⟨⟨rfl, by simp, fun _ ↦ rfl, h₄, fun _ ↦ .inr rfl⟩, fun hb _ ↦ hb (.inl hd)⟩
  | wraps enable hz => exact ⟨⟨h₁, h₂, h₃, fun _ ↦ hz, h₅⟩, id⟩
  | zaps enable hw => exact ⟨⟨h₁, h₂, h₃, fun h ↦ absurd h (Bool.eq_false_iff.1 hw), h₅⟩, id⟩
  | _ => exact ⟨hf, id⟩

/-- **An accepted open**: no file was open or about to be, and the request has
taken over the path, the slot and the counters. -/
theorem rbtraceCtrl_open {path : CStr} {sh : Shm}
    (h : (rbtraceCtrl (.open (some path)) sh).2 = 0) :
    sh.ri.riFlags.doOpen = false ∧ sh.ri.riFlags.doDisk = false ∧
      (rbtraceCtrl (.open (some path)) sh).1 =
        { sh with ri := { sh.ri with
            riFilePath := path, riSlot := -1, riFlush := 0, riLost := 0,
            riFlags := { sh.ri.riFlags with doOpen := true } } } := by
  have hstep := rbtraceCtrl_step (.open (some path)) sh
  generalize rbtraceCtrl (.open (some path)) sh = r at h hstep ⊢
  cases hstep with
  | refused => exact absurd h (show ¬ (-1 : Int) = 0 by decide)
  | opens path hs =>
      obtain ⟨ho, hd⟩ := not_or.1 hs
      exact ⟨Bool.eq_false_iff.2 ho, Bool.eq_false_iff.2 hd, rfl⟩

section

variable {cfg : RingConfig} {s t : Sys} {e : Event}

/-- **Whole steps keep the flags in order**, however the I/O goes. -/
theorem FlagsOk.step (hf : FlagsOk s.ctl) (ht : (system cfg).step s e = some t) :
    FlagsOk t.ctl := by
  cases e with
  | call st a =>
      cases ht
      have : Sys.ctl { s with toShm := (rbtrace cfg st s.toShm a).1 } = s.ctl :=
        congrArg (Ctl.mk · s.rfd.fd) (rbtrace_riFlags cfg st s.toShm a)
      rwa [this]
  | pass io =>
      rw [rbtraceThreadFn_ctl hf ht]
      exact hf.passCtl
  | ctrl op =>
      cases ht
      exact (hf.ctrlCtl op).1

/-- A pass that rolls over to the next zap segment finds the next file willing. -/
def ZapReopens (cfg : RingConfig) (s : Sys) : Event → Prop
  | .pass io =>
      s.ri.riFlags.doDisk → s.ri.riFlags.doZap → s.ri.riFlush ≠ 0 →
        MeetsLimit cfg io.inactive false s → io.inactive.reopen.Opens cfg
  | _ => True

/-- One step keeps a file behind the flags exactly if no zap rollover fails in it. -/
theorem backed_step_iff (hf : FlagsOk s.ctl) (hb : Backed s.ctl) :
    ∃ t, (system cfg).step s e = some t ∧ FlagsOk t.ctl ∧ (Backed t.ctl ↔ ZapReopens cfg s e) := by
  cases e with
  | call st a =>
      have : Sys.ctl { s with toShm := (rbtrace cfg st s.toShm a).1 } = s.ctl :=
        congrArg (Ctl.mk · s.rfd.fd) (rbtrace_riFlags cfg st s.toShm a)
      exact ⟨_, rfl, this.symm ▸ hf, iff_of_true (this.symm ▸ hb) trivial⟩
  | ctrl op =>
      have h := hf.ctrlCtl op
      exact ⟨_, rfl, h.1, iff_of_true (h.2 hb) trivial⟩
  | pass io =>
      obtain ⟨t, ht⟩ := @rbtraceThreadFn_isSome cfg io s hf hb
      refine ⟨t, ht, ?_⟩
      rw [rbtraceThreadFn_ctl hf ht]
      refine ⟨hf.passCtl, ?_⟩
      unfold passCtl ZapReopens
      split_ifs with hc ho hd
      · -- closing: no flag is left that asks for writing
        have hdisk : ¬ s.ri.riFlags.doDisk = true := fun h ↦
          absurd ((hf.close_of_disk h).symm.trans hc) Bool.false_ne_true
        refine iff_of_true ?_ fun h ↦ absurd h hdisk
        rintro (h | h)
        · exact absurd h hdisk
        · exact absurd h Bool.false_ne_true
      · -- opening: on failure neither flag is set
        have hdisk : ¬ s.ri.riFlags.doDisk = true := Bool.eq_false_iff.1 (hf.disk_of_open ho)
        refine iff_of_true ?_ fun h ↦ absurd h hdisk
        unfold Ctl.opened
        split
        · exact fun _ ↦ Option.some_ne_none _
        · rintro (h | h)
          · exact absurd h hdisk
          · exact absurd h hc
      · -- the limit is reached
        obtain ⟨hdisk, hflush, hlimit⟩ := hd
        unfold Ctl.atLimit
        split_ifs with hc' hw hz
        · exact absurd hc' hc
        · have hz : ¬ s.ri.riFlags.doZap = true := Bool.eq_false_iff.1 (hf.zap_of_wrap hw)
          exact iff_of_true hb fun _ h ↦ absurd h hz
        · by_cases hr : io.inactive.reopen.Opens cfg
          · refine iff_of_true ?_ fun _ _ _ _ ↦ hr
            rw [decide_eq_true hr]
            exact fun _ ↦ Option.some_ne_none _
          · refine iff_of_false ?_ fun h ↦ hr (h hdisk hz hflush hlimit)
            rw [decide_eq_false hr]
            exact fun h ↦ h (.inl hdisk) rfl
        · refine iff_of_true ?_ fun _ h ↦ absurd h hz
          rintro (h | h)
          · exact absurd h Bool.false_ne_true
          · exact absurd h hc
      · exact iff_of_true hb fun h₁ _ h₃ h₄ ↦ absurd ⟨h₁, h₃, h₄⟩ hd

end

/-- The flags are in order when the daemon starts. -/
theorem FlagsOk.rbtraceDaemonInit (cfg : ValidRingConfig) (disk : Disk) :
    FlagsOk (Rbtrace.rbtraceDaemonInit cfg disk).ctl := by
  have hflags : (Rbtrace.rbtraceDaemonInit cfg disk).ctl = ⟨{}, none⟩ :=
    congrArg (Ctl.mk · none) cfg.rcFlags_eq
  rw [hflags]
  exact ⟨rfl, by simp, by simp, by simp, by simp⟩

/-- What holds in every state that whole steps reach from the start of the daemon. -/
theorem ok_of_run {cfg : ValidRingConfig} {disk : Disk} {es : List Event} {s : Sys}
    (hpos : 0 < cfg.rcSize)
    (h : (system cfg).run (rbtraceDaemonInit cfg disk) es = some s) :
    RingOk cfg 0 s.toShm ∧ FlagsOk s.ctl := by
  have hlt : cfg.rcSize < 2 ^ 31 := cfg.rcSize_lt_int
  refine Machine.run_invariant (P := fun s : Sys ↦ RingOk cfg 0 s.toShm ∧ FlagsOk s.ctl) ?_ ?_ h
  · exact fun s e t hs ht ↦ ⟨hs.1.step hpos hlt ht, hs.2.step ht⟩
  · exact ⟨RingOk.rbtraceDaemonInit hpos disk, FlagsOk.rbtraceDaemonInit cfg disk⟩

/-- **The daemon writes only to an open file**, in a run of whole steps from the start
of the daemon, exactly as long as no zap rollover fails to open or to head its next
segment. -/
theorem disk_or_close_backed_iff (cfg : ValidRingConfig) (disk : Disk) (es : List Event) :
    (∀ js, js <+: es → ∃ s, (system cfg).run (rbtraceDaemonInit cfg disk) js = some s ∧
      (s.ri.riFlags.doDisk ∨ s.ri.riFlags.doClose → s.rfd.fd ≠ none)) ↔
      (system cfg).Guarded (ZapReopens cfg) (rbtraceDaemonInit cfg disk) es := by
  have hflags : (rbtraceDaemonInit cfg disk).ctl = ⟨{}, none⟩ :=
    congrArg (Ctl.mk · none) cfg.rcFlags_eq
  have hinit : Backed (rbtraceDaemonInit cfg disk).ctl := by
    rw [hflags]
    rintro (h | h) <;> exact absurd h Bool.false_ne_true
  refine Machine.forall_run_iff_guarded (P := fun s : Sys ↦ FlagsOk s.ctl ∧ Backed s.ctl)
    (Q := fun s : Sys ↦ Backed s.ctl) ?_ (fun s h ↦ h.2) ?_ ⟨FlagsOk.rbtraceDaemonInit cfg disk, hinit⟩
  · intro s e hs hok
    obtain ⟨t, ht, hf, hiff⟩ := @backed_step_iff cfg s e hs.1 hs.2
    exact ⟨t, ht, hf, hiff.2 hok⟩
  · intro s e t hs ht hb
    obtain ⟨u, hu, -, hiff⟩ := @backed_step_iff cfg s e hs.1 hs.2
    obtain rfl : t = u := Option.some.inj (ht.symm.trans hu)
    exact hiff.1 hb

/-- The run that breaks it: a ring of one record in zap mode, with a limit that the
first buffer reaches, and a disk that is full when the next segment is to be opened. -/
def failedZapRun : List Event :=
  [.ctrl (.zap (some true)), .ctrl (.size (some 1)), .ctrl (.open (some [47])), .pass .smooth,
    .trace 2, .trace 3,
    .pass { PassIo.smooth with
      inactive := { DataIo.smooth with
        reopen := { HeaderIo.smooth with openError := some ENOSPC } } }]

/-- After that run the flags ask for writing and no file is open; one more full buffer
and the daemon crashes. -/
theorem failedZapRun_unbacked :
    ((system (ioRing 1 (by decide))).run
      (rbtraceDaemonInit (ioRing 1 (by decide)) fun _ ↦ none) failedZapRun).map
        (fun s ↦ (s.ri.riFlags.doDisk, s.rfd.fd)) = some (true, none) ∧
    ((system (ioRing 1 (by decide))).run
      (rbtraceDaemonInit (ioRing 1 (by decide)) fun _ ↦ none)
        (failedZapRun ++ [.trace 4, .pass .smooth])).isNone := by
  decide

end Rbtrace
