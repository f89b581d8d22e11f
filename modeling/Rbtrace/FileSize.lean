import Rbtrace.FailedWrite
import Rbtrace.Reconfigure

/-!
# The size of a trace file

The limit is looked at after a write, and what happens then depends on the mode: the file
is closed, the next write goes back to the first record, or a new file is begun.  In all
of them the place of the next write is in front of the limit, or is the first record
(`Within`), so that one buffer more is all that a file can get.  A close is the exception:
it writes both buffers, and the limit does not matter to it.
-/

namespace Rbtrace

open CInt

/-! ## An open file exists -/

section

variable {cfg : RingConfig} {s t : Sys} {fd : Option CStr} {disk : Disk} {path : CStr}

/-- The descriptor refers to a file. -/
def Grounded (s : Sys) : Prop := ∀ path, s.rfd.fd = some path → s.disk path ≠ none

/-- Only the descriptor and the files matter. -/
theorem Grounded.of_frame (h : Grounded s) (hdisk : t.disk = s.disk)
    (hfd : t.rfd.fd = none ∨ t.rfd.fd = s.rfd.fd) : Grounded t := by
  intro path hpath
  rcases hfd with hfd | hfd
  · exact nomatch hfd.symm.trans hpath
  · rw [hdisk]
    exact h path (hfd.symm.trans hpath)

/-- A write leaves the file it writes to. -/
theorem pwriteFd_ne_none (outs : List PwriteOutcome) (buf : List UInt8) (off : Nat) :
    (pwriteFd outs disk (some path) buf off).1 path ≠ none := by
  simp only [pwriteFd, Function.update_self]
  exact Option.some_ne_none _

theorem grounded_rbtraceWriteHeader (cfg : RingConfig) (io : HeaderIo) (s : Sys) :
    Grounded (rbtraceWriteHeader cfg io s) := by
  have habandon : ∀ s, Grounded (abandonFile s) := fun _ _ h ↦ nomatch h
  unfold rbtraceWriteHeader
  split
  · exact habandon _
  · dsimp only
    split <;> rename_i hopen
    · obtain ⟨hsnd, hfd⟩ := openFile_snd cfg s.ri.riFlags.doZap io s
      intro path hpath
      obtain rfl := Option.some.inj ((hfd (hsnd.1 hopen)).symm.trans hpath)
      have hok := (hsnd.1 hopen).2
      simp only [openFile, (hsnd.1 hopen).1, pwriteFd_some_snd, hok, if_true]
      exact pwriteFd_ne_none _ _ _
    · exact habandon _

theorem grounded_writeBuffer (outs : List PwriteOutcome) (off n : Nat) (s : Sys) :
    Grounded (writeBuffer outs off n s).1 := by
  intro path hpath
  unfold writeBuffer at hpath ⊢
  dsimp only at hpath ⊢
  split_ifs at hpath ⊢
  all_goals
    rw [show s.rfd.fd = some path from hpath]
    exact pwriteFd_ne_none _ _ _

theorem Grounded.limitReached (h : Grounded s) (io : DataIo) (upd : Bool) :
    Grounded (limitReached cfg io s upd).1 := by
  unfold Rbtrace.limitReached
  split_ifs
  · exact h
  · exact h.of_frame rfl (.inr rfl)
  · exact grounded_rbtraceWriteHeader cfg io.reopen (closeFd s)
  · exact h.of_frame rfl (.inl rfl)
  · exact h

theorem Grounded.updateHeader (h : Grounded s) (outs : List PwriteOutcome) (upd : Bool) :
    Grounded (updateHeader outs upd s) := by
  unfold Rbtrace.updateHeader
  split
  · intro path hpath
    rw [show s.rfd.fd = some path from hpath]
    exact pwriteFd_ne_none _ _ _
  · exact h

theorem Grounded.takeCounters (h : Grounded s) (io : DataIo) : Grounded (takeCounters cfg io s) := by
  obtain ⟨hrfd, -, hdisk, -⟩ := takeCounters_frame cfg io s
  exact h.of_frame hdisk (.inr (congrArg RingFileData.fd hrfd))

/-- A write leaves the file open, closes it or opens another one. -/
theorem grounded_of_rbtraceWriteData {io : DataIo} {doFlush : Bool}
    (ht : rbtraceWriteData cfg io doFlush s = some t) : Grounded t := by
  unfold rbtraceWriteData at ht
  dsimp only at ht
  split_ifs at ht
  · cases ht
    exact (((grounded_writeBuffer _ _ _ _).limitReached _ _).updateHeader _ _).takeCounters _
  · cases ht
    exact (grounded_writeBuffer _ _ _ _).takeCounters _

/-- A pass: after a close no file is open. -/
theorem Grounded.rbtraceThreadFn {io : PassIo} (h : Grounded s) (hf : FlagsOk s.ctl)
    (ht : rbtraceThreadFn cfg io s = some t) : Grounded t := by
  have hctl := rbtraceThreadFn_ctl hf ht
  have hinactive : ∀ {u}, flushInactive cfg io.inactive s = some u → Grounded u := by
    intro u hu
    unfold flushInactive at hu
    split at hu
    · exact grounded_of_rbtraceWriteData hu
    · cases hu
      exact h
  by_cases hc : s.ri.riFlags.doClose = true
  · have hfd : t.rfd.fd = none := by
      rw [passCtl, if_pos hc] at hctl
      exact congrArg Ctl.fd hctl
    exact fun path hpath ↦ nomatch hfd.symm.trans hpath
  · unfold Rbtrace.rbtraceThreadFn at ht
    rw [if_neg hc] at ht
    split_ifs at ht
    · cases ht
      exact grounded_rbtraceWriteHeader cfg io.header s
    · obtain ⟨u, hu, ht⟩ := Option.bind_eq_some_iff.1 ht
      rw [flushActive, if_neg (Bool.eq_false_iff.1
        (doFlush_of_flushInactive hf (Bool.eq_false_iff.2 hc) hu))] at ht
      cases ht
      exact hinactive hu
    · cases ht
      exact h

end

/-- **An open file exists**, in every state, however the I/O goes. -/
theorem grounded_of_run {cfg : ValidRingConfig} {disk : Disk} {evs : List Event} {s : Sys}
    (h : (system cfg).run (rbtraceDaemonInit cfg disk) evs = some s) : Grounded s := by
  have hinit : Grounded (rbtraceDaemonInit cfg disk) := fun _ h ↦ nomatch h
  refine (Machine.run_invariant (P := fun s ↦ FlagsOk s.ctl ∧ Grounded s) ?_
    ⟨FlagsOk.rbtraceDaemonInit cfg disk, hinit⟩ h).2
  rintro s e t ⟨hf, hg⟩ ht
  refine ⟨hf.step ht, ?_⟩
  cases e with
  | pass io => exact hg.rbtraceThreadFn hf ht
  | call st a =>
      cases ht
      exact hg.of_frame rfl (.inr rfl)
  | ctrl op =>
      cases ht
      exact hg.of_frame rfl (.inr rfl)

/-! ## Where the next write goes -/

section

variable {cfg : RingConfig} {path : CStr} {K pos : Nat} {s t : Sys}

/-- The file at `path` has at most `K` bytes, and if it is open, the next write goes to
`pos` or in front of it. -/
structure Within (path : CStr) (K pos : Nat) (s : Sys) : Prop where
  size : fileSize s.disk path ≤ K
  pos : s.rfd.fd = some path → s.writePos ≤ pos

/-- Only the files, the mode and the header matter. -/
theorem Within.of_frame (h : Within path K pos s) (hdisk : t.disk = s.disk)
    (hrfd : t.rfd.fd = none ∨ t.rfd = s.rfd) (hhdr : t.hdr = s.hdr)
    (hw : t.ri.riFlags.doWrap = s.ri.riFlags.doWrap) : Within path K pos t := by
  refine ⟨hdisk ▸ h.size, fun hfd ↦ ?_⟩
  rcases hrfd with hrfd | hrfd
  · exact nomatch hrfd.symm.trans hfd
  · rw [Sys.writePos, hrfd, hhdr, hw]
    exact h.pos (hrfd ▸ hfd)

theorem Within.mono (h : Within path K pos s) {pos' : Nat} (hle : pos ≤ pos') :
    Within path K pos' s := ⟨h.size, fun hfd ↦ (h.pos hfd).trans hle⟩

/-- What has been written to is long enough, and no longer than it has to be. -/
theorem fileSize_pwriteFd {outs : List PwriteOutcome} (hio : NoError outs) {disk : Disk}
    {fd : Option CStr} {buf : List UInt8} {off : Nat} (hsize : fileSize disk path ≤ K)
    (hend : fd = some path → off + buf.length ≤ K) :
    fileSize (pwriteFd outs disk fd buf off).1 path ≤ K := by
  cases fd with
  | none => exact hsize
  | some q =>
      rw [pwriteFd_of_noError hio]
      dsimp only
      by_cases hq : path = q
      · subst hq
        unfold fileSize at hsize ⊢
        rw [Function.update_self, Option.getD_some, transfer]
        split
        · exact hsize
        · rw [List.length_splice]
          exact max_le hsize (hend rfl)
      · unfold fileSize
        rw [Function.update_of_ne hq]
        exact hsize

/-- An `open` that creates a file makes it an empty one. -/
theorem fileSize_touch (disk : Disk) (q path : CStr) :
    fileSize (Function.update disk q (some ((disk q).getD []))) path = fileSize disk path := by
  unfold fileSize
  by_cases hq : path = q
  · rw [hq, Function.update_self, Option.getD_some]
  · rw [Function.update_of_ne hq]

/-- A file that has been opened is written from its first record on. -/
theorem within_rbtraceWriteHeader {io : HeaderIo} (hio : io.Ok) (hsize : fileSize s.disk path ≤ K)
    (hK : RBTRACE_FHEADER_SIZE ≤ K) (hpos : RBTRACE_FHEADER_SIZE ≤ pos) :
    Within path K pos (rbtraceWriteHeader cfg io s) := by
  by_cases hfd : s.rfd.fd = none
  · have hopen : io.Opens cfg := hio.opens
    simp only [rbtraceWriteHeader, openFile, hfd, ne_eq, not_true_eq_false, if_false, hopen.1,
      pwriteFd_some_snd, hopen.2, if_true]
    refine ⟨fileSize_pwriteFd hio.pwrites ?_ fun _ ↦ ?_, fun _ ↦ ?_⟩
    · exact (fileSize_touch s.disk _ path).trans_le hsize
    · rwa [PaddedRbtraceFheader.length_toBytes, Nat.zero_add]
    · have hzero : (rbtraceFormatHeader cfg io.ts io.gm).hdr.wrapPos = 0 := rfl
      rw [Sys.writePos, if_neg fun hw ↦ hw.1 hzero]
      exact hpos
  · rw [rbtraceWriteHeader, if_pos hfd]
    exact ⟨hsize, fun h ↦ absurd h (Option.some_ne_none _).symm⟩

/-- The header fits into every file. -/
theorem Within.updateHeader {outs : List PwriteOutcome} (h : Within path K pos s)
    (hio : NoError outs) (hK : RBTRACE_FHEADER_SIZE ≤ K) (upd : Bool) :
    Within path K pos (updateHeader outs upd s) := by
  unfold Rbtrace.updateHeader
  split
  · refine ⟨fileSize_pwriteFd hio h.size fun _ ↦ ?_, h.pos⟩
    rwa [PaddedRbtraceFheader.length_toBytes, Nat.zero_add]
  · exact h

theorem Within.takeCounters (h : Within path K pos s) (io : DataIo) :
    Within path K pos (takeCounters cfg io s) := by
  obtain ⟨hrfd, hhdr, hdisk, -⟩ := takeCounters_frame cfg io s
  refine h.of_frame hdisk (.inr hrfd) hhdr ?_
  exact congrArg (fun c ↦ c.flags.doWrap) (takeCounters_ctl cfg io s)

/-! ## One write -/

variable {io : DataIo} {doFlush : Bool}

/-- A write that goes through moves the position, in the file and in the header, to its
end. -/
theorem dataWrite_of_ok (hio : NoError io.data) (hfd : s.rfd.fd ≠ none) :
    let n := (selectBuffer cfg doFlush s).2
    let t := (dataWrite cfg io doFlush s).1
    (dataWrite cfg io doFlush s).2 = true ∧ t.rfd = ⟨s.rfd.fd, s.writePos + n * sizeofEntry⟩ ∧
      t.writePos = s.writePos + n * sizeofEntry ∧ t.fsize = s.fsize ∧
      t.disk = (pwriteFd io.data s.disk s.rfd.fd (bufferBytes cfg doFlush s) s.writePos).1 := by
  obtain ⟨q, hq⟩ := Option.ne_none_iff_exists'.1 hfd
  simp only [dataWrite, writeBuffer, wrapSeek_seek, hq, pwriteFd_of_noError hio, if_true, true_and]
  unfold Sys.writePos wrapSeek
  by_cases hw : s.hdr.hdr.wrapPos ≠ 0 ∧ s.ri.riFlags.doWrap
  · have hne : s.hdr.hdr.wrapPos + (selectBuffer cfg doFlush s).2 * sizeofEntry ≠ 0 :=
      fun h ↦ hw.1 (Nat.eq_zero_of_add_eq_zero_right h)
    simp only [if_pos hw]
    exact ⟨if_pos ⟨hne, hw.2⟩, trivial, rfl⟩
  · simp only [if_neg hw]
    exact ⟨trivial, trivial, rfl⟩

theorem length_bufferBytes (cfg : RingConfig) (doFlush : Bool) (s : Sys) :
    (bufferBytes cfg doFlush s).length = (selectBuffer cfg doFlush s).2 * sizeofEntry := by
  rw [bufferBytes, Blocks.length_flatMap RbtraceEntry.length_toBytes, length_bufRecords, Nat.mul_comm]

/-- After a write that went through: the limit, the header, the end label. -/
theorem rbtraceWriteData_of_written (hfd : s.rfd.fd ≠ none)
    (hok : (dataWrite cfg io doFlush s).2 = true) :
    ∃ upd, rbtraceWriteData cfg io doFlush s =
      some (takeCounters cfg io (updateHeader io.update
        (limitReached cfg io (dataWrite cfg io doFlush s).1 upd).2
        (limitReached cfg io (dataWrite cfg io doFlush s).1 upd).1)) := by
  unfold dataWrite at hok
  dsimp only at hok
  refine ⟨(wrapSeek s.ri.riFlags.doWrap ((selectBuffer cfg doFlush s).2 * sizeofEntry) s).2, ?_⟩
  simp only [rbtraceWriteData, dataWrite, if_neg hfd, hok, if_true]

/-- The records themselves. -/
theorem Within.data (h : Within path K pos s) (hio : NoError io.data) (hfd : s.rfd.fd ≠ none)
    (hK : s.rfd.fd = some path → pos + (selectBuffer cfg doFlush s).2 * sizeofEntry ≤ K) :
    Within path K (pos + (selectBuffer cfg doFlush s).2 * sizeofEntry)
      (dataWrite cfg io doFlush s).1 := by
  obtain ⟨-, hrfd, hpos, -, hdisk⟩ := @dataWrite_of_ok cfg s io doFlush hio hfd
  refine ⟨?_, fun hopen ↦ ?_⟩
  · rw [hdisk]
    refine fileSize_pwriteFd hio h.size fun hopen ↦ ?_
    rw [length_bufferBytes]
    exact (Nat.add_le_add_right (h.pos hopen) _).trans (hK hopen)
  · rw [hrfd] at hopen
    rw [hpos]
    exact Nat.add_le_add_right (h.pos hopen) _

/-- **What is done about the limit** takes the next write in front of it, or to the first
record. -/
theorem within_limitReached (hsize : fileSize s.disk path ≤ K) (hseek : s.writePos = s.rfd.seek)
    (hio : io.reopen.Ok) (hc : s.ri.riFlags.doClose = false) (hK : RBTRACE_FHEADER_SIZE ≤ K)
    (upd : Bool) :
    Within path K (max (s.fsize.toNat - 1) RBTRACE_FHEADER_SIZE) (limitReached cfg io s upd).1 := by
  unfold limitReached
  split_ifs with hl hc' hw hz
  · exact absurd hc' (Bool.eq_false_iff.1 hc)
  · refine ⟨hsize, fun _ ↦ ?_⟩
    rw [Sys.writePos, if_pos ⟨by exact Nat.succ_ne_zero _, hw⟩]
    exact le_max_right _ _
  · exact @within_rbtraceWriteHeader cfg path K _ (closeFd s) io.reopen hio hsize hK (le_max_right _ _)
  · exact ⟨hsize, fun h ↦ absurd h (Option.some_ne_none _).symm⟩
  · refine ⟨hsize, fun _ ↦ ?_⟩
    rw [hseek]
    exact le_max_of_le_left (Nat.le_sub_one_of_lt (not_le.1 hl))

/-- **A write outside a close.** -/
theorem Within.write (h : Within path K (max (s.fsize.toNat - 1) RBTRACE_FHEADER_SIZE) s)
    (hio : io.Ok) (hfd : s.rfd.fd ≠ none) (hc : s.ri.riFlags.doClose = false)
    (hK : max (s.fsize.toNat - 1) RBTRACE_FHEADER_SIZE +
      (selectBuffer cfg doFlush s).2 * sizeofEntry ≤ K) :
    ∃ t, rbtraceWriteData cfg io doFlush s = some t ∧
      Within path K (max (s.fsize.toNat - 1) RBTRACE_FHEADER_SIZE) t := by
  obtain ⟨hok, hrfd, hpos, hfsize, -⟩ := @dataWrite_of_ok cfg s io doFlush hio.data hfd
  obtain ⟨upd, hwrite⟩ := rbtraceWriteData_of_written hfd hok
  have hhead : RBTRACE_FHEADER_SIZE ≤ K :=
    (le_max_right _ _).trans ((Nat.le_add_right _ _).trans hK)
  have hseek : (dataWrite cfg io doFlush s).1.writePos =
      (dataWrite cfg io doFlush s).1.rfd.seek := by
    rw [hpos, hrfd]
  have hlimit := @within_limitReached cfg path K _ io (h.data hio.data hfd fun _ ↦ hK).size hseek
    hio.reopen (by rwa [dataWrite_ri]) hhead upd
  rw [hfsize] at hlimit
  exact ⟨_, hwrite, (hlimit.updateHeader hio.update hhead _).takeCounters io⟩

/-- **A write of a close** goes on behind the limit. -/
theorem Within.closingWrite (h : Within path K pos s) (hio : io.Ok)
    (hfd : s.rfd.fd ≠ none) (hc : s.ri.riFlags.doClose = true) (hhead : RBTRACE_FHEADER_SIZE ≤ K)
    (hK : s.rfd.fd = some path → pos + (selectBuffer cfg doFlush s).2 * sizeofEntry ≤ K) :
    ∃ t, rbtraceWriteData cfg io doFlush s = some t ∧
      Within path K (pos + (selectBuffer cfg doFlush s).2 * sizeofEntry) t := by
  obtain ⟨hok, -⟩ := @dataWrite_of_ok cfg s io doFlush hio.data hfd
  obtain ⟨upd, hwrite⟩ := rbtraceWriteData_of_written hfd hok
  have hclose : limitReached cfg io (dataWrite cfg io doFlush s).1 upd =
      ((dataWrite cfg io doFlush s).1, upd) := by
    rw [limitReached, dataWrite_ri, if_pos hc, ite_self]
  rw [hclose] at hwrite
  exact ⟨_, hwrite, ((h.data hio.data hfd hK).updateHeader hio.update hhead _).takeCounters io⟩

end

/-! ## Passes and runs -/

/-- The step is the closing pass of the file at `path`. -/
def ClosesFile (path : CStr) (s : Sys) : Event → Prop
  | .pass _ => s.ri.riFlags.doClose = true ∧ s.rfd.fd = some path
  | _ => False

section

variable {cfg : ValidRingConfig} {path : CStr} {limit K : Nat} {s t : Sys}

/-- A run with a fixed limit, and the file at `path`. -/
structure Sized (cfg : ValidRingConfig) (path : CStr) (limit K : Nat) (s : Sys) : Prop where
  ring : RingOk cfg 0 s.toShm
  flags : FlagsOk s.ctl
  backed : Backed s.ctl
  fsize_eq : s.fsize.toNat = limit
  within : Within path K (max (limit - 1) RBTRACE_FHEADER_SIZE) s

/-- Neither buffer has more than `rc_size` records. -/
theorem selectBuffer_le (h : RingOk cfg 0 s.toShm) (doFlush : Bool) :
    (selectBuffer cfg doFlush s).2 * sizeofEntry ≤ sizeofEntry * cfg.rcSize := by
  rw [Nat.mul_comm]
  refine Nat.mul_le_mul_left _ ?_
  cases doFlush with
  | false => rw [selectBuffer_inactive]
  | true =>
      have hlt := h.slot_lt
      rw [selectBuffer_active h]
      omega

/-- **One pass.**  There has to be room for one buffer behind the position, and for two if
the file is being closed. -/
theorem Sized.within_pass {io : PassIo} (h : Sized cfg path limit K s) (hN : 0 < cfg.rcSize)
    (hio : io.Ok) (hK : max (limit - 1) RBTRACE_FHEADER_SIZE + sizeofEntry * cfg.rcSize ≤ K)
    (hclose : ClosesFile path s (.pass io) →
      max (limit - 1) RBTRACE_FHEADER_SIZE + 2 * (sizeofEntry * cfg.rcSize) ≤ K) :
    ∃ t, rbtraceThreadFn cfg io s = some t ∧
      Within path K (max (limit - 1) RBTRACE_FHEADER_SIZE) t := by
  obtain ⟨hring, hf, hb, rfl, hw⟩ := h
  have hlt : cfg.rcSize < 2 ^ 31 := cfg.rcSize_lt_int
  have hhead : RBTRACE_FHEADER_SIZE ≤ K :=
    (le_max_right _ _).trans ((Nat.le_add_right _ _).trans hK)
  by_cases hopen : s.ri.riFlags.doClose = false ∧ s.ri.riFlags.doOpen = true
  · refine ⟨rbtraceWriteHeader cfg io.header s, ?_,
      within_rbtraceWriteHeader hio.header hw.size hhead (le_max_right _ _)⟩
    rw [rbtraceThreadFn, if_neg (Bool.eq_false_iff.1 hopen.1), if_pos hopen.2]
  · set M := max (s.fsize.toNat - 1) RBTRACE_FHEADER_SIZE
    set B := sizeofEntry * cfg.rcSize
    refine @pass_rule Unit cfg s
      (fun u _ ↦ RingOk cfg 0 u.toShm ∧ Within path K (M + if s.ri.riFlags.doClose then B else 0) u)
      (fun u _ ↦ Within path K M u) (fun _ _ _ ↦ []) io [] hf hb ?_ ?_ ?_ ?_ ?_
    · exact fun hc ↦ Bool.eq_false_iff.2 fun ho ↦ hopen ⟨hc, ho⟩
    · exact ⟨hring, hw.mono (Nat.le_add_right _ _)⟩
    · intro hfd _
      have hsel := selectBuffer_le hring false
      rcases Bool.eq_false_or_eq_true s.ri.riFlags.doClose with hc | hc
      · obtain ⟨u, hu, hwu⟩ := @Within.closingWrite cfg path K M s io.inactive false hw hio.inactive hfd
          hc hhead fun _ ↦ (Nat.add_le_add_left hsel _).trans hK
        refine ⟨u, hu, hring.rbtraceWriteData hN hlt hu, ?_⟩
        rw [if_pos hc]
        exact hwu.mono (Nat.add_le_add_left hsel _)
      · obtain ⟨u, hu, hwu⟩ := @Within.write cfg path K s io.inactive false hw hio.inactive hfd hc
          ((Nat.add_le_add_left hsel _).trans hK)
        exact ⟨u, hu, hring.rbtraceWriteData hN hlt hu, hwu.mono (Nat.le_add_right _ _)⟩
    · intro u _ hc hu
      have hwu := hu.2
      rwa [if_neg (Bool.eq_false_iff.1 hc), Nat.add_zero] at hwu
    · intro u _ hctl hfd hcl hu
      have hc : s.ri.riFlags.doClose = true :=
        (congrArg (fun c ↦ c.flags.doClose) hctl).symm.trans hcl
      have hwu := hu.2
      rw [if_pos hc] at hwu
      obtain ⟨v, hv, hwv⟩ := @Within.closingWrite cfg path K (M + B) u io.active true hwu hio.active hfd
        hcl hhead fun hfd ↦ by
          have hroom := hclose ⟨hc, (congrArg Ctl.fd hctl).symm.trans hfd⟩
          have hsel := selectBuffer_le hu.1 true
          omega
      refine ⟨v, hv, (finishClose_disk v).symm ▸ hwv.size, fun h ↦ ?_⟩
      cases (finishClose_fd v).symm.trans h

/-- **One step** of a run in which the limit and wrap mode stay as they are. -/
theorem Sized.step {e : Event} (h : Sized cfg path limit K s) (hN : 0 < cfg.rcSize)
    (hkeep : KeepsMode cfg s e) (hio : e.IoOk)
    (hK : max (limit - 1) RBTRACE_FHEADER_SIZE + sizeofEntry * cfg.rcSize ≤ K)
    (hclose : ClosesFile path s e →
      max (limit - 1) RBTRACE_FHEADER_SIZE + 2 * (sizeofEntry * cfg.rcSize) ≤ K) :
    ∃ t, (system cfg).step s e = some t ∧ Sized cfg path limit K t := by
  have hlt : cfg.rcSize < 2 ^ 31 := cfg.rcSize_lt_int
  obtain ⟨t, ht, hf, hb⟩ := @backed_step_iff cfg s e h.flags h.backed
  obtain ⟨hwrap, hfsize⟩ := hkeep t ht
  refine ⟨t, ht, h.ring.step hN hlt ht, hf, hb.2 (zapReopens_of_ioOk hio), ?_, ?_⟩
  · rw [hfsize, h.fsize_eq]
  · cases e with
    | call st a =>
        cases ht
        exact h.within.of_frame rfl (.inr rfl) rfl hwrap
    | ctrl op =>
        cases ht
        exact h.within.of_frame rfl (.inr rfl) rfl hwrap
    | pass io =>
        obtain ⟨u, hu, hwu⟩ := h.within_pass hN hio hK hclose
        obtain rfl : u = t := Option.some.inj (hu.symm.trans ht)
        exact hwu

/-- **A whole run.** -/
theorem Sized.run {evs : List Event} (h : Sized cfg path limit K s) (hN : 0 < cfg.rcSize)
    (hkeep : (system cfg).Guarded (KeepsMode cfg) s evs) (hio : ∀ e ∈ evs, e.IoOk)
    (hK : max (limit - 1) RBTRACE_FHEADER_SIZE + sizeofEntry * cfg.rcSize ≤ K)
    (hclose : (system cfg).Guarded (fun s e ↦ ClosesFile path s e →
      max (limit - 1) RBTRACE_FHEADER_SIZE + 2 * (sizeofEntry * cfg.rcSize) ≤ K) s evs) :
    ∃ t, (system cfg).run s evs = some t ∧ Sized cfg path limit K t := by
  refine ((hkeep.and hclose).and_forall hio).exists_run ?_ h
  rintro s e hs ⟨⟨hkeep, hclose⟩, hio⟩
  exact hs.step hN hkeep hio hK hclose

end

/-- **The limit bounds the size of a trace file.**  Take any state that the daemon reaches
without I/O failure, a path that does not exist in it, and any run from it that leaves the
limit and the mode as they are.  The file at the path never has more than two buffers
behind the limit (or the header), and as long as it is not being closed, not more than
one. -/
theorem fileSize_le_of_run (cfg : ValidRingConfig) (hN : 1 ≤ cfg.rcSize) {disk : Disk}
    {evs₀ evs : List Event} {s₀ : Sys} {path : CStr}
    (h₀ : (system cfg).run (rbtraceDaemonInit cfg disk) evs₀ = some s₀)
    (hio₀ : ∀ e ∈ evs₀, e.IoOk) (hnew : s₀.disk path = none)
    (hkeep : (system cfg).Guarded (KeepsMode cfg) s₀ evs) (hio : ∀ e ∈ evs, e.IoOk) :
    ∃ s, (system cfg).run s₀ evs = some s ∧
      fileSize s.disk path ≤ max (s₀.fsize.toNat - 1) 512 + 2 * (56 * cfg.rcSize) ∧
      ((system cfg).Guarded (fun s e ↦ ¬ ClosesFile path s e) s₀ evs →
        fileSize s.disk path ≤ max (s₀.fsize.toNat - 1) 512 + 56 * cfg.rcSize) := by
  have hstart : ∀ K, Sized cfg path s₀.fsize.toNat K s₀ := by
    intro K
    obtain ⟨hring, hf⟩ := ok_of_run hN h₀
    refine ⟨hring, hf, (backed_of_run hio₀ h₀).2, rfl, ?_, fun hfd ↦ ?_⟩
    · rw [fileSize, hnew]
      exact Nat.zero_le K
    · exact absurd hnew (grounded_of_run h₀ path hfd)
  obtain ⟨s, hs, h⟩ := (hstart (max (s₀.fsize.toNat - 1) 512 + 2 * (56 * cfg.rcSize))).run hN hkeep hio
    (Nat.add_le_add_left (Nat.le_mul_of_pos_left _ Nat.two_pos) _)
    ((Machine.guarded_true s₀ evs).mono fun _ _ _ _ ↦ le_rfl)
  refine ⟨s, hs, h.within.size, fun hopen ↦ ?_⟩
  obtain ⟨t, ht, h⟩ := (hstart (max (s₀.fsize.toNat - 1) 512 + 56 * cfg.rcSize)).run hN hkeep hio
    le_rfl (hopen.mono fun _ _ hnot hcl ↦ absurd hcl hnot)
  obtain rfl : s = t := Option.some.inj (hs.symm.trans ht)
  exact h.within.size

instance (path : CStr) (s : Sys) : ∀ e, Decidable (ClosesFile path s e)
  | .call _ _ => .isFalse id
  | .pass _ => inferInstanceAs (Decidable (_ ∧ _))
  | .ctrl _ => .isFalse id

/-- Three buffers in wrap mode, in a file for two. -/
theorem fileSize_le_of_run_three : ∃ s,
    (system (ioRing 1 (by decide))).run wrapOfTwo (.ctrl (.open (some [47])) :: threeBuffers) =
      some s ∧ fileSize s.disk [47] ≤ 623 + 56 := by
  have h₀ : (system (ioRing 1 (by decide))).run
      (rbtraceDaemonInit (ioRing 1 (by decide)) fun _ ↦ none)
      [.ctrl (.wrap (some true)), .ctrl (.size (some 624))] = some wrapOfTwo := rfl
  have hio : ∀ e ∈ .ctrl (.open (some [47])) :: threeBuffers, e.IoOk := by
    simp [threeBuffers, Event.IoOk, Event.trace, PassIo.smooth_ok]
  obtain ⟨s, hs, -, hsize⟩ := @fileSize_le_of_run (ioRing 1 (by decide)) (by decide) _ _ _ _ [47] h₀
    (by simp [Event.IoOk]) rfl (by decide) hio
  exact ⟨s, hs, hsize (by decide)⟩

end Rbtrace
