import Rbtrace.Prior

/-!
# Changing mode and limit while tracing

`rbtrace_ctrl_wrap` and `rbtrace_ctrl_size` may be issued at any moment between passes.
The wrap position, the write position and the length of the file are then updated under
conditions that read the mode and the limit of the moment.

Read from the wrap position around, the file stays in the order in which its records
were written (`Lapping`), with two exceptions.  Outside wrap mode the writer appends
at its own position and leaves the wrap position where it is; if a lap is under way,
the new records go to where the oldest are taken to be.  And a limit that has been
lowered sends the wrap position back to the first record while older records are still
behind the write.  `Orderly` says of a pass that it does neither.
-/

namespace Rbtrace

variable {cfg : ValidRingConfig} {path : CStr} {s t : Sys} {F S : List RbtraceEntry} {j : Nat}

/-! ## The states of a session -/

/-- The open of a new file has been requested. -/
structure Requested (path : CStr) (s : Sys) : Prop where
  noZap : s.ri.riFlags.doZap = false
  doOpen : s.ri.riFlags.doOpen = true
  doClose : s.ri.riFlags.doClose = false
  path_eq : s.ri.riFilePath = path
  new : s.disk path = none

/-- The file holds the records `F`, the oldest is at `j`, and read from there they are
in the order of the history `S`. -/
structure Lapping (cfg : ValidRingConfig) (path : CStr) (s : Sys) (F : List RbtraceEntry) (j : Nat)
    (S : List RbtraceEntry) : Prop where
  noZap : s.ri.riFlags.doZap = false
  doOpen : s.ri.riFlags.doOpen = false
  fd : s.rfd.fd = none ∨ s.rfd.fd = some path
  file : s.disk path = some (traceFile s.hdr F)
  nrRecords : s.hdr.hdr.nrRecords = cfg.rcSize
  wrapAt : WrapAt s.hdr j
  le : j ≤ F.length
  sub : (F.rotate j).Sublist S

/-- If the oldest record is the first one, the last write ended at the end of the file. -/
def AtEnd (s : Sys) (F : List RbtraceEntry) (j : Nat) : Prop :=
  s.rfd.fd ≠ none → j = 0 → s.rfd.seek = RBTRACE_FHEADER_SIZE + sizeofEntry * F.length

/-- A session in which mode and limit may change, and that has written `bufs`. -/
structure Chronicle (cfg : ValidRingConfig) (path : CStr) (s : Sys)
    (bufs : List (List RbtraceEntry)) : Prop where
  flags : FlagsOk s.ctl
  backed : Backed s.ctl
  state : (Requested path s ∧ bufs = []) ∨
    ∃ F j, Lapping cfg path s F j bufs.flatten ∧ AtEnd s F j

/-! ## What a pass must not do -/

/-- The number of bytes of a file, if it exists. -/
def fileSize (disk : Disk) (path : CStr) : Nat := ((disk path).getD []).length

/-- The step neither writes outside wrap mode while a lap is under way, nor ends a lap
in front of older records. -/
def Orderly (cfg : RingConfig) (path : CStr) (s : Sys) : Event → Prop
  | .pass _ => s.rfd.fd ≠ none →
      (s.ri.riFlags.doWrap = false →
        s.ri.riFlush ≠ 0 ∨ (s.ri.riFlags.doClose ∧ s.ri.riSlot ≠ -1) →
        s.hdr.hdr.wrapPos = 0 ∨ s.hdr.hdr.wrapPos = RBTRACE_FHEADER_SIZE) ∧
      (s.ri.riFlags.doWrap = true → s.ri.riFlags.doClose = false → s.ri.riFlush ≠ 0 →
        s.hdr.hdr.wrapPos ≠ 0 →
        s.fsize.toNat ≤ s.hdr.hdr.wrapPos + sizeofEntry * cfg.rcSize →
        fileSize s.disk path ≤ s.hdr.hdr.wrapPos + sizeofEntry * cfg.rcSize)
  | _ => True

/-! ## Writing -/

/-- A wrap position that is no position of a lap. -/
theorem WrapAt.eq_zero {prf : PaddedRbtraceFheader} (h : WrapAt prf j)
    (hw : prf.hdr.wrapPos = 0 ∨ prf.hdr.wrapPos = RBTRACE_FHEADER_SIZE) : j = 0 := by
  unfold WrapAt RBTRACE_FHEADER_SIZE sizeofEntry at *
  omega

theorem WrapAt.eq_of_ne {prf : PaddedRbtraceFheader} (h : WrapAt prf j)
    (hw : prf.hdr.wrapPos ≠ 0) : prf.hdr.wrapPos = RBTRACE_FHEADER_SIZE + sizeofEntry * j :=
  h.resolve_left fun h₀ ↦ hw h₀.1

theorem Lapping.fd_eq (h : Lapping cfg path s F j S) (hfd : s.rfd.fd ≠ none) :
    s.rfd.fd = some path := h.fd.resolve_left hfd

/-- What one write puts out, if nothing fails. -/
theorem dataWritten_of_ok {io : DataIo} (hio : io.Ok) (hfd : s.rfd.fd ≠ none) (doFlush : Bool) :
    (dataWritten cfg io doFlush s).flatten =
      bufRecords s.reBase (selectBuffer cfg doFlush s).1 (selectBuffer cfg doFlush s).2 := by
  rw [dataWritten, if_pos ⟨hfd, getsThrough_of_noError hio.data _⟩, List.flatten_singleton]

/-- Lapping is about the file and the mode only. -/
theorem Lapping.of_frame (h : Lapping cfg path s F j S) (hhdr : t.hdr = s.hdr)
    (hdisk : t.disk = s.disk) (hfd : t.rfd.fd = none ∨ t.rfd.fd = s.rfd.fd)
    (hz : t.ri.riFlags.doZap = s.ri.riFlags.doZap)
    (ho : t.ri.riFlags.doOpen = s.ri.riFlags.doOpen) : Lapping cfg path t F j S := by
  refine ⟨hz.trans h.noZap, ho.trans h.doOpen, ?_, ?_, ?_, ?_, h.le, h.sub⟩
  · rcases hfd with hfd | hfd
    · exact .inl hfd
    · rw [hfd]
      exact h.fd
  · rw [hdisk, hhdr]
    exact h.file
  · rw [hhdr]
    exact h.nrRecords
  · rw [hhdr]
    exact h.wrapAt

/-- **A write outside wrap mode** appends, if no lap is under way. -/
theorem Lapping.write_noWrap {io : DataIo} {doFlush : Bool} (h : Lapping cfg path s F j S)
    (hend : AtEnd s F j) (hio : io.Ok) (hfd : s.rfd.fd ≠ none)
    (hw : s.ri.riFlags.doWrap = false) (hj : j = 0 ∨ (selectBuffer cfg doFlush s).2 = 0) :
    ∃ t F', rbtraceWriteData cfg io doFlush s = some t ∧
      Lapping cfg path t F' j (S ++ (dataWritten cfg io doFlush s).flatten) ∧ AtEnd t F' j := by
  obtain ⟨off, n, hbuf⟩ : ∃ off n, selectBuffer cfg doFlush s = (off, n) := ⟨_, _, rfl⟩
  have hwrite := rbtraceWriteData_of_noWrap hio.data (h.fd_eq hfd) h.file hbuf hw
  rw [dataWritten_of_ok hio hfd, hbuf]
  rw [hbuf] at hj
  dsimp only at hj ⊢
  set b := bufRecords s.reBase off n
  have hlen : b.length = n := length_bufRecords _ _ _
  have hfile : transfer (traceFile s.hdr F) s.rfd.seek (b.flatMap RbtraceEntry.toBytes) =
      traceFile s.hdr (F ++ b) := by
    rcases hj with rfl | hn
    · rw [hend hfd rfl, transfer_traceFile _ le_rfl, List.splice_length]
    · rw [List.eq_nil_of_length_eq_zero (hlen.trans hn), List.flatMap_nil, transfer_nil,
        List.append_nil]
  rw [hfile] at hwrite
  set u := s.afterAppend path off n (traceFile s.hdr (F ++ b))
  have hu : Lapping cfg path u (F ++ b) j (S ++ b) := by
    refine ⟨h.noZap, h.doOpen, .inr rfl, Function.update_self _ _ _, h.nrRecords, h.wrapAt, ?_, ?_⟩
    · rw [List.length_append]
      exact h.le.trans (Nat.le_add_right _ _)
    · rcases hj with rfl | hn
      · have hsub := h.sub
        rw [List.rotate_zero] at hsub ⊢
        exact hsub.append_right b
      · rw [List.eq_nil_of_length_eq_zero (hlen.trans hn), List.append_nil, List.append_nil]
        exact h.sub
  have hendu : AtEnd u (F ++ b) j := by
    intro _ hj₀
    change s.rfd.seek + n * sizeofEntry = _
    rw [hend hfd hj₀, List.length_append, hlen]
    ring
  obtain ⟨v, hv⟩ : ∃ v, v = (limitReached cfg io u false).1 := ⟨_, rfl⟩
  obtain ⟨hr, hh, hd, -⟩ := takeCounters_frame cfg io v
  have hflags := congrArg Ctl.flags (takeCounters_ctl cfg io v)
  rw [← hv] at hwrite
  have hv' : Lapping cfg path v (F ++ b) j (S ++ b) ∧ AtEnd v (F ++ b) j := by
    rcases @limitReached_plain cfg u io hw h.noZap with hl | hl <;> rw [hv, hl]
    · exact ⟨hu, hendu⟩
    · exact ⟨hu.of_frame rfl rfl (.inl rfl) rfl rfl, fun hne ↦ absurd rfl hne⟩
  refine ⟨_, _, hwrite, hv'.1.of_frame hh hd (.inr (congrArg RingFileData.fd hr))
    (congrArg RiFlags.doZap hflags) (congrArg RiFlags.doOpen hflags), ?_⟩
  unfold AtEnd
  rw [hr]
  exact hv'.2

/-- **A write in wrap mode** goes to the oldest record. -/
theorem Lapping.write_wrap {io : DataIo} {doFlush : Bool} (h : Lapping cfg path s F j S)
    (hend : s.hdr.hdr.wrapPos = 0 → AtEnd s F j) (hio : io.Ok) (hfd : s.rfd.fd ≠ none)
    (hw : s.ri.riFlags.doWrap = true)
    (hlap : s.ri.riFlags.doClose = false → s.hdr.hdr.wrapPos ≠ 0 →
      s.fsize.toNat ≤ s.hdr.hdr.wrapPos + sizeofEntry * (selectBuffer cfg doFlush s).2 →
      F.length ≤ j + (selectBuffer cfg doFlush s).2) :
    ∃ t F' j', rbtraceWriteData cfg io doFlush s = some t ∧
      Lapping cfg path t F' j' (S ++ (dataWritten cfg io doFlush s).flatten) ∧
      (0 < (selectBuffer cfg doFlush s).2 → AtEnd t F' j') ∧ t.ri.riFlags = s.ri.riFlags := by
  obtain ⟨off, n, hbuf⟩ : ∃ off n, selectBuffer cfg doFlush s = (off, n) := ⟨_, _, rfl⟩
  rw [dataWritten_of_ok hio hfd, hbuf]
  rw [hbuf] at hlap
  dsimp only at hlap ⊢
  obtain ⟨b, hb⟩ : ∃ b, b = bufRecords s.reBase off n := ⟨_, rfl⟩
  have hlen : b.length = n := by rw [hb, length_bufRecords]
  -- the record the write goes to
  obtain ⟨i, hpos, hile, hi⟩ : ∃ i, s.writePos = RBTRACE_FHEADER_SIZE + sizeofEntry * i ∧
      i ≤ F.length ∧ ((s.hdr.hdr.wrapPos ≠ 0 ∧ i = j) ∨
        (s.hdr.hdr.wrapPos = 0 ∧ j = 0 ∧ i = F.length)) := by
    by_cases hz : s.hdr.hdr.wrapPos = 0
    · have hj : j = 0 := h.wrapAt.eq_zero (.inl hz)
      refine ⟨F.length, ?_, le_rfl, .inr ⟨hz, hj, rfl⟩⟩
      rw [Sys.writePos, if_neg fun hn ↦ hn.1 hz, hend hz hfd hj]
    · refine ⟨j, ?_, h.le, .inl ⟨hz, rfl⟩⟩
      rw [Sys.writePos, if_pos ⟨hz, hw⟩, h.wrapAt.eq_of_ne hz]
  have hwrite := rbtraceWriteData_of_ok hio (h.fd_eq hfd) h.file hbuf hpos hile fun _ ↦ .inr hw
  rw [← hb] at hwrite ⊢
  obtain ⟨hr, hh, hd, -⟩ := takeCounters_frame cfg io (s.afterWrite path off n (F.splice .zero i b))
  have hflags := congrArg Ctl.flags
    (takeCounters_ctl cfg io (s.afterWrite path off n (F.splice .zero i b)))
  have hmove : s.writePos + n * sizeofEntry = RBTRACE_FHEADER_SIZE + sizeofEntry * (i + n) := by
    rw [hpos]
    ring
  -- the new wrap position, and why the records are in order from there
  have hnew : ∃ j', WrapAt (s.hdr.withWrapPos (s.nextWrapPos n)) j' ∧
      j' ≤ (F.splice .zero i b).length ∧ ((F.splice .zero i b).rotate j').Sublist (S ++ b) ∧
      (0 < n → j' = 0 → F.length ≤ i + n) := by
    have hsplice : (F.splice .zero i b).length = max F.length (i + n) := by
      rw [List.length_splice, hlen]
    unfold Sys.nextWrapPos WrapAt PaddedRbtraceFheader.withWrapPos
    rcases hi with ⟨hz, rfl⟩ | ⟨hz, hj, rfl⟩
    · split_ifs with hl hw'
      · -- the limit is reached
        have hle : F.length ≤ i + n := by
          refine hlap hl.2.1 hz ?_
          rw [h.wrapAt.eq_of_ne hz, Nat.add_assoc, ← Nat.mul_add, ← hmove]
          exact hl.1
        refine ⟨0, .inr rfl, Nat.zero_le _, ?_, fun _ _ ↦ hle⟩
        rw [List.rotate_zero]
        exact List.splice_sublist _ hile (by rwa [hlen]) h.sub
      · refine ⟨i + n, .inr ?_, ?_, ?_, ?_⟩
        · dsimp only
          rw [h.wrapAt.eq_of_ne hz]
          ring
        · omega
        · rw [← hlen]
          exact List.rotate_splice_sublist _ hile h.sub
        · intro hn h₀
          omega
      · exact absurd ⟨hz, hw⟩ hw'
    · have hF : F.Sublist S := by
        have hsub := h.sub
        rwa [hj, List.rotate_zero] at hsub
      have hsub : ((F.splice .zero F.length b).rotate 0).Sublist (S ++ b) := by
        rw [List.rotate_zero, List.splice_length]
        exact hF.append_right b
      refine ⟨0, ?_, Nat.zero_le _, hsub, fun _ _ ↦ Nat.le_add_right _ _⟩
      split_ifs with hl hw'
      · exact .inr rfl
      · exact absurd hz hw'.1
      · exact .inl ⟨hz, rfl⟩
  obtain ⟨j', hat, hle', hsub, hend'⟩ := hnew
  refine ⟨_, _, j', hwrite, ⟨(congrArg RiFlags.doZap hflags).trans h.noZap,
    (congrArg RiFlags.doOpen hflags).trans h.doOpen, .inr (by rw [hr]; rfl), ?_, ?_, ?_, hle', hsub⟩,
    ?_, hflags⟩
  · rw [hd, hh]
    exact Function.update_self _ _ _
  · rw [hh]
    exact h.nrRecords
  · rw [hh]
    exact hat
  · intro hn _ hj'
    rw [hr]
    change s.writePos + n * sizeofEntry = _
    rw [hmove, List.length_splice, hlen, Nat.max_eq_right (hend' hn hj')]

/-! ## Passes -/

/-- **The pass that opens the file.** -/
theorem Requested.pass {io : PassIo} (h : Requested path s) (hf : FlagsOk s.ctl) (hio : io.Ok) :
    ∃ t, rbtraceThreadFn cfg io s = some t ∧ Lapping cfg path t [] 0 [] ∧ AtEnd t [] 0 := by
  have hopen := @rbtraceThreadFn_open cfg s path io hio hf h.noZap h.doClose h.doOpen h.path_eq h.new
  refine ⟨_, hopen, ⟨h.noZap, rfl, .inr rfl, Function.update_self _ _ _, rfl, .inl ⟨rfl, rfl⟩, le_rfl,
    List.nil_sublist _⟩, fun _ _ ↦ rfl⟩

/-- What is known in the middle of an orderly pass: a close that is to write outside
wrap mode finds no lap under way. -/
def MidPass (cfg : ValidRingConfig) (path : CStr) (s : Sys) (bufs : List (List RbtraceEntry)) : Prop :=
  ∃ F j, Lapping cfg path s F j bufs.flatten ∧ AtEnd s F j ∧
    (s.ri.riFlags.doClose = true → s.ri.riFlags.doWrap = false → j = 0 ∨ s.ri.riSlot = -1)

/-- **The write of the inactive buffer** in an orderly pass. -/
theorem Lapping.writeInactive {io : PassIo} {bufs : List (List RbtraceEntry)} (hN : 0 < cfg.rcSize)
    (h : Lapping cfg path s F j bufs.flatten) (hend : AtEnd s F j) (hio : io.Ok)
    (ho : Orderly cfg path s (.pass io)) (hfd : s.rfd.fd ≠ none) (hz : s.ri.riFlush ≠ 0) :
    ∃ t, rbtraceWriteData cfg io.inactive false s = some t ∧
      MidPass cfg path t (bufs ++ dataWritten cfg io.inactive false s) := by
  obtain ⟨hlap, hlimit⟩ := ho hfd
  unfold MidPass
  rw [List.flatten_append]
  cases hw : s.ri.riFlags.doWrap with
  | false =>
      have hj : j = 0 := h.wrapAt.eq_zero (hlap hw (.inl hz))
      obtain ⟨t, F', ht, hF', hend'⟩ :=
        @Lapping.write_noWrap cfg path s F _ j io.inactive false h hend hio.inactive hfd hw (.inl hj)
      exact ⟨t, ht, F', j, hF', hend', fun _ _ ↦ .inl hj⟩
  | true =>
      have hsize : (selectBuffer cfg false s).2 = cfg.rcSize := by rw [selectBuffer_inactive]
      have hover : s.ri.riFlags.doClose = false → s.hdr.hdr.wrapPos ≠ 0 →
          s.fsize.toNat ≤ s.hdr.hdr.wrapPos + sizeofEntry * (selectBuffer cfg false s).2 →
          F.length ≤ j + (selectBuffer cfg false s).2 := by
        rw [hsize]
        intro hc hpos hl
        have hle := hlimit hw hc hz hpos hl
        rw [fileSize, h.file, Option.getD_some, length_traceFile, h.wrapAt.eq_of_ne hpos] at hle
        unfold sizeofEntry at hle
        omega
      obtain ⟨t, F', j', ht, hF', hend', hflags⟩ :=
        @Lapping.write_wrap cfg path s F _ j io.inactive false h (fun _ ↦ hend) hio.inactive hfd hw
          hover
      refine ⟨t, ht, F', j', hF', hend' (hsize ▸ hN), fun _ hnw ↦ ?_⟩
      rw [hflags, hw] at hnw
      cases hnw

/-- **The second write and the end of an orderly closing pass.** -/
theorem MidPass.close {io : PassIo} {bufs : List (List RbtraceEntry)} (h : MidPass cfg path s bufs)
    (hio : io.Ok) (hfd : s.rfd.fd ≠ none) (hc : s.ri.riFlags.doClose = true) :
    ∃ t, rbtraceWriteData cfg io.active true s = some t ∧
      ∃ F j, Lapping cfg path t.finishClose F j
        (bufs ++ dataWritten cfg io.active true s).flatten ∧ AtEnd t.finishClose F j := by
  obtain ⟨F, j, hF, hend, hslot⟩ := h
  have hfinish : ∀ {v : Sys} {F S : List RbtraceEntry} {j : Nat}, Lapping cfg path v F j S →
      Lapping cfg path v.finishClose F j S ∧ AtEnd v.finishClose F j := by
    intro v F S j hv
    have hflags := finishClose_riFlags v
    exact ⟨hv.of_frame (finishClose_hdr v) (finishClose_disk v) (.inl (finishClose_fd v))
      (by rw [hflags]) (by rw [hflags]), fun hne ↦ absurd (finishClose_fd v) hne⟩
  rw [List.flatten_append]
  cases hw : s.ri.riFlags.doWrap with
  | false =>
      have hj : j = 0 ∨ (selectBuffer cfg true s).2 = 0 := by
        refine (hslot hc hw).imp_right fun hs ↦ ?_
        rw [selectBuffer, if_pos rfl, hs]
        rfl
      obtain ⟨t, F', ht, hF', -⟩ :=
        @Lapping.write_noWrap cfg path s F _ j io.active true hF hend hio.active hfd hw hj
      exact ⟨t, ht, F', j, hfinish hF'⟩
  | true =>
      obtain ⟨t, F', j', ht, hF', -⟩ :=
        @Lapping.write_wrap cfg path s F _ j io.active true hF (fun _ ↦ hend) hio.active hfd hw
          fun hnc ↦ absurd hc (Bool.eq_false_iff.1 hnc)
      exact ⟨t, ht, F', j', hfinish hF'⟩

/-- **An orderly pass.** -/
theorem Lapping.pass {io : PassIo} {bufs : List (List RbtraceEntry)} (hN : 0 < cfg.rcSize)
    (h : Lapping cfg path s F j bufs.flatten) (hend : AtEnd s F j) (hf : FlagsOk s.ctl)
    (hb : Backed s.ctl) (hio : io.Ok) (ho : Orderly cfg path s (.pass io)) :
    ∃ t, rbtraceThreadFn cfg io s = some t ∧
      ∃ F j, Lapping cfg path t F j (bufs ++ writes cfg s (.pass io)).flatten ∧ AtEnd t F j := by
  have hmid : MidPass cfg path s bufs := by
    refine ⟨F, j, h, hend, fun hc hw ↦ ?_⟩
    by_cases hslot : s.ri.riSlot = -1
    · exact .inr hslot
    · exact .inl (h.wrapAt.eq_zero ((ho (hb (.inr hc))).1 hw (.inr ⟨hc, hslot⟩)))
  have hnormal : ∀ {u : Sys} {acc : List (List RbtraceEntry)}, s.ri.riFlags.doClose = false →
      MidPass cfg path u acc → ∃ F j, Lapping cfg path u F j acc.flatten ∧ AtEnd u F j := by
    rintro u acc - ⟨F, j, hF, hend, -⟩
    exact ⟨F, j, hF, hend⟩
  rw [writes_pass]
  exact pass_rule (Q := fun u acc ↦ ∃ F j, Lapping cfg path u F j acc.flatten ∧ AtEnd u F j) hf hb
    (fun _ ↦ h.doOpen) hmid (fun hfd hz ↦ h.writeInactive hN hend hio ho hfd hz) hnormal
    fun _ hfd hc hu ↦ hu.close hio hfd hc

/-! ## Whole sessions -/

/-- A step of a session without zap mode in which no other file is opened. -/
def Event.IsRetuning : Event → Prop
  | .ctrl (.open _) | .ctrl (.zap _) => False
  | _ => True

/-- What the control operations of such a session leave alone. -/
theorem rbtraceCtrl_of_isRetuning {op : RbtraceOp} (hop : (Event.ctrl op).IsRetuning) (sh : Shm) :
    (rbtraceCtrl op sh).1.ri.riFlags.doZap = sh.ri.riFlags.doZap ∧
      (rbtraceCtrl op sh).1.ri.riFlags.doOpen = sh.ri.riFlags.doOpen ∧
      (rbtraceCtrl op sh).1.ri.riFilePath = sh.ri.riFilePath ∧
      (sh.ri.riFlags.doDisk = false →
        (rbtraceCtrl op sh).1.ri.riFlags.doClose = sh.ri.riFlags.doClose) := by
  have hstep := rbtraceCtrl_step op sh
  generalize rbtraceCtrl op sh = r at hstep ⊢
  cases hstep with
  | opens | zaps => exact absurd hop id
  | closes hd => exact ⟨rfl, rfl, rfl, fun h ↦ absurd hd (Bool.eq_false_iff.1 h)⟩
  | _ => exact ⟨rfl, rfl, rfl, fun _ ↦ rfl⟩

/-- What the steps of a session have to meet. -/
def RetuningStep (cfg : RingConfig) (path : CStr) (s : Sys) (e : Event) : Prop :=
  Orderly cfg path s e ∧ e.IsRetuning ∧ e.IoOk

/-- **One step of a session.** -/
theorem Chronicle.step {bufs : List (List RbtraceEntry)} {e : Event} (hN : 0 < cfg.rcSize)
    (h : Chronicle cfg path s bufs) (he : RetuningStep cfg path s e)
    (ht : (system cfg).step s e = some t) : Chronicle cfg path t (bufs ++ writes cfg s e) := by
  obtain ⟨hf, hb, hstate⟩ := h
  obtain ⟨hord, hret, hio⟩ := he
  have hz : s.ri.riFlags.doZap = false := by
    rcases hstate with ⟨h, -⟩ | ⟨F, j, h, -⟩ <;> exact h.noZap
  obtain ⟨t', ht', hf', hb'⟩ := @backed_step_iff cfg s e hf hb
  obtain rfl : t' = t := Option.some.inj (ht'.symm.trans ht)
  refine ⟨hf', hb'.2 (zapReopens_of_noZap hz e), ?_⟩
  cases e with
  | call st a =>
      cases ht
      have hflags := rbtrace_riFlags cfg st s.toShm a
      rw [show writes cfg s (.call st a) = [] from rfl, List.append_nil]
      rcases hstate with ⟨h, hnil⟩ | ⟨F, j, h, hend⟩
      · refine .inl ⟨⟨?_, ?_, ?_, ?_, h.new⟩, hnil⟩
        · exact (congrArg RiFlags.doZap hflags).trans h.noZap
        · exact (congrArg RiFlags.doOpen hflags).trans h.doOpen
        · exact (congrArg RiFlags.doClose hflags).trans h.doClose
        · exact (rbtrace_riFilePath cfg st s.toShm a).trans h.path_eq
      · exact .inr ⟨F, j, h.of_frame rfl rfl (.inr rfl) (congrArg RiFlags.doZap hflags)
          (congrArg RiFlags.doOpen hflags), hend⟩
  | ctrl op =>
      cases ht
      obtain ⟨hz', ho, hp, hc⟩ := rbtraceCtrl_of_isRetuning hret s.toShm
      rw [show writes cfg s (.ctrl op) = [] from rfl, List.append_nil]
      rcases hstate with ⟨h, hnil⟩ | ⟨F, j, h, hend⟩
      · exact .inl ⟨⟨hz'.trans h.noZap, ho.trans h.doOpen,
          (hc (hf.disk_of_open h.doOpen)).trans h.doClose, hp.trans h.path_eq, h.new⟩, hnil⟩
      · exact .inr ⟨F, j, h.of_frame rfl rfl (.inr rfl) hz' ho, hend⟩
  | pass io =>
      rcases hstate with ⟨h, rfl⟩ | ⟨F, j, h, hend⟩
      · obtain ⟨u, hu, hlap, hend⟩ := @Requested.pass cfg path s io h hf hio
        obtain rfl : u = t' := Option.some.inj (hu.symm.trans ht)
        rw [writes_pass, passOut_of_open _ io h.doClose h.doOpen]
        exact .inr ⟨[], 0, hlap, hend⟩
      · obtain ⟨u, hu, hlap⟩ := h.pass hN hend hf hb hio hord
        obtain rfl : u = t' := Option.some.inj (hu.symm.trans ht)
        exact .inr hlap

/-- A successful open of a new file starts a session. -/
theorem chronicle_of_open (hf : FlagsOk s.ctl) (hz : s.ri.riFlags.doZap = false)
    (hc : s.ri.riFlags.doClose = false) (hnew : s.disk path = none)
    (hret : (rbtraceCtrl (.open (some path)) s.toShm).2 = 0) :
    Chronicle cfg path { s with toShm := (rbtraceCtrl (.open (some path)) s.toShm).1 } [] := by
  obtain ⟨hflags, hbacked⟩ := hf.ctrlCtl (.open (some path))
  replace hbacked := hbacked (backed_of_open hc hret)
  obtain ⟨-, -, heq⟩ := rbtraceCtrl_open hret
  rw [ctrlCtl, heq] at hflags hbacked
  rw [heq]
  exact ⟨hflags, hbacked, .inl ⟨⟨hz, rfl, hc, rfl, hnew⟩, rfl⟩⟩

/-- What the reader lists for a file that is in order from its wrap position on. -/
theorem Lapping.listing_sublist {pio : PrbtIo} (hN : 0 < cfg.rcSize) (hpio : pio.Ok)
    (h : Lapping cfg path s F j S) (hoff : (traceFile s.hdr F).length < 2 ^ 63) :
    (listing pio (traceFile s.hdr F)).Sublist S := by
  have hpos : 0 < s.hdr.hdr.nrRecords := h.nrRecords ▸ hN
  have hsize : sizeofEntry * s.hdr.hdr.nrRecords < 2 ^ 64 :=
    cfg.pageSize_lt h.nrRecords
  have hle := h.le
  have hlt : s.hdr.hdr.wrapPos < 2 ^ 64 := by
    have hat := h.wrapAt
    rw [length_traceFile] at hoff
    unfold WrapAt RBTRACE_FHEADER_SIZE sizeofEntry at *
    omega
  by_cases hpage : j < F.length ∨ j % s.hdr.hdr.nrRecords = 0
  · rw [listing_traceFile hpio hpos hsize h.wrapAt hlt hle hpage]
    exact h.sub
  · obtain ⟨hend, hmod⟩ := not_or.1 hpage
    obtain rfl : j = F.length := by omega
    rw [listing_traceFile_invalid hpio hpos hsize h.wrapAt hlt hmod]
    exact List.nil_sublist _

/-- **Chronological read-back under reconfiguration.**  Mode and limit may change at any
moment between passes.  As long as no pass writes outside wrap mode while a lap is under
way or ends a lap in front of older records, what the reader lists is in the order in
which it was written. -/
theorem listing_sublist_writes (cfg : ValidRingConfig) (hN : 0 < cfg.rcSize) {disk : Disk}
    {pre evs : List Event} {path : CStr} {s₀ t : Sys}
    (h₀ : (system cfg).run (rbtraceDaemonInit cfg disk) pre = some s₀)
    (hnew : s₀.disk path = none) (hzap : s₀.ri.riFlags.doZap = false)
    (hpending : s₀.ri.riFlags.doClose = false)
    (hopen : (rbtraceCtrl (.open (some path)) s₀.toShm).2 = 0)
    (hrun : (system cfg).run s₀ (.ctrl (.open (some path)) :: evs) = some t)
    (hevs : ∀ e ∈ evs, e.IsRetuning ∧ e.IoOk)
    (hord : (system cfg).Guarded (Orderly cfg path) s₀ (.ctrl (.open (some path)) :: evs))
    {pio : PrbtIo} (hpio : pio.Ok) {file : List UInt8} (hfile : t.disk path = some file)
    (hoff : file.length < 2 ^ 63) :
    (listing pio file).Sublist
      ((system cfg).collect (writes cfg) s₀ (.ctrl (.open (some path)) :: evs)).flatten := by
  obtain ⟨-, hf⟩ := ok_of_run hN h₀
  obtain ⟨s₁, hs₁, hrun'⟩ := (system cfg).run_cons_eq_some.1 hrun
  have hstart : Chronicle cfg path s₁ [] := by
    cases hs₁
    exact chronicle_of_open hf hzap hpending hnew hopen
  have hg : (system cfg).Guarded (RetuningStep cfg path) s₁ evs := (hord.tail hs₁).and_forall hevs
  have hall := hg.collect_invariant (P := fun s bufs ↦ Chronicle cfg path s bufs)
    (fun _ _ _ _ h hok ht ↦ h.step hN hok ht) hstart hrun'
  rw [Machine.collect_cons _ hs₁]
  rcases hall.state with ⟨h, -⟩ | ⟨F, j, h, -⟩
  · exact absurd (h.new.symm.trans hfile) (by simp)
  · obtain rfl : traceFile t.hdr F = file := Option.some.inj (h.file.symm.trans hfile)
    exact h.listing_sublist hN hpio hoff

instance (cfg : RingConfig) (path : CStr) (s : Sys) : ∀ e, Decidable (Orderly cfg path s e)
  | .pass _ => @instDecidableForall _ _ inferInstance (@instDecidableAnd _ _ inferInstance inferInstance)
  | .call _ _ => .isTrue trivial
  | .ctrl _ => .isTrue trivial

/-- A ring of one record in wrap mode, with a limit of two records, before the open. -/
def lapStart : Sys :=
  { rbtraceDaemonInit oneRing fun _ ↦ none with
    ri := { (rbtraceInitTraceInfo oneRing 0).1 with riFlags := { doWrap := true } }
    fsize := 624 }

/-- One lap of two records. -/
def oneLap : List Event :=
  [.pass .smooth, .trace 2, .trace 3, .pass .smooth, .trace 4, .pass .smooth]

/-- After one lap the limit is raised, one record is appended outside wrap mode, and the
next one overwrites the oldest. -/
def appendAfterLap : List Event :=
  oneLap ++ [.ctrl (.size (some 4096)), .ctrl (.wrap (some false)), .trace 5, .pass .smooth,
    .ctrl (.wrap (some true)), .trace 6, .pass .smooth]

theorem listing_sublist_appendAfterLap : ∃ t file,
    (system oneRing).run lapStart (.ctrl (.open (some [116])) :: appendAfterLap) = some t ∧
    t.disk [116] = some file ∧ (listing .smooth file).map RbtraceEntry.traceid = [3, 4, 5] ∧
    (listing .smooth file).Sublist ((system oneRing).collect (writes oneRing) lapStart
      (.ctrl (.open (some [116])) :: appendAfterLap)).flatten := by
  have h₀ : (system oneRing).run (rbtraceDaemonInit oneRing fun _ ↦ none)
      [.ctrl (.wrap (some true)), .ctrl (.size (some 624))] = some lapStart := rfl
  have h : ∃ t ∈ (system oneRing).run lapStart (.ctrl (.open (some [116])) :: appendAfterLap),
      ∃ file ∈ t.disk [116], file.length < 2 ^ 63 ∧
        (listing .smooth file).map RbtraceEntry.traceid = [3, 4, 5] := by decide +kernel
  obtain ⟨t, hrun, file, hfile, hoff, hlist⟩ := h
  have hevs : ∀ e ∈ appendAfterLap, e.IsRetuning ∧ e.IoOk := by
    simp [appendAfterLap, oneLap, Event.IsRetuning, Event.IoOk, Event.trace, PassIo.smooth_ok]
  exact ⟨t, file, hrun, hfile, hlist, listing_sublist_writes oneRing (by decide) h₀ rfl rfl rfl
    (by decide) hrun hevs (by decide) PrbtIo.smooth_ok hfile hoff⟩

/-- In the middle of the second lap wrap mode is switched off, and one more record is
written. -/
def wrapOffMidLap : List Event :=
  oneLap ++ [.trace 5, .pass .smooth, .ctrl (.wrap (some false)), .trace 6, .pass .smooth]

/-- It is listed before the record that was written just before it. -/
theorem wrapOffMidLap_disordered : ∃ t file,
    (system oneRing).run lapStart (.ctrl (.open (some [116])) :: wrapOffMidLap) = some t ∧
    t.disk [116] = some file ∧ (listing .smooth file).map RbtraceEntry.traceid = [5, 4] ∧
    ¬ (listing .smooth file).Sublist ((system oneRing).collect (writes oneRing) lapStart
      (.ctrl (.open (some [116])) :: wrapOffMidLap)).flatten := by
  have h : ∃ t ∈ (system oneRing).run lapStart (.ctrl (.open (some [116])) :: wrapOffMidLap),
      ∃ file ∈ t.disk [116], (listing .smooth file).map RbtraceEntry.traceid = [5, 4] := by
    decide +kernel
  have hw : ((system oneRing).collect (writes oneRing) lapStart
      (.ctrl (.open (some [116])) :: wrapOffMidLap)).flatten.map RbtraceEntry.traceid =
      [2, 3, 4, 5] := by decide
  obtain ⟨t, hrun, file, hfile, hlist⟩ := h
  refine ⟨t, file, hrun, hfile, hlist, fun hsub ↦ ?_⟩
  have hids := hsub.map RbtraceEntry.traceid
  rw [hlist, hw] at hids
  revert hids
  decide

end Rbtrace
