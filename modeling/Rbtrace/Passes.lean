import Rbtrace.Wrap

/-!
# Passes as sequences of writes

What a pass does to the files it does through `rbtrace_write_header`, if it opens one,
or through at most two calls of `rbtrace_write_data`.  `pass_rule` reduces a statement
about what passes leave in the files to one about a single write: an invariant that
relates the state to the outputs so far, and that every write and the end of a closing
pass carry along, is carried along by the pass.
-/

namespace Rbtrace

variable {β : Type*} {cfg : RingConfig} {s : Sys}

/-- What a pass that does not open a file puts out, if a call of `rbtrace_write_data`
puts out `out`. -/
def passOut (cfg : RingConfig) (out : DataIo → Bool → Sys → List β) (io : PassIo) (s : Sys) :
    List β :=
  if s.ri.riFlags.doClose ∨ (s.ri.riFlags.doOpen = false ∧ s.ri.riFlags.doDisk) then
    (if s.ri.riFlush ≠ 0 then out io.inactive false s else []) ++
      match flushInactive cfg io.inactive s with
      | some u => if u.ri.riFlags.doFlush then out io.active true u else []
      | none => []
  else []

theorem writes_pass (io : PassIo) : writes cfg s (.pass io) = passOut cfg (dataWritten cfg) io s :=
  rfl

/-- Reading the outputs of a pass through a function, at the end or as they come. -/
theorem passOut_flatMap {γ : Type*} (out : DataIo → Bool → Sys → List β) (f : β → List γ)
    (io : PassIo) (s : Sys) :
    passOut cfg (fun io doFlush s ↦ (out io doFlush s).flatMap f) io s =
      (passOut cfg out io s).flatMap f := by
  unfold passOut
  split
  · rw [List.flatMap_append]
    refine congrArg₂ _ ?_ ?_
    · split <;> rfl
    · split
      · split <;> rfl
      · rfl
  · rfl

/-- What a pass puts out comes from one of its two writes. -/
theorem mem_passOut {out : DataIo → Bool → Sys → List β} {io : PassIo} {b : β}
    (h : b ∈ passOut cfg out io s) : b ∈ out io.inactive false s ∨ ∃ u, b ∈ out io.active true u := by
  unfold passOut at h
  split at h
  · rcases List.mem_append.1 h with h | h
    · split at h
      · exact .inl h
      · exact absurd h List.not_mem_nil
    · split at h
      · split at h
        · exact .inr ⟨_, h⟩
        · exact absurd h List.not_mem_nil
      · exact absurd h List.not_mem_nil
  · exact absurd h List.not_mem_nil

/-- What follows the two writes of a closing pass: lines 301 and 305 to 316. -/
def Sys.finishClose (s : Sys) : Sys :=
  let s₃ := (closeFile (s.mapFlags fun f ↦ { f with doFlush := false })).mapFlags fun f ↦
    { f with doClose := false }
  { s₃ with rfd := { s₃.rfd with seek := 0 } }

theorem finishClose_disk (s : Sys) : s.finishClose.disk = s.disk := by
  unfold Sys.finishClose closeFile
  dsimp only
  split <;> rfl

theorem finishClose_hdr (s : Sys) : s.finishClose.hdr = s.hdr := by
  unfold Sys.finishClose closeFile
  dsimp only
  split <;> rfl

theorem finishClose_fd (s : Sys) : s.finishClose.rfd.fd = none := by
  unfold Sys.finishClose closeFile
  dsimp only
  split <;> rename_i hfd
  · rfl
  · exact not_not.1 hfd

theorem finishClose_riFlags (s : Sys) :
    s.finishClose.ri.riFlags = { s.ri.riFlags with doFlush := false, doClose := false } := by
  unfold Sys.finishClose closeFile
  dsimp only
  split <;> rfl

/-- An opening that goes well opens the file. -/
theorem HeaderIo.Ok.opens {io : HeaderIo} (hio : io.Ok) : io.Opens cfg :=
  ⟨hio.openError, getsThrough_of_noError hio.pwrites _⟩

/-- Without I/O failure every rollover finds its next file. -/
theorem zapReopens_of_ioOk {e : Event} (hio : e.IoOk) : ZapReopens cfg s e := by
  cases e with
  | pass io => exact fun _ _ _ _ ↦ hio.inactive.reopen.opens
  | call st a => trivial
  | ctrl op => trivial

/-- **Without I/O failure** the daemon always has a file to write to. -/
theorem backed_of_run {cfg : ValidRingConfig} {disk : Disk} {evs : List Event}
    (hevs : ∀ e ∈ evs, e.IoOk) (h : (system cfg).run (rbtraceDaemonInit cfg disk) evs = some s) :
    FlagsOk s.ctl ∧ Backed s.ctl := by
  have hinit : Backed (rbtraceDaemonInit cfg disk).ctl := by
    rw [show (rbtraceDaemonInit cfg disk).ctl = ⟨{}, none⟩ from congrArg (Ctl.mk · none) cfg.rcFlags_eq]
    rintro (h | h) <;> exact absurd h Bool.false_ne_true
  have hg : (system cfg).Guarded (fun _ e ↦ True ∧ e.IoOk) (rbtraceDaemonInit cfg disk) evs :=
    (Machine.guarded_true _ evs).and_forall hevs
  refine hg.invariant (P := fun s ↦ FlagsOk s.ctl ∧ Backed s.ctl) ?_
    ⟨FlagsOk.rbtraceDaemonInit cfg disk, hinit⟩ h
  rintro s e t ⟨hf, hb⟩ ⟨-, hio⟩ ht
  obtain ⟨u, hu, hf', hb'⟩ := @backed_step_iff cfg s e hf hb
  obtain rfl : u = t := Option.some.inj (hu.symm.trans ht)
  exact ⟨hf', hb'.2 (zapReopens_of_ioOk hio)⟩

/-- Without a close the first write of a pass is its only one. -/
theorem doFlush_of_flushInactive {io : DataIo} {u : Sys} (hf : FlagsOk s.ctl)
    (hc : s.ri.riFlags.doClose = false) (hu : flushInactive cfg io s = some u) :
    u.ri.riFlags.doFlush = false := by
  have hsf : s.ri.riFlags.doFlush = false := hf.flush_eq.trans hc
  unfold flushInactive at hu
  split at hu
  · have hctl := congrArg (fun c ↦ c.flags.doFlush) (ctl_of_rbtraceWriteData hu).2
    refine hctl.trans ?_
    split
    · exact (Ctl.atLimit_doFlush _ _ _).trans hsf
    · exact hsf
  · cases hu
    exact hsf

/-- What a pass without a close puts out. -/
theorem passOut_of_noClose (out : DataIo → Bool → Sys → List β) (io : PassIo) (hf : FlagsOk s.ctl)
    (hc : s.ri.riFlags.doClose = false) :
    passOut cfg out io s =
      if s.ri.riFlags.doOpen = false ∧ s.ri.riFlags.doDisk = true ∧ s.ri.riFlush ≠ 0 then
        out io.inactive false s
      else [] := by
  have hc' : ¬ s.ri.riFlags.doClose = true := Bool.eq_false_iff.1 hc
  unfold passOut
  by_cases hd : s.ri.riFlags.doOpen = false ∧ s.ri.riFlags.doDisk = true
  · have hsecond : (match flushInactive cfg io.inactive s with
        | some u => if u.ri.riFlags.doFlush then out io.active true u else []
        | none => []) = [] := by
      cases hu : flushInactive cfg io.inactive s with
      | none => rfl
      | some u => exact if_neg (Bool.eq_false_iff.1 (doFlush_of_flushInactive hf hc hu))
    rw [if_pos (.inr hd), hsecond, List.append_nil]
    exact if_congr ⟨fun hz ↦ ⟨hd.1, hd.2, hz⟩, fun h ↦ h.2.2⟩ rfl rfl
  · rw [if_neg (not_or.2 ⟨hc', hd⟩), if_neg fun h ↦ hd ⟨h.1, h.2.1⟩]

/-- **Pass rule.**  `P` and `Q` relate the state to the outputs so far.  If `P` holds at
the start and after the write of the inactive buffer, a normal pass ends with `P`, and a
closing pass gets from `P` to `Q` by its second write and its end, then every pass that
does not open a file ends with `Q`; and it does not crash. -/
theorem pass_rule {P Q : Sys → List β → Prop} {out : DataIo → Bool → Sys → List β} {io : PassIo}
    {acc : List β} (hf : FlagsOk s.ctl) (hb : Backed s.ctl)
    (ho : s.ri.riFlags.doClose = false → s.ri.riFlags.doOpen = false) (hs : P s acc)
    (hin : s.rfd.fd ≠ none → s.ri.riFlush ≠ 0 →
      ∃ u, rbtraceWriteData cfg io.inactive false s = some u ∧ P u (acc ++ out io.inactive false s))
    (hnormal : ∀ {u : Sys} {acc : List β}, s.ri.riFlags.doClose = false → P u acc → Q u acc)
    (hclose : ∀ {u : Sys} {acc : List β}, u.ctl = s.ctl → u.rfd.fd ≠ none →
      u.ri.riFlags.doClose = true → P u acc →
      ∃ v, rbtraceWriteData cfg io.active true u = some v ∧
        Q v.finishClose (acc ++ out io.active true u)) :
    ∃ t, rbtraceThreadFn cfg io s = some t ∧ Q t (acc ++ passOut cfg out io s) := by
  have hinactive : (s.ri.riFlags.doClose = true ∨ s.ri.riFlags.doDisk = true) →
      ∃ u, flushInactive cfg io.inactive s = some u ∧
        P u (acc ++ if s.ri.riFlush ≠ 0 then out io.inactive false s else []) := by
    intro hflag
    unfold flushInactive
    split <;> rename_i hz
    · exact hin (hb hflag.symm) hz
    · exact ⟨s, rfl, by rwa [List.append_nil]⟩
  unfold rbtraceThreadFn passOut
  by_cases hc : s.ri.riFlags.doClose = true
  · -- the closing branch: two writes, and the end
    obtain ⟨u, hu, hPu⟩ := hinactive (.inl hc)
    have huc : u.ctl = s.ctl := by
      unfold flushInactive at hu
      split at hu
      · exact (ctl_of_rbtraceWriteData_of_close hc hu).2
      · cases hu
        rfl
    have hufd : u.rfd.fd ≠ none := (congrArg Ctl.fd huc).trans_ne (hb (.inr hc))
    have huf : u.ri.riFlags.doFlush = true :=
      (congrArg (fun c ↦ c.flags.doFlush) huc).trans (hf.flush_eq.trans hc)
    have hucl : u.ri.riFlags.doClose = true := (congrArg (fun c ↦ c.flags.doClose) huc).trans hc
    obtain ⟨v, hv, hQv⟩ := hclose huc hufd hucl hPu
    refine ⟨v.finishClose, ?_, ?_⟩
    · rw [if_pos hc, hu, Option.bind_some, flushActive, if_pos huf, hv]
      rfl
    · rw [if_pos (.inl hc), hu]
      dsimp only
      rwa [if_pos huf, ← List.append_assoc]
  · have hc' : s.ri.riFlags.doClose = false := Bool.eq_false_iff.2 hc
    have ho' := ho hc'
    by_cases hd : s.ri.riFlags.doDisk = true
    · obtain ⟨u, hu, hPu⟩ := hinactive (.inr hd)
      have huf : u.ri.riFlags.doFlush = false := doFlush_of_flushInactive hf hc' hu
      refine ⟨u, ?_, ?_⟩
      · rw [if_neg hc, if_neg (Bool.eq_false_iff.1 ho'), if_pos hd, hu, Option.bind_some, flushActive,
          if_neg (Bool.eq_false_iff.1 huf)]
      · rw [if_pos (.inr ⟨ho', hd⟩), hu]
        dsimp only
        rw [if_neg (Bool.eq_false_iff.1 huf), List.append_nil]
        exact hnormal hc' hPu
    · refine ⟨s, ?_, ?_⟩
      · rw [if_neg hc, if_neg (Bool.eq_false_iff.1 ho'), if_neg hd]
      · rw [if_neg (not_or.2 ⟨hc, fun h ↦ hd h.2⟩), List.append_nil]
        exact hnormal hc' hs

/-- A pass that opens a file writes no records. -/
theorem passOut_of_open (out : DataIo → Bool → Sys → List β) (io : PassIo)
    (hc : s.ri.riFlags.doClose = false) (ho : s.ri.riFlags.doOpen = true) :
    passOut cfg out io s = [] :=
  if_neg (not_or.2 ⟨Bool.eq_false_iff.1 hc, fun h ↦ Bool.eq_false_iff.1 h.1 ho⟩)

end Rbtrace
