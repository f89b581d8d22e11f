import Mathlib.Algebra.Order.Group.Multiset
import Mathlib.Tactic.Abel
import Rbtrace.Ledger

/-!
# Nothing disappears while a file is open

A session starts with a successful `rbtrace_ctrl_open`.  From then on, until the closing
pass reads `ri_slot`, every record that was accepted is in exactly one place: it has been
written, it was in a buffer that was discarded, or it is still in the ring (`Live`).

What can spoil this is a pass that was under way when the file was opened: it still
takes `ri_flush` at the end of its `rbtrace_write_data`, and with it the count of what the
new session has filled.
-/

namespace Rbtrace

/-! ## Where the daemon is in a session -/

/-- The inactive buffer has been written and `ri_flush` not been taken yet. -/
@[simp] def DaemonPc.pastWrite : DaemonPc → Bool
  | .rollover w _ _ => !w.doFlush
  | .data w (.limClose _) | .data w (.limWrap _) | .data w (.limZap _) | .data w (.stopLoad _)
  | .data w (.stopStore _ _) | .data w (.takeLost _) | .data w (.takeFlush _) => !w.doFlush
  | _ => false

/-- The active buffer has not been looked at to be flushed. -/
@[simp] def DaemonPc.live : DaemonPc → Bool
  | .clearLoad _ | .clearStore _ _ | .closeFile | .closeLoad | .closeStore _ => false
  | .data _ .off => true
  | .data w (.slot _) => w.doFlush
  | .data w _ | .rollover w _ _ => !w.doFlush
  | _ => true

/-- The daemon got here in a pass that found the file open. -/
@[simp] def DaemonPc.inFile : DaemonPc → Bool
  | .testFlush _ | .rollover _ _ _ => true
  | .data _ (.takeLost _) | .data _ (.takeFlush _) | .data _ (.report _) => false
  | .data _ _ => true
  | _ => false

/-- What holds of the flags in a session, up to the flush of the active buffer. -/
structure LiveFlags (f : RiFlags) (pc : DaemonPc) : Prop where
  /-- A flush is asked for exactly when a close is. -/
  flush_eq : HoldsOf (fun f ↦ f.doFlush = f.doClose) f pc
  /-- An open is only pending as long as the file is not open. -/
  open_pending : f.doOpen → pc.opening ∨ (f.doDisk = false ∧ f.doClose = false)
  open_held : ∀ g ∈ pc.held, g.doOpen → pc.opening
  live : pc.live
  inFile : pc.inFile → f.doOpen = false

/-- The daemon is about to write a buffer. -/
def DaemonPc.writes : DaemonPc → Bool
  | .data _ (.write _ _ _) => true
  | _ => false

/-- The daemon is about to read `ri_slot`, to flush the active buffer. -/
def DaemonPc.readsSlot : DaemonPc → Bool
  | .data _ (.slot _) => true
  | _ => false

section

variable {cfg : RingConfig} {ri ri' : RingInfo} {pc pc' : DaemonPc}

/-- The daemon stores nothing that is not in order. -/
theorem LiveFlags.flow_flush (h : LiveFlags ri.riFlags pc) (hf : Flow cfg ri pc ri' pc') :
    HoldsOf (fun f ↦ f.doFlush = f.doClose) ri'.riFlags pc' := by
  obtain ⟨⟨h₁, h₂⟩, -, -, h₄, -⟩ := h
  refine ⟨?_, fun g hg ↦ (hf.held g hg).1 ▸ h₁⟩
  cases hf with
  | header hf | headerReturn hf | rollover hf | rolloverReturn hf => cases hf <;> simp_all
  | data hf | dataRollover hf | dataReturn hf => cases hf <;> simp_all
  | _ => simp_all

/-- The daemon moves on to where it may be. -/
theorem LiveFlags.flow (h : LiveFlags ri.riFlags pc) (hpc : PcOk ri.riFlags pc)
    (hslot : pc.readsSlot = false) (hf : Flow cfg ri pc ri' pc') :
    LiveFlags ri'.riFlags pc' := by
  have hclose : pc.closing → ri.riFlags.doClose := fun hc ↦ (hpc.tells .closing hc).1
  have hflush := h.flow_flush hf
  obtain ⟨⟨h₁, -⟩, h₂, h₃, h₄, h₅⟩ := h
  refine ⟨hflush, ?_, ?_, ?_, ?_⟩
  all_goals
    clear hflush
    cases hf with
    | header hf | headerReturn hf | rollover hf | rolloverReturn hf => cases hf <;> simp_all
    | data hf => cases hf <;> simp_all [DaemonPc.readsSlot]
    | dataRollover hf =>
        cases hf
        simp_all
    | @dataReturn w pc ri' hf =>
        cases hf
        obtain ⟨c, _ | _⟩ := w <;> simp_all [Site.return]
    | _ => simp_all

end

/-! ## Where the records are -/

/-- The inactive buffer has been written in this session and `ri_flush` not been taken. -/
def Inter.drained (s : Inter) : Bool := s.pc.pastWrite && !s.sys.ri.riFlags.doOpen

/-- The records in the ring that have not been written; `drained` says whether those of
the inactive buffer have. -/
def unsaved (cfg : RingConfig) (drained : Bool) (sh : Shm) : List RbtraceEntry :=
  if drained then sh.activeRecords else (sh.view cfg).stored

/-- The daemon has found the inactive buffer pending and not written it yet. -/
@[simp] def DaemonPc.beforeWrite : DaemonPc → Bool
  | .data w .off | .data w (.wrap _ _) | .data w (.write _ _ _) => !w.doFlush
  | _ => false

/-- The buffer that the daemon is about to write, as offset and number of records. -/
@[simp] def DaemonPc.selected : DaemonPc → Option (Nat × Nat)
  | .data _ (.wrap off n) | .data _ (.write off n _) => some (off, n)
  | _ => none

/-- The offset that the daemon has read to flush the active buffer. -/
@[simp] def DaemonPc.slotOff : DaemonPc → Option Nat
  | .data _ (.slot off) => some off
  | _ => none

/-- The daemon has found the file open in `rbtrace_write_data` and not written yet. -/
@[simp] def DaemonPc.inWrite : DaemonPc → Bool
  | .data _ (.slot _) | .data _ (.wrap _ _) | .data _ (.write _ _ _) => true
  | _ => false

/-- What the daemon's point says about the ring. -/
structure AtPoint (cfg : RingConfig) (ri : RingInfo) (pc : DaemonPc) : Prop where
  beforeWrite : pc.beforeWrite → ri.riFlush ≠ 0
  pastWrite : pc.pastWrite → ri.riFlags.doOpen = false → ri.riFlush ≠ 0
  selected : ∀ p, pc.selected = some p → p = (ri.riAltOff, cfg.rcSize)
  slotOff : ∀ off, pc.slotOff = some off → ri.riFlush = 0 → off = ri.riCirOff

/-- **A session up to the flush of the active buffer.**  Everything accepted is written,
discarded, or in the ring. -/
structure Live (cfg : RingConfig) (s : Inter) (L : Ledger) : Prop where
  io : s.pc ≠ .idle → s.io.Ok
  flags : LiveFlags s.sys.ri.riFlags s.pc
  point : AtPoint cfg s.sys.ri s.pc
  fd : s.pc.inWrite → s.sys.rfd.fd ≠ none
  all : L.accepted = L.written + unsaved cfg s.drained s.sys.toShm + L.discarded.flatten
  closed : L.closed ≤ L.accepted

section

variable {cfg : RingConfig} {s t : Inter} {L : Ledger}

/-- What the daemon's point says about the ring stays true when the daemon moves on. -/
theorem AtPoint.flow (hsize : cfg.rcDataSize / sizeofEntry = cfg.rcSize) {ri ri' : RingInfo}
    {pc pc' : DaemonPc} (h : AtPoint cfg ri pc) (hl : LiveFlags ri.riFlags pc)
    (hslot : pc.readsSlot = false) (hf : Flow cfg ri pc ri' pc') : AtPoint cfg ri' pc' := by
  obtain ⟨h₁, h₂, h₃, h₄⟩ := h
  have hopen := hl.inFile
  clear hl
  constructor
  on_goal 1 => clear h₂ h₃ h₄ hopen hsize
  on_goal 2 => clear h₃ h₄ hsize
  on_goal 3 => clear h₁ h₂ h₄ hopen
  on_goal 4 => clear h₁ h₂ h₃ hopen hsize
  all_goals
    cases hf with
    | header hf | headerReturn hf | rollover hf | rolloverReturn hf =>
        cases hf <;> simp_all [RingInfo.setFlags]
    | data hf => cases hf <;> simp_all [DaemonPc.readsSlot, RingInfo.setFlags]
    | dataRollover hf =>
        cases hf
        simp_all
    | @dataReturn w pc ri' hf =>
        cases hf
        obtain ⟨c, _ | _⟩ := w <;> simp_all [Site.return]
    | _ => simp_all [RingInfo.setFlags]

/-- A call leaves it true as well. -/
theorem AtPoint.call {sh : Shm} {off : Nat} {pc : DaemonPc} (h : AtPoint cfg sh.ri pc)
    (hlive : pc.live) (hr : RingOk cfg off sh) (hpos : 0 < cfg.rcSize)
    (hlt : cfg.rcSize < 2 ^ 31) (hnn : 0 ≤ sh.ri.riFlush) (hfit : CounterFits cfg sh)
    (st : Nat → Stamp) (a : TraceArgs) : AtPoint cfg (rbtrace cfg st sh a).1.ri pc := by
  have hsel : pc.selected ≠ none → pc.beforeWrite := by
    cases pc with
    | data w pc => cases pc <;> simp_all
    | _ => simp
  have hkeep : (sh.ri.riFlush ≠ 0 → (rbtrace cfg st sh a).1.ri.riFlush ≠ 0 ∧
        (rbtrace cfg st sh a).1.ri.riAltOff = sh.ri.riAltOff) ∧
      ((rbtrace cfg st sh a).1.ri.riFlush = 0 → sh.ri.riFlush = 0 ∧
        (rbtrace cfg st sh a).1.ri.riCirOff = sh.ri.riCirOff) := by
    obtain ⟨-, hf, hcir, halt, -⟩ | ⟨-, hz, hf, -⟩ | ⟨-, -, hz, -, hf, hcir, halt, -⟩ :=
      callNotes_cases hr hpos hlt hnn hfit st a
    · exact ⟨fun h ↦ ⟨hf ▸ h, halt⟩, fun h ↦ ⟨hf ▸ h, hcir⟩⟩
    · exact ⟨fun h ↦ absurd hz h, fun h ↦ by omega⟩
    · exact ⟨fun h ↦ ⟨by omega, halt⟩, fun h ↦ by omega⟩
  obtain ⟨hne, hz⟩ := hkeep
  refine ⟨fun hb ↦ (hne (h.beforeWrite hb)).1, fun hp ho ↦ ?_, fun p hp ↦ ?_, fun off ho hf ↦ ?_⟩
  · rw [rbtrace_riFlags] at ho
    exact (hne (h.pastWrite hp ho)).1
  · rw [h.selected p hp, (hne (h.beforeWrite (hsel (hp ▸ Option.some_ne_none p)))).2]
  · rw [h.slotOff off ho (hz hf).1, (hz hf).2]

theorem stored_view (cfg : RingConfig) (sh : Shm) :
    (sh.view cfg).stored =
      (if sh.ri.riFlush = 0 then [] else sh.altRecords cfg) ++ sh.activeRecords := by
  unfold Shm.view DoubleBuffer.stored
  split <;> rfl

/-- Whatever a call does, its record is in the ring, and what is not there any more was
discarded. -/
theorem unsaved_call {sh : Shm} {off : Nat} {drained : Bool} (hr : RingOk cfg off sh)
    (hpos : 0 < cfg.rcSize) (hlt : cfg.rcSize < 2 ^ 31) (hnn : 0 ≤ sh.ri.riFlush)
    (hfit : CounterFits cfg sh) (hd : drained → sh.ri.riFlush ≠ 0)
    (hall : L.accepted = L.written + unsaved cfg drained sh + L.discarded.flatten)
    (st : Nat → Stamp) (a : TraceArgs) :
    (L.enter (callNotes cfg st sh a)).accepted = L.written +
      unsaved cfg drained (rbtrace cfg st sh a).1 +
      (L.enter (callNotes cfg st sh a)).discarded.flatten := by
  -- `b` is what is discarded
  obtain ⟨b, hu, hacc, hdis⟩ : ∃ b : List RbtraceEntry,
      (unsaved cfg drained (rbtrace cfg st sh a).1 + b : Multiset RbtraceEntry) =
        unsaved cfg drained sh + {entryOf a (st 0)} ∧
      (L.enter (callNotes cfg st sh a)).accepted = {entryOf a (st 0)} + L.accepted ∧
      ((L.enter (callNotes cfg st sh a)).discarded.flatten : Multiset RbtraceEntry) =
        b + L.discarded.flatten := by
    obtain ⟨hn, hf, -, -, halt, hact⟩ | ⟨hn, hz, hf, halt, hact⟩ |
      ⟨hn, -, hz, -, hf, -, -, halt, hact⟩ := callNotes_cases hr hpos hlt hnn hfit st a
    · refine ⟨[], ?_, by rw [hn]; rfl, by rw [hn]; rfl⟩
      rw [Multiset.coe_nil, add_zero, ← Multiset.coe_singleton, Multiset.coe_add]
      congr 1
      simp only [unsaved, stored_view, hf, halt, hact]
      split
      · rfl
      · rw [List.append_assoc]
    · have hd' : drained = false := Bool.eq_false_iff.2 fun h ↦ hd h hz
      refine ⟨[], ?_, by rw [hn]; rfl, by rw [hn]; rfl⟩
      rw [Multiset.coe_nil, add_zero, ← Multiset.coe_singleton, Multiset.coe_add]
      congr 1
      simp [unsaved, stored_view, hd', hz, hf, halt, hact]
    · have hne : sh.ri.riFlush + 1 ≠ 0 := by omega
      refine ⟨sh.activeRecords, ?_, by rw [hn]; rfl, ?_⟩
      · simp only [unsaved, stored_view, hf, hz, hne, if_false, halt, hact]
        split
        · exact add_comm _ _
        · rw [← Multiset.coe_add, ← Multiset.coe_add, add_right_comm]
          rfl
      · simp only [hn, Ledger.enter_cons, Ledger.enter_nil, Ledger.note, Ledger.discarded,
          Ledger.reported, List.flatten_append, List.flatten_singleton, ← Multiset.coe_add]
        abel
  calc (L.enter (callNotes cfg st sh a)).accepted
    _ = {entryOf a (st 0)} + (L.written + unsaved cfg drained sh + L.discarded.flatten) := by
        rw [hacc, hall]
    _ = L.written + (unsaved cfg drained sh + {entryOf a (st 0)}) + L.discarded.flatten := by abel
    _ = L.written + unsaved cfg drained (rbtrace cfg st sh a).1 + (b + L.discarded.flatten) := by
        rw [← hu]
        abel
    _ = _ := by rw [hdis]

/-- A call in a session. -/
theorem Live.call (h : Live cfg s L) {off : Nat} (hr : RingOk cfg off s.sys.toShm)
    (hpos : 0 < cfg.rcSize) (hlt : cfg.rcSize < 2 ^ 31) (hnn : 0 ≤ s.sys.ri.riFlush)
    (hfit : CounterFits cfg s.sys.toShm) (st : Nat → Stamp) (a : TraceArgs) :
    Live cfg { s with sys := s.sys.trace cfg st a }
      (L.enter (callNotes cfg st s.sys.toShm a)) := by
  have hflags : (s.sys.trace cfg st a).ri.riFlags = s.sys.ri.riFlags := rbtrace_riFlags ..
  obtain ⟨-, -, hw, hcl⟩ := @Ledger.enter_callNotes cfg s.sys.toShm L st a
  have hd : s.drained → s.sys.ri.riFlush ≠ 0 := fun hd ↦ by
    obtain ⟨hp, ho⟩ := Bool.and_eq_true_iff.1 hd
    exact h.point.pastWrite hp (by simpa using ho)
  have hdr : Inter.drained { s with sys := s.sys.trace cfg st a } = s.drained := by
    simp only [Inter.drained, hflags]
  have hacc : L.accepted ≤ (L.enter (callNotes cfg st s.sys.toShm a)).accepted := by
    obtain ⟨hn, -⟩ | ⟨hn, -⟩ | ⟨hn, -⟩ := callNotes_cases hr hpos hlt hnn hfit st a
    all_goals
      rw [hn]
      exact Multiset.le_cons_self _ _
  refine ⟨h.io, ?_, h.point.call h.flags.live hr hpos hlt hnn hfit st a, h.fd, ?_, ?_⟩
  · rw [hflags]
    exact h.flags
  · rw [hdr, hw]
    exact unsaved_call hr hpos hlt hnn hfit hd h.all st a
  · rw [hcl]
    exact h.closed.trans hacc

/-- Where the records are does not depend on anything but the ring and the records. -/
theorem unsaved_congr {sh sh' : Shm} (drained : Bool) (hc : sh'.ri.riCirOff = sh.ri.riCirOff)
    (ha : sh'.ri.riAltOff = sh.ri.riAltOff) (hs : sh'.ri.riSlot = sh.ri.riSlot)
    (hf : sh'.ri.riFlush = sh.ri.riFlush) (hm : sh'.reBase = sh.reBase) :
    unsaved cfg drained sh' = unsaved cfg drained sh := by
  simp only [unsaved, stored_view, Shm.activeRecords, Shm.altRecords, hc, ha, hs, hf, hm]

/-- A control operation in a session. -/
theorem Live.ctrl (h : Live cfg s L) {op : RbtraceOp} (hopen : NoOpen s (.ctrl op)) :
    Live cfg { s with sys := { s.sys with toShm := (rbtraceCtrl op s.sys.toShm).1 } }
      (L.enter (notes cfg s (.ctrl op))) := by
  obtain ⟨hring, hmem, ho, hflags⟩ := rbtraceCtrl_of_noOpen hopen
  obtain ⟨hc, ha, hs, hf, -⟩ := RingWords.mk.injEq .. ▸ hring
  have hlive : LiveFlags (rbtraceCtrl op s.sys.toShm).1.ri.riFlags s.pc := by
    obtain ⟨h₁, h₂, h₃, h₄, h₅⟩ := h.flags
    refine ⟨⟨?_, h₁.2⟩, fun hopen ↦ ?_, h₃, h₄, fun hin ↦ ho.trans (h₅ hin)⟩
    · rcases hflags with ⟨-, hcl, hfl⟩ | ⟨-, -, -, hcl, hfl⟩
      · exact hfl.trans (h₁.1.trans hcl.symm)
      · exact hfl.trans hcl.symm
    · rw [ho] at hopen
      refine (h₂ hopen).imp id ?_
      rintro ⟨hd, hcl⟩
      rcases hflags with ⟨hd', hcl', -⟩ | ⟨-, hd', -⟩
      · exact ⟨hd'.trans hd, hcl'.trans hcl⟩
      · exact absurd (hd.symm.trans hd') Bool.false_ne_true
  have hpoint : AtPoint cfg (rbtraceCtrl op s.sys.toShm).1.ri s.pc := by
    obtain ⟨h₁, h₂, h₃, h₄⟩ := h.point
    exact ⟨fun hb ↦ hf ▸ h₁ hb, fun hp hn ↦ hf ▸ h₂ hp (ho ▸ hn), fun p hp ↦ ha ▸ h₃ p hp,
      fun off hoff hz ↦ hc ▸ h₄ off hoff (hf ▸ hz)⟩
  have hsaved : unsaved cfg (Inter.drained
        { s with sys := { s.sys with toShm := (rbtraceCtrl op s.sys.toShm).1 } })
        (rbtraceCtrl op s.sys.toShm).1 = unsaved cfg s.drained s.sys.toShm := by
    simp only [Inter.drained, ho]
    exact unsaved_congr _ hc ha hs hf hmem
  have hbooks : (L.enter (notes cfg s (.ctrl op))).accepted = L.accepted ∧
      (L.enter (notes cfg s (.ctrl op))).written = L.written ∧
      (L.enter (notes cfg s (.ctrl op))).discarded = L.discarded ∧
      (L.enter (notes cfg s (.ctrl op))).closed ≤ L.accepted := by
    cases op with
    | close =>
        simp only [notes]
        split
        · exact ⟨rfl, rfl, rfl, le_rfl⟩
        · exact ⟨rfl, rfl, rfl, h.closed⟩
    | _ => exact ⟨rfl, rfl, rfl, h.closed⟩
  obtain ⟨hb₁, hb₂, hb₃, hb₄⟩ := hbooks
  refine ⟨h.io, hlive, hpoint, h.fd, ?_, hb₁ ▸ hb₄⟩
  rw [hsaved, hb₁, hb₂, hb₃]
  exact h.all

/-- Only the write of a buffer touches the records, to clear them. -/
theorem daemonStep_reBase {io : PassIo} {s : Sys} {pc : DaemonPc} {r : Sys × DaemonPc}
    (hpc : pc.writes = false) (hr : daemonStep cfg io s pc = some r) : r.1.reBase = s.reBase := by
  have hheader : ∀ (hio : HeaderIo) (pc : HeaderPc), (headerStep cfg hio s pc).1.reBase = s.reBase := by
    intro hio pc
    cases pc with
    | opening zap => simp only [headerStep, openFile_toShm]
    | _ => rfl
  cases pc with
  | header pc | rollover w upd pc =>
      cases hr
      exact hheader _ pc
  | closeFile =>
      cases hr
      unfold closeFile
      split <;> rfl
  | data w pc =>
      obtain ⟨d, hd, rfl⟩ := Option.map_eq_some_iff.1 hr
      cases pc with
      | off =>
          simp only [dataStep] at hd
          split at hd <;> cases hd
          rfl
      | wrap off n =>
          cases hd
          exact congrArg Shm.reBase (wrapSeek_toShm _ _ s)
      | write off n upd => cases hpc
      | limWrap upd =>
          simp only [dataStep, Option.some.injEq] at hd
          split at hd <;> cases hd <;> rfl
      | takeLost upd =>
          cases hd
          dsimp only
          rw [updateHeader_toShm]
      | report l => cases hd
      | slot off | limClose upd | limZap upd | stopLoad upd | stopStore upd f | takeFlush l =>
          cases hd
          rfl
  | idle => cases hr
  | _ =>
      cases hr
      rfl

/-- How the daemon gets to the write of a buffer. -/
theorem Flow.inWrite {ri ri' : RingInfo} {pc pc' : DaemonPc} (hf : Flow cfg ri pc ri' pc')
    (h : pc'.inWrite) : ∃ w, pc = .data w .off ∨ (∃ off, pc = .data w (.slot off)) ∨
      ∃ off n, pc = .data w (.wrap off n) := by
  cases hf with
  | data hf => cases hf <;> simp_all
  | @dataReturn w =>
      unfold Site.return at h
      split at h <;> simp at h
  | _ => simp at h

/-- The file is open as long as `rbtrace_write_data` needs it. -/
theorem daemonStep_inWrite {io : PassIo} {s : Sys} {pc : DaemonPc} {r : Sys × DaemonPc}
    (h : pc.inWrite → s.rfd.fd ≠ none) (hr : daemonStep cfg io s pc = some r)
    (hw : r.2.inWrite) : r.1.rfd.fd ≠ none := by
  obtain ⟨w, rfl | ⟨off, rfl⟩ | ⟨off, n, rfl⟩⟩ := (daemonStep_flow hr).inWrite hw
  · obtain ⟨d, hd, rfl⟩ := Option.map_eq_some_iff.1 hr
    simp only [dataStep] at hd
    split at hd <;> cases hd
    rename_i hfd
    exact hfd
  · cases hr
    exact h rfl
  · cases hr
    dsimp only
    rw [wrapSeek_seek]
    exact h rfl

/-- Apart from the write and the exchange, the daemon does not change what is drained. -/
theorem Flow.drained {ri ri' : RingInfo} {pc pc' : DaemonPc} (hf : Flow cfg ri pc ri' pc')
    (hl : LiveFlags ri.riFlags pc) (hwrite : pc.writes = false) (htake : pc.taking = false) :
    (pc'.pastWrite && !ri'.riFlags.doOpen) = (pc.pastWrite && !ri.riFlags.doOpen) := by
  obtain ⟨-, -, hheld, hlive, hin⟩ := hl
  cases hf with
  | header hf | headerReturn hf => cases hf <;> simp
  | rollover hf | rolloverReturn hf => cases hf <;> simp_all
  | data hf => cases hf <;> simp_all [DaemonPc.taking, DaemonPc.writes]
  | dataRollover hf =>
      cases hf
      simp_all
  | dataReturn hf =>
      cases hf
      cases htake
  | _ => simp

/-- A step of the daemon that is neither a write nor an exchange nor a report. -/
theorem Live.daemonStep (h : Live cfg s L) (hok : s.Ok cfg)
    (hsize : cfg.rcDataSize / sizeofEntry = cfg.rcSize) (hslot : s.pc.readsSlot = false)
    (hwrite : s.pc.writes = false) (htake : s.pc.taking = false)
    {r : Sys × DaemonPc} (hr : daemonStep cfg s.io s.sys s.pc = some r) :
    Live cfg { s with sys := r.1, pc := r.2 } L := by
  have hf := daemonStep_flow hr
  have hidle : s.pc ≠ .idle := fun hidle ↦ by
    rw [hidle] at hr
    cases hr
  obtain ⟨hc, ha, hs, -⟩ := hf.ring
  refine ⟨fun _ ↦ h.io hidle, h.flags.flow hok.pc hslot hf, h.point.flow hsize h.flags hslot hf,
    daemonStep_inWrite h.fd hr, ?_, h.closed⟩
  have hd : Inter.drained { s with sys := r.1, pc := r.2 } = s.drained :=
    hf.drained h.flags hwrite htake
  rw [hd, unsaved_congr s.drained hc ha hs (hf.of_not_taking htake).2 (daemonStep_reBase hwrite hr)]
  exact h.all

/-- A write that goes well. -/
theorem writeBuffer_of_noError {outs : List PwriteOutcome} {s : Sys} (h : NoError outs)
    (hfd : s.rfd.fd ≠ none) (off n : Nat) :
    (writeBuffer outs off n s).2 = true ∧
      (writeBuffer outs off n s).1.reBase = clearRecords s.reBase off n := by
  obtain ⟨path, hpath⟩ := Option.ne_none_iff_exists'.1 hfd
  simp only [writeBuffer, hpath, pwriteFd_of_noError h, if_true, and_self]

theorem PassIo.Ok.data {io : PassIo} (h : io.Ok) (w : Site) : (io.data w).Ok := by
  unfold PassIo.data
  split
  · exact h.active
  · exact h.inactive

/-- The write of the inactive buffer. -/
theorem Live.write (h : Live cfg s L) (hok : s.Ok cfg)
    (hsize : cfg.rcDataSize / sizeofEntry = cfg.rcSize) {w : Site} {off n : Nat} {upd : Bool}
    (hpc : s.pc = .data w (.write off n upd)) {r : Sys × DaemonPc}
    (hr : Rbtrace.daemonStep cfg s.io s.sys s.pc = some r) :
    Live cfg { s with sys := r.1, pc := r.2 } (L.enter (daemonNotes cfg s)) := by
  obtain ⟨s, io, pc⟩ := s
  obtain rfl : pc = _ := hpc
  have hf := daemonStep_flow hr
  have hio : io.Ok := h.io (by simp)
  obtain ⟨hwrite, hmem⟩ := writeBuffer_of_noError (hio.data w).data (h.fd rfl) off n
  have hflush : w.doFlush = false := by simpa using h.flags.live
  have hopen : s.ri.riFlags.doOpen = false := h.flags.inFile rfl
  have hpend : s.ri.riFlush ≠ 0 := h.point.beforeWrite (by simp [hflush])
  obtain ⟨rfl, rfl⟩ : off = s.ri.riAltOff ∧ n = cfg.rcSize :=
    Prod.mk.inj (h.point.selected _ rfl)
  have hnotes : daemonNotes cfg ⟨s, io, .data w (.write s.ri.riAltOff cfg.rcSize upd)⟩ =
      [.wrote (s.altRecords cfg)] := if_pos hwrite
  have hri : r.1.ri = s.ri := by
    cases hr
    exact writeBuffer_ri ..
  have hbase : r.1.reBase = clearRecords s.reBase s.ri.riAltOff cfg.rcSize := by
    cases hr
    exact hmem
  have hpast : r.2.pastWrite = true := by
    cases hr
    simp only [hwrite, if_true, Site.next]
    split <;> simp [hflush]
  -- the write clears the inactive buffer, and the active one lies elsewhere
  have hactive : r.1.toShm.activeRecords = s.activeRecords := by
    have h₁ : -1 ≤ s.ri.riSlot := hok.ring.slot_ge
    have h₂ : s.ri.riSlot < cfg.rcSize := hok.ring.slot_lt
    have hb := hok.ring.buffers
    simp only [Shm.activeRecords, hri, hbase]
    exact bufRecords_clearRecords_of_disjoint (by simp only at hb; omega)
  have hall : L.accepted = L.written + (s.view cfg).stored + L.discarded.flatten := h.all
  refine ⟨fun _ ↦ hio, h.flags.flow hok.pc rfl hf, h.point.flow hsize h.flags rfl hf,
    daemonStep_inWrite h.fd hr, ?_, by rw [hnotes]; exact h.closed⟩
  have hd : Inter.drained ⟨r.1, io, r.2⟩ = true := by
    simp only [Inter.drained, hpast, hri, hopen, Bool.not_false, Bool.and_self]
  rw [hd, hnotes]
  change L.accepted = L.written + s.altRecords cfg + r.1.toShm.activeRecords + L.discarded.flatten
  rw [hactive, hall, stored_view, if_neg hpend, ← Multiset.coe_add]
  abel

/-- The exchange of `ri_flush`, if it takes what this session has counted. -/
theorem Live.takeFlush (h : Live cfg s L) (hok : s.Ok cfg)
    (hsize : cfg.rcDataSize / sizeofEntry = cfg.rcSize) {w : Site} {l : Int}
    (hpc : s.pc = .data w (.takeFlush l)) (htaken : L.taken = [])
    (hown : s.sys.ri.riFlags.doOpen → s.sys.ri.riFlush = 0) {r : Sys × DaemonPc}
    (hr : Rbtrace.daemonStep cfg s.io s.sys s.pc = some r) :
    Live cfg { s with sys := r.1, pc := r.2 } (L.enter (daemonNotes cfg s)) := by
  obtain ⟨s, io, pc⟩ := s
  obtain rfl : pc = _ := hpc
  have hf := daemonStep_flow hr
  have hflush : w.doFlush = false := by simpa using h.flags.live
  have hri : r.1.ri = { s.ri with riFlush := 0 } ∧ r.1.reBase = s.reBase := by
    cases hr
    exact ⟨rfl, rfl⟩
  -- either way it is the active buffer that has not been written
  have hbefore : unsaved cfg (Inter.drained ⟨s, io, .data w (.takeFlush l)⟩) s.toShm =
      s.activeRecords := by
    cases ho : s.ri.riFlags.doOpen with
    | false => simp [unsaved, Inter.drained, hflush, ho]
    | true =>
        have hz : s.ri.riFlush = 0 := hown ho
        simp [unsaved, Inter.drained, ho, stored_view, hz]
  have hafter : unsaved cfg (Inter.drained ⟨r.1, io, r.2⟩) r.1.toShm = s.activeRecords := by
    simp [unsaved, stored_view, Shm.activeRecords, hri]
  have hall := h.all
  rw [hbefore] at hall
  refine ⟨fun _ ↦ h.io (by simp), h.flags.flow hok.pc rfl hf, h.point.flow hsize h.flags rfl hf,
    daemonStep_inWrite h.fd hr, ?_, h.closed⟩
  rw [hafter]
  simpa only [daemonNotes, Ledger.enter_cons, Ledger.enter_nil, Ledger.note, Ledger.discarded,
    Ledger.reported, htaken, List.append_nil, List.nil_append] using hall

/-- A report of the daemon. -/
theorem Live.report (h : Live cfg s L) (hc : Counted cfg s L) (hpos : 0 < cfg.rcSize)
    (hlt : cfg.rcSize < 2 ^ 31) {w : Site} {l : Int} (hpc : s.pc = .data w (.report l))
    (hfit : CounterFits cfg s.sys.toShm) (ht : s.daemon cfg = some t) :
    Live cfg t (L.enter (daemonNotes cfg s)) := by
  obtain ⟨s, io, pc⟩ := s
  obtain rfl : pc = _ := hpc
  cases ht
  have hflush : w.doFlush = false := by simpa using h.flags.live
  have hreturn : w.return = .testDoFlush w.closing := by simp [Site.return, hflush]
  have hlive : Live cfg ⟨s, io, w.return⟩ (L.note (.reported l)) := by
    obtain ⟨⟨h₁, -⟩, h₂, -, -, -⟩ := h.flags
    rw [hreturn]
    refine ⟨fun _ ↦ h.io (by simp), ⟨⟨h₁, by simp⟩, by simpa using h₂, by simp, by simp, by simp⟩,
      ⟨by simp, by simp, by simp, by simp⟩, by simp, ?_, h.closed⟩
    have hall := h.all
    simp only [Inter.drained, DaemonPc.pastWrite, Bool.false_and] at hall ⊢
    simp only [Ledger.note, Ledger.discarded, Ledger.reported, List.flatMap_append,
      List.flatMap_singleton, List.append_nil, List.flatten_append, ← Multiset.coe_add] at hall ⊢
    rw [hall]
    abel
  exact hlive.call hc.ok.ring hpos hlt hc.tally.flush_nonneg hfit _ _

end

/-! ## Steps of a session -/

/-- No system call of the step fails. -/
def InterEvent.IoOk : InterEvent → Prop
  | .wake io => io.Ok
  | _ => True

/-- As long as the open is pending, the daemon does not take a count that is not zero: it
could only be the new session's. -/
def TakesOwn (s : Inter) : InterEvent → Prop
  | .daemon => s.pc.taking → s.sys.ri.riFlags.doOpen → s.sys.ri.riFlush = 0
  | _ => True

/-- A step that a session survives: no file is opened, the counter does not overflow, and
the daemon takes only what the session has counted. -/
structure Sound (cfg : RingConfig) (s : Inter) (e : InterEvent) : Prop where
  noOpen : NoOpen s e
  countsOn : CountsOn cfg s e
  takesOwn : TakesOwn s e

instance decidableTakesOwn (s : Inter) : ∀ e, Decidable (TakesOwn s e)
  | .daemon => inferInstanceAs (Decidable (_ = _ → _ = _ → _ = _))
  | .call _ _ | .wake _ | .ctrl _ => .isTrue trivial

instance (cfg : RingConfig) (s : Inter) (e : InterEvent) : Decidable (Sound cfg s e) :=
  decidable_of_iff (NoOpen s e ∧ CountsOn cfg s e ∧ TakesOwn s e)
    ⟨fun h ↦ ⟨h.1, h.2.1, h.2.2⟩, fun h ↦ ⟨h.noOpen, h.countsOn, h.takesOwn⟩⟩

section

variable {cfg : RingConfig} {s t : Inter} {L : Ledger}

/-- **A step of a session**, unless it is the one that flushes the active buffer. -/
theorem Live.step (h : Live cfg s L) (hc : Counted cfg s L) (hpos : 0 < cfg.rcSize)
    (hlt : cfg.rcSize < 2 ^ 31) (hsize : cfg.rcDataSize / sizeofEntry = cfg.rcSize)
    {e : InterEvent} (hio : e.IoOk) (hsound : Sound cfg s e)
    (hslot : e = .daemon → s.pc.readsSlot = false) (ht : (interleaved cfg).step s e = some t) :
    Live cfg t (L.enter (notes cfg s e)) := by
  cases e with
  | call st a =>
      cases ht
      exact h.call hc.ok.ring hpos hlt hc.tally.flush_nonneg hsound.countsOn st a
  | wake io =>
      simp only [interleaved, Inter.step] at ht
      split at ht <;> cases ht
      rename_i hidle
      obtain ⟨⟨h₁, -⟩, h₂, -, -, -⟩ := h.flags
      have hall := h.all
      rw [hidle] at h₂
      simp only [Inter.drained, hidle, DaemonPc.pastWrite, Bool.false_and] at hall
      exact ⟨fun _ ↦ hio, ⟨⟨h₁, by simp⟩, by simpa using h₂, by simp, by simp, by simp⟩,
        ⟨by simp, by simp, by simp, by simp⟩, by simp, hall, h.closed⟩
  | ctrl op =>
      cases ht
      exact h.ctrl hsound.noOpen
  | daemon =>
      cases hrep : s.pc.report with
      | some p =>
          obtain ⟨w, l⟩ := p
          have hpc : s.pc = .data w (.report l) := report_eq_some hrep
          exact h.report hc hpos hlt hpc (hsound.countsOn (by simp [hrep])) ht
      | none =>
          have htaken := hc.taken hrep
          simp only [interleaved, Inter.step, Inter.daemon, hrep] at ht
          obtain ⟨r, hr, rfl⟩ := Option.map_eq_some_iff.1 ht
          by_cases htake : ∃ w l, s.pc = .data w (.takeFlush l)
          · obtain ⟨w, l, hpc⟩ := htake
            exact h.takeFlush hc.ok hsize hpc htaken (hsound.takesOwn (by rw [hpc]; rfl)) hr
          by_cases hwrite : ∃ w off n upd, s.pc = .data w (.write off n upd)
          · obtain ⟨w, off, n, upd, hpc⟩ := hwrite
            exact h.write hc.ok hsize hpc hr
          have hnotes : daemonNotes cfg s = [] := by
            unfold daemonNotes
            split <;> rename_i hpc
            · exact absurd ⟨_, _, _, _, hpc⟩ hwrite
            · exact absurd ⟨_, _, hpc⟩ htake
            · rw [hpc] at hrep
              cases hrep
            · rfl
          have hw : s.pc.writes = false := by
            unfold DaemonPc.writes
            split <;> rename_i hpc
            · exact absurd ⟨_, _, _, _, hpc⟩ hwrite
            · rfl
          have ht : s.pc.taking = false := by
            unfold DaemonPc.taking
            split <;> rename_i hpc
            · exact absurd ⟨_, _, hpc⟩ htake
            · rfl
          simp only [notes, hnotes, Ledger.enter_nil]
          exact h.daemonStep hc.ok hsize (hslot rfl) hw ht hr

/-- **A session starts.**  The daemon may be in the middle of a pass, but not of a report,
and no close and no flush may be pending. -/
theorem live_of_open {path : CStr} (hok : s.Ok cfg) (hio : s.pc ≠ .idle → s.io.Ok)
    (hopen : (rbtraceCtrlOpen (some path) s.sys.toShm).2 = 0)
    (hclose : s.sys.ri.riFlags.doClose = false) (hflush : s.sys.ri.riFlags.doFlush = false)
    (hrep : s.pc.report = none) (hpos : 0 < cfg.rcSize) (hlt : cfg.rcSize < 2 ^ 31)
    (ht : (interleaved cfg).step s (.ctrl (.open (some path))) = some t) :
    Counted cfg t {} ∧ Live cfg t {} := by
  have hok' := hok.step hpos hlt ht
  obtain ⟨hno, hnd, he⟩ := rbtraceCtrl_open hopen
  -- the flags say that the daemon is not where it could do harm
  have hreg : s.pc.closing = false ∧ s.pc.flushing = false ∧ s.pc.writing = false ∧
      s.pc.opening = false := by
    refine ⟨?_, ?_, ?_, ?_⟩ <;> refine Bool.eq_false_iff.2 fun h ↦ ?_
    · simpa [hclose] using (hok.pc.tells .closing h).1
    · simpa [hflush] using (hok.pc.tells .flushing h).1
    · simpa [hnd, hclose] using (hok.pc.tells .writing h).1
    · simpa [hno] using (hok.pc.tells .opening h).1
  obtain ⟨s, io, pc⟩ := s
  cases ht
  rw [he] at hok' ⊢
  refine ⟨⟨hok', ⟨le_rfl, ?_, rfl, by simp [Ledger.discarded, Ledger.reported]⟩, fun _ ↦ rfl, ?_,
    by simp⟩, ⟨hio, ?_, ?_, ?_, ?_, le_rfl⟩⟩
  · have : (0 : Int) ≤ cfg.rcSize := Int.natCast_nonneg _
    dsimp only
    omega
  · intro w l hw
    rw [hrep] at hw
    cases hw
  · obtain ⟨h₁, h₂, h₃, h₄⟩ := hreg
    clear hok hok' hio he hopen
    constructor
    all_goals
      cases pc with
      | data w pc => cases pc <;> simp_all [HoldsOf]
      | _ => simp_all [HoldsOf]
  · obtain ⟨h₁, h₂, h₃, h₄⟩ := hreg
    clear hok hok' hio he hopen
    constructor
    all_goals
      cases pc with
      | data w pc => cases pc <;> simp_all
      | _ => simp_all
  · obtain ⟨h₁, h₂, h₃, h₄⟩ := hreg
    clear hok hok' hio he hopen
    cases pc with
    | data w pc => cases pc <;> simp_all
    | _ => simp_all
  · simp [unsaved, Inter.drained, stored_view, Shm.activeRecords, bufRecords, Ledger.discarded,
      Ledger.reported]

end

end Rbtrace
