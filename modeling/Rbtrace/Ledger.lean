import Mathlib.Data.Multiset.AddSub
import Rbtrace.Interleave
import Rbtrace.Writer

/-!
# Where the records of a session are

The steps of a session leave *notes*: a call was accepted, a full buffer was discarded,
records were written, the daemon took `ri_flush`, it made a report.  Added up, they make
the *ledger* of the session, which knows of every record accepted where it went, as far as
the ring does not hold it any more.

Two invariants tie the ledger to the ring.  `Counted` is about the counter: the buffers
discarded since the daemon last took `ri_flush` are `ri_flush - 1`, and what a report says
is what was discarded.  `Live` is about the records: what was accepted and not written
and not discarded is in the ring.
-/

namespace Rbtrace

open CInt

/-! ## Notes and ledgers -/

/-- What a step adds to the history of a session. -/
inductive Note where
  /-- A call returned 0, having stored this record. -/
  | accepted (e : RbtraceEntry)
  /-- A call discarded the full active buffer. -/
  | discarded (b : List RbtraceEntry)
  /-- The daemon wrote these records to the file. -/
  | wrote (es : List RbtraceEntry)
  /-- The daemon took `ri_flush`. -/
  | took
  /-- The daemon reports a loss of this amount. -/
  | reported (amount : Int)
  /-- `rbtrace_ctrl_close` returned 0, with no close pending before. -/
  | closed

/-- The notes a call leaves. -/
def callNotes (cfg : RingConfig) (st : Nat → Stamp) (sh : Shm) (a : TraceArgs) : List Note :=
  (match (sh.view cfg).discards cfg.rcSize with
    | [] => []
    | b => [.discarded b]) ++
  if (rbtrace cfg st sh a).2 = 0 then [.accepted (entryOf a (st 0))] else []

/-- The notes the daemon's next step leaves. -/
def daemonNotes (cfg : RingConfig) (s : Inter) : List Note :=
  match s.pc with
  | .data w (.write off n _) =>
      if (writeBuffer (s.io.data w).data off n s.sys).2 then
        [.wrote (bufRecords s.sys.reBase off n)] else []
  | .data _ (.takeFlush _) => [.took]
  | .data w (.report lost) =>
      .reported lost :: callNotes cfg (s.io.data w).stamps s.sys.toShm (lostArgs lost)
  | _ => []

/-- The notes a step leaves. -/
def notes (cfg : RingConfig) (s : Inter) : InterEvent → List Note
  | .call st a => callNotes cfg st s.sys.toShm a
  | .daemon => daemonNotes cfg s
  | .ctrl .close => if s.sys.ri.riFlags.doDisk ∧ ¬ s.sys.ri.riFlags.doClose then [.closed] else []
  | _ => []

/-- The history of a session. -/
structure Ledger where
  /-- The records of the calls that returned 0. -/
  accepted : Multiset RbtraceEntry := 0
  /-- The records written to the file. -/
  written : Multiset RbtraceEntry := 0
  /-- What had been accepted when the file was last asked to be closed. -/
  closed : Multiset RbtraceEntry := 0
  /-- The buffers discarded since the daemon last took `ri_flush`. -/
  uncounted : List (List RbtraceEntry) := []
  /-- The buffers that the daemon has taken and not reported yet. -/
  taken : List (List RbtraceEntry) := []
  /-- The reports made: the amount, and the buffers it is meant for. -/
  reports : List (Int × List (List RbtraceEntry)) := []

/-- Enter a note. -/
def Ledger.note (L : Ledger) : Note → Ledger
  | .accepted e => { L with accepted := e ::ₘ L.accepted }
  | .discarded b => { L with uncounted := L.uncounted ++ [b] }
  | .wrote es => { L with written := L.written + es }
  | .took => { L with uncounted := [], taken := L.uncounted }
  | .reported amount => { L with reports := L.reports ++ [(amount, L.taken)], taken := [] }
  | .closed => { L with closed := L.accepted }

/-- Enter some notes. -/
def Ledger.enter (L : Ledger) (ns : List Note) : Ledger := ns.foldl Ledger.note L

/-- The buffers that were discarded and reported. -/
def Ledger.reported (L : Ledger) : List (List RbtraceEntry) := L.reports.flatMap Prod.snd

/-- The buffers that were discarded. -/
def Ledger.discarded (L : Ledger) : List (List RbtraceEntry) :=
  L.uncounted ++ L.taken ++ L.reported

/-- The ledger of a run. -/
def ledger (cfg : RingConfig) (s : Inter) (evs : List InterEvent) : Ledger :=
  Ledger.enter {} ((interleaved cfg).collect (notes cfg) s evs)

/-! ## What a call notes -/

/-- The counter of filled buffers, and the number of records in the discarded ones,
stay in the range of `int` if the next call discards a buffer. -/
def CounterFits (cfg : RingConfig) (sh : Shm) : Prop :=
  sh.ri.riSlot + 1 = cfg.rcSize → sh.ri.riFlush ≠ 0 →
    sh.ri.riFlush * cfg.rcSize < 2 ^ 31 ∧ sh.ri.riFlush + 1 < 2 ^ 31

section

variable {cfg : RingConfig} {off : Nat} {sh : Shm}

/-- A call takes a slot, swaps the buffers, or discards the active one; and this is what
it notes and what it does to the records. -/
theorem callNotes_cases (h : RingOk cfg off sh) (hpos : 0 < cfg.rcSize) (hlt : cfg.rcSize < 2 ^ 31)
    (hf : 0 ≤ sh.ri.riFlush) (hfit : CounterFits cfg sh) (st : Nat → Stamp) (a : TraceArgs) :
    let e := entryOf a (st 0)
    let sh' := (rbtrace cfg st sh a).1
    (callNotes cfg st sh a = [.accepted e] ∧ sh'.ri.riFlush = sh.ri.riFlush ∧
      sh'.ri.riCirOff = sh.ri.riCirOff ∧ sh'.ri.riAltOff = sh.ri.riAltOff ∧
      sh'.altRecords cfg = sh.altRecords cfg ∧
      sh'.activeRecords = sh.activeRecords ++ [e]) ∨
    (callNotes cfg st sh a = [.accepted e] ∧ sh.ri.riFlush = 0 ∧ sh'.ri.riFlush = 1 ∧
      sh'.altRecords cfg = sh.activeRecords ∧ sh'.activeRecords = [e]) ∨
    (callNotes cfg st sh a = [.discarded sh.activeRecords, .accepted e] ∧
      sh.activeRecords.length = cfg.rcSize ∧ sh.ri.riFlush ≠ 0 ∧
      sh.ri.riFlush * cfg.rcSize < 2 ^ 31 ∧ sh'.ri.riFlush = sh.ri.riFlush + 1 ∧
      sh'.ri.riCirOff = sh.ri.riCirOff ∧ sh'.ri.riAltOff = sh.ri.riAltOff ∧
      sh'.altRecords cfg = sh.altRecords cfg ∧ sh'.activeRecords = [e]) := by
  intro e sh'
  have hret : (rbtrace cfg st sh a).2 = 0 := (h.rbtrace hpos hlt st a).2
  have h₁ := h.slot_ge
  have hb := h.buffers
  have hlen : sh.activeRecords.length = (sh.ri.riSlot + 1).toNat := length_bufRecords _ _ _
  have hnotes : callNotes cfg st sh a = (match (sh.view cfg).discards cfg.rcSize with
    | [] => []
    | b => [.discarded b]) ++ [.accepted e] := by
    rw [callNotes, if_pos hret]
  obtain ⟨hs, he⟩ | ⟨hs, hz, he⟩ | ⟨hs, hz, he⟩ := rbtrace_cases h hpos hlt st a
  · have hd : (sh.view cfg).discards cfg.rcSize = [] :=
      if_pos (show sh.activeRecords.length < _ by omega)
    have hn : (sh.ri.riSlot + 1 + 1).toNat = (sh.ri.riSlot + 1).toNat + 1 := by omega
    refine .inl ⟨by rw [hnotes, hd, List.nil_append], ?_⟩
    simp only [sh', he, Shm.activeRecords, Shm.altRecords, hn, bufRecords_update_succ, true_and, e,
      and_true]
    exact bufRecords_update_of_not_mem (by omega)
  · have hfull : ¬ (sh.view cfg).active.length < cfg.rcSize :=
      show ¬ sh.activeRecords.length < cfg.rcSize by omega
    have hd : (sh.view cfg).discards cfg.rcSize = [] := by
      rw [DoubleBuffer.discards, if_neg hfull]
      simp [Shm.view, hz]
    have hn : (sh.ri.riSlot + 1).toNat = cfg.rcSize := by omega
    refine .inr (.inl ⟨by rw [hnotes, hd, List.nil_append], hz, ?_⟩)
    simp only [sh', he, Shm.activeRecords, Shm.altRecords, hn, true_and, e]
    exact ⟨bufRecords_update_of_not_mem (by omega), by simp [bufRecords]⟩
  · have hfull : ¬ (sh.view cfg).active.length < cfg.rcSize :=
      show ¬ sh.activeRecords.length < cfg.rcSize by omega
    have hd : (sh.view cfg).discards cfg.rcSize = sh.activeRecords := by
      rw [DoubleBuffer.discards, if_neg hfull]
      simp [Shm.view, hz]
    have hne : sh.activeRecords ≠ [] := List.ne_nil_of_length_pos (by omega)
    have hfit' := hfit hs hz
    have hi : i32 (sh.ri.riFlush + 1) = sh.ri.riFlush + 1 := i32_of_range (by omega) hfit'.2
    refine .inr (.inr ⟨?_, by omega, hz, hfit'.1, ?_⟩)
    · rw [hnotes, hd]
      obtain ⟨x, b, hb⟩ := List.exists_cons_of_ne_nil hne
      rw [hb]
      rfl
    · simp only [sh', he, hi, Shm.activeRecords, Shm.altRecords, true_and, e]
      exact ⟨bufRecords_update_of_not_mem (by omega), by simp [bufRecords]⟩

/-! ## The counter -/

/-- `ri_flush` counts the buffers that were filled since the daemon last took it, and all
of them but the first were discarded. -/
structure Tally (cfg : RingConfig) (sh : Shm) (L : Ledger) : Prop where
  flush_nonneg : 0 ≤ sh.ri.riFlush
  small : (sh.ri.riFlush - 1) * cfg.rcSize < 2 ^ 31
  uncounted : L.uncounted.length = (sh.ri.riFlush - 1).toNat
  full : ∀ b ∈ L.discarded, b.length = cfg.rcSize

@[simp] theorem Ledger.enter_nil (L : Ledger) : L.enter [] = L := rfl

@[simp] theorem Ledger.enter_cons (L : Ledger) (n : Note) (ns : List Note) :
    L.enter (n :: ns) = (L.note n).enter ns := rfl

/-- A call keeps the count. -/
theorem Tally.call {L : Ledger} (h : Tally cfg sh L) (hr : RingOk cfg off sh)
    (hpos : 0 < cfg.rcSize) (hlt : cfg.rcSize < 2 ^ 31) (hfit : CounterFits cfg sh)
    (st : Nat → Stamp) (a : TraceArgs) :
    Tally cfg (rbtrace cfg st sh a).1 (L.enter (callNotes cfg st sh a)) := by
  obtain ⟨hnn, hsm, hun, hfull⟩ := h
  obtain ⟨hn, hf, -⟩ | ⟨hn, hz, hf, -⟩ | ⟨hn, hlen, hz, hlt', hf, -⟩ :=
    callNotes_cases hr hpos hlt hnn hfit st a
  · rw [hn]
    exact ⟨hf ▸ hnn, hf ▸ hsm, hf ▸ hun, hfull⟩
  · rw [hn]
    refine ⟨by simp [hf], by simp [hf], ?_, hfull⟩
    rw [hf]
    exact hun.trans (by rw [hz]; rfl)
  · rw [hn]
    refine ⟨by omega, by rw [hf]; simpa using hlt', ?_, ?_⟩
    · have hlen : (L.uncounted ++ [sh.activeRecords]).length = (sh.ri.riFlush - 1).toNat + 1 := by
        rw [List.length_append, hun]
        rfl
      rw [hf]
      exact hlen.trans (by omega)
    · intro b hb
      simp only [Ledger.enter_cons, Ledger.enter_nil, Ledger.note, Ledger.discarded,
        Ledger.reported, List.mem_append, List.mem_singleton] at hb
      rcases hb with ((hb | rfl) | hb) | hb
      · exact hfull b (by simp [Ledger.discarded, hb])
      · exact hlen
      · exact hfull b (by simp [Ledger.discarded, hb])
      · exact hfull b (by simp only [Ledger.discarded, List.mem_append]; exact .inr hb)

/-- A call does not touch what was taken and what was reported. -/
theorem Ledger.enter_callNotes (L : Ledger) (st : Nat → Stamp) (a : TraceArgs) :
    (L.enter (callNotes cfg st sh a)).taken = L.taken ∧
      (L.enter (callNotes cfg st sh a)).reports = L.reports ∧
      (L.enter (callNotes cfg st sh a)).written = L.written ∧
      (L.enter (callNotes cfg st sh a)).closed = L.closed := by
  unfold callNotes
  split <;> split <;> exact ⟨rfl, rfl, rfl, rfl⟩

end

/-- The count, and the reports made of it. -/
structure Counted (cfg : RingConfig) (s : Inter) (L : Ledger) : Prop where
  ok : s.Ok cfg
  tally : Tally cfg s.sys.toShm L
  taken : s.pc.report = none → L.taken = []
  due : ∀ w l, s.pc.report = some (w, l) → l = L.taken.flatten.length
  reports : ∀ r ∈ L.reports, r.1 = r.2.flatten.length

/-! ## Steps of a session -/

/-- No call overflows the counter of filled buffers. -/
def CountsOn (cfg : RingConfig) (s : Inter) : InterEvent → Prop
  | .call _ _ => CounterFits cfg s.sys.toShm
  | .daemon => s.pc.report ≠ none → CounterFits cfg s.sys.toShm
  | _ => True

/-- `rbtrace_ctrl_open` does not succeed. -/
def NoOpen (s : Inter) : InterEvent → Prop
  | .ctrl (.open argp) => (rbtraceCtrlOpen argp s.sys.toShm).2 ≠ 0
  | _ => True

instance (cfg : RingConfig) (sh : Shm) : Decidable (CounterFits cfg sh) :=
  inferInstanceAs (Decidable (_ → _ → _ ∧ _))

instance decidableCountsOn (cfg : RingConfig) (s : Inter) : ∀ e, Decidable (CountsOn cfg s e)
  | .call _ _ => inferInstanceAs (Decidable (CounterFits cfg s.sys.toShm))
  | .daemon => inferInstanceAs (Decidable (_ ≠ _ → CounterFits cfg s.sys.toShm))
  | .wake _ | .ctrl _ => .isTrue trivial

instance decidableNoOpen (s : Inter) : ∀ e, Decidable (NoOpen s e)
  | .ctrl (.open _) => inferInstanceAs (Decidable (_ ≠ _))
  | .ctrl .close | .ctrl (.size _) | .ctrl (.wrap _) | .ctrl (.zap _) | .ctrl (.tflags _)
  | .ctrl (.info _) | .call _ _ | .wake _ | .daemon => .isTrue trivial

/-- The daemon is about to take `ri_flush`. -/
def DaemonPc.taking : DaemonPc → Bool
  | .data _ (.takeFlush _) => true
  | _ => false

section

variable {cfg : RingConfig}

/-- The part of shared memory that holds the records. -/
theorem view_congr {sh sh' : Shm} (hw : sh'.ringWords = sh.ringWords) (hm : sh'.reBase = sh.reBase) :
    sh'.view cfg = sh.view cfg := by
  obtain ⟨hc, ha, hs, hf, hl⟩ := RingWords.mk.injEq .. ▸ hw
  simp only [Shm.view, Shm.activeRecords, Shm.altRecords, hc, ha, hs, hf, hm]

/-- A control operation other than a successful open does not touch the ring, and either
it is a successful close or it leaves the requests alone. -/
theorem rbtraceCtrl_of_noOpen {s : Inter} {op : RbtraceOp} (h : NoOpen s (.ctrl op)) :
    let sh := (rbtraceCtrl op s.sys.toShm).1
    let f := s.sys.ri.riFlags
    let g := sh.ri.riFlags
    sh.ringWords = s.sys.toShm.ringWords ∧ sh.reBase = s.sys.reBase ∧ g.doOpen = f.doOpen ∧
      ((g.doDisk = f.doDisk ∧ g.doClose = f.doClose ∧ g.doFlush = f.doFlush) ∨
        (op = .close ∧ f.doDisk ∧ g.doDisk = false ∧ g.doClose ∧ g.doFlush)) := by
  have hret : ∀ path, op = .open (some path) → (rbtraceCtrl op s.sys.toShm).2 ≠ 0 := by
    rintro path rfl
    exact h
  have hstep := rbtraceCtrl_step op s.sys.toShm
  dsimp only
  generalize rbtraceCtrl op s.sys.toShm = r at hret hstep ⊢
  cases hstep with
  | opens path hs => exact absurd rfl (hret path rfl)
  | closes hd => exact ⟨rfl, rfl, rfl, .inr ⟨rfl, hd, rfl, rfl, rfl⟩⟩
  | _ => exact ⟨rfl, rfl, rfl, .inl ⟨rfl, rfl, rfl⟩⟩

/-- The daemon reports only what it has just taken, and changes the counter only by
taking it. -/
theorem Flow.of_not_taking {ri ri' : RingInfo} {pc pc' : DaemonPc} (hf : Flow cfg ri pc ri' pc')
    (hpc : pc.taking = false) : pc'.report = none ∧ ri'.riFlush = ri.riFlush := by
  cases hf with
  | header hf | headerReturn hf | rollover hf | rolloverReturn hf =>
      cases hf <;> simp [DaemonPc.report, RingInfo.setFlags]
  | data hf => cases hf <;> simp_all [DaemonPc.report, DaemonPc.taking, RingInfo.setFlags]
  | dataRollover hf =>
      cases hf
      simp [DaemonPc.report]
  | dataReturn hf =>
      cases hf
      cases hpc
  | _ => simp [DaemonPc.report, RingInfo.setFlags]

/-- Buffers of the same length. -/
theorem length_flatten_of_forall {bs : List (List RbtraceEntry)} {n : Nat}
    (h : ∀ b ∈ bs, b.length = n) : bs.flatten.length = bs.length * n := by
  rw [List.length_flatten, List.map_congr_left h, List.map_const', List.sum_replicate_nat]

/-- A report is made of what was taken. -/
theorem Counted.report {s : Inter} {L : Ledger} {w : Site} {l : Int} (h : Counted cfg s L)
    (hpos : 0 < cfg.rcSize) (hlt : cfg.rcSize < 2 ^ 31) (hfit : CounterFits cfg s.sys.toShm)
    (hpc : s.pc = .data w (.report l)) {t : Inter} (ht : s.daemon cfg = some t) :
    Counted cfg t (L.enter (daemonNotes cfg s)) := by
  have hok := h.ok.daemon hpos hlt ht
  have hdue := h.due w l (by rw [hpc]; rfl)
  obtain ⟨s, io, pc⟩ := s
  obtain rfl : pc = _ := hpc
  cases ht
  have hreturn : w.return.report = none := by
    unfold Site.return
    split <;> rfl
  obtain ⟨ht₁, ht₂, -, -⟩ := @Ledger.enter_callNotes cfg s.toShm
    (L.note (.reported l)) (io.data w).stamps (lostArgs l)
  refine ⟨hok, Tally.call ?_ h.ok.ring hpos hlt hfit _ _, fun _ ↦ ht₁, ?_, ?_⟩
  · refine ⟨h.tally.flush_nonneg, h.tally.small, h.tally.uncounted, fun b hb ↦ h.tally.full b ?_⟩
    simp only [Ledger.discarded, Ledger.reported, Ledger.note, List.flatMap_append,
      List.flatMap_singleton, List.append_nil, List.mem_append] at hb ⊢
    tauto
  · intro w' l' hw
    rw [hreturn] at hw
    cases hw
  · intro r hr
    have hr' : r ∈ (L.note (.reported l)).reports := ht₂ ▸ hr
    rcases List.mem_append.1 hr' with hr | hr
    · exact h.reports r hr
    · obtain rfl := List.mem_singleton.1 hr
      exact hdue

/-- The exchange takes what was discarded, and the amount to report is what was taken. -/
theorem Counted.takeFlush {s : Inter} {L : Ledger} {w : Site} {l : Int} (h : Counted cfg s L)
    (hpos : 0 < cfg.rcSize) (hlt : cfg.rcSize < 2 ^ 31)
    (hpc : s.pc = .data w (.takeFlush l)) {t : Inter} (ht : s.daemon cfg = some t) :
    Counted cfg t (L.enter (daemonNotes cfg s)) := by
  have hok := h.ok.daemon hpos hlt ht
  obtain rfl : l = 0 := h.ok.pc.lost w l hpc
  obtain ⟨s, io, pc⟩ := s
  obtain rfl : pc = _ := hpc
  cases ht
  have hnn : 0 ≤ s.ri.riFlush := h.tally.flush_nonneg
  have hfull : ∀ b ∈ L.uncounted, b.length = cfg.rcSize := fun b hb ↦
    h.tally.full b (by simp [Ledger.discarded, hb])
  have hun : L.uncounted.length = (s.ri.riFlush - 1).toNat := h.tally.uncounted
  have hreturn : w.return.report = none := by
    unfold Site.return
    split <;> rfl
  refine ⟨hok, ⟨le_rfl, ?_, rfl, fun b hb ↦ h.tally.full b ?_⟩, ?_, ?_, h.reports⟩
  · have : (0 : Int) ≤ cfg.rcSize := Int.natCast_nonneg _
    dsimp only
    omega
  · simp only [daemonNotes, Ledger.enter_cons, Ledger.enter_nil, Ledger.note, Ledger.discarded,
      Ledger.reported, List.nil_append, List.mem_append] at hb ⊢
    tauto
  · dsimp only
    split <;> rename_i hf
    · intro hnone
      cases hnone
    · intro _
      have hle : s.ri.riFlush ≤ 1 := not_lt.1 fun hlt ↦ hf (.inl hlt)
      exact List.eq_nil_of_length_eq_zero (hun.trans (by omega))
  · dsimp only
    split <;> rename_i hf
    · intro w' l' hw
      cases hw
      have hgt : 1 < s.ri.riFlush := hf.resolve_right (by simp)
      have hsm : (s.ri.riFlush - 1) * cfg.rcSize < 2 ^ 31 := h.tally.small
      have hge : 0 ≤ (s.ri.riFlush - 1) * cfg.rcSize :=
        Int.mul_nonneg (by omega) (Int.natCast_nonneg _)
      have hamount : lossAmount cfg 0 s.ri.riFlush = (s.ri.riFlush - 1) * cfg.rcSize := by
        rw [lossAmount, if_pos hgt, Int.zero_add]
        exact i32_of_range (by omega) hsm
      have hlen : (L.uncounted.flatten.length : Int) = (s.ri.riFlush - 1) * cfg.rcSize := by
        rw [length_flatten_of_forall hfull, hun, Int.natCast_mul, Int.toNat_of_nonneg (by omega)]
      exact hamount.trans hlen.symm
    · intro w' l' hw
      exact absurd (hreturn.symm.trans hw) (by simp)

/-- A step of the daemon keeps the books in order. -/
theorem Counted.daemon {s t : Inter} {L : Ledger} (h : Counted cfg s L)
    (hpos : 0 < cfg.rcSize) (hlt : cfg.rcSize < 2 ^ 31) (hfit : CountsOn cfg s .daemon)
    (ht : s.daemon cfg = some t) : Counted cfg t (L.enter (daemonNotes cfg s)) := by
  by_cases hrep : ∃ w l, s.pc = .data w (.report l)
  · obtain ⟨w, l, hpc⟩ := hrep
    exact h.report hpos hlt (hfit (by simp [hpc, DaemonPc.report])) hpc ht
  by_cases htake : ∃ w l, s.pc = .data w (.takeFlush l)
  · obtain ⟨w, l, hpc⟩ := htake
    exact h.takeFlush hpos hlt hpc ht
  have hpc : s.pc.taking = false := by
    unfold DaemonPc.taking
    split <;> rename_i hpc
    · exact absurd ⟨_, _, hpc⟩ htake
    · rfl
  have hnone : s.pc.report = none := by
    unfold DaemonPc.report
    split <;> rename_i hpc
    · exact absurd ⟨_, _, hpc⟩ hrep
    · rfl
  have hok := h.ok.daemon hpos hlt ht
  simp only [Inter.daemon, hnone] at ht
  obtain ⟨r, hr, rfl⟩ := Option.map_eq_some_iff.1 ht
  obtain ⟨hnext, hf⟩ := (daemonStep_flow hr).of_not_taking hpc
  have hbooks : (L.enter (daemonNotes cfg s)).uncounted = L.uncounted ∧
      (L.enter (daemonNotes cfg s)).taken = L.taken ∧
      (L.enter (daemonNotes cfg s)).reports = L.reports := by
    unfold daemonNotes
    split
    · split <;> exact ⟨rfl, rfl, rfl⟩
    · rename_i hpc
      exact absurd ⟨_, _, hpc⟩ htake
    · rename_i hpc
      exact absurd ⟨_, _, hpc⟩ hrep
    · exact ⟨rfl, rfl, rfl⟩
  obtain ⟨hb₁, hb₂, hb₃⟩ := hbooks
  refine ⟨hok, ⟨?_, ?_, ?_, ?_⟩, fun _ ↦ hb₂.trans (h.taken hnone), ?_, ?_⟩
  · exact hf ▸ h.tally.flush_nonneg
  · exact hf ▸ h.tally.small
  · rw [hb₁]
    exact hf ▸ h.tally.uncounted
  · simp only [Ledger.discarded, Ledger.reported, hb₁, hb₂, hb₃]
    exact h.tally.full
  · intro w l hw
    rw [hnext] at hw
    cases hw
  · rw [hb₃]
    exact h.reports

/-- **The books stay in order** until a file is opened or the counter overflows. -/
theorem Counted.step {s t : Inter} {L : Ledger} {e : InterEvent} (h : Counted cfg s L)
    (hpos : 0 < cfg.rcSize) (hlt : cfg.rcSize < 2 ^ 31) (hfit : CountsOn cfg s e)
    (hopen : NoOpen s e) (ht : (interleaved cfg).step s e = some t) :
    Counted cfg t (L.enter (notes cfg s e)) := by
  have hok := h.ok.step hpos hlt ht
  cases e with
  | call st a =>
      cases ht
      obtain ⟨h₁, h₂, -, -⟩ := @Ledger.enter_callNotes cfg s.sys.toShm L st a
      refine ⟨hok, h.tally.call h.ok.ring hpos hlt hfit st a, ?_, ?_, ?_⟩
      · exact fun hn ↦ h₁.trans (h.taken hn)
      · exact fun w l hw ↦ h₁ ▸ h.due w l hw
      · exact h₂ ▸ h.reports
  | wake io =>
      simp only [interleaved, Inter.step] at ht
      split at ht <;> cases ht
      rename_i hidle
      have hnone : s.pc.report = none := by
        rw [hidle]
        rfl
      exact ⟨hok, h.tally, fun _ ↦ h.taken hnone, (by simp [DaemonPc.report]), h.reports⟩
  | daemon => exact h.daemon hpos hlt hfit ht
  | ctrl op =>
      cases ht
      have hf : (rbtraceCtrl op s.sys.toShm).1.ri.riFlush = s.sys.ri.riFlush :=
        congrArg RingWords.riFlush (rbtraceCtrl_of_noOpen hopen).1
      have htally : Tally cfg (rbtraceCtrl op s.sys.toShm).1 L :=
        ⟨hf ▸ h.tally.flush_nonneg, hf ▸ h.tally.small, hf ▸ h.tally.uncounted, h.tally.full⟩
      unfold notes
      split
      · rename_i heq
        cases heq
      · rename_i heq
        cases heq
      · split
        · exact ⟨hok, ⟨htally.1, htally.2, htally.3, htally.4⟩, h.taken, h.due, h.reports⟩
        · exact ⟨hok, htally, h.taken, h.due, h.reports⟩
      · exact ⟨hok, htally, h.taken, h.due, h.reports⟩

end

end Rbtrace
