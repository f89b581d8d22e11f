import Rbtrace.Round
import Rbtrace.Session
import Rbtrace.Wrap

/-!
# A daemon that keeps up

A buffer is lost when both are full.  That does not happen if the daemon makes a pass at least
once every `N` calls, `N` being the number of records in a buffer: when a buffer is pending, what
the other one holds has come since the last pass (`InStep`).  The file then holds the records of
all calls (`listing_of_paced`).
-/

namespace Rbtrace

open CInt

/-- At most `N` calls between one pass and the next; `c` is the number of calls so far.  The first
pass opens the file and writes nothing, so that it does not count. -/
def Paced (N : Nat) : Bool → Nat → List Event → Prop
  | _, _, [] => True
  | opened, c, .call _ _ :: es => c < N ∧ Paced N opened (c + 1) es
  | opened, c, .pass _ :: es => Paced N true (if opened then 0 else c) es
  | opened, c, .ctrl _ :: es => Paced N opened c es

instance decidablePaced (N : Nat) : ∀ opened c es, Decidable (Paced N opened c es)
  | _, _, [] => .isTrue trivial
  | opened, c, .call _ _ :: es =>
      have := decidablePaced N opened (c + 1) es
      inferInstanceAs (Decidable (_ ∧ _))
  | opened, c, .pass _ :: es => decidablePaced N true (if opened then 0 else c) es
  | opened, c, .ctrl _ :: es => decidablePaced N opened c es

section

variable {cfg : ValidRingConfig} {path : CStr} {limit c : Nat} {s t : Sys} {opened : Bool}
  {written acc : List RbtraceEntry}

/-- A session in which `c` calls have been made since the last pass that wrote: if a buffer is
pending, the active one has been filled since then. -/
structure InStep (cfg : ValidRingConfig) (path : CStr) (limit : Nat) (opened : Bool) (c : Nat)
    (s : Sys) (acc : List RbtraceEntry) : Prop where
  session : InSession cfg path limit s acc
  doOpen : s.ri.riFlags.doOpen = !opened
  active_le : (s.view cfg).pending ≠ none → (s.view cfg).active.length ≤ c

theorem InSession.ring (h : InSession cfg path limit s acc) : RingOk cfg 0 s.toShm := by
  rcases h with ⟨h, -⟩ | ⟨written, h, -⟩
  · exact h.ring
  · exact h.ring

theorem InSession.flush (h : InSession cfg path limit s acc) :
    s.ri.riFlush = 0 ∨ s.ri.riFlush = 1 := by
  rcases h with ⟨h, -⟩ | ⟨written, h, -⟩
  · exact h.flush
  · exact h.flush

/-- Within the pace a call finds room. -/
theorem InStep.noDiscard (h : InStep cfg path limit opened c s acc) (hc : c < cfg.rcSize)
    (st : Nat → Stamp) (a : TraceArgs) : NoDiscard cfg s (.call st a) := by
  intro hfull
  by_contra hflush
  have hactive := h.active_le (show (s.view cfg).pending ≠ none by
    rw [show (s.view cfg).pending = some (s.altRecords cfg) from if_neg hflush]
    exact Option.some_ne_none _)
  have hring := h.session.ring
  have hlen := length_view_active hring
  have hlt : cfg.rcSize < 2 ^ 31 := cfg.rcSize_lt_int
  have hslot := u32_of_range (x := s.ri.riSlot + 1) (by omega) (by omega)
  omega

/-- **A call within the pace.** -/
theorem InStep.call (h : InStep cfg path limit opened c s acc) (hN : 0 < cfg.rcSize)
    (hc : c < cfg.rcSize) (st : Nat → Stamp) (a : TraceArgs) :
    InStep cfg path limit opened (c + 1) { s with toShm := (rbtrace cfg st s.toShm a).1 }
      (acc ++ [entryOf a (st 0)]) := by
  have hring := h.session.ring
  have hflush := h.session.flush
  have hsession := h.session.call hN st a (h.noDiscard hc st a)
  have hret := (hring.rbtrace hN cfg.rcSize_lt_int st a).2
  rw [accepted, if_pos hret] at hsession
  refine ⟨hsession, ?_, ?_⟩
  · exact (congrArg RiFlags.doOpen (rbtrace_riFlags cfg st s.toShm a)).trans h.doOpen
  · show ((rbtrace cfg st s.toShm a).1.view cfg).pending ≠ none →
      ((rbtrace cfg st s.toShm a).1.view cfg).active.length ≤ c + 1
    rw [view_rbtrace hring hN cfg.rcSize_lt_int (by omega) (by omega)]
    intro hp
    by_cases hroom : (s.view cfg).active.length < cfg.rcSize
    · rw [DoubleBuffer.push_of_lt hroom] at hp ⊢
      rw [List.length_append, List.length_singleton]
      exact Nat.add_le_add_right (h.active_le hp) 1
    · have hnone : (s.view cfg).pending = none := by
        by_contra hne
        exact hroom ((h.active_le hne).trans_lt hc)
      rw [DoubleBuffer.push_of_pending_eq_none (not_lt.1 hroom) hnone]
      exact Nat.le_add_left _ _

/-- **A pass** that is not the closing one. -/
theorem InStep.pass {io : PassIo} (h : InStep cfg path limit opened c s acc) (hio : io.Ok)
    (hc : s.ri.riFlags.doClose = false) (hsize : plainFileSize acc < limit) :
    ∃ t, rbtraceThreadFn cfg io s = some t ∧
      InStep cfg path limit true (if opened then 0 else c) t acc := by
  rcases h.session with ⟨ho, rfl⟩ | ⟨written, hr, rfl⟩
  · -- the pass opens the file
    have hopened : opened = false := Bool.not_eq_true' _ ▸ h.doOpen.symm.trans ho.doOpen
    obtain ⟨t, ht, hrec, hview⟩ := ho.pass hio
    refine ⟨t, ht, .inr ⟨[], hrec, by rw [hview, List.nil_append]⟩, hrec.doOpen, ?_⟩
    rw [hview, if_neg (Bool.eq_false_iff.1 hopened)]
    exact h.active_le
  · obtain ⟨t, written', ht, hrec, hacc, hnone⟩ := hr.pass hio hc hsize
    exact ⟨t, ht, .inr ⟨written', hrec, hacc.symm⟩, hrec.doOpen, fun hne ↦ absurd hnone hne⟩

/-- The records of the calls of a run. -/
def Event.entries : Event → List RbtraceEntry
  | .call st a => [entryOf a (st 0)]
  | _ => []

/-- **A run within the pace** keeps every record. -/
theorem InStep.run {es rest : List Event} (hN : 0 < cfg.rcSize)
    (hes : ∀ e ∈ es, e.IsWork ∧ e.IoOk) (hg : (system cfg).Guarded NotClosing s es)
    (hrun : (system cfg).run s es = some t) (hpace : Paced cfg.rcSize opened c (es ++ rest))
    (h : InStep cfg path limit opened c s acc)
    (hsize : plainFileSize (acc ++ es.flatMap Event.entries) < limit) :
    ∃ opened' c', Paced cfg.rcSize opened' c' rest ∧
      InStep cfg path limit opened' c' t (acc ++ es.flatMap Event.entries) := by
  induction es generalizing s opened c acc with
  | nil =>
      obtain rfl : s = t := Option.some.inj hrun
      exact ⟨opened, c, hpace, by rwa [List.flatMap_nil, List.append_nil]⟩
  | cons e es ih =>
      obtain ⟨hwork, hio⟩ := hes e List.mem_cons_self
      have hrest : ∀ e ∈ es, e.IsWork ∧ e.IoOk := fun e he ↦ hes e (List.mem_cons_of_mem _ he)
      obtain ⟨u, hu, hrun'⟩ := (system cfg).run_cons_eq_some.1 hrun
      rw [List.flatMap_cons, ← List.append_assoc] at hsize ⊢
      cases e with
      | call st a =>
          cases hu
          obtain ⟨hc, hpace⟩ := hpace
          exact ih hrest (hg.tail rfl) hrun' hpace (h.call hN hc st a) hsize
      | pass io =>
          rw [show Event.entries (.pass io) = [] from rfl, List.append_nil] at hsize ⊢
          obtain ⟨u', hu', hin⟩ :=
            h.pass hio hg.head ((plainFileSize_le_append acc _).trans_lt hsize)
          obtain rfl : u' = u := Option.some.inj (hu'.symm.trans hu)
          exact ih hrest (hg.tail hu) hrun' hpace hin hsize
      | ctrl op => exact absurd hwork id

/-- The close is not one of the calls. -/
theorem InStep.close (h : InStep cfg path limit opened c s acc)
    (hret : (rbtraceCtrl .close s.toShm).2 = 0) :
    InStep cfg path limit opened c { s with toShm := (rbtraceCtrl .close s.toShm).1 } acc := by
  have hsession := h.session.close hret
  have hd := doDisk_of_close hret
  simp only [rbtraceCtrl, rbtraceCtrlClose, if_pos hd] at hsession ⊢
  exact ⟨hsession, h.doOpen, h.active_le⟩

/-- A successful open starts the count. -/
theorem inStep_of_open (hring : RingOk cfg 0 s.toShm) (hf : FlagsOk s.ctl)
    (hw : s.ri.riFlags.doWrap = false) (hz : s.ri.riFlags.doZap = false)
    (hc : s.ri.riFlags.doClose = false) (hnew : s.disk path = none)
    (hret : (rbtraceCtrl (.open (some path)) s.toShm).2 = 0) :
    InStep cfg path s.fsize.toNat false 0
      { s with toShm := (rbtraceCtrl (.open (some path)) s.toShm).1 } [] := by
  have hsession := inSession_of_open hring hf hw hz hc hnew hret
  obtain ⟨-, -, heq⟩ := rbtraceCtrl_open hret
  rw [heq] at hsession ⊢
  exact ⟨hsession, rfl, fun hp ↦ absurd rfl hp⟩

/-- Calls and passes from before a close, or up to one, have no closing pass among them. -/
theorem notClosing_of_work {es : List Event} (hes : ∀ e ∈ es, e.IsWork) (hf : FlagsOk s.ctl)
    (hrun : (system cfg).run s es = some t)
    (hc : s.ri.riFlags.doClose = false ∨ t.ri.riFlags.doClose = true) :
    (system cfg).Guarded NotClosing s es := by
  induction es generalizing s with
  | nil => trivial
  | cons e es ih =>
      have hrest : ∀ e ∈ es, e.IsWork := fun e he ↦ hes e (List.mem_cons_of_mem _ he)
      obtain ⟨u, hu, hrun'⟩ := (system cfg).run_cons_eq_some.1 hrun
      have hnext : u.ri.riFlags.doClose = false ∨ t.ri.riFlags.doClose = true := by
        refine hc.imp_left fun hc ↦ ?_
        exact @doClose_of_work cfg s u [e] (fun e' he ↦ List.mem_singleton.1 he ▸
          hes e List.mem_cons_self) hf hc ((system cfg).run_cons_eq_some.2 ⟨u, hu, rfl⟩)
      refine ⟨?_, fun v hv ↦ ?_⟩
      · cases e with
        | call st a => trivial
        | pass io =>
            -- after a pass no close is pending, and none is asked for
            have hafter :=
              doClose_of_work hrest (hf.step hu) (doClose_of_rbtraceThreadFn hf hu) hrun'
            exact hc.resolve_right fun hclose ↦ Bool.false_ne_true (hafter.symm.trans hclose)
        | ctrl op => trivial
      · obtain rfl : u = v := Option.some.inj (hu.symm.trans hv)
        exact ih hrest (hf.step hu) hrun' hnext

end

/-- **A daemon that keeps up** loses nothing: the file holds the records of all calls, in order. -/
theorem listing_of_paced (cfg : ValidRingConfig) (hN : 0 < cfg.rcSize) {disk : Disk}
    {pre es₁ es₂ : List Event} {last : PassIo} {path : CStr} {s₀ s₁ s₂ : Sys}
    (h₀ : (system cfg).run (rbtraceDaemonInit cfg disk) pre = some s₀)
    (hnew : s₀.disk path = none) (hwrap : s₀.ri.riFlags.doWrap = false)
    (hzap : s₀.ri.riFlags.doZap = false) (hpending : s₀.ri.riFlags.doClose = false)
    (hopen : (rbtraceCtrl (.open (some path)) s₀.toShm).2 = 0)
    (h₁ : (system cfg).run s₀ (.ctrl (.open (some path)) :: es₁) = some s₁)
    (hclose : (rbtraceCtrl .close s₁.toShm).2 = 0)
    (h₂ : (system cfg).run s₁ (.ctrl .close :: es₂) = some s₂)
    (hlast : s₂.ri.riFlags.doClose = true)
    (hwork : ∀ e ∈ es₁ ++ es₂, e.IsWork) (hio : ∀ e ∈ .pass last :: (es₁ ++ es₂), e.IoOk)
    (hpace : Paced cfg.rcSize false 0 (es₁ ++ es₂))
    (hlimit : 512 + 56 * ((es₁ ++ es₂).flatMap Event.entries).length < s₀.fsize.toNat)
    {pio : PrbtIo} (hpio : pio.Ok) :
    ∃ t file, (system cfg).step s₂ (.pass last) = some t ∧ t.disk path = some file ∧
      listing pio file = (es₁ ++ es₂).flatMap Event.entries := by
  obtain ⟨hring, hf⟩ := ok_of_run hN h₀
  obtain ⟨s₀', hs₀', h₁'⟩ := (system cfg).run_cons_eq_some.1 h₁
  obtain ⟨s₁', hs₁', h₂'⟩ := (system cfg).run_cons_eq_some.1 h₂
  have hes : ∀ e ∈ es₁ ++ es₂, e.IsWork ∧ e.IoOk := fun e he ↦
    ⟨hwork e he, hio e (List.mem_cons_of_mem _ he)⟩
  have hes₁ : ∀ e ∈ es₁, e.IsWork ∧ e.IoOk := fun e he ↦ hes e (List.mem_append_left _ he)
  have hes₂ : ∀ e ∈ es₂, e.IsWork ∧ e.IoOk := fun e he ↦ hes e (List.mem_append_right _ he)
  rw [List.flatMap_append] at hlimit ⊢
  -- the open, what comes between, the close, the calls after it, and the closing pass
  have hin₀ : InStep cfg path s₀.fsize.toNat false 0 s₀' [] := by
    cases hs₀'
    exact inStep_of_open hring hf hwrap hzap hpending hnew hopen
  have hc₀ : s₀'.ri.riFlags.doClose = false := by
    cases hs₀'
    obtain ⟨-, -, heq⟩ := rbtraceCtrl_open hopen
    dsimp only
    rw [heq]
    exact hpending
  obtain ⟨opened, c, hpace₁, hin₁⟩ := hin₀.run hN hes₁
    (notClosing_of_work (fun e he ↦ (hes₁ e he).1) hin₀.session.flags h₁' (.inl hc₀)) h₁' hpace
    ((plainFileSize_le_append _ (es₂.flatMap Event.entries)).trans_lt hlimit)
  have hin₁' : InStep cfg path s₀.fsize.toNat opened c s₁' ([] ++ es₁.flatMap Event.entries) := by
    cases hs₁'
    exact hin₁.close hclose
  rw [← List.append_nil es₂] at hpace₁
  obtain ⟨_, _, -, hin₂⟩ := hin₁'.run hN hes₂
    (notClosing_of_work (fun e he ↦ (hes₂ e he).1) hin₁'.session.flags h₂' (.inr hlast)) h₂' hpace₁
    hlimit
  rcases hin₂.session with ⟨h, -⟩ | ⟨written, h, hall⟩
  · exact absurd (h.doClose.symm.trans hlast) Bool.false_ne_true
  · obtain ⟨t, prf, ht, hfile, hw, hnr⟩ := h.close (hio (.pass last) List.mem_cons_self) hlast
    refine ⟨t, _, ht, hfile, ?_⟩
    rw [← hall]
    exact (listing_traceFile hpio (hnr ▸ hN) (cfg.pageSize_lt hnr) (.inl ⟨hw, rfl⟩) (hw ▸ by decide)
      (Nat.zero_le _) (.inr (Nat.zero_mod _))).trans (List.rotate_zero _)

/-- Two calls between one pass and the next. -/
def twoByTwo : List Event :=
  [.pass .smooth, .trace 2, .trace 3, .pass .smooth, .trace 4, .trace 5, .pass .smooth, .trace 6]

theorem listing_of_paced_two : ∃ s₁ s₂ t file,
    (system (ioRing 2 (by decide))).run startOfTwo (.ctrl (.open (some [47])) :: twoByTwo) =
      some s₁ ∧
    (system (ioRing 2 (by decide))).run s₁ [.ctrl .close, .trace 7] = some s₂ ∧
    (system (ioRing 2 (by decide))).step s₂ (.pass .smooth) = some t ∧
    t.disk [47] = some file ∧
    (listing .smooth file).map RbtraceEntry.traceid = [2, 3, 4, 5, 6, 7] := by
  have hsome : ((system (ioRing 2 (by decide))).run startOfTwo
      ((.ctrl (.open (some [47])) :: twoByTwo) ++ [.ctrl .close, .trace 7])).isSome := by decide
  obtain ⟨s₂, hr⟩ := Option.isSome_iff_exists.1 hsome
  obtain ⟨s₁, h₁, h₂⟩ := (Machine.run_append_eq_some _).1 hr
  have hclose : ((system (ioRing 2 (by decide))).run startOfTwo
      (.ctrl (.open (some [47])) :: twoByTwo)).map (fun s ↦ (rbtraceCtrl .close s.toShm).2) =
      some 0 := by decide +kernel
  have hlast : ((system (ioRing 2 (by decide))).run startOfTwo
      ((.ctrl (.open (some [47])) :: twoByTwo) ++ [.ctrl .close, .trace 7])).map
      (fun s ↦ s.ri.riFlags.doClose) = some true := by decide +kernel
  rw [h₁] at hclose
  rw [hr] at hlast
  have hwork : ∀ e ∈ twoByTwo ++ [.trace 7], e.IsWork := by
    simp [twoByTwo, Event.IsWork, Event.trace]
  have hio : ∀ e ∈ .pass .smooth :: (twoByTwo ++ [.trace 7]), e.IoOk := by
    simp [twoByTwo, Event.IoOk, Event.trace, PassIo.smooth_ok]
  have h₀ : (system (ioRing 2 (by decide))).run
      (rbtraceDaemonInit (ioRing 2 (by decide)) fun _ ↦ none) [] = some startOfTwo := rfl
  obtain ⟨t, file, ht, hfile, hlist⟩ := listing_of_paced (ioRing 2 (by decide)) (by decide)
    h₀ rfl rfl rfl rfl (by decide) h₁ (Option.some.inj hclose) h₂ (Option.some.inj hlast) hwork hio
    (by decide) (by decide) PrbtIo.smooth_ok
  refine ⟨s₁, s₂, t, file, h₁, h₂, ht, hfile, ?_⟩
  rw [hlist]
  decide

end Rbtrace
