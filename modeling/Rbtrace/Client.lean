import Rbtrace.Lib.Pool
import Rbtrace.Backing

/-!
# A control operation, one access at a time

The handlers of `rbt_ops`, cut so that every access to a volatile field of `ring_info` is
a step of its own; an update of `ri_flags` is a load and a store.  `rbtrace_ctrl_size`
has one access, and `rbtrace_ctrl_info` only reads, so both are one step.

On its own, an operation cut this way is `rbtraceCtrl` (`solo_rbtraceCtrl`).
-/

namespace Rbtrace

/-! ## Points of the handlers -/

/-- A point of a control operation. -/
inductive ClientPc where
  /-- Up to the first access. -/
  | enter (op : RbtraceOp)
  /-- `rbtrace_ctrl_open`: `strcpy`, and the store to `ri_slot`. -/
  | openSlot (path : CStr)
  /-- The store to `ri_flush`. -/
  | openFlush
  /-- The store to `ri_lost`. -/
  | openLost
  | openLoad
  | openStore (f : RiFlags)
  /-- `rbtrace_ctrl_close`: `RBTRACE_DO_DISK` is to be cleared. -/
  | diskLoad
  | diskStore (f : RiFlags)
  /-- `RBTRACE_DO_FLUSH` and `RBTRACE_DO_CLOSE` are to be set. -/
  | closeLoad
  | closeStore (f : RiFlags)
  /-- `rbtrace_ctrl_wrap`: `RBTRACE_DO_WRAP` is to be set or cleared. -/
  | wrapLoad (enable : Bool)
  | wrapStore (enable : Bool) (f : RiFlags)
  /-- `rbtrace_ctrl_zap`: `RBTRACE_DO_ZAP` is to be set or cleared. -/
  | zapLoad (enable : Bool)
  | zapStore (enable : Bool) (f : RiFlags)
  /-- `rbtrace_ctrl_tflags`: the store to `ri_tflags`. -/
  | tflagsStore (tflags : BitVec 64)

/-! ## Steps -/

/-- A store to `ri_flags`. -/
def Shm.setFlags (f : RiFlags) (sh : Shm) : Shm := { sh with ri := { sh.ri with riFlags := f } }

/-- The first step of a control operation. -/
def enterStep (sh : Shm) : RbtraceOp → Shm × (ClientPc ⊕ Int)
  | .open argp =>
      (sh, if sh.ri.riFlags.doOpen ∨ sh.ri.riFlags.doDisk then .inr (-1)
        else match argp with
          | none => .inr (-1)
          | some path =>
              if RBTRACE_MAX_PATH ≤ path.length then .inr (-1) else .inl (.openSlot path))
  | .close => (sh, if sh.ri.riFlags.doDisk then .inl .diskLoad else .inr (-1))
  | .size argp => ((rbtraceCtrlSize argp sh).1, .inr (rbtraceCtrlSize argp sh).2)
  | .wrap argp =>
      (sh, match argp with
        | some enable => if sh.ri.riFlags.doZap then .inr (-1) else .inl (.wrapLoad enable)
        | none => .inr (-1))
  | .zap argp =>
      (sh, match argp with
        | some enable => if sh.ri.riFlags.doWrap then .inr (-1) else .inl (.zapLoad enable)
        | none => .inr (-1))
  | .tflags argp =>
      (sh, match argp with
        | none => .inr (-1)
        | some (set, tflags) =>
            .inl (.tflagsStore
              (if set then sh.ri.riTflags ||| tflags else sh.ri.riTflags &&& ~~~tflags)))
  | .info argp => (sh, .inr (if argp.isSome then 0 else -1))

/-- A step of a control operation. -/
def clientStep (sh : Shm) : ClientPc → Shm × (ClientPc ⊕ Int)
  | .enter op => enterStep sh op
  | .openSlot path =>
      ({ sh with ri := { sh.ri with riFilePath := path, riSlot := -1 } }, .inl .openFlush)
  | .openFlush => ({ sh with ri := { sh.ri with riFlush := 0 } }, .inl .openLost)
  | .openLost => ({ sh with ri := { sh.ri with riLost := 0 } }, .inl .openLoad)
  | .openLoad => (sh, .inl (.openStore sh.ri.riFlags))
  | .openStore f => (sh.setFlags { f with doOpen := true }, .inr 0)
  | .diskLoad => (sh, .inl (.diskStore sh.ri.riFlags))
  | .diskStore f => (sh.setFlags { f with doDisk := false }, .inl .closeLoad)
  | .closeLoad => (sh, .inl (.closeStore sh.ri.riFlags))
  | .closeStore f => (sh.setFlags { f with doFlush := true, doClose := true }, .inr 0)
  | .wrapLoad enable => (sh, .inl (.wrapStore enable sh.ri.riFlags))
  | .wrapStore enable f => (sh.setFlags { f with doWrap := enable }, .inr 0)
  | .zapLoad enable => (sh, .inl (.zapStore enable sh.ri.riFlags))
  | .zapStore enable f => (sh.setFlags { f with doZap := enable }, .inr 0)
  | .tflagsStore tflags => ({ sh with ri := { sh.ri with riTflags := tflags } }, .inr 0)

/-- The thread of a control operation. -/
def rbtraceClient : Thread Shm Unit ClientPc Int := ⟨fun _ ↦ clientStep⟩

/-! ## An operation on its own -/

theorem solo_client {sh : Shm} {pc : ClientPc} {y : Shm × (ClientPc ⊕ Int)}
    (h : rbtraceClient.Solo (clientStep sh pc) y) : rbtraceClient.Solo (sh, .inl pc) y :=
  .step () h

/-- **A control operation on its own is a whole operation.** -/
theorem solo_rbtraceCtrl (op : RbtraceOp) (sh : Shm) :
    rbtraceClient.Solo (sh, .inl (.enter op))
      ((rbtraceCtrl op sh).1, .inr (rbtraceCtrl op sh).2) := by
  refine solo_client ?_
  cases op with
  | «open» argp =>
      simp only [clientStep, enterStep, rbtraceCtrl, rbtraceCtrlOpen]
      split
      · exact .refl _
      · cases argp with
        | none => exact .refl _
        | some path =>
            dsimp only
            split
            · exact .refl _
            · exact solo_client (solo_client (solo_client (solo_client (solo_client (.refl _)))))
  | close =>
      simp only [clientStep, enterStep, rbtraceCtrl, rbtraceCtrlClose]
      split
      · exact solo_client (solo_client (solo_client (solo_client (.refl _))))
      · exact .refl _
  | size argp => exact .refl _
  | wrap argp =>
      cases argp with
      | none => exact .refl _
      | some enable =>
          simp only [clientStep, enterStep, rbtraceCtrl, rbtraceCtrlWrap]
          split
          · exact .refl _
          · exact solo_client (solo_client (.refl _))
  | zap argp =>
      cases argp with
      | none => exact .refl _
      | some enable =>
          simp only [clientStep, enterStep, rbtraceCtrl, rbtraceCtrlZap]
          split
          · exact .refl _
          · exact solo_client (solo_client (.refl _))
  | tflags argp =>
      cases argp with
      | none => exact .refl _
      | some p => exact solo_client (.refl _)
  | info argp => exact .refl _

/-! ## What a step does to the ring -/

/-- The point at which `rbtrace_ctrl_open` is about to store to `ri_slot`. -/
def ClientPc.storesSlot : ClientPc → Bool
  | .openSlot _ => true
  | _ => false

/-- The point at which `rbtrace_ctrl_open` is about to store to `ri_flush`. -/
def ClientPc.storesFlush : ClientPc → Bool
  | .openFlush => true
  | _ => false

/-- Clients leave the buffers alone, and touch the slot and the counter in one place each. -/
theorem clientStep_ring (sh : Shm) (pc : ClientPc) :
    (clientStep sh pc).1.ri.riCirOff = sh.ri.riCirOff ∧
      (clientStep sh pc).1.ri.riAltOff = sh.ri.riAltOff ∧
      (clientStep sh pc).1.ri.riSlot = (if pc.storesSlot then -1 else sh.ri.riSlot) ∧
      (clientStep sh pc).1.ri.riFlush = if pc.storesFlush then 0 else sh.ri.riFlush := by
  cases pc with
  | enter op =>
      cases op with
      | size argp => cases argp <;> exact ⟨rfl, rfl, rfl, rfl⟩
      | _ => exact ⟨rfl, rfl, rfl, rfl⟩
  | _ => exact ⟨rfl, rfl, rfl, rfl⟩

end Rbtrace
