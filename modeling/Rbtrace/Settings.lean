import Rbtrace.Lines
import Rbtrace.RbtRun

/-!
# Policy, limit and traffic flags

Only the control operations change the policy, the limit and the traffic flags; calls and the
daemon leave them alone.  So they are at any time what the operations that were not refused
have made of them, in their order (`settings_of_run`).

That is what `rbt` relies on when it makes several operations in one command
(`command_of_run`), and what it shows with `-i` (`shownSize_iff`, `traffic_of_run`).
-/

namespace Rbtrace

open CInt Getopt

/-! ## Who changes them -/

/-- The policy, the limit and the traffic flags. -/
structure Settings where
  doWrap : Bool
  doZap : Bool
  riTflags : BitVec 64
  fsize : BitVec 64
deriving DecidableEq

/-- The settings in shared memory. -/
def Shm.settings (sh : Shm) : Settings :=
  ⟨sh.ri.riFlags.doWrap, sh.ri.riFlags.doZap, sh.ri.riTflags, sh.fsize⟩

/-- What an operation makes of the settings. -/
def RbtraceOp.set (S : Settings) : RbtraceOp → Settings
  | .wrap (some enable) => { S with doWrap := enable }
  | .zap (some enable) => { S with doZap := enable }
  | .size (some n) => { S with fsize := n }
  | .tflags (some (true, mask)) => { S with riTflags := S.riTflags ||| mask }
  | .tflags (some (false, mask)) => { S with riTflags := S.riTflags &&& ~~~mask }
  | _ => S

section

variable {cfg : RingConfig} {s t : Sys}

theorem settings_of_controlWords {sh sh' : Shm} (h : sh'.controlWords = sh.controlWords) :
    sh'.settings = sh.settings :=
  congrArg (fun c ↦ ⟨c.riFlags.doWrap, c.riFlags.doZap, c.riTflags, c.fsize⟩ :
    ControlWords → Settings) h

theorem rbtraceCtrl_settings (op : RbtraceOp) (sh : Shm) :
    (rbtraceCtrl op sh).1.settings =
      if (rbtraceCtrl op sh).2 = 0 then op.set sh.settings else sh.settings := by
  have hstep := rbtraceCtrl_step op sh
  generalize rbtraceCtrl op sh = r at hstep ⊢
  cases hstep with
  | traces set tflags => cases set <;> rfl
  | _ => rfl

theorem rbtraceWriteHeader_settings (cfg : RingConfig) (io : HeaderIo) (s : Sys) :
    (rbtraceWriteHeader cfg io s).settings = s.settings := by
  have hopen := congrArg Shm.settings (openFile_toShm cfg s.ri.riFlags.doZap io s)
  unfold rbtraceWriteHeader
  dsimp only
  split
  · rfl
  · split <;> exact hopen

theorem limitReached_settings (cfg : RingConfig) (io : DataIo) (s : Sys) (upd : Bool) :
    (limitReached cfg io s upd).1.settings = s.settings := by
  unfold limitReached
  split_ifs
  · rfl
  · rfl
  · exact rbtraceWriteHeader_settings cfg io.reopen (closeFd s)
  · rfl
  · rfl

theorem writeBuffer_settings (outs : List PwriteOutcome) (off n : Nat) (s : Sys) :
    (writeBuffer outs off n s).1.settings = s.settings := by
  unfold writeBuffer
  dsimp only
  split <;> rfl

theorem takeCounters_settings (cfg : RingConfig) (io : DataIo) (s : Sys) :
    (takeCounters cfg io s).settings = s.settings := by
  unfold takeCounters
  dsimp only
  split
  · exact settings_of_controlWords (rbtrace_controlWords ..)
  · rfl

theorem rbtraceWriteData_settings {io : DataIo} {doFlush : Bool}
    (ht : rbtraceWriteData cfg io doFlush s = some t) : t.settings = s.settings := by
  have hwrite : ∀ n off m, (writeBuffer io.data off m
      (wrapSeek s.ri.riFlags.doWrap n s).1).1.settings = s.settings := fun n off m ↦
    (writeBuffer_settings ..).trans (congrArg Shm.settings (wrapSeek_toShm ..))
  unfold rbtraceWriteData at ht
  dsimp only at ht
  split_ifs at ht
  · cases ht
    rw [takeCounters_settings, updateHeader_toShm, limitReached_settings]
    exact hwrite _ _ _
  · cases ht
    rw [takeCounters_settings]
    exact hwrite _ _ _

/-- A pass leaves the settings alone. -/
theorem rbtraceThreadFn_settings {io : PassIo} (ht : rbtraceThreadFn cfg io s = some t) :
    t.settings = s.settings := by
  have hinactive : ∀ {t}, flushInactive cfg io.inactive s = some t → t.settings = s.settings := by
    intro t ht
    unfold flushInactive at ht
    split at ht
    · exact rbtraceWriteData_settings ht
    · cases ht
      rfl
  have hactive : ∀ {s t}, flushActive cfg io.active s = some t → t.settings = s.settings := by
    intro s t ht
    unfold flushActive at ht
    split at ht
    · obtain ⟨u, hu, rfl⟩ := Option.map_eq_some_iff.1 ht
      exact (rbtraceWriteData_settings hu : u.settings = s.settings)
    · cases ht
      rfl
  unfold rbtraceThreadFn at ht
  split_ifs at ht
  · obtain ⟨u, hu, ht⟩ := Option.bind_eq_some_iff.1 ht
    obtain ⟨v, hv, rfl⟩ := Option.map_eq_some_iff.1 ht
    refine Eq.trans ?_ ((hactive hv).trans (hinactive hu))
    unfold closeFile
    split <;> rfl
  · cases ht
    exact rbtraceWriteHeader_settings cfg io.header s
  · obtain ⟨u, hu, ht⟩ := Option.bind_eq_some_iff.1 ht
    exact (hactive ht).trans (hinactive hu)
  · cases ht
    rfl

/-- The operation, if it is not refused. -/
def done (s : Sys) : Event → List RbtraceOp
  | .ctrl op => if (rbtraceCtrl op s.toShm).2 = 0 then [op] else []
  | _ => []

/-- **The settings** are what the operations that were not refused have made of them. -/
theorem settings_of_run {es : List Event} (hrun : (system cfg).run s es = some t) :
    t.settings = ((system cfg).collect done s es).foldl RbtraceOp.set s.settings := by
  refine ((system cfg).guarded_true s es).foldl_invariant
    (P := fun u S ↦ u.settings = S) (fun u S e v h _ hstep ↦ ?_) rfl hrun
  subst h
  cases e with
  | call st a =>
      cases hstep
      exact settings_of_controlWords (rbtrace_controlWords ..)
  | pass io => exact rbtraceThreadFn_settings hstep
  | ctrl op =>
      cases hstep
      refine (rbtraceCtrl_settings op u.toShm).trans ?_
      simp only [done]
      split <;> rfl

/-! ## A command in a run -/

/-- What a command makes of the settings. -/
def RbtOption.settings (o : RbtOption) (S : Settings) : Settings where
  doWrap := o.wrap.getD S.doWrap
  doZap := if o.wrap.isSome then S.doZap else o.zap.getD S.doZap
  riTflags := (S.riTflags ||| o.stflags.getD 0) &&& ~~~ o.ctflags.getD 0
  fsize := (o.size.map (· * ONE_MB)).getD S.fsize

theorem foldl_set_ops (o : RbtOption) (S : Settings) :
    o.ops.foldl RbtraceOp.set S = o.settings S := by
  have hnone : ∀ x : BitVec 64, x &&& 18446744073709551615#64 = x := fun _ ↦ BitVec.and_allOnes
  obtain ⟨file, close, size, wrap, zap, stflags, ctflags, info⟩ := o
  simp only [RbtOption.ops, List.foldl_append]
  have hpolicy : (RbtOption.policyOps ⟨file, close, size, wrap, zap, stflags, ctflags, info⟩).foldl
      RbtraceOp.set S = { S with
        doWrap := wrap.getD S.doWrap
        doZap := if wrap.isSome then S.doZap else zap.getD S.doZap } := by
    cases wrap <;> cases zap <;> rfl
  have hfile : ∀ S, (RbtOption.fileOps ⟨file, close, size, wrap, zap, stflags, ctflags, info⟩).foldl
      RbtraceOp.set S = S := by
    intro S
    cases file <;> cases close <;> rfl
  have hinfo : ∀ S : Settings, (if info then [RbtraceOp.info (some ())] else []).foldl
      RbtraceOp.set S = S := by
    intro S
    cases info <;> rfl
  rw [hpolicy, hfile, hinfo]
  cases size <;> cases stflags <;> cases ctflags <;>
    simp [RbtOption.sizeOps, RbtOption.tflagsOps, RbtraceOp.set, RbtOption.settings, hnone]

/-- **A command is as good as one step.**  Let the operations of a command be made one after
the other, none of them refused, with calls and passes in between, however the I/O goes: in the
end the policy, the limit and the traffic flags are as the command says. -/
theorem command_of_run {o : RbtOption} {es : List Event} (hrun : (system cfg).run s es = some t)
    (hdone : (system cfg).collect done s es = o.ops) : t.settings = o.settings s.settings := by
  rw [settings_of_run hrun, hdone, foldl_set_ops]

/-! ## The limit that is shown -/

/-- The digits of a number, from its last one. -/
theorem printfDigits_ten (n : Nat) : printfDigits 10 false n =
    if n < 10 then [UInt8.ofNat (48 + n)]
    else printfDigits 10 false (n / 10) ++ [UInt8.ofNat (48 + n % 10)] := by
  have hdigit : ∀ d < 10, UInt8.ofNat d.digitChar.toNat = UInt8.ofNat (48 + d) := by decide
  rw [printfDigits, Nat.toDigits_eq_if (by decide)]
  by_cases hn : n < 10
  · rw [if_pos hn, if_pos hn]
    exact congrArg (fun b ↦ [b]) (hdigit n hn)
  · rw [if_neg hn, if_neg hn, List.map_append]
    exact congrArg (fun b ↦ printfDigits 10 false (n / 10) ++ [b])
      (hdigit _ (Nat.mod_lt n (by decide)))

theorem numeral_printfDigits (n : Nat) : numeral (printfDigits 10 false n) = n := by
  induction n using Nat.strong_induction_on with
  | h n ih =>
      rw [printfDigits_ten]
      split
      · rename_i hn
        exact (numeral_append_digit [] hn).trans (Nat.zero_add n)
      · rw [numeral_append_digit _ (Nat.mod_lt n (by decide)), ih _ (by omega), Nat.div_add_mod]

theorem printfDigits_inj {n m : Nat} (h : printfDigits 10 false n = printfDigits 10 false m) :
    n = m := by
  rw [← numeral_printfDigits n, h, numeral_printfDigits]

/-- `strtoull` reads digits. -/
theorem strtoull_of_digits {l : CStr} (hne : l ≠ []) (h : ∀ b ∈ l, isdigit b = true) :
    strtoull l =
      some (if 2 ^ 64 ≤ numeral l then BitVec.allOnes 64 else BitVec.ofNat 64 (numeral l), []) := by
  cases l with
  | nil => exact absurd rfl hne
  | cons b l =>
      have hb : 48 ≤ b ∧ b ≤ 57 := by simpa [isdigit] using h b List.mem_cons_self
      have hlt : 13 < b := UInt8.lt_of_lt_of_le (by decide) hb.1
      have hne : ∀ c : UInt8, c < 48 → b ≠ c := fun c hc h ↦ UInt8.not_le.2 hc (h ▸ hb.1)
      have hspace : isspace b = false := by
        simp [isspace, hne 32 (by decide), hlt]
      have hsign : signOf (b :: l) = (false, b :: l) := by
        unfold signOf
        split
        · rename_i h
          exact absurd (List.cons.inj h).1 (hne 45 (by decide))
        · rename_i h
          exact absurd (List.cons.inj h).1 (hne 43 (by decide))
        · rfl
      have htake : (b :: l).takeWhile isdigit = b :: l := List.takeWhile_eq_self_iff.2 h
      have hdrop : (b :: l).dropWhile isdigit = [] := List.dropWhile_eq_nil_iff.2 h
      rw [strtoull, List.dropWhile_cons_of_neg (by rw [hspace]; exact Bool.false_ne_true), hsign]
      dsimp only
      rw [htake, hdrop, if_neg (List.cons_ne_nil b l), if_neg Bool.false_ne_true]

theorem strtoull_printfDigits (n : Nat) : strtoull (printfDigits 10 false n) =
    some (if 2 ^ 64 ≤ n then BitVec.allOnes 64 else BitVec.ofNat 64 n, []) := by
  have hne : printfDigits 10 false n ≠ [] := by
    rw [printfDigits_ten]
    split
    · exact List.cons_ne_nil _ _
    · exact List.append_ne_nil_of_right_ne_nil _ (List.cons_ne_nil _ _)
  rw [strtoull_of_digits hne fun b hb ↦ ?_, numeral_printfDigits]
  have hsub : printfDigits 10 false n ⊆ (List.range 10).map fun d ↦ UInt8.ofNat (48 + d) :=
    printfDigits_subset (by decide) (by decide) n
  obtain ⟨d, hd, rfl⟩ := List.mem_map.1 (hsub hb)
  exact (by decide : ∀ d < 10, isdigit (UInt8.ofNat (48 + d)) = true) d (List.mem_range.1 hd)

/-- The arguments `-s <n>`. -/
def sizeArgs (n : Nat) : List CStr := [[45, 115], printfDigits 10 false n]

/-- The argument `-i`. -/
def infoArgs : List CStr := [[45, 105]]

theorem options_sizeArgs (n : Nat) :
    options rbtOptstring (sizeArgs n) = [.opt 115 (some (printfDigits 10 false n))] := by
  simp [sizeArgs, options, cluster, rbtOptstring, takesValue, dash, colon]

theorem rbtMain_infoArgs (cfg : RingConfig) (dup : Nat → Bool) (sh : Shm) :
    (rbtMain cfg dup 0 infoArgs sh).info = dumpRingInfo (rbtraceCtrlInfo cfg sh) := rfl

theorem rbtMain_sizeArgs (cfg : RingConfig) (dup : Nat → Bool) (n : Nat) (sh : Shm) :
    (rbtMain cfg dup 0 (sizeArgs n) sh).shm =
      { sh with fsize :=
        (if 2 ^ 64 ≤ n then BitVec.allOnes 64 else BitVec.ofNat 64 n) * ONE_MB } := by
  have hsize : sizeArg (printfDigits 10 false n) =
      some (if 2 ^ 64 ≤ n then BitVec.allOnes 64 else BitVec.ofNat 64 n) := by
    rw [sizeArg, strtoull_printfDigits]
  have hopts : rbtOptions dup [.opt 115 (some (printfDigits 10 false n))] {} =
      .ok { size := some (if 2 ^ 64 ≤ n then BitVec.allOnes 64 else BitVec.ofNat 64 n) } := by
    simp only [rbtOptions, rbtOption, hsize]
    rfl
  rw [rbtMain, options_sizeArgs, hopts]
  rfl

/-- An operation that does not set the limit. -/
def Event.KeepsSize : Event → Prop
  | .ctrl (.size _) => False
  | _ => True

theorem fsize_of_run {es : List Event} (hes : ∀ e ∈ es, e.KeepsSize)
    (hrun : (system cfg).run s es = some t) : t.fsize = s.fsize := by
  refine (((system cfg).guarded_true s es).and_forall hes).invariant
    (P := fun u ↦ u.fsize = s.fsize) (fun u e v h he hstep ↦ Eq.trans ?_ h) rfl hrun
  cases e with
  | call st a =>
      cases hstep
      exact rbtrace_fsize ..
  | pass io => exact congrArg Settings.fsize (rbtraceThreadFn_settings hstep)
  | ctrl op =>
      cases hstep
      have hctrl := rbtraceCtrl_step op u.toShm
      show (rbtraceCtrl op u.toShm).1.fsize = u.fsize
      generalize rbtraceCtrl op u.toShm = r at hctrl ⊢
      cases hctrl with
      | limits size => exact he.2.elim
      | _ => rfl

theorem printfInt_natCast (n : Nat) : printfInt 0 n = printfDigits 10 false n := by
  rw [printfInt, fillLeft, if_neg (Int.not_lt.2 (Int.natCast_nonneg n)), Int.natAbs_natCast]
  simp

/-- A limit that is shown. -/
theorem fileSize_mem_info_iff (dup : Nat → Bool) (sh : Shm) (n : Nat) :
    .fileSize (printfInt 0 n) ∈ (rbtMain cfg dup 0 infoArgs sh).info ↔
      sh.fsize.toNat / 2 ^ 20 = n := by
  have hdiv : (sh.fsize / ONE_MB).toInt = ((sh.fsize.toNat / 2 ^ 20 : Nat) : Int) := by
    have hlt : (sh.fsize / ONE_MB).toNat = sh.fsize.toNat / 2 ^ 20 := BitVec.toNat_udiv
    rw [BitVec.toInt_eq_toNat_of_lt, hlt]
    rw [hlt]
    have := sh.fsize.isLt
    omega
  rw [rbtMain_infoArgs, dumpRingInfo, rbtraceCtrlInfo, hdiv]
  simp only [printfInt_natCast, List.mem_cons, reduceCtorEq, InfoLine.fileSize.injEq,
    List.not_mem_nil, or_false, false_or]
  exact ⟨fun h ↦ (printfDigits_inj h).symm, fun h ↦ by rw [h]⟩

/-- **A limit is shown as it was given.**  Give a limit of `n` MB with `-s`, let the ring be
used in any way but for setting the limit, and ask for it with `-i`: what is shown is `n`
exactly if the limit in bytes has 64 bits. -/
theorem shownSize_iff {dup dup' : Nat → Bool} {n : Nat} {es : List Event}
    (hes : ∀ e ∈ es, e.KeepsSize)
    (hrun : (system cfg).run { s with toShm := (rbtMain cfg dup 0 (sizeArgs n) s.toShm).shm } es = some t) :
    .fileSize (printfInt 0 n) ∈ (rbtMain cfg dup' 0 infoArgs t.toShm).info ↔ n < 2 ^ 44 := by
  rw [fileSize_mem_info_iff, fsize_of_run hes hrun, rbtMain_sizeArgs]
  dsimp only
  have hmul : ∀ v : BitVec 64, (v * ONE_MB).toNat / 2 ^ 20 = v.toNat % 2 ^ 44 := by
    intro v
    rw [BitVec.toNat_mul, show ONE_MB.toNat = 2 ^ 20 from rfl]
    omega
  rw [hmul]
  split
  · rw [BitVec.toNat_allOnes]
    omega
  · rw [BitVec.toNat_ofNat]
    omega

/-! ## Traffic flags -/

/-- `rbtrace_traffic_enabled`; `ri` is there if `ri_ptr` is set. -/
def rbtraceTrafficEnabled (ri : Option RingInfo) (traceid : BitVec 8) : Int :=
  if RBT_TRAFFIC_LAST ≤ traceid.toNat then 0
  else
    match ri with
    | none => 0
    | some ri => i32 (ri.riTflags &&& intShl traceid.toNat).toNat

/-- Whether an operation sets or clears a flag, `none` if it leaves it alone. -/
def RbtraceOp.traffic (flag : BitVec 64) : RbtraceOp → Option Bool
  | .tflags (some (set, mask)) => if mask &&& flag = 0 then none else some set
  | _ => none

/-- Whether the last operation that touches a flag has set it. -/
def lastTraffic (flag : BitVec 64) (ops : List RbtraceOp) : Option Bool :=
  ops.reverse.findSome? (RbtraceOp.traffic flag)

/-- A test for one of the low flags is a test of its bit. -/
theorem mask_and_intShl_eq_zero_iff {i : Nat} (hi : i < 31) (x : BitVec 64) :
    x &&& intShl i = 0 ↔ x.getLsbD i = false := by
  have hmod : i % 32 = i := Nat.mod_eq_of_lt (hi.trans (by decide))
  constructor
  · intro h
    have hbit := congrArg (BitVec.getLsbD · i) h
    rw [BitVec.getLsbD_and, getLsbD_intShl i (hi.trans (by decide)), hmod] at hbit
    simpa using hbit
  · intro h
    refine BitVec.eq_of_getLsbD_eq fun k _ ↦ ?_
    rw [BitVec.getLsbD_and]
    by_cases hk : k < 32
    · rw [getLsbD_intShl i hk, hmod]
      rcases eq_or_ne k i with rfl | hne
      · rw [h, Bool.false_and]
        exact BitVec.getLsbD_zero.symm
      · simp [hne]
    · rw [getLsbD_intShl_of_le i (not_lt.1 hk) (hmod.trans_lt hi)]
      simp

/-- An operation sets a flag, clears it, or leaves it alone. -/
theorem getLsbD_set {i : Nat} (hi : i < 31) (S : Settings) (op : RbtraceOp) :
    (op.set S).riTflags.getLsbD i = (op.traffic (intShl i)).getD (S.riTflags.getLsbD i) := by
  have hi' : i < 64 := hi.trans (by decide)
  cases op with
  | tflags argp =>
      cases argp with
      | none => rfl
      | some arg =>
          obtain ⟨set, mask⟩ := arg
          rw [RbtraceOp.traffic]
          split
          · rename_i hmask
            rw [mask_and_intShl_eq_zero_iff hi] at hmask
            cases set <;>
              simp only [RbtraceOp.set, BitVec.getLsbD_or, BitVec.getLsbD_and, BitVec.getLsbD_not,
                hmask, Bool.or_false, Bool.not_false, decide_eq_true hi', Bool.and_true] <;> rfl
          · rename_i hmask
            rw [mask_and_intShl_eq_zero_iff hi, Bool.not_eq_false] at hmask
            cases set <;> simp only [RbtraceOp.set, BitVec.getLsbD_or, BitVec.getLsbD_and,
              BitVec.getLsbD_not, hmask, Bool.or_true, Bool.not_true, Bool.and_false] <;> rfl
  | «open» argp | size argp | wrap argp | zap argp | info argp => cases argp <;> rfl
  | close => rfl

theorem getLsbD_foldl_set {i : Nat} (hi : i < 31) (S : Settings) (ops : List RbtraceOp) :
    (ops.foldl RbtraceOp.set S).riTflags.getLsbD i =
      (lastTraffic (intShl i) ops).getD (S.riTflags.getLsbD i) := by
  induction ops using List.reverseRecOn with
  | nil => rfl
  | append_singleton ops op ih =>
      rw [List.foldl_append, List.foldl_cons, List.foldl_nil, getLsbD_set hi, ih, lastTraffic,
        lastTraffic, List.reverse_append, List.reverse_singleton, List.singleton_append,
        List.findSome?_cons]
      cases op.traffic (intShl i) <;> rfl

/-- The answer does not get lost in an `int`. -/
theorem rbtraceTrafficEnabled_ne_zero_iff (ri : RingInfo) (traceid : BitVec 8) :
    rbtraceTrafficEnabled (some ri) traceid ≠ 0 ↔
      traceid.toNat < RBT_TRAFFIC_LAST ∧ ri.riTflags.getLsbD traceid.toNat = true := by
  unfold rbtraceTrafficEnabled
  split
  · rename_i hge
    exact iff_of_false (not_not.2 rfl) fun h ↦ absurd h.1 (not_lt.2 hge)
  · rename_i hlt
    have hlt' : traceid.toNat < 3 := not_le.1 hlt
    have hle : (ri.riTflags &&& intShl traceid.toNat).toNat ≤ 4 := by
      have hflag : ∀ i < 3, (intShl i).toNat ≤ 4 := by decide
      rw [BitVec.toNat_and]
      exact Nat.and_le_right.trans (hflag _ hlt')
    have hword : i32 (ri.riTflags &&& intShl traceid.toNat).toNat =
        (ri.riTflags &&& intShl traceid.toNat).toNat := i32_of_range (by omega) (by omega)
    have hzero : (ri.riTflags &&& intShl traceid.toNat).toNat = 0 ↔
        ri.riTflags &&& intShl traceid.toNat = 0 :=
      ⟨fun h ↦ BitVec.eq_of_toNat_eq h, fun h ↦ by rw [h]; rfl⟩
    dsimp only
    rw [hword, ← Bool.not_eq_false, ← mask_and_intShl_eq_zero_iff (hlt'.trans (by decide)), ← hzero,
      ne_eq, Int.natCast_eq_zero]
    exact ⟨fun h ↦ ⟨hlt', h⟩, And.right⟩

/-- **Traffic is traced as was asked for last.**  At any time after the start of the daemon,
`rbtrace_traffic_enabled` says yes to a trace ID exactly if it is one of traffic and the last
operation that touched its flag has set it; and `rbt -i` shows `TEST` exactly if it says yes to
the ID of `TEST`. -/
theorem traffic_of_run (disk : Disk) {es : List Event} (dup : Nat → Bool)
    (hrun : (system cfg).run (rbtraceDaemonInit cfg disk) es = some t) (traceid : BitVec 8) :
    (rbtraceTrafficEnabled (some t.ri) traceid ≠ 0 ↔ traceid.toNat < RBT_TRAFFIC_LAST ∧
      lastTraffic (intShl traceid.toNat)
        ((system cfg).collect done (rbtraceDaemonInit cfg disk) es) = some true) ∧
    (.tflags [84, 69, 83, 84, 32] ∈ (rbtMain cfg dup 0 infoArgs t.toShm).info ↔
      rbtraceTrafficEnabled (some t.ri) 2 ≠ 0) := by
  have hflag : ∀ i < 31, t.ri.riTflags.getLsbD i = true ↔
      lastTraffic (intShl i) ((system cfg).collect done (rbtraceDaemonInit cfg disk) es) =
        some true := by
    intro i hi
    have hset : t.ri.riTflags.getLsbD i = _ :=
      congrArg (fun S : Settings ↦ S.riTflags.getLsbD i) (settings_of_run hrun)
    rw [hset, getLsbD_foldl_set hi]
    -- no flag is set at the start
    have hzero : (rbtraceDaemonInit cfg disk).settings.riTflags.getLsbD i = false :=
      BitVec.getLsbD_zero
    rw [hzero]
    cases lastTraffic (intShl i) ((system cfg).collect done (rbtraceDaemonInit cfg disk) es) with
    | none => simp
    | some set => simp
  refine ⟨?_, ?_⟩
  · rw [rbtraceTrafficEnabled_ne_zero_iff]
    exact and_congr_right fun hlt ↦ hflag _ (hlt.trans (by decide))
  · have hshown : tflagsToStr t.ri.riTflags =
        if t.ri.riTflags &&& intShl 2 = 0 then [] else [84, 69, 83, 84, 32] := List.append_nil _
    rw [rbtraceTrafficEnabled_ne_zero_iff, rbtMain_infoArgs]
    simp only [dumpRingInfo, rbtraceCtrlInfo, hshown, List.mem_cons, reduceCtorEq,
      InfoLine.tflags.injEq, List.not_mem_nil, or_false, false_or]
    show _ ↔ 2 < RBT_TRAFFIC_LAST ∧ t.ri.riTflags.getLsbD 2 = true
    split
    · rename_i hclear
      rw [mask_and_intShl_eq_zero_iff (by decide)] at hclear
      rw [hclear]
      exact iff_of_false (List.cons_ne_nil _ _) fun h ↦ Bool.false_ne_true h.2
    · rename_i hset
      rw [mask_and_intShl_eq_zero_iff (by decide), Bool.not_eq_false] at hset
      exact iff_of_true rfl ⟨by decide, hset⟩

end

/-- The operations of `-o t -w on -s 32`, with a pass and a call in between. -/
def openRun : List Event :=
  [.ctrl (.wrap (some true)), .pass .smooth, .trace 2, .ctrl (.size (some (32 * ONE_MB))), .trace 2,
    .ctrl (.open (some [116])), .pass .smooth]

theorem command_of_run_openRun :
    ∃ t, (system twoRing).run (rbtraceDaemonInit twoRing fun _ ↦ none) openRun = some t ∧
      t.settings = ⟨true, false, 0, 32 * ONE_MB⟩ := by
  obtain ⟨t, ht⟩ : ∃ t,
      (system twoRing).run (rbtraceDaemonInit twoRing fun _ ↦ none) openRun = some t :=
    ⟨_, rfl⟩
  have hcommand := command_of_run
    (o := { file := some [116], size := some 32, wrap := some true }) ht rfl
  exact ⟨t, ht, hcommand.trans (by decide)⟩

theorem shownSize_openRun :
    ∃ t, (system twoRing).run { rbtraceDaemonInit twoRing (fun _ ↦ none) with
      toShm := (rbtMain twoRing (fun _ ↦ true) 0 (sizeArgs 32)
        (rbtraceDaemonInit twoRing fun _ ↦ none).toShm).shm }
      [.ctrl (.open (some [116])), .pass .smooth] = some t ∧
    .fileSize (printfInt 0 (32 : Nat)) ∈ (rbtMain twoRing (fun _ ↦ true) 0 infoArgs t.toShm).info := by
  obtain ⟨t, ht⟩ : ∃ t, (system twoRing).run { rbtraceDaemonInit twoRing (fun _ ↦ none) with
      toShm := (rbtMain twoRing (fun _ ↦ true) 0 (sizeArgs 32)
        (rbtraceDaemonInit twoRing fun _ ↦ none).toShm).shm }
      [.ctrl (.open (some [116])), .pass .smooth] = some t := ⟨_, rfl⟩
  refine ⟨t, ht, (shownSize_iff (fun e he ↦ ?_) ht).2 (by decide)⟩
  rcases List.mem_cons.1 he with rfl | he
  · trivial
  · rw [List.mem_singleton.1 he]
    trivial

theorem traffic_of_run_setTest :
    ∃ t, (system twoRing).run (rbtraceDaemonInit twoRing fun _ ↦ none)
      [.ctrl (.tflags (some (true, 4))), .pass .smooth] = some t ∧
    .tflags [84, 69, 83, 84, 32] ∈ (rbtMain twoRing (fun _ ↦ true) 0 infoArgs t.toShm).info := by
  obtain ⟨t, ht⟩ : ∃ t, (system twoRing).run (rbtraceDaemonInit twoRing fun _ ↦ none)
      [.ctrl (.tflags (some (true, 4))), .pass .smooth] = some t := ⟨_, rfl⟩
  have h := traffic_of_run (fun _ ↦ none) (fun _ ↦ true) ht 2
  exact ⟨t, ht, h.2.2 (h.1.2 ⟨by decide, rfl⟩)⟩

end Rbtrace
