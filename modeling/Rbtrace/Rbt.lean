import Rbtrace.Lib.Getopt
import Rbtrace.Print
import Rbtrace.ZapName

/-!
# The command `rbt`

`main` of `rbt.c`: the options are read first, all of them, and then the control operations
they ask for are made in a fixed order, up to the first that fails.

What a command asks for is in the last occurrence of each option, and it is made only if all
of them are accepted (`rbtOptions_eq`).
-/

namespace Rbtrace

open Getopt

/-! ## Options -/

/-- `opts` and the flags `do_…` of `main`: a value is there if its flag is set. -/
structure RbtOption where
  file : Option CStr := none
  close : Bool := false
  size : Option (BitVec 64) := none
  wrap : Option Bool := none
  zap : Option Bool := none
  stflags : Option (BitVec 64) := none
  ctflags : Option (BitVec 64) := none
  info : Bool := false

/-- What `main` says when it does not go on. -/
inductive RbtMessage where
  | illegalRing
  | pathTooLong
  | invalidOption (optarg : CStr)
  | invalidSize
  | invalidTflags
  | version
  | usage (rc : Int)
  | initFailed (rc : Int)
  | opFailed (op : CStr) (rc : Int)
deriving DecidableEq

/-- What `main` returns then. -/
def RbtMessage.rc : RbtMessage → Int
  | .usage rc | .initFailed rc | .opFailed _ rc => rc
  | _ => -1

/-- `"vhcir:o:w:z:s:S:C:"`. -/
def rbtOptstring : CStr := [118, 104, 99, 105, 114, 58, 111, 58, 119, 58, 122, 58, 115, 58, 83, 58, 67, 58]

/-- `"on"` and `"off"`. -/
def onOff (optarg : CStr) : Option Bool :=
  if optarg = [111, 110] then some true
  else if optarg = [111, 102, 102] then some false
  else none

/-- `isspace`, for ASCII. -/
def isspace (b : UInt8) : Bool := b = 32 || 9 ≤ b && b ≤ 13

/-- `isdigit`. -/
def isdigit (b : UInt8) : Bool := 48 ≤ b && b ≤ 57

/-- The sign of a number, and what follows. -/
def signOf : CStr → Bool × CStr
  | 45 :: s => (true, s)
  | 43 :: s => (false, s)
  | s => (false, s)

/-- `strtoull(nptr, &endptr, 10)`: the number and `endptr`, `none` if there is no digit. -/
def strtoull (nptr : CStr) : Option (BitVec 64 × CStr) :=
  let s := signOf (nptr.dropWhile isspace)
  let n := numeral (s.2.takeWhile isdigit)
  if s.2.takeWhile isdigit = [] then none
  else some (if 2 ^ 64 ≤ n then BitVec.allOnes 64 else if s.1 then -BitVec.ofNat 64 n
    else BitVec.ofNat 64 n, s.2.dropWhile isdigit)

/-- The size that `-s` names, in MB. -/
def sizeArg (optarg : CStr) : Option (BitVec 64) :=
  match strtoull optarg with
  | some (size, []) => some size
  | _ => none

/-- The flags that `-S` and `-C` name. -/
def tflagsArg (dup : Bool) (optarg : CStr) : Option (BitVec 64) :=
  if strToTflags dup optarg = 0 then none else some (strToTflags dup optarg)

/-- One option; `dup` is whether `strdup` succeeds. -/
def rbtOption (dup : Bool) (opts : RbtOption) : Found → Except RbtMessage RbtOption
  | .opt 114 (some optarg) => if optarg = [105, 111] then .ok opts else .error .illegalRing
  | .opt 111 (some optarg) =>
      if RBTRACE_MAX_PATH < optarg.length then .error .pathTooLong
      else .ok { opts with file := some optarg }
  | .opt 99 none => .ok { opts with close := true }
  | .opt 119 (some optarg) =>
      match onOff optarg with
      | some wrap => .ok { opts with wrap := some wrap }
      | none => .error (.invalidOption optarg)
  | .opt 122 (some optarg) =>
      match onOff optarg with
      | some zap => .ok { opts with zap := some zap }
      | none => .error (.invalidOption optarg)
  | .opt 105 none => .ok { opts with info := true }
  | .opt 115 (some optarg) =>
      match sizeArg optarg with
      | some size => .ok { opts with size := some size }
      | none => .error .invalidSize
  | .opt 83 (some optarg) =>
      match tflagsArg dup optarg with
      | some tflags => .ok { opts with stflags := some tflags }
      | none => .error .invalidTflags
  | .opt 67 (some optarg) =>
      match tflagsArg dup optarg with
      | some tflags => .ok { opts with ctflags := some tflags }
      | none => .error .invalidTflags
  | .opt 118 none => .error .version
  | .opt 104 none => .error (.usage 0)
  | _ => .error (.usage (-1))

/-- The loop over the options; `dup i` is whether `strdup` succeeds for the `i`-th. -/
def rbtOptions (dup : Nat → Bool) : List Found → RbtOption → Except RbtMessage RbtOption
  | [], opts => .ok opts
  | f :: found, opts => (rbtOption (dup 0) opts f).bind (rbtOptions (fun i ↦ dup (i + 1)) found)

/-! ## Operations -/

/-- `ONE_MB`. -/
def ONE_MB : BitVec 64 := 1024 * 1024

/-- The operation for the policy: `-z` counts only without `-w`. -/
def RbtOption.policyOps (o : RbtOption) : List RbtraceOp :=
  match o.wrap, o.zap with
  | some wrap, _ => [.wrap (some wrap)]
  | none, some zap => [.zap (some zap)]
  | none, none => []

/-- The operation for the file: `-c` counts only without `-o`. -/
def RbtOption.fileOps (o : RbtOption) : List RbtraceOp :=
  match o.file, o.close with
  | some file, _ => [.open (some file)]
  | none, true => [.close]
  | none, false => []

/-- The operation for the limit. -/
def RbtOption.sizeOps (o : RbtOption) : List RbtraceOp :=
  match o.size with
  | some size => [.size (some (size * ONE_MB))]
  | none => []

/-- The operations for the traffic flags. -/
def RbtOption.tflagsOps (o : RbtOption) : List RbtraceOp :=
  (match o.stflags with | some tflags => [.tflags (some (true, tflags))] | none => []) ++
  match o.ctflags with | some tflags => [.tflags (some (false, tflags))] | none => []

/-- The operations of a command, in the order of `main`. -/
def RbtOption.ops (o : RbtOption) : List RbtraceOp :=
  o.policyOps ++ (o.sizeOps ++ (o.fileOps ++ (o.tflagsOps ++ if o.info then [.info (some ())] else [])))

/-- The number of an operation. -/
def RbtraceOp.toNat : RbtraceOp → Nat
  | .open _ => 0
  | .close => 1
  | .size _ => 2
  | .wrap _ => 3
  | .zap _ => 4
  | .tflags _ => 5
  | .info _ => 6

/-- `rbtrace_op_str`: `"open"`, `"close"`, `"size"`, `"wrap"`, `"traffic-flags"`, `"zap"` and
`"info"`. -/
def rbtraceOpStr : List CStr :=
  [[111, 112, 101, 110], [99, 108, 111, 115, 101], [115, 105, 122, 101], [119, 114, 97, 112],
    [116, 114, 97, 102, 102, 105, 99, 45, 102, 108, 97, 103, 115], [122, 97, 112],
    [105, 110, 102, 111]]

/-- `rbtrace_op_to_str`. -/
def rbtraceOpToStr (op : RbtraceOp) : CStr :=
  rbtraceOpStr.getD op.toNat [117, 110, 107, 110, 111, 119, 110]

/-- The operations one after the other, up to the first that fails. -/
def rbtOps : List RbtraceOp → Shm → Shm × Option RbtMessage
  | [], sh => (sh, none)
  | op :: ops, sh =>
      let r := rbtraceCtrl op sh
      if r.2 ≠ 0 then (r.1, some (.opFailed (rbtraceOpToStr op) r.2)) else rbtOps ops r.1

/-! ## What is shown -/

/-- `struct rbtrace_op_info_arg`. -/
structure RbtraceOpInfoArg where
  ringName : CStr
  ringDesc : CStr
  filePath : CStr
  flags : RiFlags
  tflags : BitVec 64
  fileSize : BitVec 64
  traceEntrySize : Nat

/-- `rbtrace_ctrl_info`. -/
def rbtraceCtrlInfo (cfg : RingConfig) (sh : Shm) : RbtraceOpInfoArg :=
  ⟨cfg.rcName, cfg.rcDesc, sh.ri.riFilePath, sh.ri.riFlags, sh.ri.riTflags, sh.fsize, sizeofEntry⟩

/-- `flags_to_str`, with the names of `flg_names`. -/
def flagsToStr (flags : RiFlags) : CStr :=
  [(flags.doDisk, [68, 73, 83, 75]), (flags.doOpen, [79, 80, 69, 78]),
    (flags.doWrap, [87, 82, 65, 80]), (flags.doZap, [90, 65, 80]),
    (flags.doClose, [67, 76, 79, 83, 69]), (flags.doFlush, [70, 76, 85, 83, 72])].flatMap
    fun f ↦ if f.1 then f.2 ++ [32] else []

/-- `tflags_to_str`. -/
def tflagsToStr (tflags : BitVec 64) : CStr :=
  (List.range' RBT_TRAFFIC_TEST (rbtTidStr.length - RBT_TRAFFIC_TEST)).flatMap fun i ↦
    if tflags &&& intShl i = 0 then [] else rbtTidStr.getD i [] ++ [32]

/-- A line of `dump_ring_info`. -/
inductive InfoLine where
  | name (text : CStr)
  | desc (text : CStr)
  | flags (text : CStr)
  | tflags (text : CStr)
  | fileSize (text : CStr)
  | filePath (text : CStr)
  | traceEntrySize (text : CStr)
deriving DecidableEq

/-- `dump_ring_info`: the lines, each with the text behind its label. -/
def dumpRingInfo (arg : RbtraceOpInfoArg) : List InfoLine :=
  [.name arg.ringName, .desc arg.ringDesc, .flags (flagsToStr arg.flags),
    .tflags (tflagsToStr arg.tflags), .fileSize (printfInt 0 (arg.fileSize / ONE_MB).toInt),
    .filePath arg.filePath, .traceEntrySize (printfInt 0 arg.traceEntrySize)]

/-! ## The command -/

/-- What a command leaves: the shared memory, the value `main` returns, and what it prints. -/
structure RbtResult where
  shm : Shm
  rc : Int
  message : Option RbtMessage
  info : List InfoLine

/-- `main` ends with a message. -/
def RbtResult.stop (shm : Shm) (m : RbtMessage) : RbtResult := ⟨shm, m.rc, some m, []⟩

/-- `main`; `init` is what `rbtrace_init` returns. -/
def rbtMain (cfg : RingConfig) (dup : Nat → Bool) (init : Int) (args : List CStr) (sh : Shm) :
    RbtResult :=
  match rbtOptions dup (options rbtOptstring args) {} with
  | .error m => .stop sh m
  | .ok o =>
      if init ≠ 0 then .stop sh (.initFailed init)
      else
        match rbtOps o.ops sh with
        | (sh', some m) => .stop sh' m
        | (sh', none) => ⟨sh', 0, none, if o.info then dumpRingInfo (rbtraceCtrlInfo cfg sh') else []⟩

/-! ## What the options say -/

section

variable {dup : Nat → Bool} {found : List Found} {o : RbtOption}

/-- The command in the last occurrence of each option. -/
def RbtOption.ofLast (found : List Found) : RbtOption where
  file := (lastValue 111 found).join
  close := (lastValue 99 found).isSome
  size := (lastValue 115 found).join.bind sizeArg
  wrap := (lastValue 119 found).join.bind onOff
  zap := (lastValue 122 found).join.bind onOff
  stflags := (lastValue 83 found).join.bind (tflagsArg true)
  ctflags := (lastValue 67 found).join.bind (tflagsArg true)
  info := (lastValue 105 found).isSome

/-- `main` goes on after this option. -/
def Accepts (dup : Bool) (f : Found) : Prop := ∃ o, rbtOption dup {} f = .ok o

theorem tflagsArg_of_dup {dup : Bool} {optarg : CStr} {tflags : BitVec 64}
    (h : tflagsArg dup optarg = some tflags) : tflagsArg true optarg = some tflags := by
  cases dup with
  | true => exact h
  | false => cases h

/-- Whether an option is accepted does not depend on what is there already. -/
theorem rbtOption_eq_error_iff {dup : Bool} {f : Found} {m : RbtMessage} (o o' : RbtOption) :
    rbtOption dup o f = .error m ↔ rbtOption dup o' f = .error m := by
  unfold rbtOption
  split <;> (try split) <;> simp

/-- An option replaces what the same option has said before. -/
theorem rbtOption_ofLast {dup : Bool} {f : Found} (h : rbtOption dup (.ofLast found) f = .ok o) :
    o = .ofLast (found ++ [f]) := by
  unfold rbtOption at h
  split at h
  case h_4 | h_5 | h_7 =>
      split at h <;> cases h
      rename_i hvalue
      simp [RbtOption.ofLast, lastValue_append_opt, hvalue]
  case h_8 | h_9 =>
      split at h <;> cases h
      rename_i hvalue
      simp [RbtOption.ofLast, lastValue_append_opt, tflagsArg_of_dup hvalue]
  case h_1 | h_2 =>
      split at h <;> cases h
      simp [RbtOption.ofLast, lastValue_append_opt]
  case h_3 | h_6 =>
      cases h
      simp [RbtOption.ofLast, lastValue_append_opt]
  all_goals cases h

theorem Accepts.of_ok {dup : Bool} {f : Found} {o' : RbtOption} (h : rbtOption dup o f = .ok o') :
    Accepts dup f := by
  cases hf : rbtOption dup {} f with
  | ok o => exact ⟨o, hf⟩
  | error m =>
      rw [rbtOption_eq_error_iff {} o, h] at hf
      cases hf

theorem getElem?_append_singleton {i : Nat} {f g : Found} (h : (found ++ [f])[i]? = some g) :
    found[i]? = some g ∨ i = found.length ∧ g = f := by
  rcases lt_trichotomy i found.length with hi | rfl | hi
  · rw [List.getElem?_append_left hi] at h
    exact .inl h
  · rw [List.getElem?_concat_length] at h
    exact .inr ⟨rfl, (Option.some.inj h).symm⟩
  · rw [List.getElem?_eq_none (by simpa using Nat.succ_le_of_lt hi)] at h
    cases h

theorem rbtOptions_append (f : Found) (o : RbtOption) :
    rbtOptions dup (found ++ [f]) o =
      (rbtOptions dup found o).bind fun o ↦ rbtOption (dup found.length) o f := by
  induction found generalizing dup o with
  | nil =>
      show (rbtOption (dup 0) o f).bind (rbtOptions _ []) = rbtOption (dup 0) o f
      cases rbtOption (dup 0) o f <;> rfl
  | cons g found ih =>
      show (rbtOption (dup 0) o g).bind _ = ((rbtOption (dup 0) o g).bind _).bind _
      cases rbtOption (dup 0) o g with
      | error m => rfl
      | ok o => exact ih o

/-- The first message, if there is one, comes from an option that all before it let pass. -/
theorem rbtOptions_eq (dup : Nat → Bool) (found : List Found) :
    ((∀ i f, found[i]? = some f → Accepts (dup i) f) ∧
        rbtOptions dup found {} = .ok (.ofLast found)) ∨
      ∃ i f m, found[i]? = some f ∧ (∀ j < i, ∀ g, found[j]? = some g → Accepts (dup j) g) ∧
        rbtOption (dup i) {} f = .error m ∧ rbtOptions dup found {} = .error m := by
  induction found using List.reverseRecOn with
  | nil => exact .inl ⟨fun _ _ h ↦ absurd h.symm (Option.some_ne_none _), rfl⟩
  | append_singleton found f ih =>
      rw [rbtOptions_append]
      rcases ih with ⟨hacc, ho⟩ | ⟨i, g, m, hi, hacc, hg, hm⟩
      · rw [ho]
        cases hf : rbtOption (dup found.length) (.ofLast found) f with
        | ok o =>
            refine .inl ⟨fun i g hg ↦ ?_, hf.trans (congrArg _ (rbtOption_ofLast hf))⟩
            rcases getElem?_append_singleton hg with hg | ⟨rfl, rfl⟩
            · exact hacc i g hg
            · exact .of_ok hf
        | error m =>
            refine .inr ⟨found.length, f, m, ?_, ?_, ?_, hf⟩
            · simp
            · intro j hj g hg
              rw [List.getElem?_append_left hj] at hg
              exact hacc j g hg
            · exact (rbtOption_eq_error_iff ..).1 hf
      · refine .inr ⟨i, g, m, ?_, ?_, hg, ?_⟩
        · rw [List.getElem?_append_left (List.getElem?_eq_some_iff.1 hi).1]
          exact hi
        · intro j hj h hh
          rw [List.getElem?_append_left (hj.trans (List.getElem?_eq_some_iff.1 hi).1)] at hh
          exact hacc j hj h hh
        · rw [hm]
          rfl

end

end Rbtrace
