import Rbtrace.Rbt
import Rbtrace.System

/-!
# What a command does

A policy is set before the limit, the limit before a file is opened or closed, and only a
policy and a file can be refused.  So a command that fails has changed nothing, or the policy
and the limit (`rbt_of_args`).
-/

namespace Rbtrace

open Getopt

section

variable {o : RbtOption} {sh : Shm}

/-! ## What a command is for -/

/-- The policy is not refused. -/
def RbtOption.policyOk (o : RbtOption) (sh : Shm) : Bool :=
  match o.wrap, o.zap with
  | some _, _ => !sh.ri.riFlags.doZap
  | none, some _ => !sh.ri.riFlags.doWrap
  | none, none => true

/-- The file is not refused. -/
def RbtOption.fileOk (o : RbtOption) (sh : Shm) : Bool :=
  match o.file, o.close with
  | some file, _ => !sh.ri.riFlags.doOpen && !sh.ri.riFlags.doDisk && file.length < RBTRACE_MAX_PATH
  | none, true => sh.ri.riFlags.doDisk
  | none, false => true

/-- The policy is as the command says. -/
def RbtOption.setPolicy (o : RbtOption) (sh : Shm) : Shm :=
  { sh with ri := { sh.ri with riFlags := { sh.ri.riFlags with
    doWrap := o.wrap.getD sh.ri.riFlags.doWrap
    doZap := if o.wrap.isSome then sh.ri.riFlags.doZap else o.zap.getD sh.ri.riFlags.doZap } } }

/-- The limit is as the command says. -/
def RbtOption.setSize (o : RbtOption) (sh : Shm) : Shm :=
  { sh with fsize := (o.size.map (· * ONE_MB)).getD sh.fsize }

/-- The file has been asked for, or given up. -/
def RbtOption.switch (o : RbtOption) (sh : Shm) : Shm :=
  match o.file, o.close with
  | some file, _ =>
      { sh with ri := { sh.ri with
        riFilePath := file, riSlot := -1, riFlush := 0, riLost := 0
        riFlags := { sh.ri.riFlags with doOpen := true } } }
  | none, true =>
      { sh with ri := { sh.ri with
        riFlags := { sh.ri.riFlags with doDisk := false, doFlush := true, doClose := true } } }
  | none, false => sh

/-- The traffic flags are as the command says. -/
def RbtOption.mark (o : RbtOption) (sh : Shm) : Shm :=
  { sh with ri := { sh.ri with
    riTflags := (sh.ri.riTflags ||| o.stflags.getD 0) &&& ~~~ o.ctflags.getD 0 } }

/-- What a command is for: the shared memory, and whether nothing has been refused. -/
def RbtOption.command (o : RbtOption) (sh : Shm) : Shm × Bool :=
  if o.policyOk sh then
    if o.fileOk sh then (o.mark (o.switch (o.setSize (o.setPolicy sh))), true)
    else (o.setSize (o.setPolicy sh), false)
  else (sh, false)

/-! ## What the operations do -/

theorem rbtOps_append_of_none {ops : List RbtraceOp} {sh' : Shm}
    (h : rbtOps ops sh = (sh', none)) (ops' : List RbtraceOp) :
    rbtOps (ops ++ ops') sh = rbtOps ops' sh' := by
  induction ops generalizing sh with
  | nil =>
      cases h
      rfl
  | cons op ops ih =>
      simp only [List.cons_append, rbtOps] at h ⊢
      split at h
      · cases h
      · rename_i hrc
        rw [if_neg hrc]
        exact ih h

theorem rbtOps_append_of_some {ops : List RbtraceOp} {sh' : Shm} {m : RbtMessage}
    (h : rbtOps ops sh = (sh', some m)) (ops' : List RbtraceOp) :
    rbtOps (ops ++ ops') sh = (sh', some m) := by
  induction ops generalizing sh with
  | nil => cases h
  | cons op ops ih =>
      simp only [List.cons_append, rbtOps] at h ⊢
      split at h
      · rename_i hrc
        rw [if_pos hrc]
        exact h
      · rename_i hrc
        rw [if_neg hrc]
        exact ih h

/-- The policy is set, or it is refused and nothing has happened. -/
theorem rbtOps_policy (o : RbtOption) (sh : Shm) :
    (o.policyOk sh = true ∧ rbtOps o.policyOps sh = (o.setPolicy sh, none)) ∨
      (o.policyOk sh = false ∧ ∃ op, rbtOps o.policyOps sh = (sh, some (.opFailed op (-1)))) := by
  unfold RbtOption.policyOk RbtOption.policyOps RbtOption.setPolicy
  cases o.wrap with
  | some wrap =>
      cases hz : sh.ri.riFlags.doZap with
      | false => exact .inl ⟨rfl, by simp [rbtOps, rbtraceCtrl, rbtraceCtrlWrap, hz]⟩
      | true => exact .inr ⟨rfl, _, by simp [rbtOps, rbtraceCtrl, rbtraceCtrlWrap, hz]; rfl⟩
  | none =>
      cases o.zap with
      | none => exact .inl ⟨rfl, rfl⟩
      | some zap =>
          cases hw : sh.ri.riFlags.doWrap with
          | false => exact .inl ⟨rfl, by simp [rbtOps, rbtraceCtrl, rbtraceCtrlZap, hw]⟩
          | true => exact .inr ⟨rfl, _, by simp [rbtOps, rbtraceCtrl, rbtraceCtrlZap, hw]; rfl⟩

/-- The file is asked for or given up, or it is refused and nothing has happened. -/
theorem rbtOps_file (o : RbtOption) (sh : Shm) :
    (o.fileOk sh = true ∧ rbtOps o.fileOps sh = (o.switch sh, none)) ∨
      (o.fileOk sh = false ∧ ∃ op, rbtOps o.fileOps sh = (sh, some (.opFailed op (-1)))) := by
  unfold RbtOption.fileOk RbtOption.fileOps RbtOption.switch
  cases o.file with
  | some file =>
      cases ho : sh.ri.riFlags.doOpen with
      | true => exact .inr ⟨rfl, _, by simp [rbtOps, rbtraceCtrl, rbtraceCtrlOpen, ho]; rfl⟩
      | false =>
          cases hd : sh.ri.riFlags.doDisk with
          | true => exact .inr ⟨rfl, _, by simp [rbtOps, rbtraceCtrl, rbtraceCtrlOpen, hd]; rfl⟩
          | false =>
              rcases lt_or_ge file.length RBTRACE_MAX_PATH with hlt | hge
              · refine .inl ⟨by simp [hlt], ?_⟩
                simp [rbtOps, rbtraceCtrl, rbtraceCtrlOpen, ho, hd, Nat.not_le.2 hlt]
              · refine .inr ⟨by simp [hge], rbtraceOpToStr (.open (some file)), ?_⟩
                simp [rbtOps, rbtraceCtrl, rbtraceCtrlOpen, ho, hd, hge]
  | none =>
      cases o.close with
      | false => exact .inl ⟨rfl, rfl⟩
      | true =>
          cases hd : sh.ri.riFlags.doDisk with
          | true => exact .inl ⟨rfl, by simp [rbtOps, rbtraceCtrl, rbtraceCtrlClose, hd]⟩
          | false => exact .inr ⟨rfl, _, by simp [rbtOps, rbtraceCtrl, rbtraceCtrlClose, hd]; rfl⟩

/-- The limit is never refused. -/
theorem rbtOps_size (o : RbtOption) (sh : Shm) : rbtOps o.sizeOps sh = (o.setSize sh, none) := by
  unfold RbtOption.sizeOps RbtOption.setSize
  cases o.size with
  | none => rfl
  | some size => simp [rbtOps, rbtraceCtrl, rbtraceCtrlSize]

/-- The traffic flags are never refused. -/
theorem rbtOps_tflags (o : RbtOption) (sh : Shm) : rbtOps o.tflagsOps sh = (o.mark sh, none) := by
  have hnone : ∀ x : BitVec 64, x &&& 18446744073709551615#64 = x := fun x ↦
    BitVec.and_allOnes
  unfold RbtOption.tflagsOps RbtOption.mark
  cases o.stflags <;> cases o.ctflags <;>
    simp [rbtOps, rbtraceCtrl, rbtraceCtrlTflags, hnone]

/-- The operations of a command do what it is for, and one fails exactly if something is
refused. -/
theorem rbtOps_ops (o : RbtOption) (sh : Shm) :
    ((o.command sh).2 = true ∧ rbtOps o.ops sh = ((o.command sh).1, none)) ∨
      ((o.command sh).2 = false ∧
        ∃ op, rbtOps o.ops sh = ((o.command sh).1, some (.opFailed op (-1)))) := by
  unfold RbtOption.ops RbtOption.command
  rcases rbtOps_policy o sh with ⟨hp, h⟩ | ⟨hp, op, h⟩
  · rw [rbtOps_append_of_none h, rbtOps_append_of_none (rbtOps_size ..), if_pos hp]
    -- neither the policy nor the limit matters to the file
    have hfile : o.fileOk (o.setSize (o.setPolicy sh)) = o.fileOk sh := rfl
    rcases rbtOps_file o (o.setSize (o.setPolicy sh)) with ⟨hf, h⟩ | ⟨hf, op, h⟩
    · rw [rbtOps_append_of_none h, rbtOps_append_of_none (rbtOps_tflags ..), if_pos (hfile ▸ hf)]
      exact .inl ⟨rfl, by cases o.info <;> rfl⟩
    · rw [if_neg (Bool.eq_false_iff.1 (hfile ▸ hf))]
      exact .inr ⟨rfl, op, rbtOps_append_of_some h _⟩
  · rw [if_neg (Bool.eq_false_iff.1 hp)]
    exact .inr ⟨rfl, op, rbtOps_append_of_some h _⟩

/-! ## A command on its own -/

/-- All options are accepted. -/
def AllAccepted (dup : Nat → Bool) (found : List Found) : Prop :=
  ∀ i f, found[i]? = some f → Accepts (dup i) f

/-- The first option that is not accepted asks for help. -/
def AsksForHelp (dup : Nat → Bool) (found : List Found) : Prop :=
  ∃ i, found[i]? = some (.opt 104 none) ∧ ∀ j < i, ∀ g, found[j]? = some g → Accepts (dup j) g

/-- Only the message of `-h` ends with 0. -/
theorem rc_eq_zero_iff {dup : Bool} {f : Found} {m : RbtMessage}
    (h : rbtOption dup {} f = .error m) : m.rc = 0 ↔ f = .opt 104 none := by
  unfold rbtOption at h
  split at h
  case h_11 =>
      cases h
      exact iff_of_true rfl rfl
  case h_3 | h_6 => cases h
  case h_10 =>
      cases h
      exact iff_of_false (by decide) (by decide)
  case h_12 =>
      cases h
      exact iff_of_false (by decide) (by assumption)
  all_goals
    split at h <;> cases h
    exact iff_of_false (by simp [RbtMessage.rc]) (by simp)

/-- A command whose options are accepted, on a ring that can be attached. -/
theorem rbtMain_of_options {cfg : RingConfig} {dup : Nat → Bool} {args : List CStr} {o : RbtOption}
    (h : rbtOptions dup (options rbtOptstring args) {} = .ok o) (sh : Shm) :
    (rbtMain cfg dup 0 args sh).shm = (o.command sh).1 ∧
      ((rbtMain cfg dup 0 args sh).rc = 0 ↔ (o.command sh).2) := by
  rw [rbtMain, h]
  dsimp only
  rw [if_neg (not_not.2 rfl)]
  rcases rbtOps_ops o sh with ⟨hok, hops⟩ | ⟨hok, op, hops⟩
  · rw [hops]
    exact ⟨rfl, iff_of_true rfl hok⟩
  · rw [hops]
    exact ⟨rfl, iff_of_false (show ¬ (-1 : Int) = 0 by decide) (Bool.eq_false_iff.1 hok)⟩

/-- **What a command does.**  Whatever the arguments of `rbt` are, and the state of the ring:
if all options are accepted and the ring can be attached, the ring is left as the last
occurrences of the options say, and `main` returns 0 exactly if nothing is refused.  Otherwise
nothing changes, and `main` returns 0 exactly if help is asked for before anything is wrong. -/
theorem rbt_of_args (cfg : RingConfig) (dup : Nat → Bool) (init : Int) (args : List CStr) (sh : Shm) :
    (AllAccepted dup (options rbtOptstring args) ∧ init = 0 →
      (rbtMain cfg dup init args sh).shm =
        ((RbtOption.ofLast (options rbtOptstring args)).command sh).1 ∧
      ((rbtMain cfg dup init args sh).rc = 0 ↔
        ((RbtOption.ofLast (options rbtOptstring args)).command sh).2)) ∧
    (¬ (AllAccepted dup (options rbtOptstring args) ∧ init = 0) →
      (rbtMain cfg dup init args sh).shm = sh ∧
      ((rbtMain cfg dup init args sh).rc = 0 ↔ AsksForHelp dup (options rbtOptstring args))) := by
  rcases rbtOptions_eq dup (options rbtOptstring args) with ⟨hacc, ho⟩ |
    ⟨i, f, m, hi, hbefore, hf, hm⟩
  · have hhelp : ¬ AsksForHelp dup (options rbtOptstring args) := by
      rintro ⟨i, hi, -⟩
      obtain ⟨o, h⟩ := hacc i _ hi
      cases h
    by_cases hinit : init = 0
    · subst hinit
      exact ⟨fun _ ↦ rbtMain_of_options ho sh, fun h ↦ absurd ⟨hacc, rfl⟩ h⟩
    · refine ⟨fun h ↦ absurd h.2 hinit, fun _ ↦ ?_⟩
      rw [rbtMain, ho]
      dsimp only
      rw [if_pos hinit]
      exact ⟨rfl, iff_of_false hinit hhelp⟩
  · rw [rbtMain, hm]
    have hrefused : ∀ {g}, (options rbtOptstring args)[i]? = some g → ¬ Accepts (dup i) g := by
      rintro g hg ⟨o, hok⟩
      obtain rfl := Option.some.inj (hi.symm.trans hg)
      rw [hf] at hok
      cases hok
    refine ⟨fun h ↦ absurd (h.1 i f hi) (hrefused hi), fun _ ↦ ⟨rfl, (rc_eq_zero_iff hf).trans ?_⟩⟩
    constructor
    · rintro rfl
      exact ⟨i, hi, hbefore⟩
    · rintro ⟨j, hj, hbefore'⟩
      -- the two first options that are not accepted are one
      rcases lt_trichotomy i j with hij | rfl | hij
      · exact absurd (hbefore' i hij f hi) (hrefused hi)
      · exact Option.some.inj (hi.symm.trans hj)
      · obtain ⟨o, h⟩ := hbefore j hij _ hj
        cases h

end

/-- `-o t -w on -s 32`, as the tests of the repository open a file. -/
def openArgs : List CStr := [[45, 111], [116], [45, 119], [111, 110], [45, 115], [51, 50]]

theorem rbt_of_args_openArgs :
    (rbtMain twoRing (fun _ ↦ true) 0 openArgs (rbtraceDaemonInit twoRing fun _ ↦ none).toShm).rc = 0 := by
  have hfound : options rbtOptstring openArgs =
      [.opt 111 (some [116]), .opt 119 (some [111, 110]), .opt 115 (some [51, 50])] := by decide
  have hacc : AllAccepted (fun _ ↦ true) (options rbtOptstring openArgs) := by
    rw [hfound]
    intro i f hf
    rcases i with _ | _ | _ | i
    · cases hf
      exact ⟨_, rfl⟩
    · cases hf
      exact ⟨_, rfl⟩
    · cases hf
      exact ⟨_, rfl⟩
    · cases hf
  refine (((rbt_of_args twoRing _ 0 openArgs _).1 ⟨hacc, rfl⟩).2).2 ?_
  rw [hfound]
  decide

end Rbtrace
