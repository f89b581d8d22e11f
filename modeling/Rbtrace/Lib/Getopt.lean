import Mathlib.Data.List.Basic

/-!
# The options of a command line

`getopt` without long options, as the GNU C library has it when `POSIXLY_CORRECT` is not set.
An argument that starts with a dash and is more than a dash is a cluster of options; an option
that takes a value takes the rest of its cluster, or the next argument if there is no rest.
Other arguments are passed over, and nothing behind `--` is an option.

A program calls `getopt` until it has seen enough, so what matters is the list of everything
the calls would return (`options`).
-/

namespace Getopt

/-- What a call of `getopt` finds. -/
inductive Found where
  /-- An option, and its value if it takes one. -/
  | opt (c : UInt8) (optarg : Option (List UInt8))
  /-- `'?'`: no option of the program, or one whose value is missing. -/
  | unknown
deriving DecidableEq

/-- The byte `':'`. -/
def colon : UInt8 := 58

/-- The byte `'-'`. -/
def dash : UInt8 := 45

/-- Whether the option `c` takes a value, `none` if `optstring` does not have it. -/
def takesValue : List UInt8 → UInt8 → Option Bool
  | [], _ => none
  | d :: optstring, c =>
      if c = colon then none
      else if d = c then some (optstring.head? = some colon)
      else takesValue optstring c

/-- The options of one cluster, and the last one if its value is the next argument. -/
def cluster (optstring : List UInt8) : List UInt8 → List Found × Option UInt8
  | [] => ([], none)
  | c :: cs =>
      match takesValue optstring c with
      | none => (.unknown :: (cluster optstring cs).1, (cluster optstring cs).2)
      | some false => (.opt c none :: (cluster optstring cs).1, (cluster optstring cs).2)
      | some true => if cs = [] then ([], some c) else ([.opt c (some cs)], none)

/-- Everything `getopt` finds among the arguments of a program. -/
def options (optstring : List UInt8) : List (List UInt8) → List Found
  | [] => []
  | arg :: args =>
      if arg.head? = some dash ∧ arg.length ≠ 1 then
        if arg = [dash, dash] then []
        else
          (cluster optstring arg.tail).1 ++
            match (cluster optstring arg.tail).2 with
            | none => options optstring args
            | some c =>
                match args with
                | [] => [.unknown]
                | optarg :: args => .opt c (some optarg) :: options optstring args
      else options optstring args
termination_by structural args => args

/-- The value of the last occurrence of an option. -/
def lastValue (c : UInt8) : List Found → Option (Option (List UInt8))
  | [] => none
  | .opt d optarg :: found => (lastValue c found).or (if d = c then some optarg else none)
  | .unknown :: found => lastValue c found

theorem lastValue_append_opt (c d : UInt8) (optarg : Option (List UInt8)) (found : List Found) :
    lastValue c (found ++ [.opt d optarg]) = if d = c then some optarg else lastValue c found := by
  induction found with
  | nil => rfl
  | cons f found ih =>
      cases f with
      | opt e optarg' =>
          rw [List.cons_append, lastValue, ih, lastValue]
          split <;> rfl
      | unknown => exact ih

end Getopt
