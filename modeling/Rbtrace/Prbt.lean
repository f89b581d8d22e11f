import Rbtrace.Fheader

/-!
# The reader: `prbt.c`

`load_trace_page` and `parse_trace_file`, and `print_trace_summary`.  The callback is an
argument; so is what the system contributes: the uninitialised bytes `malloc` returns
(or its failure), which of the `pread` calls fail, and `gmtime`.  A `pread` that does not
fail returns all the bytes there are, up to the page size; Linux transfers at most
`0x7ffff000` at once, so this is about smaller pages.

The two nested loops of `parse_trace_file` are the same but for the test against the
wrap position, so `recordLoop` and `pageLoop` take that test as a parameter and each
pass is an application of them.  A call of the callback with a pointer that does not
lie wholly inside the page, and a division by zero, end the model's run as `fault`.
-/

namespace Rbtrace

/-- What the callback is told: a running number and the bytes of a record. -/
abbrev ParseFn := Nat → List UInt8 → Bool

/-- The calls of the callback so far, and the counter `cnt`. -/
structure ParseLog where
  cnt : Nat
  calls : List (Nat × List UInt8)
deriving DecidableEq

/-- No call yet. -/
def ParseLog.empty : ParseLog := ⟨0, []⟩

/-- `parse_fn(rf, cnt, fp, re); cnt++`. -/
def ParseLog.call (log : ParseLog) (re : List UInt8) : ParseLog :=
  ⟨log.cnt + 1, log.calls ++ [(log.cnt, re)]⟩

/-- Why the reader stopped. -/
inductive ParseExit where
  | done
  | stopped
  | invalid
  | noMemory
  | fault
deriving DecidableEq, Repr

/-- What the system contributes to a listing. -/
structure PrbtIo where
  /-- The bytes of the new page, `none` if `malloc` fails. -/
  malloc : Option (Nat → UInt8)
  /-- Whether the `i`-th `pread` of a page fails. -/
  preadFails : Nat → Bool

/-- `(size_t)-1`, what a failed `pread` is stored as. -/
def preadError : Nat := 2 ^ 64 - 1

/-- `load_trace_page`: the bytes read, as a `size_t`, and the page afterwards. -/
def loadTracePage (fails : Bool) (file : List UInt8) (pageIdx pageSize : Nat)
    (page : List UInt8) : Nat × List UInt8 :=
  if fails then (preadError, page)
  else
    let b := (file.drop (RBTRACE_FHEADER_SIZE + pageIdx * pageSize)).take pageSize
    (b.length, b ++ page.drop b.length)

/-- The inner loop, from offset `off` in the page.  `atEnd off` is the test that the
second pass makes against the wrap position.  Returns an exit if it is left by `goto`. -/
def recordLoop (parseFn : ParseFn) (page : List UInt8) (nbytes : Nat) (atEnd : Nat → Bool) :
    Nat → Nat → ParseLog → ParseLog × Option ParseExit
  | 0, _, log => (log, some .fault)
  | fuel + 1, off, log =>
      if nbytes ≤ off then (log, none)
      else if atEnd off then (log, some .done)
      else if page.length < off + sizeofEntry then (log, some .fault)
      else
        let re := (page.drop off).take sizeofEntry
        if parseFn log.cnt re then (log.call re, some .stopped)
        else recordLoop parseFn page nbytes atEnd fuel (off + sizeofEntry) (log.call re)

/-- What the outer loop hands on: the calls, the page, and the number of `pread`s. -/
structure PageState where
  log : ParseLog
  page : List UInt8
  loads : Nat

/-- The outer loop, from page `pageIdx` and offset `offInPg`. -/
def pageLoop (io : PrbtIo) (parseFn : ParseFn) (file : List UInt8) (pageSize : Nat)
    (atEnd : Nat → Nat → Bool) :
    Nat → Nat → Nat → PageState → PageState × Option ParseExit
  | 0, _, _, st => (st, some .fault)
  | fuel + 1, pageIdx, offInPg, st =>
      let r := loadTracePage (io.preadFails st.loads) file pageIdx pageSize st.page
      let st₁ : PageState := ⟨st.log, r.2, st.loads + 1⟩
      if r.1 = 0 then (st₁, none)
      else if r.1 ≤ offInPg then (st₁, some .invalid)
      else
        let q := recordLoop parseFn r.2 r.1 (atEnd pageIdx) (r.2.length / sizeofEntry + 1)
          offInPg st.log
        let st₂ : PageState := ⟨q.1, r.2, st.loads + 1⟩
        match q.2 with
        | some e => (st₂, some e)
        | none =>
            if r.1 < pageSize then (st₂, none)
            else pageLoop io parseFn file pageSize atEnd fuel (pageIdx + 1) 0 st₂

/-- `parse_trace_file`.  Every page the outer loops go past is a whole page of the
file, so the length of the file bounds the number of passes. -/
def parseTraceFile (io : PrbtIo) (parseFn : ParseFn) (file : List UInt8)
    (prf : PaddedRbtraceFheader) : ParseLog × ParseExit :=
  let pageSize := sizeofEntry * prf.hdr.nrRecords % 2 ^ 64
  let wrapPos := prf.hdr.wrapPos
  let fuel := file.length + 1
  match io.malloc with
  | none => (.empty, .noMemory)
  | some junk =>
      if RBTRACE_FHEADER_SIZE < wrapPos ∧ pageSize = 0 then (.empty, .fault)
      else
        let start := wrapPos - RBTRACE_FHEADER_SIZE
        let first := pageLoop io parseFn file pageSize (fun _ _ ↦ false) fuel
          (start / pageSize) (start % pageSize) ⟨.empty, (List.range pageSize).map junk, 0⟩
        match first.2 with
        | some e => (first.1.log, e)
        | none =>
            if wrapPos = 0 ∨ wrapPos = RBTRACE_FHEADER_SIZE then (first.1.log, .done)
            else
              -- the file is wrapped: the records before the wrap position are left
              let second := pageLoop io parseFn file pageSize
                (fun pageIdx off ↦ wrapPos ≤ RBTRACE_FHEADER_SIZE + pageIdx * pageSize + off)
                fuel 0 0 first.1
              (second.1.log, second.2.getD .done)

/-- The header `parse_trace_header` reads from a file. -/
def readHeader (file : List UInt8) : PaddedRbtraceFheader :=
  PaddedRbtraceFheader.ofBytes (file.take RBTRACE_FHEADER_SIZE)

/-- The records `prbt` lists for a file: those `parse_trace_file` hands to
`trace_print_fn`, which never asks to stop. -/
def listing (io : PrbtIo) (file : List UInt8) : List RbtraceEntry :=
  (parseTraceFile io (fun _ _ ↦ false) file (readHeader file)).1.calls.map
    fun c ↦ RbtraceEntry.ofBytes c.2

/-! ## The summary -/

/-- A line of `print_trace_summary`, on either stream.  A line about a record keeps the
bytes of that record. -/
inductive SummaryLine where
  | emptyFile
  | preadFailed (off : Nat)
  | invalidFirst (re : List UInt8)
  | startTime (re : List UInt8) (gm : Tm)
  | invalidLast (re : List UInt8)
  | endTime (re : List UInt8) (gm : Tm)
deriving DecidableEq

/-- `pread(fd, &re, sizeof(re), off)`; `none` unless all of the record is read. -/
def preadRecord (fails : Bool) (file : List UInt8) (off : Nat) : Option (List UInt8) :=
  let b := (file.drop off).take sizeofEntry
  if fails ∨ b.length ≠ sizeofEntry then none else some b

/-- `tv_sec = re.timestamp.tv_sec + prf->hdr.gmtoff; gmtime(&tv_sec)`. -/
def recordTime (gmtime : BitVec 64 → Option Tm) (prf : PaddedRbtraceFheader) (re : List UInt8) :
    Option Tm :=
  gmtime ((RbtraceEntry.ofBytes re).timestamp.tvSec + prf.hdr.gmtoff)

/-- `print_trace_summary`. -/
def printTraceSummary (gmtime : BitVec 64 → Option Tm) (io : PrbtIo) (file : List UInt8)
    (prf : PaddedRbtraceFheader) : List SummaryLine :=
  if file.length < RBTRACE_FHEADER_SIZE + sizeofEntry then [.emptyFile]
  else
    let off := if prf.hdr.wrapPos ≠ 0 then prf.hdr.wrapPos else RBTRACE_FHEADER_SIZE
    match preadRecord (io.preadFails 0) file off with
    | none => [.preadFailed off]
    | some re =>
        match recordTime gmtime prf re with
        | none => [.invalidFirst re]
        | some gm =>
            -- the last record is just before the first, or at the end of the file
            let off' := if RBTRACE_FHEADER_SIZE + sizeofEntry ≤ off then off - sizeofEntry
              else file.length - sizeofEntry
            .startTime re gm ::
              match preadRecord (io.preadFails 1) file off' with
              | none => [.preadFailed off']
              | some re' =>
                  match recordTime gmtime prf re' with
                  | none => [.invalidLast re']
                  | some gm' => [.endTime re' gm']

end Rbtrace
