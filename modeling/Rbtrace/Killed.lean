import Rbtrace.PageLoops
import Rbtrace.Session
import Rbtrace.Wrap

/-!
# A daemon that is killed

Nothing makes the daemon write its file in one piece: it can be killed between two passes, or in
the middle of a `pwrite`.  The file then holds what was written so far, and it may end in the
middle of a record.

Below the limit a file only grows, so that what it holds is always the head of what was accepted.
The reader lists it, and one record more if the file ends in the middle of one
(`listing_of_killed`).  What is missing is what the two buffers have room for.

In wrap mode the header is written after the records.  A daemon that is killed between the two
leaves the newest buffer where the reader looks for the oldest one (`listing_of_killed_wrap`).
-/

namespace Rbtrace

open CInt

/-! ## Reading a file that ends in the middle of a record -/

section

variable {io : PrbtIo} {hdr body : List UInt8} {N : Nat}

/-- A slot in the head of some bytes. -/
theorem slot_take_append {l stale : List UInt8} {n i : Nat}
    (h : sizeofEntry * i + sizeofEntry ≤ (l.take n).length) :
    slot (l.take n ++ stale) i = slot l i := by
  have hn : sizeofEntry * i + sizeofEntry ≤ n := h.trans (List.length_take_le n l)
  rw [slot, slot, List.drop_append_of_le_length (by omega), List.take_append_of_le_length (by
    rw [List.length_drop]
    omega), List.drop_take, List.take_take, min_eq_left (by omega)]

theorem slot_drop (l : List UInt8) (m i : Nat) :
    slot (l.drop (sizeofEntry * m)) i = slot l (m + i) := by
  rw [slot, slot, List.drop_drop, ← Nat.mul_add]

/-- **The outer loop** hands over all records that begin in the file, and those that also end in
it as they are. -/
theorem slots_pageLoop (hio : ∀ k, io.preadFails k = false)
    (hhdr : hdr.length = RBTRACE_FHEADER_SIZE)
    (hN : 0 < N) :
    ∀ (fuel p : Nat) (st : PageState), body.length - p * (sizeofEntry * N) < fuel →
      st.page.length = sizeofEntry * N →
      ∃ st' rs, pageLoop io (fun _ _ ↦ false) (hdr ++ body) (sizeofEntry * N)
        (fun _ _ ↦ false) fuel p 0
          st = (st', none) ∧
        st'.log.calls.map Prod.snd = st.log.calls.map Prod.snd ++ rs ∧
        rs.length = recordsBegun (body.length - p * (sizeofEntry * N)) ∧
        ∀ i, sizeofEntry * (p * N + i) + sizeofEntry ≤ body.length →
          rs[i]? = some (slot body (p * N + i)) := by
  have hps : 0 < sizeofEntry * N := Nat.mul_pos (by decide) hN
  intro fuel
  induction fuel with
  | zero => intro p st hf; omega
  | succ fuel ih =>
      intro p st hf hpage
      have hp : p * (sizeofEntry * N) = sizeofEntry * (p * N) := Nat.mul_left_comm ..
      have hlen := length_pageBytes body (sizeofEntry * N) p
      have hpage' := @length_pageBytes_append_drop body _ _ p hpage
      have hslot : ∀ i stale,
          sizeofEntry * i + sizeofEntry ≤ (pageBytes body (sizeofEntry * N) p).length →
          slot (pageBytes body (sizeofEntry * N) p ++ stale) i = slot body (p * N + i) := by
        intro i stale hi
        rw [pageBytes, slot_take_append hi, hp, slot_drop]
      rw [pageLoop, hio, loadTracePage_pageBytes hhdr]
      generalize pageBytes body (sizeofEntry * N) p = b at hlen hpage' hslot ⊢
      dsimp only
      by_cases h0 : b.length = 0
      · refine ⟨_, [], if_pos h0, (List.append_nil _).symm, ?_, fun i hi ↦ ?_⟩
        · rw [show body.length - p * (sizeofEntry * N) = 0 by omega]
          rfl
        · rw [Nat.mul_add, ← hp] at hi
          have : 0 < sizeofEntry := by decide
          omega
      · obtain ⟨log', hlog', hslots⟩ := @recordLoop_slots _ b.length (fun _ ↦ false) _ hpage'
          (show b.length ≤ (b ++ st.page.drop b.length).length by
            rw [hpage', hlen]
            exact min_le_left _ _) (fun _ _ ↦ rfl) 0
          (Nat.zero_le N) st.log
        rw [Nat.sub_zero] at hslots
        rw [Nat.mul_zero] at hlog'
        rw [if_neg h0, if_neg (by omega), hlog']
        dsimp only
        -- what the inner loop hands over
        have hhere : ∀ i, sizeofEntry * i + sizeofEntry ≤ b.length →
            ((List.range' 0 (recordsBegun b.length)).map (slot (b ++ st.page.drop b.length)))[i]? =
              some (slot body (p * N + i)) := by
          intro i hi
          have hlt : i < recordsBegun b.length :=
            lt_recordsBegun (lt_of_lt_of_le (Nat.lt_add_of_pos_right (by decide)) hi)
          rw [List.getElem?_map, List.getElem?_range' hlt, Option.map_some, Nat.zero_add,
            Nat.one_mul, hslot i _ hi]
        have hlength : ((List.range' 0 (recordsBegun b.length)).map
            (slot (b ++ st.page.drop b.length))).length = recordsBegun b.length := by
          rw [List.length_map, List.length_range']
        generalize (List.range' 0 (recordsBegun b.length)).map
          (slot (b ++ st.page.drop b.length)) = here
          at hslots hhere hlength
        by_cases hshort : b.length < sizeofEntry * N
        · have hrest : body.length - p * (sizeofEntry * N) = b.length := by omega
          refine ⟨_, here, if_pos hshort, hslots, by rw [hlength, hrest], fun i hi ↦ hhere i ?_⟩
          rw [Nat.mul_add, ← hp] at hi
          omega
        · have hfull : b.length = sizeofEntry * N := by
            have := min_le_left (sizeofEntry * N) (body.length - p * (sizeofEntry * N))
            omega
          have hsub : body.length - (p + 1) * (sizeofEntry * N) =
              body.length - p * (sizeofEntry * N) - sizeofEntry * N := by
            rw [Nat.add_mul, Nat.one_mul, Nat.sub_add_eq]
          rw [hfull, recordsBegun_mul] at hlength
          rw [if_neg hshort]
          obtain ⟨st', rs, hst', hcalls, hrest, hrs⟩ := ih (p + 1)
            ⟨log', b ++ st.page.drop b.length, st.loads + 1⟩ (by omega) hpage'
          refine ⟨st', here ++ rs, hst', ?_, ?_, fun i hi ↦ ?_⟩
          · rw [hcalls, hslots, List.append_assoc]
          · rw [List.length_append, hlength, hrest, hsub]
            unfold recordsBegun sizeofEntry at *
            omega
          · by_cases hlt : i < N
            · have hmul := Nat.mul_le_mul_left sizeofEntry (Nat.succ_le_of_lt hlt)
              rw [Nat.mul_succ] at hmul
              rw [List.getElem?_append_left (by rwa [hlength]), hhere i (by omega)]
            · obtain ⟨k, rfl⟩ := Nat.exists_eq_add_of_le (not_lt.1 hlt)
              have hidx : p * N + (N + k) = (p + 1) * N + k := by ring
              rw [List.getElem?_append_right (by omega), hlength, Nat.add_sub_cancel_left, hidx]
              exact hrs k (hidx ▸ hi)

/-- The listing of a file without a wrap position: every record that ends in the file. -/
theorem getElem?_listing {prf : PaddedRbtraceFheader} (hio : io.Ok) (hpos : 0 < prf.hdr.nrRecords)
    (hsize : sizeofEntry * prf.hdr.nrRecords < 2 ^ 64) (hwrap : prf.hdr.wrapPos = 0)
    (body : List UInt8)
    {i : Nat} (hi : sizeofEntry * i + sizeofEntry ≤ body.length) :
    (listing io (prf.toBytes ++ body))[i]? = some (RbtraceEntry.ofBytes (slot body i)) := by
  obtain ⟨hw, hn⟩ := readHeader_append prf body
  have hlt : prf.hdr.nrRecords < 2 ^ 64 := by
    unfold sizeofEntry at hsize
    omega
  rw [hwrap] at hw
  rw [Nat.mod_eq_of_lt hlt] at hn
  obtain ⟨junk, hjunk⟩ := Option.isSome_iff_exists.1 hio.malloc
  have hzero : sizeofEntry * prf.hdr.nrRecords ≠ 0 := Nat.mul_ne_zero (by decide) hpos.ne'
  obtain ⟨st, rs, hst, hcalls, -, hrs⟩ :=
    @slots_pageLoop io prf.toBytes body prf.hdr.nrRecords hio.pread
    prf.length_toBytes hpos ((prf.toBytes ++ body).length + 1) 0
    ⟨.empty, (List.range (sizeofEntry * prf.hdr.nrRecords)).map junk, 0⟩
    (by rw [List.length_append]; omega) (by simp)
  have hlog : (parseTraceFile io (fun _ _ ↦ false) (prf.toBytes ++ body)
      (readHeader (prf.toBytes ++ body))).1.calls.map Prod.snd = rs := by
    simp only [parseTraceFile, hn, hw, Nat.mod_eq_of_lt hsize, hjunk, hzero, Nat.zero_mod,
      and_false, if_false, Nat.zero_sub, Nat.zero_div, hst, true_or, if_true]
    rw [hcalls]
    rfl
  have hrec := hrs i (by rwa [Nat.zero_mul, Nat.zero_add])
  rw [Nat.zero_mul, Nat.zero_add] at hrec
  have hlist : listing io (prf.toBytes ++ body) = rs.map RbtraceEntry.ofBytes := by
    rw [← hlog, List.map_map]
    rfl
  rw [hlist, List.getElem?_map, hrec, Option.map_some]

/-- **What `prbt` lists** of a file that ends in the middle of a record: the records, and one
more. -/
theorem listing_torn {prf : PaddedRbtraceFheader} (hio : io.Ok) (hpos : 0 < prf.hdr.nrRecords)
    (hsize : sizeofEntry * prf.hdr.nrRecords < 2 ^ 64) (hwrap : prf.hdr.wrapPos = 0)
    (es : List RbtraceEntry) {torn : List UInt8} (htorn : torn.length < sizeofEntry) :
    ∃ res, res.length ≤ 1 ∧ listing io (traceFile prf es ++ torn) = es ++ res := by
  have hfile : traceFile prf es ++ torn = prf.toBytes ++
      (es.flatMap RbtraceEntry.toBytes ++ torn) := by
    rw [traceFile, List.append_assoc]
  have hlen : (es.flatMap RbtraceEntry.toBytes).length = sizeofEntry * es.length :=
    Blocks.length_flatMap RbtraceEntry.length_toBytes es
  have hall := length_listing hio hpos hsize hwrap (es.flatMap RbtraceEntry.toBytes ++ torn)
  rw [hfile]
  have htake :
      (listing io (prf.toBytes ++ (es.flatMap RbtraceEntry.toBytes ++ torn))).take es.length =
        es := by
    refine List.ext_getElem? fun i ↦ ?_
    rcases lt_or_ge i es.length with hi | hi
    · have hmul := Nat.mul_le_mul_left sizeofEntry (Nat.succ_le_of_lt hi)
      rw [Nat.mul_succ] at hmul
      have hrecord : slot (es.flatMap RbtraceEntry.toBytes ++ torn) i = es[i].toBytes := by
        have hmap : (es.map RbtraceEntry.record).flatMap Subtype.val =
            es.flatMap RbtraceEntry.toBytes := by
          rw [List.flatMap_map]
          rfl
        have hat := @record_at _ torn i (show i < (es.map RbtraceEntry.record).length by
          rwa [List.length_map])
        rw [hmap] at hat
        rw [slot, hat, List.getElem_map]
        rfl
      rw [List.getElem?_take_of_lt hi, getElem?_listing hio hpos hsize hwrap _ (by
        rw [List.length_append, hlen]
        omega), hrecord, RbtraceEntry.ofBytes_toBytes, List.getElem?_eq_getElem hi]
    · rw [List.getElem?_eq_none (by
        rw [List.length_take]
        exact (min_le_left _ _).trans hi), List.getElem?_eq_none hi]
  refine ⟨_, ?_, ((List.take_append_drop es.length _).symm.trans (congrArg (· ++ _) htake))⟩
  rw [List.length_drop, hall, List.length_append, hlen]
  unfold recordsBegun sizeofEntry at *
  omega

end

/-! ## A write that is cut short -/

theorem transfer_length (file b : List UInt8) : transfer file file.length b = file ++ b := by
  by_cases hb : b = []
  · rw [hb, transfer_nil, List.append_nil]
  · rw [transfer_of_ne_nil hb, List.splice_length]

/-- **However a write at the end goes**, the file grows by a head of what was to be written. -/
theorem exists_safePwrite_eq (outs : List PwriteOutcome) (file buf : List UInt8) :
    ∃ k, (safePwrite outs file buf file.length).1 = file ++ buf.take k := by
  induction outs generalizing file buf with
  | nil => exact ⟨buf.length, by rw [safePwrite, transfer_length, List.take_length]⟩
  | cons o os ih =>
      by_cases hb : buf = []
      · refine ⟨0, ?_⟩
        rw [safePwrite.eq_def, List.take_zero, List.append_nil]
        exact congrArg Prod.fst (if_pos hb)
      · cases o with
        | eintr =>
            rw [safePwrite, if_neg hb]
            exact ih file buf
        | error e =>
            rw [safePwrite, if_neg hb]
            exact ⟨0, by rw [List.take_zero, List.append_nil]⟩
        | wrote n =>
            obtain ⟨k, hk⟩ := ih (file ++ buf.take n) (buf.drop n)
            rw [List.length_append] at hk
            rw [safePwrite, if_neg hb, transfer_length]
            exact ⟨n + k, by rw [hk, List.append_assoc, List.take_add]⟩

/-- The bytes of records, cut anywhere: whole records, and less than one. -/
theorem exists_take_flatMap (es : List RbtraceEntry) (k : Nat) :
    ∃ (m : Nat) (torn : List UInt8), torn.length < sizeofEntry ∧
      (es.flatMap RbtraceEntry.toBytes).take k =
        (es.take m).flatMap RbtraceEntry.toBytes ++ torn := by
  have hpos : 0 < sizeofEntry := by decide
  have hk : k = sizeofEntry * (k / sizeofEntry) + k % sizeofEntry := (Nat.div_add_mod k _).symm
  refine ⟨k / sizeofEntry,
    ((es.flatMap RbtraceEntry.toBytes).drop (sizeofEntry * (k / sizeofEntry))).take
      (k % sizeofEntry),
    (List.length_take_le _ _).trans_lt (Nat.mod_lt k hpos), ?_⟩
  conv_lhs => rw [hk, List.take_add, Blocks.take_flatMap RbtraceEntry.length_toBytes]

/-! ## The states of the disk during a pass -/

/-- The pass writes its buffers. -/
def Sys.WritesBuffers (s : Sys) : Prop :=
  s.ri.riFlags.doClose = true ∨ s.ri.riFlags.doOpen = false ∧ s.ri.riFlags.doDisk = true

/-- The disk of a daemon that is killed before the pass, during it, or after it.  A write that is
cut short is one whose `pwrite`s go any way at all. -/
inductive KilledDisk (cfg : RingConfig) (io : PassIo) (s : Sys) : Disk → Prop
  | waiting : KilledDisk cfg io s s.disk
  | opening (cut : HeaderIo) (hc : s.ri.riFlags.doClose = false) (ho : s.ri.riFlags.doOpen = true) :
      KilledDisk cfg io s (rbtraceWriteHeader cfg cut s).disk
  | inactive (cut : DataIo) {t : Sys} (hw : s.WritesBuffers) (hflush : s.ri.riFlush ≠ 0)
      (ht : rbtraceWriteData cfg cut false s = some t) : KilledDisk cfg io s t.disk
  | active (cut : DataIo) {t u : Sys} (hw : s.WritesBuffers)
      (ht : flushInactive cfg io.inactive s = some t) (hflush : t.ri.riFlags.doFlush = true)
      (hu : rbtraceWriteData cfg cut true t = some u) : KilledDisk cfg io s u.disk

section

variable {cfg : ValidRingConfig} {path : CStr} {limit : Nat} {s t : Sys}
  {written acc : List RbtraceEntry}

/-- **A write in a session, cut short**: the file grows by some of the records, and by a part of
one. -/
theorem Recording.cut {io : DataIo} {doFlush : Bool} {off n : Nat}
    (h : Recording cfg path limit s written)
    (hbuf : selectBuffer cfg doFlush s = (off, n))
    (hlimit : limit ≤ RBTRACE_FHEADER_SIZE + sizeofEntry * (written.length + n) →
      s.ri.riFlags.doClose = true)
    (ht : rbtraceWriteData cfg io doFlush s = some t) :
    ∃ (m : Nat) (torn : List UInt8), torn.length < sizeofEntry ∧
      t.disk path = some (traceFile s.hdr (written ++ (bufRecords s.reBase off n).take m) ++
        torn) := by
  have hseek : s.rfd.seek = (traceFile s.hdr written).length := by
    rw [length_traceFile, h.seek]
  obtain ⟨k, hk⟩ := exists_safePwrite_eq io.data (traceFile s.hdr written)
    ((bufRecords s.reBase off n).flatMap RbtraceEntry.toBytes)
  obtain ⟨m, torn, htorn, hcut⟩ := exists_take_flatMap (bufRecords s.reBase off n) k
  have hpath : ∀ u : Sys, u.disk = (pwriteFd io.data s.disk s.rfd.fd
      ((bufRecords s.reBase off n).flatMap RbtraceEntry.toBytes) s.rfd.seek).1 →
      u.disk path = some (traceFile s.hdr (written ++ (bufRecords s.reBase off n).take m) ++
        torn) := by
    intro u hu
    rw [hu, h.fd, pwriteFd]
    dsimp only
    rw [Function.update_self, h.file, Option.getD_some, hseek, hk, hcut, traceFile, traceFile,
      List.flatMap_append]
    simp only [List.append_assoc]
  refine ⟨m, torn, htorn, ?_⟩
  have hopen : ¬ s.rfd.fd = none := h.fd.trans_ne (Option.some_ne_none _)
  have hwrap : ¬ (s.hdr.hdr.wrapPos ≠ 0 ∧ s.ri.riFlags.doWrap = true) := fun hw ↦ hw.1 h.wrapPos
  simp only [rbtraceWriteData, if_neg hopen, hbuf, wrapSeek, if_neg hwrap] at ht
  unfold writeBuffer at ht
  dsimp only at ht
  by_cases hw : (pwriteFd io.data s.disk s.rfd.fd
      ((bufRecords s.reBase off n).flatMap RbtraceEntry.toBytes) s.rfd.seek).2 = 0
  · simp only [if_pos hw, if_true] at ht
    -- the limit is not reached, or it does not count any more
    have hstop : ∀ u : Sys, u.fsize = s.fsize → u.rfd.seek = s.rfd.seek + n * sizeofEntry →
        u.ri.riFlags = s.ri.riFlags → limitReached cfg io u false = (u, false) := by
      intro u hfsize hu hflags
      rw [limitReached, hfsize, h.fsize_eq, hu, h.seek, hflags]
      by_cases hl : limit ≤ RBTRACE_FHEADER_SIZE + sizeofEntry * written.length + n * sizeofEntry
      · rw [if_pos hl, if_pos (hlimit (by rw [Nat.mul_add, Nat.mul_comm sizeofEntry n]; omega))]
      · rw [if_neg hl]
    rw [hstop] at ht
    · obtain rfl := Option.some.inj ht
      exact hpath _ (takeCounters_frame cfg io _).2.2.1
    all_goals rfl
  · simp only [if_neg hw, Bool.false_eq_true, if_false] at ht
    obtain rfl := Option.some.inj ht
    exact hpath _ (takeCounters_frame cfg io _).2.2.1

/-- The two buffers hold no more than they have room for. -/
theorem RingOk.length_stored_le {off : Nat} {sh : Shm} (h : RingOk cfg off sh) :
    (sh.view cfg).stored.length ≤ 2 * cfg.rcSize := by
  have hactive := length_view_active h
  have hslot := h.slot_lt
  have hpending : ((sh.view cfg).pending.getD []).length ≤ cfg.rcSize := by
    by_cases hz : sh.ri.riFlush = 0
    · rw [show (sh.view cfg).pending = none from if_pos hz]
      exact Nat.zero_le _
    · rw [show (sh.view cfg).pending = some (sh.altRecords cfg) from if_neg hz]
      exact (length_bufRecords ..).le
  rw [DoubleBuffer.stored, List.length_append]
  omega

/-- **What a daemon leaves that is killed in a session**: a head of the records it has accepted,
all but what the two buffers have room for, and a part of one more. -/
theorem Recording.killed {io : PassIo} {d : Disk} (h : Recording cfg path limit s written)
    (hio : io.Ok)
    (hsize : plainFileSize (written ++ (s.view cfg).stored) < limit) (hd : KilledDisk cfg io s d) :
    ∃ (prf : PaddedRbtraceFheader) (kept lost : List RbtraceEntry) (torn : List UInt8),
      prf.hdr.wrapPos = 0 ∧ prf.hdr.nrRecords = cfg.rcSize ∧ torn.length < sizeofEntry ∧
      d path = some (traceFile prf kept ++ torn) ∧
      written ++ (s.view cfg).stored = kept ++ lost ∧ lost.length ≤ 2 * cfg.rcSize := by
  have hstored := h.ring.length_stored_le
  cases hd with
  | waiting =>
      refine ⟨s.hdr, written, _, [], h.wrapPos, h.nrRecords, by decide, ?_, rfl, hstored⟩
      rw [List.append_nil]
      exact h.file
  | opening cut hc ho => exact absurd (h.doOpen.symm.trans ho) Bool.false_ne_true
  | inactive cut hw hflush ht =>
      have hroom := stored_fits hsize hflush
      obtain ⟨m, torn, htorn, hfile⟩ := h.cut (selectBuffer_inactive cfg s)
        (fun hl ↦ absurd hroom (not_lt.2 hl)) ht
      have hp : (s.view cfg).pending = some (s.altRecords cfg) := if_neg hflush
      have hsplit : (s.view cfg).stored = (s.altRecords cfg).take m ++
          ((s.altRecords cfg).drop m ++ (s.view cfg).active) := by
        rw [DoubleBuffer.stored, hp, Option.getD_some, ← List.append_assoc, List.take_append_drop]
      refine ⟨s.hdr, _, (s.altRecords cfg).drop m ++ (s.view cfg).active, torn, h.wrapPos,
        h.nrRecords, htorn, hfile, ?_, ?_⟩
      · rw [hsplit, ← List.append_assoc]
        rfl
      · rw [hsplit, List.length_append] at hstored
        omega
  | active cut hw ht hflush hu =>
      rename_i v u
      obtain ⟨v', hv', hrec, hview, -, -⟩ := h.flushInactive hio.inactive fun hl ↦ by
        by_contra hne
        exact absurd (stored_fits hsize (not_or.1 hne).1) (not_lt.2 hl)
      obtain rfl : v' = v := Option.some.inj (hv'.symm.trans ht)
      have hclose : v'.ri.riFlags.doClose = true := hrec.flags.flush_eq.symm.trans hflush
      obtain ⟨m, torn, htorn, hfile⟩ := hrec.cut (selectBuffer_active hrec.ring) (fun _ ↦ hclose) hu
      have hactive : v'.activeRecords = (s.view cfg).active := congrArg DoubleBuffer.active hview
      have hsplit : written ++ (s.view cfg).stored =
          (written ++ (s.view cfg).pending.getD [] ++ v'.activeRecords.take m) ++
            v'.activeRecords.drop m := by
        rw [List.append_assoc, List.take_append_drop, hactive, DoubleBuffer.stored,
          List.append_assoc]
      refine ⟨v'.hdr, _, v'.activeRecords.drop m, torn, hrec.wrapPos, hrec.nrRecords, htorn, hfile,
        hsplit, ?_⟩
      have hlen := congrArg List.length hactive
      rw [DoubleBuffer.stored, List.length_append] at hstored
      rw [List.length_drop]
      omega

/-! ## Sessions that are killed -/

/-- A step of a session, up to its end and after it. -/
def Event.IsUse : Event → Prop
  | .ctrl op => op = .close
  | _ => True

/-- The session is over. -/
structure Over (s : Sys) : Prop where
  fd : s.rfd.fd = none
  doOpen : s.ri.riFlags.doOpen = false
  doDisk : s.ri.riFlags.doDisk = false
  doClose : s.ri.riFlags.doClose = false

theorem Over.step {e : Event} (h : Over s) (he : e.IsUse) (ht : (system cfg).step s e = some t) :
    Over t := by
  cases e with
  | call st a =>
      cases ht
      have hflags := rbtrace_riFlags cfg st s.toShm a
      exact ⟨h.fd, (congrArg RiFlags.doOpen hflags).trans h.doOpen,
        (congrArg RiFlags.doDisk hflags).trans h.doDisk,
        (congrArg RiFlags.doClose hflags).trans h.doClose⟩
  | pass io =>
      have hsame : rbtraceThreadFn cfg io s = some s := by
        rw [rbtraceThreadFn, if_neg (Bool.eq_false_iff.1 h.doClose),
          if_neg (Bool.eq_false_iff.1 h.doOpen), if_neg (Bool.eq_false_iff.1 h.doDisk)]
      obtain rfl : s = t := Option.some.inj (hsame.symm.trans ht)
      exact h
  | ctrl op =>
      obtain rfl : op = .close := he
      cases ht
      rw [rbtraceCtrl, rbtraceCtrlClose, if_neg (Bool.eq_false_iff.1 h.doDisk)]
      exact h

/-- **A step of a session**: it goes on, or it is over. -/
theorem InSession.use {e : Event} (h : InSession cfg path limit s acc) (hN : 0 < cfg.rcSize)
    (he : e.IsUse) (hio : e.IoOk) (hd : NoDiscard cfg s e) (hsize : plainFileSize acc < limit)
    (ht : (system cfg).step s e = some t) :
    Over t ∨ InSession cfg path limit t (acc ++ accepted cfg s e) := by
  cases e with
  | call st a =>
      cases ht
      exact .inr (h.call hN st a hd)
  | pass io =>
      by_cases hc : s.ri.riFlags.doClose = true
      · -- the closing pass
        rcases h with ⟨h, -⟩ | ⟨written, h, -⟩
        · exact absurd (h.doClose.symm.trans hc) Bool.false_ne_true
        · have hctl := rbtraceThreadFn_ctl h.flags ht
          rw [passCtl, if_pos hc] at hctl
          obtain ⟨hflags, hfd⟩ := Ctl.mk.injEq .. ▸ hctl
          have hdisk : s.ri.riFlags.doDisk = false :=
            Bool.eq_false_iff.2 fun hdisk ↦
              Bool.false_ne_true ((h.flags.close_of_disk hdisk).symm.trans hc)
          exact .inl ⟨hfd, (congrArg RiFlags.doOpen hflags).trans h.doOpen,
            (congrArg RiFlags.doDisk hflags).trans hdisk, congrArg RiFlags.doClose hflags⟩
      · obtain ⟨t', ht', h'⟩ := h.pass hio (Bool.eq_false_iff.2 hc) hsize
        obtain rfl : t' = t := Option.some.inj (ht'.symm.trans ht)
        rw [show accepted cfg s (.pass io) = [] from rfl, List.append_nil]
        exact .inr h'
  | ctrl op =>
      obtain rfl : op = .close := he
      cases ht
      rw [show accepted cfg s (.ctrl .close) = [] from rfl, List.append_nil]
      by_cases hdisk : s.ri.riFlags.doDisk = true
      · exact .inr (h.close (by rw [rbtraceCtrl, rbtraceCtrlClose, if_pos hdisk]))
      · rw [rbtraceCtrl, rbtraceCtrlClose, if_neg hdisk]
        exact .inr h

/-- **A session goes on or is over**, as long as the file is below its limit. -/
theorem InSession.uses {es : List Event} (h : InSession cfg path limit s []) (hN : 0 < cfg.rcSize)
    (hes : ∀ e ∈ es, e.IsUse ∧ e.IoOk) (hd : (system cfg).Guarded (NoDiscard cfg) s es)
    (hrun : (system cfg).run s es = some t)
    (hsize : plainFileSize ((system cfg).collect (accepted cfg) s es) < limit) :
    Over t ∨ InSession cfg path limit t ((system cfg).collect (accepted cfg) s es) := by
  have hinv : plainFileSize ([] ++ (system cfg).collect (accepted cfg) s es) < limit →
      Over t ∨ InSession cfg path limit t ([] ++ (system cfg).collect (accepted cfg) s es) := by
    refine (hd.and_forall hes).collect_invariant
      (P := fun s acc ↦ plainFileSize acc < limit → Over s ∨ InSession cfg path limit s acc)
      ?_ (fun _ ↦ .inr h) hrun
    rintro s acc e t hP ⟨hd, huse, hio⟩ ht hlt
    have hlt' := (plainFileSize_le_append acc _).trans_lt hlt
    rcases hP hlt' with h | h
    · exact .inl (h.step huse ht)
    · exact h.use hN huse hio hd hlt' ht
  exact hinv hsize

end

/-- **A daemon that is killed** while the file is open, between two passes or during one, leaves a
file of which the reader lists a head of the accepted records, all but what the two buffers have
room for, and at most one record more. -/
theorem listing_of_killed (cfg : ValidRingConfig) (hN : 0 < cfg.rcSize) {disk d : Disk}
    {pre es : List Event} {io : PassIo} {path : CStr} {s₀ s : Sys}
    (h₀ : (system cfg).run (rbtraceDaemonInit cfg disk) pre = some s₀)
    (hnew : s₀.disk path = none) (hwrap : s₀.ri.riFlags.doWrap = false)
    (hzap : s₀.ri.riFlags.doZap = false) (hpending : s₀.ri.riFlags.doClose = false)
    (hopen : (rbtraceCtrl (.open (some path)) s₀.toShm).2 = 0)
    (hrun : (system cfg).run s₀ (.ctrl (.open (some path)) :: es) = some s)
    (hes : ∀ e ∈ es, e.IsUse ∧ e.IoOk) (hio : io.Ok)
    (hdiscard : (system cfg).Guarded (NoDiscard cfg) s₀ (.ctrl (.open (some path)) :: es))
    (hlimit : 512 + 56 * ((system cfg).collect (accepted cfg) s₀
      (.ctrl (.open (some path)) :: es)).length < s₀.fsize.toNat)
    (hfd : s.rfd.fd ≠ none) (hd : KilledDisk cfg io s d) {pio : PrbtIo} (hpio : pio.Ok) :
    ∃ (file : List UInt8) (kept lost torn : List RbtraceEntry), d path = some file ∧
      (system cfg).collect (accepted cfg) s₀ (.ctrl (.open (some path)) :: es) = kept ++ lost ∧
      lost.length ≤ 2 * cfg.rcSize ∧ torn.length ≤ 1 ∧ listing pio file = kept ++ torn := by
  obtain ⟨hring, hf⟩ := ok_of_run hN h₀
  obtain ⟨s₁, hs₁, hrun'⟩ := (system cfg).run_cons_eq_some.1 hrun
  have hin : InSession cfg path s₀.fsize.toNat s₁ [] := by
    cases hs₁
    exact inSession_of_open hring hf hwrap hzap hpending hnew hopen
  rw [Machine.collect_cons _ hs₁, show accepted cfg s₀ (.ctrl (.open (some path))) = [] from rfl,
    List.nil_append] at hlimit ⊢
  rcases hin.uses hN hes (hdiscard.tail hs₁) hrun' hlimit with h | ⟨h, -⟩ | ⟨written, h, hall⟩
  · exact absurd h.fd hfd
  · -- the file is not open before the pass that opens it
    exact absurd (h.flags.fd_eq_none h.doOpen h.doClose) hfd
  · rw [hall] at hlimit ⊢
    obtain ⟨prf, kept, lost, torn, hw, hnr, htorn, hfile, hsplit, hlost⟩ := h.killed hio hlimit hd
    obtain ⟨res, hres, hlist⟩ := listing_torn hpio (hnr ▸ hN) (cfg.pageSize_lt hnr) hw kept htorn
    exact ⟨_, kept, lost, res, hfile, hsplit, hlost, hres, hlist⟩

/-- A write of which the file system takes a record and four bytes more. -/
def cutShort : DataIo := { DataIo.smooth with data := [.wrote 60, .error ENOSPC] }

/-- Three records in a ring of two, and the daemon is killed while it writes the first two. -/
theorem listing_of_killed_three : ∃ (s t : Sys) (file : List UInt8)
    (kept lost torn : List RbtraceEntry),
    (system (ioRing 2 (by decide))).run startOfTwo
      [.ctrl (.open (some [47])), .pass .smooth, .trace 2, .trace 3, .trace 4] = some s ∧
    rbtraceWriteData (ioRing 2 (by decide)) cutShort false s = some t ∧ t.disk [47] = some file ∧
    file.length = 512 + 60 ∧ (kept ++ lost).map RbtraceEntry.traceid = [2, 3, 4] ∧
    listing .smooth file = kept ++ torn ∧ torn.length ≤ 1 := by
  have hsome : ((system (ioRing 2 (by decide))).run startOfTwo
      [.ctrl (.open (some [47])), .pass .smooth, .trace 2, .trace 3, .trace 4]).map (fun s ↦
        decide (s.rfd.fd = some [47] ∧ s.ri.riFlags.doOpen = false ∧ s.ri.riFlags.doDisk = true ∧
          s.ri.riFlush = 1 ∧ ((rbtraceWriteData (ioRing 2 (by decide)) cutShort false s).map
            fun t ↦ (t.disk [47]).map List.length) = some (some 572))) =
      some true := by decide +kernel
  obtain ⟨s, hs, hstate⟩ := Option.map_eq_some_iff.1 hsome
  obtain ⟨hfd, hopen, hdisk, hflush, hcut⟩ := of_decide_eq_true hstate
  obtain ⟨t, ht, hlen⟩ := Option.map_eq_some_iff.1 hcut
  have h₀ : (system (ioRing 2 (by decide))).run
      (rbtraceDaemonInit (ioRing 2 (by decide)) fun _ ↦ none) [] = some startOfTwo := rfl
  obtain ⟨file, kept, lost, torn, hfile, hall, -, htorn, hlist⟩ :=
    listing_of_killed (ioRing 2 (by decide)) (by decide) h₀ rfl rfl rfl rfl (by decide) hs
      (by simp [Event.IsUse, Event.IoOk, Event.trace, PassIo.smooth_ok]) PassIo.smooth_ok
      (by decide) (by decide) (hfd.trans_ne (Option.some_ne_none _))
      (.inactive cutShort (.inr ⟨hopen, hdisk⟩) (hflush.trans_ne Int.one_ne_zero) ht)
      PrbtIo.smooth_ok
  rw [hfile] at hlen
  refine ⟨s, t, file, kept, lost, torn, hs, ht, hfile, Option.some.inj hlen, ?_, hlist, htorn⟩
  rw [← hall]
  decide

/-! ## In wrap mode

The header is written after the records.  Between the two writes the file holds the new buffer, and
its header does not say so. -/

/-- The header is not written at all. -/
theorem updateHeader_error {s : Sys} {path : CStr} {file : List UInt8} (e : Errno)
    (outs : List PwriteOutcome) (upd : Bool) (hfd : s.rfd.fd = some path)
    (hfile : s.disk path = some file) :
    (updateHeader (.error e :: outs) upd s).disk path = some file := by
  have hbytes : s.hdr.toBytes ≠ [] := List.ne_nil_of_length_pos (by
    rw [PaddedRbtraceFheader.length_toBytes]
    decide)
  cases upd with
  | false => exact hfile
  | true =>
      rw [updateHeader, if_pos rfl, hfd, pwriteFd]
      dsimp only
      rw [Function.update_self, hfile, safePwrite, if_neg hbytes]
      rfl

/-- In wrap mode the limit closes no file. -/
theorem limitReached_of_wrap {cfg : RingConfig} {io : DataIo} {s : Sys}
    (hw : s.ri.riFlags.doWrap = true) (upd : Bool) :
    (limitReached cfg io s upd).1.rfd = s.rfd ∧ (limitReached cfg io s upd).1.disk = s.disk := by
  rw [limitReached]
  split_ifs <;> exact ⟨rfl, rfl⟩

section

variable {cfg : ValidRingConfig} {path : CStr} {limit k : Nat} {s t : Sys}
  {bufs : List (List RbtraceEntry)} {es : List RbtraceEntry}

/-- **Killed between the records and the header.** -/
theorem WrapFile.cut {io : DataIo} {e : Errno} {outs : List PwriteOutcome}
    (h : WrapFile cfg path k s bufs es) (hm : WrapMode cfg limit s) (hk : 0 < k)
    (hdata : NoError io.data) (hupdate : io.update = .error e :: outs)
    (ht : rbtraceWriteData cfg io false s = some t) :
    t.disk path = some (traceFile s.hdr
      (es.splice .zero (bufs.length % k * cfg.rcSize) (s.altRecords cfg))) := by
  have hopen : ¬ s.rfd.fd = none := h.fd.trans_ne (Option.some_ne_none _)
  simp only [rbtraceWriteData, if_neg hopen, selectBuffer_inactive cfg s] at ht
  obtain ⟨s₁, hs₁⟩ : ∃ s₁, s₁ = wrapSeek s.ri.riFlags.doWrap (cfg.rcSize * sizeofEntry) s :=
    ⟨_, rfl⟩
  have hsame : s₁.1.disk = s.disk ∧ s₁.1.reBase = s.reBase ∧ s₁.1.ri = s.ri := by
    rw [hs₁, wrapSeek]
    split_ifs <;> exact ⟨rfl, rfl, rfl⟩
  have hrfd : s₁.1.rfd =
      ⟨some path, RBTRACE_FHEADER_SIZE + sizeofEntry * (bufs.length % k * cfg.rcSize)⟩ := by
    rw [hs₁, wrapSeek_seek, h.fd, h.writePos hm.doWrap]
  rw [← hs₁, writeBuffer_of_ok hdata hrfd (hsame.1 ▸ h.file) (h.log.next_le hk)] at ht
  simp only [if_true] at ht
  obtain rfl := Option.some.inj ht
  rw [(takeCounters_frame cfg io _).2.2.1, hupdate]
  have hwrap : s₁.1.ri.riFlags.doWrap = true := hsame.2.2 ▸ hm.doWrap
  refine updateHeader_error e outs _ ?_ ?_
  · rw [(limitReached_of_wrap (by exact hwrap) _).1]
  · rw [(limitReached_of_wrap (by exact hwrap) _).2, hsame.2.1]
    exact Function.update_self _ _ _

/-- What a reader makes of such a file: the new buffer comes last only as long as the file has not
been filled. -/
theorem WrapFile.listing_cut {pio : PrbtIo} (h : WrapFile cfg path k s bufs es)
    (hN : 0 < cfg.rcSize)
    (hk : IsCapacity cfg limit k) (hlimit : limit < 2 ^ 64) (hpio : pio.Ok) {b : List RbtraceEntry}
    (hb : b.length = cfg.rcSize) :
    Rbtrace.listing pio (traceFile s.hdr (es.splice .zero (bufs.length % k * cfg.rcSize) b)) =
      if bufs.length < k then (bufs.drop (bufs.length + 1 - k)).flatten ++ b
      else b ++ (bufs.drop (bufs.length + 1 - k)).flatten := by
  have hkpos : 0 < k := hk.1.1
  have hle := h.log.next_le hkpos
  rw [h.listing_eq_rotate hN hk hlimit hpio (by
    rw [List.length_splice]
    omega)]
  split <;> rename_i hlt
  · have hend : bufs.length % k * cfg.rcSize = es.length := by
      rw [h.log.length_eq, Nat.mod_eq_of_lt hlt, Nat.min_eq_left hlt.le]
    rw [List.rotate_zero, hend, List.splice_length, h.log.eq_flatten hlt, Nat.sub_eq_zero_of_le hlt,
      List.drop_zero]
  · exact h.log.rotate_splice_of_full hkpos (not_lt.1 hlt) .zero hb

end

/-- **A daemon that is killed in wrap mode** after the records of a buffer have been written and
before the header has: once the file has been filled, the reader lists the newest buffer first. -/
theorem listing_of_killed_wrap (cfg : ValidRingConfig) (hN : 1 ≤ cfg.rcSize) {disk : Disk}
    {pre evs : List Event} {path : CStr} {s₀ s t : Sys} {k : Nat}
    (h₀ : (system cfg).run (rbtraceDaemonInit cfg disk) pre = some s₀)
    (hnew : s₀.disk path = none) (hwrap : s₀.ri.riFlags.doWrap = true)
    (hopen : (rbtraceCtrl (.open (some path)) s₀.toShm).2 = 0)
    (hrun : (system cfg).run s₀ (.ctrl (.open (some path)) :: evs) = some s)
    (hkeep : (system cfg).Guarded (KeepsMode cfg) s₀ (.ctrl (.open (some path)) :: evs))
    (hnormal : (system cfg).Guarded NotClosing s₀ (.ctrl (.open (some path)) :: evs))
    (hio : ∀ e ∈ evs, e.IoOk)
    (hk : IsLeast { k | 1 ≤ k ∧ s₀.fsize.toNat ≤ 512 + k * cfg.rcSize * 56 } k)
    {io : DataIo} {e : Errno} {outs : List PwriteOutcome} (hdata : NoError io.data)
    (hupdate : io.update = .error e :: outs) (hfile : s.disk path ≠ none)
    (ht : rbtraceWriteData cfg io false s = some t) {pio : PrbtIo} (hpio : pio.Ok) :
    let bufs := (system cfg).collect (writes cfg) s₀ (.ctrl (.open (some path)) :: evs)
    let rest := (bufs.drop (bufs.length + 1 - k)).flatten
    ∃ file, t.disk path = some file ∧ listing pio file =
      if bufs.length < k then rest ++ s.altRecords cfg else s.altRecords cfg ++ rest := by
  obtain ⟨hring, hf⟩ := ok_of_run hN h₀
  obtain ⟨s₁, hs₁, hrun'⟩ := (system cfg).run_cons_eq_some.1 hrun
  have hg : (system cfg).Guarded (WrapStep cfg) s₁ evs :=
    ((hkeep.tail hs₁).and (hnormal.tail hs₁)).and_forall hio
  have hs : WrapSession cfg path s₀.fsize.toNat k s₁ [] := by
    cases hs₁
    exact wrapSession_of_open hring hf hwrap hnew hopen
  have hbufs : (system cfg).collect (writes cfg) s₀ (.ctrl (.open (some path)) :: evs) =
      [] ++ (system cfg).collect (writes cfg) s₁ evs := Machine.collect_cons _ hs₁
  obtain ⟨hm, ⟨-, hnone, -⟩ | ⟨es, h⟩⟩ := hs.run hN hk hg hrun'
  · exact absurd hnone hfile
  · rw [← hbufs] at h
    exact ⟨_, h.cut hm hk.1.1 hdata hupdate ht,
      h.listing_cut hN hk s₀.fsize.isLt hpio (length_bufRecords ..)⟩

/-- A write of which the file system takes the records, and not the header. -/
def headerLost : DataIo := { DataIo.smooth with update := [.error ENOSPC] }

/-- Three buffers written, and one is to be written next. -/
def fourBuffers : List Event := threeBuffers ++ [.trace 6]

theorem listing_of_killed_wrap_four : ∃ (s t : Sys) (file : List UInt8),
    (system (ioRing 1 (by decide))).run wrapOfTwo (.ctrl (.open (some [47])) :: fourBuffers) =
      some s ∧
    rbtraceWriteData (ioRing 1 (by decide)) headerLost false s = some t ∧
    t.disk [47] = some file ∧ (listing .smooth file).map RbtraceEntry.traceid = [5, 4] := by
  have hsome : ((system (ioRing 1 (by decide))).run wrapOfTwo
      (.ctrl (.open (some [47])) :: fourBuffers)).map (fun s ↦
        ((s.disk [47]).isSome, (rbtraceWriteData (ioRing 1 (by decide)) headerLost false s).isSome,
          (s.altRecords (ioRing 1 (by decide)).toRingConfig).map RbtraceEntry.traceid)) =
      some (true, true, [5]) := by decide +kernel
  obtain ⟨s, hrun, hstate⟩ := Option.map_eq_some_iff.1 hsome
  simp only [Prod.mk.injEq] at hstate
  obtain ⟨hfile, hwrite, halt⟩ := hstate
  obtain ⟨t, ht⟩ := Option.isSome_iff_exists.1 hwrite
  have h₀ : (system (ioRing 1 (by decide))).run
      (rbtraceDaemonInit (ioRing 1 (by decide)) fun _ ↦ none)
      [.ctrl (.wrap (some true)), .ctrl (.size (some 624))] = some wrapOfTwo := rfl
  have hk : IsLeast { k | 1 ≤ k ∧ 624 ≤ 512 + k * 1 * 56 } 2 :=
    ⟨⟨by decide, by decide⟩, fun k hk ↦ by have := hk.2; omega⟩
  have hio : ∀ e ∈ fourBuffers, e.IoOk := by
    simp [fourBuffers, threeBuffers, Event.IoOk, Event.trace, PassIo.smooth_ok]
  have hdata : NoError headerLost.data := PassIo.smooth_ok.inactive.data
  obtain ⟨file, hdisk, hlist⟩ := listing_of_killed_wrap (ioRing 1 (by decide))
    (by decide) h₀ rfl rfl (by decide) hrun (by decide +kernel) (by decide +kernel) hio hk hdata rfl
    (Option.isSome_iff_ne_none.1 hfile) ht PrbtIo.smooth_ok
  refine ⟨s, t, file, hrun, ht, hdisk, ?_⟩
  have hbufs : ((system (ioRing 1 (by decide)).toRingConfig).collect
      (writes (ioRing 1 (by decide)).toRingConfig) wrapOfTwo
      (.ctrl (.open (some [47])) :: fourBuffers)).map (List.map RbtraceEntry.traceid) =
      [[2], [3], [4]] := by decide +kernel
  have hlen := congrArg List.length hbufs
  rw [List.length_map] at hlen
  rw [hlist, if_neg (by rw [hlen]; decide), List.map_append, halt, List.map_flatten, List.map_drop,
    hbufs, hlen]
  rfl

end Rbtrace
