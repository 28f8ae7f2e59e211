import TrackOne.Gateway.Operations

/-!
# Where admitted records go

`record_deltas` tells the store, for every admitted record, the segment and the ordinal it is to be
written at, without the contents of the segments at hand. `Routed` says what it has to get right:
each ordinal is the number of records that are in the segment at that time, counting those that were
open before the operation. `recordDeltas_routed` proves it for every operation, and
`pushAll_startContents` that the contents so reached are the ones of the sealed segments and the
open interval.
-/

namespace TrackOne

/-! ## Contents by segment number -/

/-- The records of each segment from the open one on. -/
abbrev Contents := UInt64 → List Bytes

namespace Contents

/-- A record is appended to a segment. -/
def push (c : Contents) (number : UInt64) (record : Bytes) : Contents := fun n =>
  if n = number then c n ++ [record] else c n

/-- Records are appended one after the other. -/
def pushAll (c : Contents) (entries : List (Bytes × UInt64)) : Contents :=
  entries.foldl (fun c entry => c.push entry.2 entry.1) c

@[simp] theorem push_same (c : Contents) (number : UInt64) (record : Bytes) :
    c.push number record number = c number ++ [record] := if_pos rfl

theorem push_ne (c : Contents) {number n : UInt64} (record : Bytes) (h : n ≠ number) :
    c.push number record n = c n := if_neg h

theorem pushAll_apply (c : Contents) (entries : List (Bytes × UInt64)) (n : UInt64) :
    c.pushAll entries n = c n ++ (entries.filter fun entry => entry.2 = n).map Prod.fst := by
  induction entries generalizing c with
  | nil => simp [pushAll]
  | cons entry entries ih =>
    have hcons : c.pushAll (entry :: entries) = (c.push entry.2 entry.1).pushAll entries := rfl
    rw [hcons, ih, List.filter_cons]
    by_cases hn : entry.2 = n
    · simp [hn]
    · rw [push_ne c entry.1 (Ne.symm hn), if_neg (by simpa using hn)]

end Contents

/-- What an operation starts from: the open records, under the number they would be sealed at. -/
def startContents (state : ProducerState) : Contents := fun n =>
  if n = state.nextSegmentNumber then state.openInterval.records else []

/-! ## Routing -/

/-- Every record goes to the end of its segment: to a sealed one or to the one that stays open. -/
inductive Routed (sealedNumbers : List UInt64) (openNumber : UInt64) :
    Contents → List (Bytes × UInt64) → List AdmittedRecordDelta → Prop where
  | nil (c : Contents) : Routed sealedNumbers openNumber c [] []
  | sealed {c : Contents} {record : Bytes} {number ordinal : UInt64}
      {rest : List (Bytes × UInt64)} {deltas : List AdmittedRecordDelta}
      (hnumber : number ∈ sealedNumbers) (hordinal : ordinal.toNat = (c number).length)
      (h : Routed sealedNumbers openNumber (c.push number record) rest deltas) :
      Routed sealedNumbers openNumber c ((record, number) :: rest)
        (⟨record, .sealed number ordinal⟩ :: deltas)
  | open {c : Contents} {record : Bytes} {ordinal : UInt64}
      {rest : List (Bytes × UInt64)} {deltas : List AdmittedRecordDelta}
      (hordinal : ordinal.toNat = (c openNumber).length) (hbound : ordinal.toNat + 1 < 2 ^ 64)
      (h : Routed sealedNumbers openNumber (c.push openNumber record) rest deltas) :
      Routed sealedNumbers openNumber c ((record, openNumber) :: rest)
        (⟨record, .open ordinal⟩ :: deltas)

/-- The ordinals of the pass count the records of every segment. -/
theorem recordDeltasLoop_routed {sealedNumbers : List UInt64} {openNumber : UInt64} {c : Contents}
    {entries : List (Bytes × UInt64)} {sealedOrdinals : Std.ExtTreeMap UInt64 UInt64 compare}
    {openOrdinal : UInt64} {deltas : List AdmittedRecordDelta}
    (hopen : openNumber ∉ sealedNumbers)
    (hentries : ∀ entry ∈ entries, entry.2 ∈ sealedNumbers ∨ entry.2 = openNumber)
    (hsealed : ∀ number ∈ sealedNumbers,
      (sealedOrdinals[number]?.getD 0).toNat = (c number).length)
    (hordinal : openOrdinal.toNat = (c openNumber).length)
    (h : recordDeltasLoop sealedNumbers entries sealedOrdinals openOrdinal = .ok deltas) :
    Routed sealedNumbers openNumber c entries deltas := by
  induction entries generalizing c sealedOrdinals openOrdinal deltas with
  | nil =>
    cases h
    exact .nil c
  | cons entry entries ih =>
    obtain ⟨record, number⟩ := entry
    obtain ⟨hfirst, hrest⟩ := List.forall_mem_cons.mp hentries
    simp only [recordDeltasLoop, Except.bind_eq_ok] at h
    obtain ⟨⟨delta, sealedOrdinals', openOrdinal'⟩, hdelta, deltas', hlater, h⟩ := h
    cases h
    unfold recordDelta at hdelta
    split at hdelta
    -- a record of a sealed segment gets the next ordinal there
    · next hmem =>
      simp only [Except.bind_eq_ok, Except.ofOption_eq_ok, UInt64.checkedAdd_eq_some] at hdelta
      obtain ⟨next, hnext, hdelta⟩ := hdelta
      cases hdelta
      have hne : openNumber ≠ number := fun heq => hopen (heq ▸ hmem)
      refine .sealed hmem (hsealed number hmem) (ih hrest ?_ ?_ hlater)
      · -- only the counter of this segment moves
        intro number' hmem'
        rw [Std.ExtTreeMap.getElem?_insert]
        by_cases heq : number = number'
        · subst heq
          have hlength := hsealed number hmem
          simp only [Std.ReflCmp.compare_self, if_true, Option.getD_some, Contents.push_same,
            List.length_append, List.length_singleton]
          rw [hnext, hlength]
          rfl
        · rw [if_neg (by simpa using heq), Contents.push_ne c record (Ne.symm heq)]
          exact hsealed number' hmem'
      · rw [Contents.push_ne c record hne]
        exact hordinal
    -- any other record is open
    · next hmem =>
      simp only [Except.bind_eq_ok, Except.ofOption_eq_ok, UInt64.checkedAdd_eq_some] at hdelta
      obtain ⟨next, hnext, hdelta⟩ := hdelta
      cases hdelta
      obtain rfl : number = openNumber := hfirst.resolve_left hmem
      have hsucc : openOrdinal'.toNat = openOrdinal.toNat + 1 := hnext
      refine .open hordinal (hsucc ▸ openOrdinal'.toNat_lt) (ih hrest ?_ ?_ hlater)
      · intro number' hmem'
        have hne : number' ≠ number := fun heq => hmem (heq ▸ hmem')
        rw [Contents.push_ne c record hne]
        exact hsealed number' hmem'
      · rw [Contents.push_same, List.length_append, List.length_singleton, hsucc, hordinal]

/-- The open records stay countable. -/
theorem Routed.length_open {sealedNumbers : List UInt64} {openNumber : UInt64} {c : Contents}
    {entries : List (Bytes × UInt64)} {deltas : List AdmittedRecordDelta}
    (h : Routed sealedNumbers openNumber c entries deltas) (hopen : openNumber ∉ sealedNumbers)
    (hlength : (c openNumber).length < 2 ^ 64) :
    (c.pushAll entries openNumber).length < 2 ^ 64 := by
  induction h with
  | nil c => exact hlength
  | @sealed c record number ordinal rest deltas hnumber _ _ ih =>
    have hne : openNumber ≠ number := fun heq => hopen (heq ▸ hnumber)
    apply ih
    rw [Contents.push_ne c record hne]
    exact hlength
  | @«open» c record ordinal rest deltas hordinal hbound _ ih =>
    apply ih
    rw [Contents.push_same, List.length_append, List.length_singleton, ← hordinal]
    exact hbound

/-! ## The contents an operation leaves -/

section Operations

variable [Sha256] {state next : ProducerState} {segments sealed : List SealedSegment}
  {admitted : List (Bytes × UInt64)}

/-- The numbers of the segments that an operation seals: those from the open one to the one that is
open after it. -/
theorem mem_sealedNumbers (hchained : Chained state segments)
    (hmoves : Moves state sealed admitted next) (n : UInt64) :
    n ∈ sealed.map SealedSegment.segmentNumber
      ↔ state.nextSegmentNumber.toNat ≤ n.toNat ∧ n.toNat < next.nextSegmentNumber.toNat := by
  have hnext := hmoves.chained hchained
  have hstart := hchained.nextSegmentNumber
  have hend := hnext.nextSegmentNumber
  rw [List.length_append] at hend
  rw [List.mem_map]
  constructor
  · rintro ⟨segment, hmem, rfl⟩
    obtain ⟨i, hi⟩ := List.mem_iff_getElem?.mp hmem
    obtain ⟨hlt, -⟩ := List.getElem?_eq_some_iff.mp hi
    have hnumber : segment.segmentNumber.toNat = segments.length + i := by
      apply hnext.chain.segmentNumber
      rw [List.getElem?_append_right (by omega), Nat.add_sub_cancel_left, hi]
    omega
  · rintro ⟨hle, hlt⟩
    obtain ⟨segment, hsegment⟩ : ∃ segment, sealed[n.toNat - segments.length]? = some segment :=
      ⟨_, List.getElem?_eq_getElem (by omega)⟩
    have hnumber : segment.segmentNumber.toNat = n.toNat := by
      apply hnext.chain.segmentNumber
      rw [List.getElem?_append_right (by omega), hsegment]
    exact ⟨segment, List.mem_iff_getElem?.mpr ⟨_, hsegment⟩, UInt64.toNat_inj.mp hnumber⟩

omit [Sha256] in
theorem segment_ledgerLog {n : UInt64} (hstart : state.nextSegmentNumber.toNat = segments.length)
    (hn : segments.length ≤ n.toNat) :
    (ledgerLog segments state).segment n.toNat = startContents state n := by
  have hlength : (ledgerLog segments state).closed.length = segments.length := by
    simp [ledgerLog]
  unfold startContents
  split_ifs with heq
  · rw [heq, hstart, ← hlength, SegLog.segment_current]
    rfl
  · apply SegLog.segment_of_length_lt
    have hne : n.toNat ≠ segments.length := by
      rw [← hstart]
      exact fun hnat => heq (UInt64.toNat_inj.mp hnat)
    omega

/-- With its records appended, the contents are those of the segmented log after the operation. -/
theorem pushAll_startContents (hchained : Chained state segments)
    (hmoves : Moves state sealed admitted next) {n : UInt64}
    (hn : state.nextSegmentNumber.toNat ≤ n.toNat) :
    (startContents state).pushAll admitted n
      = (ledgerLog (segments ++ sealed) next).segment n.toNat := by
  have hstart := hchained.nextSegmentNumber
  rw [Contents.pushAll_apply, (hmoves.steps hchained).segment_eq n.toNat,
    segment_ledgerLog hstart (by omega), placements, List.filter_map, List.map_map]
  congr 2
  apply List.filter_congr
  intro entry _
  simp [UInt64.toNat_inj]

/-- The open interval after the operation. -/
theorem pushAll_open (hchained : Chained state segments)
    (hmoves : Moves state sealed admitted next) :
    (startContents state).pushAll admitted next.nextSegmentNumber = next.openInterval.records := by
  have hnext := (hmoves.chained hchained).nextSegmentNumber
  have hstart := hchained.nextSegmentNumber
  have hlength : (ledgerLog (segments ++ sealed) next).closed.length
      = (segments ++ sealed).length := by simp [ledgerLog]
  rw [List.length_append] at hnext hlength
  rw [pushAll_startContents hchained hmoves (by omega), hnext, ← hlength, SegLog.segment_current]
  rfl

/-- A sealed segment after the operation. -/
theorem pushAll_sealed (hchained : Chained state segments)
    (hmoves : Moves state sealed admitted next) {segment : SealedSegment}
    (hmem : segment ∈ sealed) :
    (startContents state).pushAll admitted segment.segmentNumber = segment.records := by
  have hnext := hmoves.chained hchained
  have hrange := (mem_sealedNumbers hchained hmoves segment.segmentNumber).mp
    (List.mem_map_of_mem hmem)
  obtain ⟨i, hi⟩ := List.mem_iff_getElem?.mp (List.mem_append_right segments hmem)
  have hnumber := hnext.chain.segmentNumber hi
  rw [pushAll_startContents hchained hmoves hrange.1, hnumber]
  apply SegLog.segment_closed
  rw [ledgerLog, List.getElem?_map, hi]
  rfl

/-- The records of an operation go to the segments it seals or to the one it leaves open. -/
theorem mem_sealedNumbers_or_open (hchained : Chained state segments)
    (hmoves : Moves state sealed admitted next) :
    ∀ entry ∈ admitted, entry.2 ∈ sealed.map SealedSegment.segmentNumber
      ∨ entry.2 = next.nextSegmentNumber := by
  intro entry hentry
  have hstart := hchained.nextSegmentNumber
  have hnext := (hmoves.chained hchained).nextSegmentNumber
  have hplaced : (entry.1, entry.2.toNat) ∈ placements admitted :=
    List.mem_map.mpr ⟨entry, hentry, rfl⟩
  have hrange := (hmoves.steps hchained).mem_range.2 _ hplaced
  simp only [ledgerLog, List.length_map] at hrange
  rw [mem_sealedNumbers hchained hmoves]
  by_cases heq : entry.2.toNat = next.nextSegmentNumber.toNat
  · exact .inr (UInt64.toNat_inj.mp heq)
  · left
    omega

omit [Sha256] in
theorem count_eq_length_filter {records : List Bytes} {numbers : List UInt64}
    (hlength : numbers.length = records.length) (n : UInt64) :
    numbers.count n = ((records.zip numbers).filter fun entry => entry.2 = n).length := by
  have hnumbers : (records.zip numbers).map Prod.snd = numbers := List.map_snd_zip hlength.le
  conv_lhs => rw [← hnumbers]
  rw [List.count, List.countP_map, ← List.countP_eq_length_filter]
  rfl

/-- The counters that `record_deltas` starts with: what was open before is at the start of the
first segment that is sealed, if any is. -/
theorem startOrdinals_eq_ok {sealedOrdinals : Std.ExtTreeMap UInt64 UInt64 compare}
    (hchained : Chained state segments) (hmoves : Moves state sealed admitted next)
    (h : startOrdinals state sealed = .ok sealedOrdinals) :
    ∀ number ∈ sealed.map SealedSegment.segmentNumber,
      (sealedOrdinals[number]?.getD 0).toNat = (startContents state number).length := by
  intro number hnumber
  unfold startOrdinals at h
  simp only at h
  split at h
  · simp only [Except.bind_eq_ok, Except.ofOption_eq_ok, UInt64.ofNat?_eq_some] at h
    obtain ⟨count, hcount, h⟩ := h
    cases h
    unfold startContents
    rw [Std.ExtTreeMap.getElem?_insert]
    by_cases heq : number = state.nextSegmentNumber
    · rw [if_pos heq, if_pos (by simp [heq]), Option.getD_some, hcount]
    · rw [if_neg heq, if_neg (by simpa using Ne.symm heq)]
      rfl
  · next hnot =>
    cases h
    have hempty : startContents state number = [] := by
      unfold startContents
      split_ifs with heq
      · -- the segment sealed under the open number starts with the open records
        by_contra hne
        obtain ⟨segment, hmem, hsegment⟩ := List.mem_map.mp hnumber
        have hrecords := pushAll_sealed hchained hmoves hmem
        rw [Contents.pushAll_apply, hsegment, startContents, if_pos heq] at hrecords
        have hprefix : state.openInterval.records.isPrefixOf segment.records :=
          List.isPrefixOf_iff_prefix.mpr ⟨_, hrecords⟩
        exact hnot ⟨hne, hne, List.any_eq_true.mpr ⟨segment, hmem, hprefix⟩⟩
      · rfl
    rw [hempty]
    rfl

/-- `record_deltas` sends every record to the end of its segment. -/
theorem recordDeltas_routed {records : List Bytes} {numbers : List UInt64}
    {deltas : List AdmittedRecordDelta} (hchained : Chained state segments)
    (hmoves : Moves state sealed (records.zip numbers) next)
    (hlength : numbers.length = records.length)
    (h : recordDeltas state next sealed records numbers = .ok deltas) :
    Routed (sealed.map SealedSegment.segmentNumber) next.nextSegmentNumber (startContents state)
      (records.zip numbers) deltas := by
  simp only [recordDeltas, Except.bind_eq_ok, Except.ofOption_eq_ok, Except.require_eq_ok] at h
  obtain ⟨sealedOrdinals, hsealed, -, -, openOrdinal, hopen, h⟩ := h
  refine recordDeltasLoop_routed ?_ (mem_sealedNumbers_or_open hchained hmoves)
    (startOrdinals_eq_ok hchained hmoves hsealed) ?_ h
  · rw [mem_sealedNumbers hchained hmoves]
    omega
  · -- the open records after the operation, less those it added
    have hrecords := congrArg List.length (pushAll_open hchained hmoves)
    rw [Contents.pushAll_apply, List.length_append, List.length_map,
      ← count_eq_length_filter hlength] at hrecords
    rw [UInt64.ofNat?_eq_some] at hopen
    omega

/-- Whatever an operation commits, its records are routed. -/
theorem Planned.routed {lookup : String → Except ProducerError (Option IdempotencyRecord)}
    {op : Operation} {expected : Option UInt64} {t : LedgerTransition} {reply : Reply}
    (hchained : Chained state segments)
    (h : Planned lookup state op (.commit expected t reply)) :
    ∃ admitted, Commits state admitted t
      ∧ Routed (t.sealed.map SealedSegment.segmentNumber) t.nextState.nextSegmentNumber
          (startContents state) admitted t.admittedRecords := by
  cases h with
  | maintained _ hcommits hdeltas =>
    refine ⟨[], hcommits, ?_⟩
    rw [hdeltas]
    exact .nil _
  | admitted _ _ hlength hcommits hdeltas =>
    refine ⟨_, hcommits, ?_⟩
    have hrouted := recordDeltas_routed hchained hcommits.moves hlength hdeltas
    exact hrouted

/-- The key that a commit writes was unknown when the operation looked it up. -/
theorem Planned.lookup_key {lookup : String → Except ProducerError (Option IdempotencyRecord)}
    {op : Operation} {expected : Option UInt64} {t : LedgerTransition} {reply : Reply}
    (h : Planned lookup state op (.commit expected t reply)) :
    ∀ admission, t.idempotency = some admission → lookup admission.key = .ok none := by
  intro admission hadmission
  cases h with
  | maintained _ _ _ hidempotency =>
    rw [hidempotency] at hadmission
    cases hadmission
  | admitted _ hlookup _ _ _ hidempotency =>
    rw [hidempotency, Option.map_eq_some_iff] at hadmission
    obtain ⟨request, hrequest, rfl⟩ := hadmission
    exact (hlookup request.1 request.2 hrequest).2

end Operations

end TrackOne
