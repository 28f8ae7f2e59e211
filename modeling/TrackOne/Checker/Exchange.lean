import TrackOne.Checker.Artifacts
import TrackOne.Evidence.Scopes

/-!
# Disclosures in the independent checker

The disclosure part of `verify_exchange` in `toolset/independent-verifier/verify_https_bundle.py`:
openings, class shape, selection of batches, recomputation of records, order of adjacent batches
and segment root; with `uint64_string`, `portable_path`, `artifact_ref` and `fetch_ref`. The
retriever behind `http.get` is a parameter.

The verifier of the ledger collects failures, the checker raises at the first one, and they ask the
same questions in another order:

* `indexOpenings_eq_ok`: the checker's first loop is `Numbered` with the right cardinalities;
* `classShape_iff` and `consumedFor_iff`: the class and the selection;
* `openBatches_iff`: the checker opens batches in number order, the verifier in manifest order and
  sorts afterwards.

The checker stops at a million items in one record, and the verifier does not: `disclosures_agree`
is about records below that limit, and `disclosures_differ` is a record beyond it.
-/

namespace TrackOne.Checker

open BinaryFloat DetCbor Evidence SplitTree

/-! ## Numbers, paths and references -/

/-- `fullmatch` of a numeral without superfluous zeros. -/
def shortestDecimal (value : String) : Bool :=
  match value.toList with
  | [] => false
  | first :: others =>
    (first == '0' && others.isEmpty) || (first.isDigit && first != '0' && others.all Char.isDigit)

def uint64String (value : String) (label : String) : CheckResult Nat := do
  Except.require ⟨label ++ " is not a shortest uint64 decimal string"⟩ (shortestDecimal value)
  let number := Decimal.value value.toList
  Except.require ⟨label ++ " exceeds uint64"⟩ (number ≤ maxUint64)
  pure number

/-- The message of the source ends in the `repr` of the path. -/
def nonPortable : CheckError := ⟨"non-portable artifact path"⟩

def portablePath (value : String) : CheckResult String := do
  Except.require ⟨"artifact path must be a non-empty string"⟩ (!value.isEmpty)
  let chars := value.toList
  Except.require nonPortable
    (!(chars.head? == some '/' || chars.head? == some '\\' || chars.contains '\\'
      || chars.contains ':' || chars.any fun c => c.toNat < 0x20 || c.toNat == 0x7f))
  Except.require nonPortable
    (!(chars.splitOn '/').any fun part => part == [] || part == ['.'] || part == ['.', '.'])
  pure value

def artifactRef (value : ArtifactRef) : CheckResult (String × String) := do
  let path ← portablePath value.path
  Except.require ⟨"artifact reference digest is not lowercase SHA-256"⟩ (hexMatch 64 value.sha256)
  pure (path, value.sha256)

def fetchRef [Sha256] (get : String → CheckResult Bytes) (value : ArtifactRef) :
    CheckResult Bytes := do
  let (path, expected) ← artifactRef value
  let data ← get path
  Except.require ⟨"artifact reference digest mismatch for " ++ path⟩ (sha256Hex data == expected)
  pure data

/-! ## The openings -/

/-- `expected_count`: the numbers of the source are unbounded and may be negative. -/
def expectedCount (count batchLimit batches number : Nat) : Int :=
  if number + 1 < batches then batchLimit else count - number * batchLimit

/-- One round of the first loop; `indexed` is in the order of insertion. -/
def indexOpening (count batchLimit batches : Nat) (indexed : List (Nat × RecordBatchOpening))
    (opening : RecordBatchOpening) : CheckResult (List (Nat × RecordBatchOpening)) := do
  let number ← uint64String opening.batchNumber "batch_number"
  Except.require ⟨"record batch opening number or cardinality is invalid"⟩
    (!((indexed.map Prod.fst).contains number || decide (batches ≤ number)
      || opening.records.isEmpty))
  Except.require ⟨"record batch opening is incomplete"⟩
    ((opening.records.length : Int) = expectedCount count batchLimit batches number)
  pure (indexed ++ [(number, opening)])

def indexOpenings (count batchLimit batches : Nat) (openings : List RecordBatchOpening) :
    CheckResult (List (Nat × RecordBatchOpening)) :=
  openings.foldlM (indexOpening count batchLimit batches) []

def classShape (disclosure : String) (count batches : Nat) (openings : List RecordBatchOpening)
    (indexed : Finset Nat) : CheckResult Unit := do
  Except.require ⟨"Class A does not open every complete batch"⟩
    (!(disclosure = "A" && ((count = 0 && !openings.isEmpty)
      || (decide (0 < count) && indexed ≠ Finset.range batches))))
  Except.require ⟨"Class B is not a non-empty proper batch subset"⟩
    (!(disclosure = "B" && (decide (batches ≤ 1)
      || !(decide (0 < indexed.card) && decide (indexed.card < batches)))))
  Except.require ⟨"Class C must omit record openings"⟩ (!(disclosure = "C" && !openings.isEmpty))

/-- The batches that a scope consumes. -/
def consumedFor (scope : VerificationScope) (disclosure : String) (batches : Nat)
    (selected indexed : Finset Nat) : CheckResult (Finset Nat) :=
  match scope with
  | .publicRecompute => do
    Except.require ⟨"public recomputation requires Class A"⟩ (disclosure = "A")
    pure indexed
  | .disclosedBatchRecompute => do
    let consumed := if selected = ∅ then indexed else selected
    Except.require ⟨"selected batch scope is not a non-empty proper disclosed subset"⟩
      (!(decide (batches ≤ 1) || consumed = ∅ || !decide (consumed ⊆ indexed)
        || decide (batches ≤ consumed.card)))
    Except.require ⟨"Class B invocation must consume its exact disclosed subset"⟩
      (!(disclosure = "B" && selected ≠ ∅ && selected ≠ indexed))
    pure consumed
  | .anchorOnly => pure ∅

/-! ## The records -/

section

variable [Sha256] (get : String → CheckResult Bytes)

/-- The leaf hash of a record that is fetched and checked. -/
def openRecord (reference : ArtifactRef) : CheckResult Digest := do
  let record ← fetchRef get reference
  validateRecord record
  pure (sha256Digest (0 :: record))

/-- One round of the loop over the consumed batches, which all are indexed. -/
def openBatch (roots : List Digest) (indexed : List (Nat × RecordBatchOpening)) (number : Nat) :
    CheckResult (Nat × List Digest) := do
  let records := ((indexed.lookup number).map RecordBatchOpening.records).getD []
  let leaves ← records.mapM (openRecord get)
  let leaves := leaves.mergeSort Digest.ble
  Except.require ⟨"batch " ++ toString number ++ " opening does not reproduce its root"⟩
    (roots[number]? = some (tree leaves))
  pure (number, leaves)

omit [Sha256] in
/-- The last leaf of a batch is past the first one of the next. An opened batch has leaves, so that
the ends exist. -/
def exceeds (leaves next : List Digest) : Bool :=
  match leaves.getLast?, next.head? with
  | some last, some first => !last.ble first
  | _, _ => false

omit [Sha256] in
/-- The order of adjacent batches. -/
def checkAdjacent (opened : List (Nat × List Digest)) : CheckResult Unit :=
  opened.forM fun (number, leaves) =>
    match opened.lookup (number + 1) with
    | none => .ok ()
    | some next =>
      Except.require ⟨"adjacent disclosed batches violate global leaf ordering"⟩
        (!exceeds leaves next)

/-- The disclosure checks of `verify_exchange`. -/
def verifyDisclosure (scope : VerificationScope) (selected : Finset Nat) (disclosure : String)
    (openings : List RecordBatchOpening) (count batchLimit : Nat) (roots : List Digest)
    (segmentRoot : Digest) : CheckResult Unit := do
  let indexed ← indexOpenings count batchLimit roots.length openings
  let numbers := (indexed.map Prod.fst).toFinset
  classShape disclosure count roots.length openings numbers
  let consumed ← consumedFor scope disclosure roots.length selected numbers
  let opened ← (consumed.sort (· ≤ ·)).mapM (openBatch get roots indexed)
  checkAdjacent opened
  if scope = .publicRecompute then
    let leaves := opened.flatMap Prod.snd
    Except.require ⟨"full record recomputation does not reproduce segment_root"⟩
      (!(leaves.length ≠ count || tree leaves ≠ segmentRoot))

end

/-! ## The openings agree -/

/-- The shortest decimals are `0` and the digits that start with another. -/
theorem shortestDecimal_iff {value : String} :
    shortestDecimal value = true ↔ value.toList ≠ [] ∧ value.toList.all Char.isDigit = true
      ∧ (value = "0" ∨ value.toList.head? ≠ some '0') := by
  have hzero : value = "0" ↔ value.toList = ['0'] := by
    rw [← String.toList_inj]
    rfl
  unfold shortestDecimal
  rw [hzero]
  cases value.toList with
  | nil => simp
  | cons first others =>
    simp only [List.isEmpty_iff, Bool.or_eq_true, Bool.and_eq_true, beq_iff_eq, bne_iff_ne,
      ne_eq, List.cons.injEq, List.head?_cons, Option.some.injEq, List.all_cons, reduceCtorEq,
      not_false_eq_true, true_and]
    constructor
    · rintro (⟨rfl, rfl⟩ | ⟨⟨hdigit, hne⟩, hall⟩)
      · exact ⟨⟨by decide, rfl⟩, .inl ⟨rfl, rfl⟩⟩
      · exact ⟨⟨hdigit, hall⟩, .inr hne⟩
    · rintro ⟨⟨hdigit, hall⟩, h | hne⟩
      · exact .inl h
      · exact .inr ⟨⟨hdigit, hne⟩, hall⟩

/-- Digits are parsed to their value, where it fits. -/
theorem parseU64_of_digits {value : String} (hne : value.toList ≠ [])
    (hdigits : value.toList.all Char.isDigit = true) :
    parseU64 value = UInt64.ofNat? (Decimal.value value.toList) := by
  have hplus : ∀ rest, value.toList ≠ '+' :: rest := by
    intro rest heq
    rw [heq, List.all_cons] at hdigits
    exact absurd (Bool.and_eq_true_iff.mp hdigits).1 (by decide)
  unfold parseU64
  split
  · next rest heq => exact absurd heq (hplus rest)
  · simp only [hdigits, List.isEmpty_iff, hne, Bool.not_true, Bool.or_false, if_false]
    rfl

/-- The two readers of a batch number accept the same numerals. -/
theorem uint64String_eq_ok {value label : String} {n : Nat} :
    uint64String value label = .ok n ↔ ∃ w, parseUint64 value = some w ∧ n = w.toNat := by
  have hempty : value.isEmpty = true ↔ value.toList = [] := by
    rw [String.isEmpty_iff, ← String.toList_inj]
    rfl
  have hguard : (value.isEmpty || (value != "0"
      && (value.toList.head? == some '0' || !value.toList.all Char.isDigit))) = false
        ↔ shortestDecimal value = true := by
    rw [shortestDecimal_iff, Bool.or_eq_false_iff, ← Bool.not_eq_true, hempty]
    by_cases hzero : value = "0"
    · subst hzero
      decide
    · simp [hzero, and_comm]
  unfold uint64String parseUint64
  simp only [Except.bind_eq_ok, Except.require_eq_ok, decide_eq_true_eq, pure, Except.pure,
    Except.ok.injEq]
  by_cases hshape : shortestDecimal value = true
  · obtain ⟨hne, hdigits, -⟩ := shortestDecimal_iff.mp hshape
    rw [if_neg (by rw [hguard.mpr hshape]; decide), parseU64_of_digits hne hdigits]
    simp only [UInt64.ofNat?_eq_some, hshape, true_and, exists_const, maxUint64]
    constructor
    · rintro ⟨hle, rfl⟩
      exact ⟨UInt64.ofNat _, UInt64.toNat_ofNat_of_lt64 (by omega),
        (UInt64.toNat_ofNat_of_lt64 (by omega)).symm⟩
    · rintro ⟨w, hw, rfl⟩
      have hlt := w.toNat_lt
      exact ⟨by omega, hw.symm⟩
  · rw [if_pos (by rw [← hguard, Bool.not_eq_false] at hshape; exact hshape)]
    simp [hshape]

/-- A path that the verifier accepts is accepted: the checker forbids fewer control characters. -/
theorem portablePath_of_validate {path : String} (h : validatePortablePath path = .ok ()) :
    portablePath path = .ok path := by
  simp only [validatePortablePath, Except.require_eq_ok, Bool.not_eq_true', notPortable,
    Bool.or_eq_false_iff] at h
  obtain ⟨⟨⟨⟨⟨⟨⟨hempty, hslash⟩, hback⟩, hbacks⟩, hcolon⟩, hcontrol⟩, -⟩, hparts⟩ := h
  have hcontrol' : (path.toList.any fun c => c.toNat < 0x20 || c.toNat == 0x7f) = false := by
    rw [List.any_eq_false] at hcontrol ⊢
    intro c hc
    have hne := hcontrol c hc
    simp only [isControl, Bool.or_eq_true, Bool.and_eq_true, decide_eq_true_eq, not_or,
      not_and] at hne
    simp only [Bool.or_eq_true, decide_eq_true_eq, beq_iff_eq, not_or]
    omega
  simp only [portablePath, Except.bind_eq_ok, Except.require_eq_ok, pure, Except.pure]
  refine ⟨(), by rw [hempty]; rfl, (), ?_, (), ?_, trivial⟩
  · rw [hslash, hback, hbacks, hcolon, hcontrol']
    rfl
  · rw [Bool.not_eq_true']
    exact hparts

variable {segment : SegmentRecord}

/-- The checker's count of a batch is the length of its aligned chunk. -/
theorem expectedCount_eq_chunkLength (h : Aligned segment) {number : Nat}
    (hlt : number < segment.batchRoots.length) :
    expectedCount segment.recordCount.toNat segment.closurePolicy.batchRecordLimit.toNat
        segment.batchRoots.length number
      = (chunkLength segment.closurePolicy.batchRecordLimit.toNat segment.recordCount.toNat number
          : Nat) := by
  rw [h.count] at hlt ⊢
  unfold expectedCount
  split_ifs with hlast
  · rw [chunkLength_of_not_last hlast]
  · have hbefore := mul_lt_of_lt_chunkCount hlt
    rw [chunkLength_of_last h.limit_pos (by omega), Int.ofNat_sub hbefore.le, Int.natCast_mul]

/-- The verifier's count of a batch is the length of its aligned chunk. -/
theorem cardinalitiesValid_singleton (h : Aligned segment) {number : UInt64}
    (hlt : number.toNat < segment.batchRoots.length) {opening : RecordBatchOpening} :
    cardinalitiesValid segment [(number, opening)] = true
      ↔ opening.records.length = chunkLength segment.closurePolicy.batchRecordLimit.toNat
        segment.recordCount.toNat number.toNat := by
  obtain ⟨expected, hexpected⟩ := exists_expectedOpeningCount h hlt
  have hvalue := expectedOpeningCount_eq h hexpected
  simp only [cardinalitiesValid, List.all_cons, List.all_nil, Bool.and_true, hexpected]
  rw [← hvalue]
  cases hlength : UInt64.ofNat? opening.records.length with
  | none =>
    rw [UInt64.ofNat?_eq_none] at hlength
    have hbound := expected.toNat_lt
    simp only [Bool.false_eq_true, false_iff]
    omega
  | some actual =>
    rw [UInt64.ofNat?_eq_some] at hlength
    simp only [beq_iff_eq, ← UInt64.toNat_inj, hlength]

/-- The checker indexes an opening with a new number, in range, and with as many records as its
batch. -/
theorem indexOpening_eq_ok (h : Aligned segment) {numbers : List UInt64}
    {openings : List RecordBatchOpening} (hlength : openings.length = numbers.length)
    {opening : RecordBatchOpening} (hrecords : opening.records ≠ [])
    {indexed : List (Nat × RecordBatchOpening)} :
    indexOpening segment.recordCount.toNat segment.closurePolicy.batchRecordLimit.toNat
        segment.batchRoots.length ((numbers.map UInt64.toNat).zip openings) opening = .ok indexed
      ↔ ∃ number, parseUint64 opening.batchNumber = some number ∧ number ∉ numbers
        ∧ number.toNat < segment.batchRoots.length
        ∧ cardinalitiesValid segment [(number, opening)] = true
        ∧ indexed = ((numbers ++ [number]).map UInt64.toNat).zip (openings ++ [opening]) := by
  have hfst : ((numbers.map UInt64.toNat).zip openings).map Prod.fst
      = numbers.map UInt64.toNat := List.map_fst_zip (by simp [hlength])
  have hzip : ∀ number : UInt64,
      ((numbers ++ [number]).map UInt64.toNat).zip (openings ++ [opening])
        = (numbers.map UInt64.toNat).zip openings ++ [(number.toNat, opening)] := by
    intro number
    rw [List.map_append, List.zip_append (by simp [hlength])]
    rfl
  have hmem : ∀ number : UInt64, number.toNat ∈ numbers.map UInt64.toNat ↔ number ∈ numbers := by
    intro number
    exact List.mem_map_of_injective fun a b hab => UInt64.toNat_inj.mp hab
  simp only [indexOpening, Except.bind_eq_ok, uint64String_eq_ok, Except.require_eq_ok, pure,
    Except.pure, Except.ok.injEq, hfst, hzip, decide_eq_true_eq, Bool.not_eq_true',
    Bool.or_eq_false_iff, List.contains_eq_mem, decide_eq_false_iff_not, not_le,
    List.isEmpty_eq_false_iff]
  constructor
  · rintro ⟨n, ⟨number, hparse, rfl⟩, u, ⟨⟨hfresh, hlt⟩, -⟩, u', hcount, rfl⟩
    rw [hmem] at hfresh
    rw [expectedCount_eq_chunkLength h hlt, Int.natCast_inj] at hcount
    exact ⟨number, hparse, hfresh, hlt, (cardinalitiesValid_singleton h hlt).mpr hcount, rfl⟩
  · rintro ⟨number, hparse, hfresh, hlt, hcount, rfl⟩
    refine ⟨number.toNat, ⟨number, hparse, rfl⟩, (), ⟨⟨?_, hlt⟩, hrecords⟩, (), ?_, rfl⟩
    · rwa [hmem]
    · rw [expectedCount_eq_chunkLength h hlt, Int.natCast_inj]
      exact (cardinalitiesValid_singleton h hlt).mp hcount

/-- The first loop indexes the openings exactly when they are numbered and each has the records the
segment commits to. -/
theorem indexOpenings_eq_ok (h : Aligned segment) {openings : List RecordBatchOpening}
    (hrecords : ∀ opening ∈ openings, opening.records ≠ [])
    {indexed : List (Nat × RecordBatchOpening)} :
    indexOpenings segment.recordCount.toNat segment.closurePolicy.batchRecordLimit.toNat
        segment.batchRoots.length openings = .ok indexed
      ↔ ∃ numbers, Numbered segment.batchRoots.length openings numbers
        ∧ cardinalitiesValid segment (numbers.zip openings) = true
        ∧ indexed = (numbers.map UInt64.toNat).zip openings := by
  induction openings using List.reverseRecOn generalizing indexed with
  | nil =>
    constructor
    · intro hindexed
      cases hindexed
      exact ⟨[], ⟨rfl, List.nodup_nil, by simp⟩, rfl, rfl⟩
    · rintro ⟨numbers, hnumbers, -, rfl⟩
      obtain rfl : numbers = [] := List.length_eq_zero_iff.mp hnumbers.length_eq.symm
      rfl
  -- the last opening is indexed after the others
  | append_singleton openings opening ih =>
    replace ih := fun {indexed} =>
      @ih (fun opening hopening => hrecords opening (List.mem_append_left _ hopening)) indexed
    have hopening := hrecords opening (by simp)
    have hcards : ∀ (front : List UInt64) (number : UInt64), openings.length = front.length →
        (cardinalitiesValid segment ((front ++ [number]).zip (openings ++ [opening])) = true
          ↔ cardinalitiesValid segment (front.zip openings) = true
            ∧ cardinalitiesValid segment [(number, opening)] = true) := by
      intro front number hlength
      rw [List.zip_append hlength.symm]
      simp [cardinalitiesValid]
    unfold indexOpenings at ih ⊢
    simp only [List.foldlM_append, List.foldlM_cons, List.foldlM_nil, bind_pure,
      Except.bind_eq_ok, ih, numbered_concat]
    constructor
    · rintro ⟨before, ⟨front, hfront, hcardinalities, rfl⟩, hlast⟩
      obtain ⟨number, hparse, hfresh, hlt, hcount, rfl⟩ :=
        (indexOpening_eq_ok h hfront.length_eq hopening).mp hlast
      exact ⟨front ++ [number], ⟨front, number, rfl, hfront, hparse, hfresh, hlt⟩,
        (hcards front number hfront.length_eq).mpr ⟨hcardinalities, hcount⟩, rfl⟩
    · rintro ⟨numbers, ⟨front, number, rfl, hfront, hparse, hfresh, hlt⟩, hcardinalities, rfl⟩
      obtain ⟨hbefore, hcount⟩ := (hcards front number hfront.length_eq).mp hcardinalities
      exact ⟨_, ⟨front, hfront, hbefore, rfl⟩, (indexOpening_eq_ok h hfront.length_eq hopening).mpr
        ⟨number, hparse, hfresh, hlt, hcount, rfl⟩⟩

/-! ## The class and the selection agree -/

/-- A number is known from the natural number it stands for. -/
theorem toNat_injective : Function.Injective UInt64.toNat := fun _ _ hab => UInt64.toNat_inj.mp hab

/-- The numbers of the checker's index are those of the verifier's. -/
theorem numbers_of_indexed {openings : List RecordBatchOpening} {numbers : List UInt64}
    (hlength : openings.length = numbers.length) :
    (((numbers.map UInt64.toNat).zip openings).map Prod.fst).toFinset
      = numbers.toFinset.image UInt64.toNat := by
  rw [List.map_fst_zip (by simp [hlength])]
  ext n
  simp

variable {manifest : Manifest} {numbers : List UInt64}

/-- There are as many numbers as openings. -/
theorem Numbered.card_eq {batchCount : Nat} {openings : List RecordBatchOpening}
    (h : Numbered batchCount openings numbers) : numbers.toFinset.card = openings.length := by
  rw [List.toFinset_card_of_nodup h.nodup, h.length_eq]

/-- Numbers below the count are all of them exactly when they are as many. -/
theorem Numbered.image_eq_range_iff {batchCount : Nat} {openings : List RecordBatchOpening}
    (h : Numbered batchCount openings numbers) :
    numbers.toFinset.image UInt64.toNat = Finset.range batchCount
      ↔ openings.length = batchCount := by
  have hcard : (numbers.toFinset.image UInt64.toNat).card = openings.length := by
    rw [Finset.card_image_of_injective _ toNat_injective, Numbered.card_eq h]
  constructor
  · intro hrange
    rw [← hcard, hrange, Finset.card_range]
  · intro hlength
    refine Finset.eq_of_subset_of_card_le ?_ (by rw [Finset.card_range, hcard, hlength])
    intro n hn
    obtain ⟨number, hnumber, rfl⟩ := Finset.mem_image.mp hn
    exact Finset.mem_range.mpr (h.lt number (List.mem_toFinset.mp hnumber))

/-- The two test the shape of a class alike. -/
theorem classShape_iff
    (h : Numbered segment.batchRoots.length manifest.artifacts.openings numbers)
    (hclass : manifest.disclosureClass ∈ ["A", "B", "C"]) :
    classShape manifest.disclosureClass segment.recordCount.toNat segment.batchRoots.length
        manifest.artifacts.openings (numbers.toFinset.image UInt64.toNat) = .ok ()
      ↔ shapeValid manifest segment numbers.toFinset = true := by
  have hcard : (numbers.toFinset.image UInt64.toNat).card = manifest.artifacts.openings.length := by
    rw [Finset.card_image_of_injective _ toNat_injective, Numbered.card_eq h]
  have hzero : segment.recordCount.toNat = 0 ↔ segment.recordCount = 0 := by
    rw [← UInt64.toNat_inj, UInt64.toNat_zero]
  have hempty : manifest.artifacts.openings.isEmpty = true
      ↔ manifest.artifacts.openings.length = 0 := by
    rw [List.isEmpty_iff, List.length_eq_zero_iff]
  have hrange := Numbered.image_eq_range_iff h
  have hnumbers := Numbered.card_eq h
  unfold classShape shapeValid
  simp only [Except.bind_eq_ok, Except.require_eq_ok, hcard, hnumbers]
  simp only [List.mem_cons, List.not_mem_nil, or_false] at hclass
  rcases hclass with hclass | hclass | hclass
  · simp only [hclass, decide_true, Bool.true_and, String.reduceEq, decide_false, Bool.false_and,
      Bool.not_false, if_true, and_true, exists_const]
    by_cases hcount : segment.recordCount = 0
    · simp [hcount, hempty]
    · have hpos : 0 < segment.recordCount.toNat :=
        Nat.pos_of_ne_zero fun hne => hcount (hzero.mp hne)
      simp [hcount, hzero, hpos, hrange]
  · simp [hclass, List.length_pos_iff, and_assoc]
  · simp [hclass, hempty]

/-- The selection of the verifier, in one condition per class. -/
theorem consumeFor_disclosed_iff {policy : VerifyPolicy} {indexed consume : Finset UInt64} :
    consumeFor manifest segment policy .disclosedBatchRecompute indexed = .batches consume
      ↔ 1 < segment.batchRoots.length ∧ manifest.disclosureClass ≠ "C"
        ∧ (manifest.disclosureClass = "A" → policy.selectedBatches ≠ ∅
          ∧ policy.selectedBatches.card < segment.batchRoots.length
          ∧ policy.selectedBatches ⊆ indexed ∧ consume = policy.selectedBatches)
        ∧ (manifest.disclosureClass ≠ "A" →
          (policy.selectedBatches = ∅ ∨ policy.selectedBatches = indexed)
          ∧ consume = indexed) := by
  unfold consumeFor
  dsimp only
  split_ifs with hcount hclass hselected hselected
  · simp only [false_iff]
    rintro ⟨hlt, hne, -⟩
    exact hcount.elim (fun hle => absurd hlt (by omega)) hne
  · simp only [false_iff]
    have hrefused : policy.selectedBatches ≠ ∅
        ∧ policy.selectedBatches.card < segment.batchRoots.length
        ∧ policy.selectedBatches ⊆ indexed → False := by
      rintro ⟨hne, hcard, hsub⟩
      exact hselected.elim hne fun h => h.elim (fun hle => absurd hcard (by omega)) (· hsub)
    tauto
  · simp only [not_or, not_le, not_not] at hcount hselected
    simp only [Consume.batches.injEq]
    tauto
  · simp only [false_iff]
    tauto
  · simp only [not_or, not_le, not_and, not_not] at hcount hselected
    simp only [Consume.batches.injEq]
    tauto

/-- The set the checker takes at the scope of disclosed batches, and what it asks of it. -/
theorem consumedFor_disclosed_iff {disclosure : String} {batches : Nat}
    {selected indexed : Finset UInt64} {consumed : Finset Nat} :
    consumedFor .disclosedBatchRecompute disclosure batches (selected.image UInt64.toNat)
        (indexed.image UInt64.toNat) = .ok consumed
      ↔ ∃ taken, (selected = ∅ → taken = indexed) ∧ (selected ≠ ∅ → taken = selected)
        ∧ 1 < batches ∧ taken ≠ ∅ ∧ taken ⊆ indexed ∧ taken.card < batches
        ∧ (disclosure = "B" → selected = ∅ ∨ selected = indexed)
        ∧ consumed = taken.image UInt64.toNat := by
  -- sets of batch numbers and of their values correspond
  have hcard : ∀ batches : Finset UInt64, (batches.image UInt64.toNat).card = batches.card :=
    fun batches => Finset.card_image_of_injective _ toNat_injective
  have hsub : ∀ batches batches' : Finset UInt64,
      batches.image UInt64.toNat ⊆ batches'.image UInt64.toNat ↔ batches ⊆ batches' :=
    fun batches batches' => Finset.image_subset_image_iff toNat_injective
  have heq : ∀ batches batches' : Finset UInt64,
      batches.image UInt64.toNat = batches'.image UInt64.toNat ↔ batches = batches' :=
    fun batches batches' => (Finset.image_injective toNat_injective).eq_iff
  simp only [consumedFor, Except.bind_eq_ok, Except.require_eq_ok, pure, Except.pure,
    Except.ok.injEq, Bool.not_eq_true', Bool.or_eq_false_iff, decide_eq_false_iff_not,
    Bool.not_eq_false', decide_eq_true_eq, Bool.and_eq_false_iff, not_le]
  -- nothing is selected: all that is indexed is taken
  by_cases hselected : selected = ∅
  · subst hselected
    rw [if_pos (Finset.image_empty _)]
    simp only [hcard, hsub, Finset.image_eq_empty]
    constructor
    · rintro ⟨_, ⟨⟨⟨hcount, hne⟩, hsubset⟩, hlt⟩, _, -, rfl⟩
      exact ⟨indexed, by simp, by simp, hcount, hne, hsubset, hlt, by simp, rfl⟩
    · rintro ⟨taken, htaken, -, hcount, hne, hsubset, hlt, -, rfl⟩
      obtain rfl := htaken trivial
      exact ⟨(), ⟨⟨⟨hcount, hne⟩, hsubset⟩, hlt⟩, (), .inl (.inr (by simp)), rfl⟩
  -- what is selected is taken
  · rw [if_neg (by rwa [Finset.image_eq_empty])]
    simp only [Finset.image_eq_empty, hcard, hsub, heq, ne_eq]
    constructor
    · rintro ⟨_, ⟨⟨⟨hcount, -⟩, hsubset⟩, hlt⟩, _, hexact, rfl⟩
      refine ⟨selected, by simp [hselected], by simp, hcount, hselected, hsubset, hlt, ?_, rfl⟩
      intro hB
      simpa [hB] using hexact
    · rintro ⟨taken, -, htaken, hcount, -, hsubset, hlt, hexact, rfl⟩
      obtain rfl := htaken hselected
      refine ⟨(), ⟨⟨⟨hcount, hselected⟩, hsubset⟩, hlt⟩, (), ?_, rfl⟩
      by_cases hB : disclosure = "B"
      · simpa [hB, hselected] using hexact hB
      · simp [hB]

section

variable [Sha256]

/-- The batches that the checker consumes are those the verifier does; where the verifier opens
none, the checker consumes none. -/
theorem consumedFor_iff (hvalid : segment.validateDetailed = .ok ())
    (h : Shaped manifest segment numbers) (hclass : manifest.disclosureClass ∈ ["A", "B", "C"])
    {policy : VerifyPolicy} {scope : VerificationScope} {consumed : Finset Nat} :
    consumedFor scope manifest.disclosureClass segment.batchRoots.length
        (policy.selectedBatches.image UInt64.toNat) (numbers.toFinset.image UInt64.toNat)
        = .ok consumed
      ↔ (consumeFor manifest segment policy scope numbers.toFinset = .nothing ∧ consumed = ∅)
        ∨ ∃ consume, consumeFor manifest segment policy scope numbers.toFinset = .batches consume
          ∧ consumed = consume.image UInt64.toNat := by
  cases scope with
  | anchorOnly => simp [consumedFor, consumeFor, pure, Except.pure, eq_comm]
  | publicRecompute =>
    -- public scope takes everything, of class `A` only
    simp only [consumedFor, consumeFor, Except.bind_eq_ok, Except.require_eq_ok, decide_eq_true_eq,
      pure, Except.pure, Except.ok.injEq]
    by_cases hA : manifest.disclosureClass = "A"
    · simp [hA, eq_comm]
    · simp [hA]
  -- disclosed scope takes what was selected, or what is disclosed where nothing was
  | disclosedBatchRecompute =>
    have hlength := Numbered.card_eq h.numbered
    have hshape := h.shape
    unfold shapeValid at hshape
    dsimp only at hshape
    simp only [consumedFor_disclosed_iff, consumeFor_disclosed_iff,
      consumeFor_disclosed_ne_nothing, false_and, false_or]
    simp only [List.mem_cons, List.not_mem_nil, or_false] at hclass
    rcases hclass with hclass | hclass | hclass
    · -- all batches are indexed, so that a proper part of them has to be named
      have hall := h.length_of_classA hvalid hclass
      rw [← h.numbered.length_eq, ← hlength] at hall
      simp only [hclass, String.reduceEq, ne_eq, not_false_eq_true, true_and, not_true_eq_false,
        false_implies, and_true, forall_const]
      constructor
      · rintro ⟨taken, hempty, hselected, hcount, hne, hsub, hlt, rfl⟩
        by_cases hnone : policy.selectedBatches = ∅
        · rw [hempty hnone, hall] at hlt
          omega
        · obtain rfl := hselected hnone
          exact ⟨_, ⟨hcount, hnone, hlt, hsub, rfl⟩, rfl⟩
      · rintro ⟨consume, ⟨hcount, hnone, hlt, hsub, rfl⟩, rfl⟩
        exact ⟨_, fun hempty => absurd hempty hnone, fun _ => rfl, hcount, hnone, hsub, hlt, rfl⟩
    · -- a proper part is indexed, and it is that part
      simp only [hclass, String.reduceEq, if_false, if_true, Bool.and_eq_true, decide_eq_true_eq,
        ← hlength] at hshape
      have hne : numbers.toFinset ≠ ∅ := fun hempty => hshape.1.2 (by rw [hempty]; rfl)
      simp only [hclass, String.reduceEq, ne_eq, not_false_eq_true, true_and, false_implies,
        forall_const]
      constructor
      · rintro ⟨taken, hempty, hselected, hcount, -, -, -, hexact, rfl⟩
        refine ⟨_, ⟨hcount, hexact, rfl⟩, ?_⟩
        rcases hexact with hnone | hsame
        · rw [hempty hnone]
        · rw [hselected (hsame ▸ hne), hsame]
      · rintro ⟨consume, ⟨hcount, hexact, rfl⟩, rfl⟩
        refine ⟨_, fun _ => rfl, fun hnone => ?_, hcount, hne, subset_rfl, hshape.2, hexact, rfl⟩
        exact (hexact.resolve_left hnone).symm
    · -- nothing is indexed
      simp only [hclass, String.reduceEq, if_false, if_true, decide_eq_true_eq,
        ← hlength, Finset.card_eq_zero] at hshape
      simp only [hclass, ne_eq, not_true_eq_false, false_and, and_false, exists_false, iff_false]
      rintro ⟨taken, -, -, -, hne, hsub, -⟩
      rw [hshape, Finset.subset_empty] at hsub
      exact hne hsub

/-! ## The records agree -/

variable {dir : Directory} {get : String → CheckResult Bytes}

variable (dir get) in
/-- A referenced file is at hand: in the directory, and the same from the server. -/
def Available (reference : ArtifactRef) : Prop :=
  ∃ bytes, dir.safeRead reference.path = .ok bytes ∧ get reference.path = .ok bytes

variable (get) in
/-- A referenced file is within the checker's limit on items. -/
def FewItems (reference : ArtifactRef) : Prop :=
  ∀ bytes, get reference.path = .ok bytes →
    ∀ item : Item, item.encode = bytes → item.count ≤ maxCborItems

omit [Sha256] in
/-- Below the item guard the checker takes the canonical records of the verifier. -/
theorem validateRecord_iff {record : Bytes}
    (hitems : ∀ item : Item, item.encode = record → item.count ≤ maxCborItems) {u : Unit} :
    validateRecord record = .ok u ↔ ∃ metadata, validateCanonicalRecord record = .ok metadata := by
  rw [show u = () from rfl, validateRecord_eq_ok]
  simp only [validateCanonicalRecord_eq_ok]
  constructor
  · rintro ⟨m, payload, hversion, hpayload, hrecord, -⟩
    exact ⟨m, hversion, payload, hpayload, hrecord⟩
  · rintro ⟨m, hversion, payload, hpayload, hrecord⟩
    exact ⟨m, payload, hversion, hpayload, hrecord, hitems _ hrecord.symm⟩

/-- The checker opens the record that the verifier reads from the directory. -/
theorem openRecord_eq_ok {reference : ArtifactRef} (havailable : Available dir get reference)
    (hitems : FewItems get reference) {leaf : Digest} :
    openRecord get reference = .ok leaf
      ↔ ∃ record, dir.referencedArtifact reference = .ok record
        ∧ (∃ metadata, validateCanonicalRecord record = .ok metadata)
        ∧ leaf = prefixedHash 0 record := by
  obtain ⟨bytes, hread, hget⟩ := havailable
  have hpath := portablePath_of_validate (Directory.safeRead_eq_ok.mp hread).1
  simp only [openRecord, fetchRef, artifactRef, hpath, hread, Except.bind_eq_ok,
    Except.require_eq_ok, Directory.referencedArtifact_eq_ok, hexMatch_eq_validHex, pure,
    Except.pure, Except.ok.injEq, beq_iff_eq]
  constructor
  · rintro ⟨record, ⟨_, ⟨_, rfl, _, hhex, rfl⟩, _, hgot, _, hdigest, rfl⟩, _, hrecord, rfl⟩
    cases hget.symm.trans hgot
    exact ⟨bytes, ⟨hhex, rfl, hdigest⟩, (validateRecord_iff (hitems _ hget)).mp hrecord, rfl⟩
  · rintro ⟨record, ⟨hhex, rfl, hdigest⟩, hrecord, rfl⟩
    exact ⟨bytes, ⟨_, ⟨_, rfl, (), hhex, rfl⟩, bytes, hget, (), hdigest, rfl⟩, (),
      (validateRecord_iff (hitems _ hget)).mpr hrecord, rfl⟩

/-- The checker opens the records of a batch that the verifier reads. -/
theorem mapM_openRecord {references : List ArtifactRef}
    (havailable : ∀ reference ∈ references, Available dir get reference)
    (hitems : ∀ reference ∈ references, FewItems get reference) {leaves : List Digest} :
    references.mapM (openRecord get) = .ok leaves
      ↔ ∃ records, references.mapM dir.referencedArtifact = .ok records
        ∧ (∀ record ∈ records, ∃ metadata, validateCanonicalRecord record = .ok metadata)
        ∧ leaves = records.map (prefixedHash 0) := by
  simp only [Except.mapM_eq_ok_iff]
  induction references generalizing leaves with
  | nil =>
    constructor
    · intro h
      cases h
      exact ⟨[], .nil, by simp, rfl⟩
    · rintro ⟨records, hrecords, -, rfl⟩
      cases hrecords
      exact .nil
  | cons reference references ih =>
    replace ih := fun {leaves} =>
      @ih (fun r hr => havailable r (List.mem_cons_of_mem _ hr))
        (fun r hr => hitems r (List.mem_cons_of_mem _ hr)) leaves
    have hfirst := fun {leaf} => @openRecord_eq_ok _ dir get reference
      (havailable reference List.mem_cons_self) (hitems reference List.mem_cons_self) leaf
    constructor
    · intro h
      cases h with
      | cons hleaf hleaves =>
        obtain ⟨record, hread, hcanonical, rfl⟩ := hfirst.mp hleaf
        obtain ⟨records, hreads, hcanonicals, rfl⟩ := ih.mp hleaves
        exact ⟨record :: records, .cons hread hreads,
          List.forall_mem_cons.mpr ⟨hcanonical, hcanonicals⟩, rfl⟩
    · rintro ⟨records, hreads, hcanonicals, rfl⟩
      cases hreads with
      | cons hread hreads =>
        obtain ⟨hcanonical, hcanonicals⟩ := List.forall_mem_cons.mp hcanonicals
        exact .cons (hfirst.mpr ⟨_, hread, hcanonical, rfl⟩)
          (ih.mpr ⟨_, hreads, hcanonicals, rfl⟩)

/-- The checker opens a batch that the verifier reads, and finds its root. -/
theorem openBatch_eq_ok (haligned : Aligned segment) (h : Shaped manifest segment numbers)
    (havailable : ∀ opening ∈ manifest.artifacts.openings, ∀ reference ∈ opening.records,
      Available dir get reference)
    (hitems : ∀ opening ∈ manifest.artifacts.openings, ∀ reference ∈ opening.records,
      FewItems get reference)
    {number : UInt64} {opening : RecordBatchOpening}
    (hmem : (number, opening) ∈ numbers.zip manifest.artifacts.openings)
    {opened : Nat × List Digest} :
    openBatch get segment.batchRoots
        ((numbers.map UInt64.toNat).zip manifest.artifacts.openings) number.toNat = .ok opened
      ↔ ∃ batch, BatchRead dir segment (number, opening) batch ∧ opened = sortedBatch batch := by
  obtain ⟨hopening, hparse⟩ := h.numbered.mem_zip.mp hmem
  have hlt := h.numbered.lt number (List.of_mem_zip hmem).1
  have hcount : cardinalitiesValid segment [(number, opening)] = true := by
    have hall := h.cardinalities
    rw [cardinalitiesValid, List.all_eq_true] at hall
    simpa [cardinalitiesValid] using hall _ hmem
  rw [cardinalitiesValid_singleton haligned hlt] at hcount
  have hlookup : ((numbers.map UInt64.toNat).zip manifest.artifacts.openings).lookup number.toNat
      = some opening := by
    have hlength := h.numbered.length_eq
    rw [TreeMap.lookup_eq_some_iff_mem, List.zip_map_left, List.mem_map]
    · exact ⟨(number, opening), hmem, rfl⟩
    · rw [List.map_fst_zip (by simp [hlength])]
      exact h.numbered.nodup.map toNat_injective
  simp only [openBatch, hlookup, Option.map_some, Option.getD_some,
    Except.bind_eq_ok, mapM_openRecord (havailable opening hopening) (hitems opening hopening),
    Except.require_eq_ok, decide_eq_true_eq, pure, Except.pure, Except.ok.injEq, tree_eq_mth]
  constructor
  · rintro ⟨leaves, ⟨records, hread, hcanonical, rfl⟩, _, hroot, rfl⟩
    refine ⟨(number, records), ⟨rfl, hread, hcanonical, ?_, hroot⟩, rfl⟩
    obtain ⟨expected, hexpected⟩ := exists_expectedOpeningCount haligned hlt
    rw [hexpected, UInt64.ofNat?_eq_some, expectedOpeningCount_eq haligned hexpected, ← hcount]
    exact (Except.mapM_eq_ok_iff.mp hread).length_eq
  · rintro ⟨⟨_, records⟩, ⟨rfl, hread, hcanonical, -, hroot⟩, rfl⟩
    exact ⟨_, ⟨records, hread, hcanonical, rfl⟩, (), hroot, rfl⟩

/-- The checker opens the batches that the verifier reads. -/
theorem forall₂_openBatch (haligned : Aligned segment) (h : Shaped manifest segment numbers)
    (havailable : ∀ opening ∈ manifest.artifacts.openings, ∀ reference ∈ opening.records,
      Available dir get reference)
    (hitems : ∀ opening ∈ manifest.artifacts.openings, ∀ reference ∈ opening.records,
      FewItems get reference)
    {openings : List (UInt64 × RecordBatchOpening)}
    (hopenings : ∀ opening ∈ openings, opening ∈ numbers.zip manifest.artifacts.openings)
    {opened : List (Nat × List Digest)} :
    List.Forall₂ (fun opening batch => openBatch get segment.batchRoots
        ((numbers.map UInt64.toNat).zip manifest.artifacts.openings) opening.1.toNat = .ok batch)
        openings opened
      ↔ ∃ batches, List.Forall₂ (BatchRead dir segment) openings batches
        ∧ opened = batches.map sortedBatch := by
  induction openings generalizing opened with
  | nil =>
    constructor
    · rintro ⟨⟩
      exact ⟨[], .nil, rfl⟩
    · rintro ⟨batches, ⟨⟩, rfl⟩
      exact .nil
  | cons opening openings ih =>
    replace ih := fun {opened} => @ih (fun o ho => hopenings o (List.mem_cons_of_mem _ ho)) opened
    have hfirst := fun {batch} => @openBatch_eq_ok _ _ _ _ _ _ haligned h havailable hitems
      opening.1 opening.2 (hopenings opening List.mem_cons_self) batch
    constructor
    · intro hopened
      cases hopened with
      | cons hopen hrest =>
        obtain ⟨batch, hread, rfl⟩ := hfirst.mp hopen
        obtain ⟨batches, hreads, rfl⟩ := ih.mp hrest
        exact ⟨batch :: batches, .cons hread hreads, rfl⟩
    · rintro ⟨batches, hreads, rfl⟩
      cases hreads with
      | cons hread hrest =>
        exact .cons (hfirst.mpr ⟨_, hread, rfl⟩) (ih.mpr ⟨_, hrest, rfl⟩)

/-- The checker opens the batches in the order of their numbers, and ends with what the verifier
has once it has sorted its own. -/
theorem openBatches_iff (haligned : Aligned segment) (h : Shaped manifest segment numbers)
    (havailable : ∀ opening ∈ manifest.artifacts.openings, ∀ reference ∈ opening.records,
      Available dir get reference)
    (hitems : ∀ opening ∈ manifest.artifacts.openings, ∀ reference ∈ opening.records,
      FewItems get reference)
    {consume : Finset UInt64} (hconsume : consume ⊆ numbers.toFinset)
    {opened : List (Nat × List Digest)} :
    ((consume.image UInt64.toNat).sort (· ≤ ·)).mapM (openBatch get segment.batchRoots
        ((numbers.map UInt64.toNat).zip manifest.artifacts.openings)) = .ok opened
      ↔ ∃ batches, List.Forall₂ (BatchRead dir segment)
          (consumedOpenings consume (numbers.zip manifest.artifacts.openings)) batches
        ∧ opened = inOrder batches := by
  have hnodup := h.numbered.nodup_consumed consume
  have hopenings : ∀ o ∈ consumedOpenings consume (numbers.zip manifest.artifacts.openings),
      o ∈ numbers.zip manifest.artifacts.openings := fun o ho => (List.mem_filter.mp ho).1
  -- the sorted numbers are those of the consumed openings
  have hperm : ((consumedOpenings consume (numbers.zip manifest.artifacts.openings)).map
      fun o => o.1.toNat).Perm ((consume.image UInt64.toNat).sort (· ≤ ·)) := by
    have hkeys : ((consumedOpenings consume (numbers.zip manifest.artifacts.openings)).map
        fun o => o.1.toNat).Nodup := by
      have hmap := hnodup.map toNat_injective
      rwa [List.map_map] at hmap
    rw [List.perm_ext_iff_of_nodup hkeys (Finset.sort_nodup _ _)]
    intro n
    simp only [List.mem_map, Finset.mem_sort, Finset.mem_image]
    constructor
    · rintro ⟨o, ho, rfl⟩
      exact ⟨o.1, by simpa using (List.mem_filter.mp ho).2, rfl⟩
    · rintro ⟨number, hnumber, rfl⟩
      obtain ⟨opening, hopening, hparse⟩ := exists_opening h.numbered hconsume hnumber
      exact ⟨(number, opening), List.mem_filter.mpr ⟨h.numbered.mem_zip.mpr ⟨hopening, hparse⟩,
        by simpa using hnumber⟩, rfl⟩
  -- what is opened in number order is what is sorted afterwards
  have hsorted : ∀ {opened : List (Nat × List Digest)} {batches : List (UInt64 × List Bytes)},
      opened.map Prod.fst = (consume.image UInt64.toNat).sort (· ≤ ·) →
      (batches.map Prod.fst).Nodup → opened.Perm (batches.map sortedBatch) →
      opened = inOrder batches := by
    intro opened batches hfst hbatches hsame
    have hopened : opened.Pairwise fun left right => left.1 < right.1 := by
      have hlt := (consume.image UInt64.toNat).sortedLT_sort.pairwise
      rw [← hfst] at hlt
      exact List.pairwise_map.mp hlt
    refine (hsame.trans (List.mergeSort_perm _ _).symm).eq_of_pairwise
      (fun a b _ _ hab hba => absurd hab (by omega)) hopened (pairwise_inOrder hbatches)
  -- the opened batches have the numbers they were opened for
  have hfst : ∀ {numbers' : List Nat} {opened : List (Nat × List Digest)},
      List.Forall₂ (fun n x => openBatch get segment.batchRoots
        ((numbers.map UInt64.toNat).zip manifest.artifacts.openings) n = .ok x) numbers' opened →
      opened.map Prod.fst = numbers' := by
    intro numbers' opened hopen
    induction hopen with
    | nil => rfl
    | cons hfirst _ ih =>
      simp only [openBatch, Except.bind_eq_ok, pure, Except.pure, Except.ok.injEq] at hfirst
      obtain ⟨_, -, _, -, rfl⟩ := hfirst
      rw [List.map_cons, ih]
  rw [Except.mapM_eq_ok_iff]
  constructor
  -- what is opened in the order of the numbers is read in the order of the manifest
  · intro hopened
    obtain ⟨found, hfound, hfoundPerm⟩ := List.perm_comp_forall₂ hperm hopened
    rw [List.forall₂_map_left_iff] at hfound
    obtain ⟨batches, hread, rfl⟩ :=
      (forall₂_openBatch haligned h havailable hitems hopenings).mp hfound
    exact ⟨batches, hread, hsorted (hfst hopened) (map_fst_of_read hread ▸ hnodup) hfoundPerm.symm⟩
  · rintro ⟨batches, hread, rfl⟩
    have hfound : List.Forall₂ (fun n x => openBatch get segment.batchRoots
        ((numbers.map UInt64.toNat).zip manifest.artifacts.openings) n = .ok x)
        ((consumedOpenings consume (numbers.zip manifest.artifacts.openings)).map
          fun o => o.1.toNat) (batches.map sortedBatch) := by
      rw [List.forall₂_map_left_iff]
      exact (forall₂_openBatch haligned h havailable hitems hopenings).mpr ⟨batches, hread, rfl⟩
    obtain ⟨opened, hopened, hopenedPerm⟩ := List.perm_comp_forall₂ hperm.symm hfound
    rwa [← hsorted (hfst hopened) (map_fst_of_read hread ▸ hnodup) hopenedPerm]

omit [Sha256] in
/-- Two adjacent batches are out of order for the checker as for the verifier. -/
theorem outOfOrder_eq (left right : Nat × List Digest) :
    outOfOrder left right = (left.1 + 1 == right.1 && exceeds left.2 right.2) := by
  unfold outOfOrder exceeds
  cases left.2.getLast? with
  | none => rfl
  | some last => cases right.2.head? <;> rfl

omit [Sha256] in
/-- The checker compares each batch with the next. In increasing order these are the verifier's
pairs. -/
theorem checkAdjacent_iff {opened : List (Nat × List Digest)}
    (h : opened.Pairwise fun left right => left.1 < right.1) :
    checkAdjacent opened = .ok ()
      ↔ ∀ pair ∈ opened.zip opened.tail, outOfOrder pair.1 pair.2 = false := by
  have hnodup : (opened.map Prod.fst).Nodup :=
    List.pairwise_map.mpr (h.imp fun hlt => Nat.ne_of_lt hlt)
  rw [outOfOrder_zip_tail_iff h, checkAdjacent, Except.forM_eq_ok]
  refine forall₂_congr fun left hleft => ?_
  cases hnext : opened.lookup (left.1 + 1) with
  | none =>
    simp only [hnext, true_iff]
    intro right hright
    have hne : left.1 + 1 ≠ right.1 := by
      intro heq
      have hfound := (TreeMap.lookup_eq_some_iff_mem hnodup).mpr hright
      rw [← heq, hnext] at hfound
      cases hfound
    simp [outOfOrder_eq, hne]
  | some next =>
    have hmem := (TreeMap.lookup_eq_some_iff_mem hnodup).mp hnext
    simp only [hnext]
    rw [Except.require_eq_ok, Bool.not_eq_true']
    constructor
    · intro hends right hright
      by_cases heq : left.1 + 1 = right.1
      · have hfound := (TreeMap.lookup_eq_some_iff_mem hnodup).mpr hright
        rw [← heq, hnext, Option.some.injEq] at hfound
        rw [outOfOrder_eq, ← hfound, hends, Bool.and_false]
      · simp [outOfOrder_eq, heq]
    · intro hall
      simpa [outOfOrder_eq] using hall _ hmem

/-! ## The disclosure checks agree -/

/-- At public scope the checker also counts the leaves and looks at the root of an empty segment;
for a valid segment both are as they should be. -/
theorem publicRoot_iff (hvalid : segment.validateDetailed = .ok ())
    (h : Shaped manifest segment numbers) (hclass : manifest.disclosureClass = "A")
    {batches : List (UInt64 × List Bytes)}
    (hread : List.Forall₂ (BatchRead dir segment) (numbers.zip manifest.artifacts.openings) batches)
    (hordered : ∀ pair ∈ (inOrder batches).zip (inOrder batches).tail,
      outOfOrder pair.1 pair.2 = false) :
    (((inOrder batches).flatMap Prod.snd).length = segment.recordCount.toNat
        ∧ tree ((inOrder batches).flatMap Prod.snd) = segment.segmentRoot)
      ↔ (segment.recordCount ≠ 0 →
        mth ((inOrder batches).flatMap Prod.snd) = segment.segmentRoot) := by
  have haligned := aligned_of_validateDetailed hvalid
  have hlength := h.length_of_classA hvalid hclass
  have hfst := fst_of_read h.numbered.length_eq hread
  rw [tree_eq_mth]
  constructor
  · rintro ⟨-, hroot⟩ -
    exact hroot
  · intro hroot
    by_cases hzero : segment.recordCount = 0
    · -- no batch is opened, and the root of a valid empty segment is the empty tree's
      rcases SegmentRecord.roots_of_validateDetailed hvalid with ⟨-, hroots, hempty⟩ | ⟨hne, -⟩
      · rw [hroots] at hlength
        have hnumbers : numbers = [] := List.length_eq_zero_iff.mp hlength
        rw [hnumbers, List.map_eq_nil_iff] at hfst
        subst hfst
        rw [hzero, hempty]
        simp [inOrder, mth]
      · exact absurd hzero hne
    · have hrange : ((batches.map Prod.fst).map UInt64.toNat).Perm
          (List.range segment.batchRoots.length) := by
        rw [hfst]
        exact perm_range_of_nodup h.numbered.nodup h.numbered.lt hlength
      have hrecomputed : Recomputed dir segment .publicRecompute
          (numbers.zip manifest.artifacts.openings) batches :=
        ⟨hread, hordered, fun _ _ => hroot hzero⟩
      obtain ⟨hflatten, hcount, -⟩ := segment_of_recomputed haligned hrange hrecomputed
      refine ⟨?_, hroot hzero⟩
      rw [List.flatMap_def, hflatten, ← hcount]
      simp only [merkleRootFromRecords, List.length_mergeSort, List.length_map]

/-- **The two programs agree on disclosures.** For a valid segment, openings in shape, every class
and every selection, with the referenced files at hand and within the checker's limit on items, the
checker raises nothing exactly when the verifier returns true without a failure. -/
theorem disclosures_agree (segment : SegmentRecord) (manifest : Manifest) (policy : VerifyPolicy)
    (scope : VerificationScope) (dir : Directory) (get : String → CheckResult Bytes)
    (hvalid : segment.validateDetailed = .ok ())
    (hclass : manifest.disclosureClass ∈ ["A", "B", "C"])
    (hlexical : manifest.artifacts.openingsLexical = true)
    (havailable : ∀ opening ∈ manifest.artifacts.openings, ∀ reference ∈ opening.records,
      Available dir get reference)
    (hitems : ∀ opening ∈ manifest.artifacts.openings, ∀ reference ∈ opening.records,
      FewItems get reference) :
    verifyDisclosure get scope (policy.selectedBatches.image UInt64.toNat) manifest.disclosureClass
        manifest.artifacts.openings segment.recordCount.toNat
        segment.closurePolicy.batchRecordLimit.toNat segment.batchRoots segment.segmentRoot = .ok ()
      ↔ (validateDisclosure dir manifest segment policy (Conclusions.new scope)).1 = true
        ∧ (validateDisclosure dir manifest segment policy (Conclusions.new scope)).2.failures
          = ∅ := by
  have haligned := aligned_of_validateDetailed hvalid
  -- no opening is empty: the manifest's check of its form says so
  have hrecords : ∀ opening ∈ manifest.artifacts.openings, opening.records ≠ [] := by
    intro opening hopening
    unfold Artifacts.openingsLexical at hlexical
    unfold Artifacts.openings at hopening
    cases hbatches : manifest.artifacts.recordBatches with
    | none => simp [hbatches] at hopening
    | some openings =>
      simp only [hbatches, Bool.and_eq_true, List.all_eq_true, Bool.not_eq_true',
        List.isEmpty_eq_false_iff] at hlexical
      rw [hbatches] at hopening
      exact (hlexical.2 opening hopening).1
  refine Iff.trans ?_ validateDisclosure_clean.symm
  simp only [verifyDisclosure, Except.bind_eq_ok, indexOpenings_eq_ok haligned hrecords]
  constructor
  -- from the checker to the verifier, step by step
  · rintro ⟨indexed, ⟨numbers, hnumbered, hcardinalities, rfl⟩, _, hshape, consumed, hconsumed,
      opened, hopened, _, hadjacent, hpublic⟩
    rw [numbers_of_indexed hnumbered.length_eq] at hshape hconsumed
    have hshaped : Shaped manifest segment numbers :=
      ⟨hnumbered, (classShape_iff hnumbered hclass).mp hshape, hcardinalities⟩
    refine ⟨numbers, hshaped, ?_⟩
    rcases (consumedFor_iff hvalid hshaped hclass).mp hconsumed with
      ⟨hnothing, -⟩ | ⟨consume, hconsume, rfl⟩
    · exact .inl hnothing
    -- the batches that were opened are in order and, at public scope, have the root
    · obtain ⟨batches, hread, rfl⟩ := (openBatches_iff haligned hshaped havailable hitems
        (consume_subset_of_consumeFor hconsume)).mp hopened
      have hnodup : (batches.map Prod.fst).Nodup :=
        map_fst_of_read hread ▸ hnumbered.nodup_consumed consume
      have hordered := (checkAdjacent_iff (pairwise_inOrder hnodup)).mp hadjacent
      refine .inr ⟨consume, batches, hconsume, hread, hordered, ?_⟩
      rintro rfl
      obtain ⟨hclassA, rfl⟩ := consume_of_consumeFor_public hconsume
      rw [consumedOpenings_zip] at hread
      rw [if_pos rfl, Except.require_eq_ok] at hpublic
      refine (publicRoot_iff hvalid hshaped hclassA hread hordered).mp ?_
      simpa using hpublic
  -- from the verifier to the checker
  · rintro ⟨numbers, hshaped, hconsume⟩
    have hnumbered := hshaped.numbered
    refine ⟨_, ⟨numbers, hnumbered, hshaped.cardinalities, rfl⟩, (), ?_⟩
    rw [numbers_of_indexed hnumbered.length_eq]
    refine ⟨(classShape_iff hnumbered hclass).mpr hshaped.shape, ?_⟩
    -- nothing is consumed
    rcases hconsume with hnothing | ⟨consume, batches, hconsume, hread, hordered, hroot⟩
    · refine ⟨∅, (consumedFor_iff hvalid hshaped hclass).mpr (.inl ⟨hnothing, rfl⟩), [],
        ?_, (), rfl, ?_⟩
      · rw [Finset.sort_empty]
        rfl
      · rw [if_neg]
        · rfl
        · rintro rfl
          exact consumeFor_public_ne_nothing hnothing
    -- the consumed batches are opened
    · have hnodup : (batches.map Prod.fst).Nodup :=
        map_fst_of_read hread ▸ hnumbered.nodup_consumed consume
      refine ⟨consume.image UInt64.toNat,
        (consumedFor_iff hvalid hshaped hclass).mpr (.inr ⟨consume, hconsume, rfl⟩),
        inOrder batches, (openBatches_iff haligned hshaped havailable hitems
          (consume_subset_of_consumeFor hconsume)).mpr ⟨batches, hread, rfl⟩, (),
        (checkAdjacent_iff (pairwise_inOrder hnodup)).mpr hordered, ?_⟩
      split_ifs with hscope
      · subst hscope
        obtain ⟨hclassA, rfl⟩ := consume_of_consumeFor_public hconsume
        rw [consumedOpenings_zip] at hread
        have hpublic := (publicRoot_iff hvalid hshaped hclassA hread hordered).mpr (hroot rfl)
        rw [Except.require_eq_ok]
        simpa using hpublic
      · rfl

/-! ## One record in one batch -/

/-- A segment of one record, disclosed in full. -/
def singleManifest (record : Bytes) : Manifest where
  version := 1
  ledgerId := "b7a1d5e40c6f438e9a75db27c96f31aa"
  segmentNumber := "0"
  commitmentProfileId := commitmentProfileId
  disclosureClass := "A"
  artifacts := {
    segmentCbor := ⟨"segment.cbor", sha256Hex (sampleSealed [record]).cborBody⟩
    predecessorSegmentCbor := none
    recordBatches := some [⟨"0", [⟨"record.cbor", sha256Hex record⟩]⟩]
    tsaReq := none
    tsaTsr := none
    extensions := ∅ }
  tsaStatus := "unavailable"

omit [Sha256] in
def singleFiles (record : Bytes) : Directory := (∅ : Directory).insert "record.cbor" record

omit [Sha256] in
/-- A server with the same file. -/
def singleServer (record : Bytes) (path : String) : CheckResult Bytes :=
  if path = "record.cbor" then .ok record else .error ⟨"HTTP retrieval failed"⟩

/-- The one batch has the leaf of the one record for root. -/
theorem single_roots (record : Bytes) :
    (sampleSealed [record]).batchRoots = [prefixedHash 0 record] := by
  show (chunks 1 ([record].map (prefixedHash 0))).map mth = _
  rw [chunks_of_length_le (by simp) (by simp)]
  simp [mth]

/-- The segment of one record is valid. -/
theorem single_valid (record : Bytes) : (sampleSealed [record]).validateDetailed = .ok () := by
  have hcount : (sampleSealed [record]).recordCount = 1 := rfl
  have hlimit : (sampleSealed [record]).closurePolicy.batchRecordLimit = 1 := rfl
  have hledger : (sampleSealed [record]).ledgerId = "b7a1d5e40c6f438e9a75db27c96f31aa" := rfl
  have hpolicy : (sampleSealed [record]).closurePolicy
    = { intervalMs := 1000, batchRecordLimit := 1, recordLimit := none, sizeLimitBytes := none
        emptyMode := .emit } := rfl
  have hreason : (sampleSealed [record]).closeReason = "manual" := rfl
  rw [validateDetailed_iff_checked, hledger, hpolicy, hreason]
  refine ⟨by decide, rfl, by decide, by decide, fun _ => rfl, ?_, ?_, ?_⟩
  · rw [single_roots, hcount, hlimit, List.length_singleton]
    decide
  · rw [hcount]
    exact fun h => absurd h (by decide)
  · rw [single_roots, tree_eq_mth]
    rfl

omit [Sha256] in
/-- The record is in the directory. -/
theorem single_read {record : Bytes} (hsize : record.length ≤ maxArchiveMember) :
    (singleFiles record).safeRead "record.cbor" = .ok record := by
  rw [Directory.safeRead_eq_ok]
  exact ⟨by decide, by simp [singleFiles], hsize⟩

/-- The server answers with the record. -/
theorem single_available {record : Bytes} (hsize : record.length ≤ maxArchiveMember) :
    ∀ opening ∈ (singleManifest record).artifacts.openings, ∀ reference ∈ opening.records,
      Available (singleFiles record) (singleServer record) reference := by
  intro opening hopening reference hreference
  simp only [singleManifest, Artifacts.openings, Option.getD_some, List.mem_singleton] at hopening
  subst hopening
  rw [List.mem_singleton] at hreference
  subst hreference
  exact ⟨record, single_read hsize, rfl⟩

/-- The one batch has one record. -/
theorem single_expected (record : Bytes) : expectedOpeningCount (sampleSealed [record])
    (sampleSealed [record]).batchRoots.length 0 = some 1 := by
  have hcount : (sampleSealed [record]).recordCount = 1 := rfl
  have hlimit : (sampleSealed [record]).closurePolicy.batchRecordLimit = 1 := rfl
  simp only [single_roots, expectedOpeningCount, hcount, hlimit, List.length_singleton]
  decide

/-- The manifest has the shape of its class. -/
theorem single_shaped (record : Bytes) :
    Shaped (singleManifest record) (sampleSealed [record]) [0] := by
  refine ⟨⟨?_, by simp, by simp [single_roots]⟩, ?_, ?_⟩
  · show [parseUint64 "0"] = [some 0]
    decide
  · have hcount : (sampleSealed [record]).recordCount ≠ 0 := by
      show (1 : UInt64) ≠ 0
      decide
    simp [shapeValid, single_roots, hcount, singleManifest, Artifacts.openings]
  · show cardinalitiesValid (sampleSealed [record])
      [(0, ⟨"0", [⟨"record.cbor", sha256Hex record⟩]⟩)] = true
    simp [cardinalitiesValid, single_expected, UInt64.ofNat?]

/-- The number of the batch is in its shortest form. -/
theorem single_lexical (record : Bytes) :
    (singleManifest record).artifacts.openingsLexical = true := by
  have hparse : (parseUint64 "0").isSome = true := by decide
  simp [singleManifest, Artifacts.openingsLexical, hparse]

/-- The verifier accepts every canonical record. -/
theorem single_accepted {record : Bytes} {metadata : CanonicalRecordMetadataV1}
    (hrecord : validateCanonicalRecord record = .ok metadata)
    (hsize : record.length ≤ maxArchiveMember) (policy : VerifyPolicy) :
    (validateDisclosure (singleFiles record) (singleManifest record) (sampleSealed [record]) policy
        (Conclusions.new .publicRecompute)).1 = true
      ∧ disclosureFailures (singleFiles record) (singleManifest record) (sampleSealed [record])
        policy .publicRecompute = ∅ := by
  have hread : BatchRead (singleFiles record) (sampleSealed [record])
      (0, ⟨"0", [⟨"record.cbor", sha256Hex record⟩]⟩) (0, [record]) := by
    refine ⟨rfl, ?_, by simpa using ⟨metadata, hrecord⟩, ?_, ?_⟩
    · rw [Except.mapM_eq_ok_iff]
      refine .cons (Directory.referencedArtifact_eq_ok.mpr ⟨?_, single_read hsize, rfl⟩) .nil
      exact validHex_sha256Hex record
    · rw [single_expected, UInt64.ofNat?_eq_some]
      rfl
    · rw [single_roots]
      simp [merkleRootFromRecords, mth]
  have hconsumed : consumedOpenings {0} (([0] : List UInt64).zip
      (singleManifest record).artifacts.openings)
        = [(0, ⟨"0", [⟨"record.cbor", sha256Hex record⟩]⟩)] := by
    simp [consumedOpenings, singleManifest, Artifacts.openings]
  refine validateDisclosure_clean.mpr ⟨[0], single_shaped record, .inr ⟨{0}, [(0, [record])], by
    simp [consumeFor, singleManifest], hconsumed ▸ .cons hread .nil, ?_, ?_⟩⟩
  · simp [inOrder]
  · intro _ _
    simp [inOrder, sortedBatch, merkleRootFromRecords, mth, sampleSealed, SegmentRecord.atPosition]

/-- What the checker accepts at public scope it has accepted record by record. -/
theorem single_checked {record : Bytes}
    (h : verifyDisclosure (singleServer record) .publicRecompute ∅ "A"
      (singleManifest record).artifacts.openings (sampleSealed [record]).recordCount.toNat
      (sampleSealed [record]).closurePolicy.batchRecordLimit.toNat
      (sampleSealed [record]).batchRoots (sampleSealed [record]).segmentRoot = .ok ()) :
    validateRecord record = .ok () := by
  have hindexed : indexOpenings (sampleSealed [record]).recordCount.toNat
      (sampleSealed [record]).closurePolicy.batchRecordLimit.toNat
      (sampleSealed [record]).batchRoots.length (singleManifest record).artifacts.openings
        = .ok [(0, ⟨"0", [⟨"record.cbor", sha256Hex record⟩]⟩)] := by
    have hshaped := single_shaped record
    refine (indexOpenings_eq_ok (aligned_of_validateDetailed (single_valid record)) ?_).mpr
      ⟨[0], hshaped.numbered, hshaped.cardinalities, rfl⟩
    simp [singleManifest, Artifacts.openings]
  simp only [verifyDisclosure, Except.bind_eq_ok, hindexed, Except.ok.injEq, consumedFor,
    Except.require_eq_ok, pure, Except.pure] at h
  obtain ⟨_, rfl, _, -, _, ⟨_, -, rfl⟩, opened, hopened, -⟩ := h
  rw [List.map_singleton, List.toFinset_cons, List.toFinset_nil, insert_empty_eq,
    Finset.sort_singleton, Except.mapM_eq_ok_iff] at hopened
  cases hopened with
  | cons hopen _ =>
    simp only [openBatch, List.lookup_cons, beq_self_eq_true, Option.map_some, Option.getD_some,
      Except.bind_eq_ok, Except.mapM_eq_ok_iff] at hopen
    obtain ⟨leaves, hleaves, -⟩ := hopen
    cases hleaves with
    | cons hleaf _ =>
      simp only [openRecord, fetchRef, Except.bind_eq_ok, pure, Except.pure,
        Except.ok.injEq] at hleaf
      obtain ⟨found, ⟨_, -, data, hget, _, -, rfl⟩, _, hrecord, -⟩ := hleaf
      unfold singleServer at hget
      split_ifs at hget
      cases hget
      exact hrecord

omit [Sha256] in
/-- A record whose payload is an array of the given number of zeros. -/
def zerosMetadata : CanonicalRecordMetadataV1 where
  version := 1
  deviceId := ⟨[0, 0, 0, 0, 0, 0, 0, 1], rfl⟩
  fc := 1
  ingestTime := 0
  deviceTime := none
  kind := 0

omit [Sha256] in
def zerosPayload (n : Nat) : Item := .array (List.replicate n (.uint 0))

omit [Sha256] in
def zerosRecord (n : Nat) : Bytes := (recordItem zerosMetadata (zerosPayload n)).encode

omit [Sha256] in
/-- The zeros have one encoding. -/
theorem deterministic_zerosPayload {n : Nat} (h : n < 2 ^ 64) (k : Nat) :
    (zerosPayload n).Deterministic (k + 1) := by
  refine ⟨by simpa using h, fun item hitem => ?_⟩
  rw [List.eq_of_mem_replicate hitem]
  cases k <;> trivial

omit [Sha256] in
/-- The zeros and the array that holds them are counted. -/
theorem count_zerosPayload (n : Nat) : (zerosPayload n).count = n + 1 := by
  have hitems : countItems (List.replicate n (.uint 0)) = n := by
    induction n with
    | zero => rfl
    | succ n ih =>
      rw [List.replicate_succ, countItems, ih, Item.count]
      omega
  rw [zerosPayload, Item.count, hitems]
  omega

omit [Sha256] in
/-- A head takes nine bytes at most. -/
theorem length_head_le (major : UInt8) (n : UInt64) : (DetCbor.head major n).length ≤ 9 := by
  unfold DetCbor.head
  dsimp only
  split_ifs <;> simp

omit [Sha256] in
/-- A zero takes one byte. -/
theorem length_zerosRecord_le (n : Nat) : (zerosRecord n).length ≤ n + 64 := by
  have hzero : (Item.uint 0).encode.length = 1 := by decide
  have hitems : (encodeItems (List.replicate n (.uint 0))).length = n := by
    induction n with
    | zero => rfl
    | succ n ih =>
      rw [List.replicate_succ, encodeItems, List.length_append, ih, hzero]
      omega
  have hpayload : (zerosPayload n).encode.length ≤ n + 9 := by
    have hhead := length_head_le 4 (UInt64.ofNat n)
    simp only [zerosPayload, Item.encode, lengthHead, List.length_append, hitems,
      List.length_replicate]
    omega
  have hrest : (DetCbor.head 4 7).length + ((Item.uint 1).encode.length
      + ((Item.bytes zerosMetadata.deviceId.1).encode.length
      + ((Item.uint zerosMetadata.fc).encode.length
      + ((Item.uint zerosMetadata.ingestTime).encode.length
      + ((deviceTimeItem zerosMetadata.deviceTime).encode.length
      + (Item.uint zerosMetadata.kind).encode.length))))) = 15 := by
    decide
  rw [zerosRecord, encode_recordItem]
  simp only [List.length_append, List.length_nil]
  omega

omit [Sha256] in
/-- A record has one encoding where its payload has. -/
theorem deterministic_recordItem {m : CanonicalRecordMetadataV1} {payload : Item} {k : Nat}
    (h : payload.Deterministic k) : (recordItem m payload).Deterministic (k + 1) := by
  have htime : (deviceTimeItem m.deviceTime).Deterministic k := by
    cases m.deviceTime <;> cases k <;> trivial
  have hdevice : (Item.bytes m.deviceId.1).Deterministic k := by
    have hlength := m.deviceId.2
    have hlt : m.deviceId.1.length < 2 ^ 64 := by omega
    cases k <;> exact hlt
  have huint : ∀ n, (Item.uint n).Deterministic k := by
    intro n
    cases k <;> trivial
  refine ⟨by simp, ?_⟩
  simp only [List.forall_mem_cons]
  exact ⟨huint _, hdevice, huint _, huint _, htime, huint _, h, by simp⟩

omit [Sha256] in
/-- The checker counts the zeros. -/
theorem count_of_validateRecord {n : Nat} (hn : n < 2 ^ 64)
    (h : validateRecord (zerosRecord n) = .ok ()) : n + 8 ≤ maxCborItems := by
  obtain ⟨m, payload, -, hpayload, hencode, hcount⟩ := validateRecord_eq_ok.mp h
  have hsame := prefixFree_deterministic (maxCborNestingDepth + 1)
    (deterministic_recordItem (deterministic_zerosPayload hn 31))
    (deterministic_recordItem hpayload) (congrArg (· ++ []) hencode)
  rw [← hsame.1, count_recordItem, count_zerosPayload] at hcount
  omega

/-- A record with too many zeros for the checker, but not for the verifier. -/
theorem zeros_differ {n : Nat} (hitems : maxCborItems < n + 8) (hsize : n + 64 ≤ maxArchiveMember)
    {record : Bytes} (hzeros : record = zerosRecord n) (policy : VerifyPolicy) :
    (∀ opening ∈ (singleManifest record).artifacts.openings, ∀ reference ∈ opening.records,
        Available (singleFiles record) (singleServer record) reference)
      ∧ (validateDisclosure (singleFiles record) (singleManifest record) (sampleSealed [record])
          policy (Conclusions.new .publicRecompute)).1 = true
      ∧ (validateDisclosure (singleFiles record) (singleManifest record) (sampleSealed [record])
          policy (Conclusions.new .publicRecompute)).2.failures = ∅
      ∧ verifyDisclosure (singleServer record) .publicRecompute ∅ "A"
          (singleManifest record).artifacts.openings (sampleSealed [record]).recordCount.toNat
          (sampleSealed [record]).closurePolicy.batchRecordLimit.toNat
          (sampleSealed [record]).batchRoots (sampleSealed [record]).segmentRoot ≠ .ok () := by
  have hlt : n < 2 ^ 64 := by
    unfold maxArchiveMember at hsize
    omega
  have hrecord : validateCanonicalRecord record = .ok zerosMetadata :=
    validateCanonicalRecord_eq_ok.mpr ⟨rfl, _, deterministic_zerosPayload hlt 31, hzeros⟩
  have hlength : record.length ≤ maxArchiveMember :=
    Nat.le_trans (hzeros ▸ length_zerosRecord_le n) hsize
  obtain ⟨htrue, hfailures⟩ := single_accepted hrecord hlength policy
  refine ⟨single_available hlength, htrue, hfailures, fun hchecked => ?_⟩
  have hcount := count_of_validateRecord hlt (hzeros ▸ single_checked hchecked)
  omega

omit [Sha256] in
/-- **A million zeros.** The verifier accepts the disclosure of a record with a million and eight
items, the checker does not. -/
theorem disclosures_differ :
    letI := Sha256.fips
    ∃ record, record = zerosRecord 1000000
      ∧ (sampleSealed [record]).validateDetailed = .ok ()
      ∧ (singleManifest record).disclosureClass ∈ ["A", "B", "C"]
      ∧ (singleManifest record).artifacts.openingsLexical = true
      ∧ (∀ opening ∈ (singleManifest record).artifacts.openings, ∀ reference ∈ opening.records,
          Available (singleFiles record) (singleServer record) reference)
      ∧ (validateDisclosure (singleFiles record) (singleManifest record) (sampleSealed [record])
          (selectingPolicy .publicRecompute ∅) (Conclusions.new .publicRecompute)).1 = true
      ∧ (validateDisclosure (singleFiles record) (singleManifest record) (sampleSealed [record])
          (selectingPolicy .publicRecompute ∅) (Conclusions.new .publicRecompute)).2.failures = ∅
      ∧ verifyDisclosure (singleServer record) .publicRecompute ∅ "A"
          (singleManifest record).artifacts.openings (sampleSealed [record]).recordCount.toNat
          (sampleSealed [record]).closurePolicy.batchRecordLimit.toNat
          (sampleSealed [record]).batchRoots (sampleSealed [record]).segmentRoot ≠ .ok () := by
  let := Sha256.fips
  -- nothing may look inside the record, which is long
  obtain ⟨record, hzeros⟩ : ∃ record, record = zerosRecord 1000000 := ⟨_, rfl⟩
  exact ⟨record, hzeros, single_valid record, List.mem_cons_self, single_lexical record,
    zeros_differ (by decide) (by decide) hzeros (selectingPolicy .publicRecompute ∅)⟩

omit [Sha256] in
/-- A server with the files of a directory. -/
def filesServer (dir : Directory) (path : String) : CheckResult Bytes :=
  (dir.safeRead path).mapError fun _ => ⟨"HTTP retrieval failed"⟩

omit [Sha256] in
/-- Two records in two batches, the last batch first. -/
theorem disclosures_agree_sample :
    letI := Sha256.fips
    let manifest := sampleDisclosure [sampleRecord 2, sampleRecord 1]
    let segment := sampleSealed [sampleRecord 2, sampleRecord 1]
    verifyDisclosure (filesServer (sampleFiles [sampleRecord 2, sampleRecord 1])) .publicRecompute ∅
        "A" manifest.artifacts.openings segment.recordCount.toNat
        segment.closurePolicy.batchRecordLimit.toNat segment.batchRoots segment.segmentRoot
      = .ok () := by
  let := Sha256.fips
  -- every file is read, and has fewer bytes than the checker allows items
  have hreadable : (sampleDisclosure [sampleRecord 2, sampleRecord 1]).artifacts.openings.all
      (fun opening => opening.records.all fun reference =>
        ((sampleFiles [sampleRecord 2, sampleRecord 1]).safeRead reference.path).toOption.any
          fun bytes => decide (bytes.length ≤ maxCborItems)) = true := by
    decide +kernel
  have hread : ∀ opening ∈ (sampleDisclosure [sampleRecord 2, sampleRecord 1]).artifacts.openings,
      ∀ reference ∈ opening.records, ∃ bytes,
        (sampleFiles [sampleRecord 2, sampleRecord 1]).safeRead reference.path = .ok bytes
          ∧ bytes.length ≤ maxCborItems := by
    intro opening hopening reference hreference
    have hone := List.all_eq_true.mp (List.all_eq_true.mp hreadable opening hopening) reference
      hreference
    obtain ⟨bytes, hbytes, hlength⟩ := Except.exists_ok_of_any hone
    exact ⟨bytes, hbytes, of_decide_eq_true hlength⟩
  refine (disclosures_agree _ (sampleDisclosure [sampleRecord 2, sampleRecord 1])
    (selectingPolicy .publicRecompute ∅) .publicRecompute
    (sampleFiles [sampleRecord 2, sampleRecord 1]) _ sampleSealed_valid List.mem_cons_self
    (by decide +kernel) ?_ ?_).mpr sampleDisclosure_accepted
  · intro opening hopening reference hreference
    obtain ⟨bytes, hbytes, -⟩ := hread opening hopening reference hreference
    exact ⟨bytes, hbytes, by rw [filesServer, hbytes]; rfl⟩
  · intro opening hopening reference hreference bytes hget item hencode
    obtain ⟨bytes', hbytes, hlength⟩ := hread opening hopening reference hreference
    rw [filesServer, hbytes] at hget
    cases hget
    exact Nat.le_trans (hencode ▸ item.count_le_length) hlength

end

end TrackOne.Checker
