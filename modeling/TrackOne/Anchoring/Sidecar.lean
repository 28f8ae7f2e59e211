import TrackOne.Vtl.Basic

/-!
# The header sidecar

`compact_target` and `parse_sparse_sidecar` of `toolset/anchoring/anchor_evidence.py`: an archive of
Bitcoin headers, each of which is checked against the target that its own bits declare. The target
is a floating-point number with an 8-bit exponent, so that it can lie outside of the 256 bits of a
hash.

* `sidecarStep_eq_ok`, `SidecarInvariant.step`: what the loop does with a record.
* `parseSparseSidecar_eq_ok`, `listed_of_parse`: what an accepted file lists.
* `rejecting_iff`: the bits whose target a hash can miss.
* `proofOfWork_effective_iff`: the accepted files in which every check can reject.
-/

namespace TrackOne.Anchoring

/-- `AnchorError`, with its message. -/
structure AnchorError where
  message : String
deriving DecidableEq, Repr

/-! ## Targets -/

/-- The `exponent` of `compact_target`. -/
def compactExponent (bits : Nat) : Nat := bits >>> 24

/-- The `mantissa` of `compact_target`. -/
def compactMantissa (bits : Nat) : Nat := bits &&& 0x007fffff

def compactTarget (bits : Nat) : Except AnchorError Nat := do
  let exponent := compactExponent bits
  let mantissa := compactMantissa bits
  .require ⟨"invalid compact proof-of-work target: 0x" ++ String.ofList (Nat.toDigits 16 bits)⟩
    (!(mantissa == 0 || bits &&& 0x00800000 != 0))
  if exponent ≤ 3 then pure (mantissa >>> (8 * (3 - exponent)))
  else pure (mantissa <<< (8 * (exponent - 3)))

/-! ## The file -/

def verifyCacheHeaderSize : Nat := 16
def verifyCacheRecordSize : Nat := 84

/-- An entry of the result. -/
structure SidecarEntry where
  height : Nat
  blockHash : String
  merkleRoot : String
  headerSha256 : String
deriving DecidableEq, Repr

/-- The bytes of the records, cut at the offsets of the loop. -/
def sidecarRecords (body : Bytes) : List Bytes :=
  (List.range ((body.length + (verifyCacheRecordSize - 1)) / verifyCacheRecordSize)).map fun i =>
    (body.drop (verifyCacheRecordSize * i)).take verifyCacheRecordSize

def recordHeight (record : Bytes) : Nat := ofLeBytes (record.take 4)

def recordHeader (record : Bytes) : Bytes := record.drop 4

def recordBits (record : Bytes) : Nat := ofLeBytes (((recordHeader record).drop 72).take 4)

section

variable [Sha256]

/-- The SHA-256 of the SHA-256 of a header. -/
def headerDigest (header : Bytes) : Digest := sha256Digest (sha256Digest header).bytes

/-- The entry that the loop appends for a record. -/
def sidecarEntry (record : Bytes) : SidecarEntry where
  height := recordHeight record
  blockHash := hexLower (headerDigest (recordHeader record)).bytes.reverse
  merkleRoot := hexLower (((recordHeader record).drop 36).take 32).reverse
  headerSha256 := sha256Hex (recordHeader record)

/-- The variables of the loop. -/
structure SidecarState where
  seen : List Nat
  result : List SidecarEntry

def sidecarStep (s : SidecarState) (record : Bytes) : Except AnchorError SidecarState := do
  let height := recordHeight record
  .require ⟨"header sidecar repeats Bitcoin height " ++ toString height⟩ (!s.seen.contains height)
  let target ← compactTarget (recordBits record)
  .require ⟨"header at height " ++ toString height ++ " fails its declared proof-of-work"⟩
    (!decide (ofLeBytes (headerDigest (recordHeader record)).bytes > target))
  pure { seen := height :: s.seen, result := s.result ++ [sidecarEntry record] }

def parseSparseSidecar (raw : Bytes) : Except AnchorError (List SidecarEntry) := do
  .require ⟨"header sidecar is not an OTSV sparse archive"⟩
    (!(decide (raw.length < verifyCacheHeaderSize) || raw.take 4 != utf8Bytes "OTSV"))
  .require ⟨"header sidecar version, network, or reserved bytes are invalid"⟩
    (!((raw.drop 4).take 4 != [1, 0, 0, 0] || ((raw.drop 8).take 8).any (· != 0)))
  let body := raw.drop verifyCacheHeaderSize
  .require ⟨"header sidecar has a truncated record"⟩ (body.length % verifyCacheRecordSize == 0)
  let s ← (sidecarRecords body).foldlM sidecarStep ⟨[], []⟩
  pure (s.result.mergeSort fun a b => a.height ≤ b.height)

end

/-! ## The records of a file -/

/-- The records of a file. -/
def fileRecords (raw : Bytes) : List Bytes := sidecarRecords (raw.drop verifyCacheHeaderSize)

/-- Cuts of one width in a row are the bytes again. -/
theorem flatten_cuts {width : Nat} (count : Nat) {bytes : Bytes}
    (h : bytes.length = width * count) :
    ((List.range count).map fun i => (bytes.drop (width * i)).take width).flatten = bytes := by
  induction count generalizing bytes with
  | zero =>
    rw [Nat.mul_zero, List.length_eq_zero_iff] at h
    rw [h]
    rfl
  | succ count ih =>
    have hrest : (bytes.drop width).length = width * count := by
      rw [List.length_drop, h, Nat.mul_succ]
      omega
    rw [List.range_succ_eq_map, List.map_cons, List.map_map, List.flatten_cons, Nat.mul_zero,
      List.drop_zero]
    conv_rhs => rw [← List.take_append_drop width bytes, ← ih hrest]
    refine congrArg (bytes.take width ++ List.flatten ·) (List.map_congr_left fun i _ => ?_)
    rw [Function.comp_apply, List.drop_drop, Nat.mul_succ, Nat.add_comm]

theorem length_cut {width count i : Nat} {bytes : Bytes} (h : bytes.length = width * count)
    (hi : i < count) :
    ((bytes.drop (width * i)).take width).length = width := by
  have hle : width * (i + 1) ≤ width * count := Nat.mul_le_mul_left _ hi
  rw [Nat.mul_succ] at hle
  rw [List.length_take, List.length_drop, h]
  omega

/-- The body of a file without a truncated record. -/
theorem length_eq_of_whole {body : Bytes} (h : body.length % verifyCacheRecordSize = 0) :
    body.length = verifyCacheRecordSize
      * ((body.length + (verifyCacheRecordSize - 1)) / verifyCacheRecordSize) := by
  unfold verifyCacheRecordSize at *
  omega

theorem sidecarRecords_flatten {body : Bytes} (h : body.length % verifyCacheRecordSize = 0) :
    (sidecarRecords body).flatten = body :=
  flatten_cuts _ (length_eq_of_whole h)

theorem length_of_mem_sidecarRecords {body record : Bytes}
    (h : body.length % verifyCacheRecordSize = 0)
    (hrecord : record ∈ sidecarRecords body) : record.length = verifyCacheRecordSize := by
  obtain ⟨i, hi, rfl⟩ := List.mem_map.mp hrecord
  exact length_cut (length_eq_of_whole h) (List.mem_range.mp hi)

/-! ## The targets that a hash can miss -/

/-- A positive target of less than 256 bits, which some hash is above. -/
structure Rejecting (target : Nat) : Prop where
  pos : 0 < target
  lt : target < 2 ^ 256
  reject : ∃ digest : Digest, target < ofLeBytes digest.bytes

/-- The bits whose mantissa is neither shifted out nor past 256 bits. -/
def InRange (bits : Nat) : Prop :=
  256 ^ (3 - compactExponent bits) ≤ compactMantissa bits
    ∧ compactMantissa bits < 256 ^ (35 - compactExponent bits)

instance (bits : Nat) : Decidable (InRange bits) := inferInstanceAs (Decidable (_ ∧ _))

theorem compactTarget_eq_ok {bits target : Nat} :
    compactTarget bits = .ok target ↔ (compactMantissa bits ≠ 0 ∧ bits &&& 0x00800000 = 0)
      ∧ target = if compactExponent bits ≤ 3
          then compactMantissa bits / 256 ^ (3 - compactExponent bits)
          else compactMantissa bits * 256 ^ (compactExponent bits - 3) := by
  have hbyte : ∀ k, 2 ^ (8 * k) = 256 ^ k := fun k => Nat.pow_mul 2 8 k
  simp only [compactTarget, Except.bind_eq_ok, Except.require_eq_ok, Bool.not_eq_true',
    Bool.or_eq_false_iff, beq_eq_false_iff_ne, bne_eq_false_iff_eq, Nat.shiftRight_eq_div_pow,
    Nat.shiftLeft_eq, hbyte, exists_const]
  split_ifs <;> simp only [pure, Except.pure, Except.ok.injEq, eq_comm]

theorem compactMantissa_lt (bits : Nat) : compactMantissa bits < 2 ^ 23 :=
  Nat.and_lt_two_pow bits (by decide)

/-- The largest hash. -/
def fullDigest : Digest := ⟨List.replicate 32 0xff, rfl⟩

theorem ofLeBytes_fullDigest : ofLeBytes fullDigest.bytes = 2 ^ 256 - 1 := by decide +kernel

theorem rejecting_of_lt {target : Nat} (hpos : 0 < target) (hlt : target + 1 < 2 ^ 256) :
    Rejecting target where
  pos := hpos
  lt := by omega
  reject := by
    refine ⟨fullDigest, ?_⟩
    rw [ofLeBytes_fullDigest]
    omega

/-- Below the point a mantissa loses its low bytes: the target is positive where one is left. -/
theorem rejecting_small {mantissa exponent : Nat} (hmantissa : mantissa < 2 ^ 23)
    (hle : exponent ≤ 3) :
    Rejecting (mantissa / 256 ^ (3 - exponent))
      ↔ 256 ^ (3 - exponent) ≤ mantissa ∧ mantissa < 256 ^ (35 - exponent) := by
  have hscale : 0 < 256 ^ (3 - exponent) := Nat.pow_pos (by decide)
  have hroom : mantissa < 256 ^ (35 - exponent) := by
    calc mantissa < 256 ^ 3 := hmantissa.trans (by decide)
      _ ≤ 256 ^ (35 - exponent) := Nat.pow_le_pow_right (by decide) (by omega)
  constructor
  · intro h
    exact ⟨(Nat.div_pos_iff.mp h.pos).2, hroom⟩
  · rintro ⟨hleft, -⟩
    have hdiv : mantissa / 256 ^ (3 - exponent) ≤ mantissa := Nat.div_le_self _ _
    exact rejecting_of_lt (Nat.div_pos hleft hscale) (by omega)

/-- The room above a mantissa and the places that it moves up are 256 bits. -/
theorem room_mul_scale {exponent : Nat} (hlt : 3 < exponent) (hle : exponent ≤ 34) :
    256 ^ (35 - exponent) * 256 ^ (exponent - 3) = 2 ^ 256 := by
  rw [← Nat.pow_add, show 35 - exponent + (exponent - 3) = 32 by omega]
  rfl

/-- Above the point a mantissa moves up: the target has 256 bits where it stays below their end. It
is never their largest number, whose last byte is not zero. -/
theorem rejecting_large {mantissa exponent : Nat} (hmantissa : 0 < mantissa) (hlt : 3 < exponent) :
    Rejecting (mantissa * 256 ^ (exponent - 3))
      ↔ 256 ^ (3 - exponent) ≤ mantissa ∧ mantissa < 256 ^ (35 - exponent) := by
  have hscale : 0 < 256 ^ (exponent - 3) := Nat.pow_pos (by decide)
  rw [Nat.sub_eq_zero_of_le hlt.le, Nat.pow_zero]
  constructor
  · intro h
    refine ⟨hmantissa, ?_⟩
    have hfits : exponent ≤ 34 := by
      by_contra hover
      have hpast : 256 ^ 32 ≤ 256 ^ (exponent - 3) := Nat.pow_le_pow_right (by decide) (by omega)
      have hle : 256 ^ (exponent - 3) ≤ mantissa * 256 ^ (exponent - 3) :=
        Nat.le_mul_of_pos_left _ hmantissa
      have := h.lt
      omega
    have hwhole := room_mul_scale hlt hfits
    exact (Nat.mul_lt_mul_right hscale).mp (hwhole ▸ h.lt)
  · rintro ⟨-, hroom⟩
    have hfits : exponent ≤ 34 := by
      by_contra hover
      rw [Nat.sub_eq_zero_of_le (by omega), Nat.pow_zero] at hroom
      omega
    have hwhole := room_mul_scale hlt hfits
    have hbelow : mantissa * 256 ^ (exponent - 3) < 2 ^ 256 :=
      hwhole ▸ (Nat.mul_lt_mul_right hscale).mpr hroom
    have hbyte : 256 ^ 1 ∣ mantissa * 256 ^ (exponent - 3) :=
      Nat.dvd_mul_left_of_dvd (Nat.pow_dvd_pow 256 (by omega)) _
    refine rejecting_of_lt (Nat.mul_pos hmantissa hscale) ?_
    omega

theorem rejecting_iff {bits target : Nat} (h : compactTarget bits = .ok target) :
    Rejecting target ↔ InRange bits := by
  rw [compactTarget_eq_ok] at h
  obtain ⟨⟨hmantissa, -⟩, rfl⟩ := h
  split_ifs with hle
  · exact rejecting_small (compactMantissa_lt bits) hle
  · exact rejecting_large (Nat.pos_of_ne_zero hmantissa) (by omega)

/-! ## The loop -/

section

variable [Sha256]

/-- A record that the loop takes has a new height, a target, and a header at or below it. -/
theorem sidecarStep_eq_ok {s s' : SidecarState} {record : Bytes} :
    sidecarStep s record = .ok s' ↔ recordHeight record ∉ s.seen
      ∧ (∃ target, compactTarget (recordBits record) = .ok target
        ∧ ofLeBytes (headerDigest (recordHeader record)).bytes ≤ target)
      ∧ s' = ⟨recordHeight record :: s.seen, s.result ++ [sidecarEntry record]⟩ := by
  simp only [sidecarStep, Except.bind_eq_ok, Except.require_eq_ok, Bool.not_eq_true',
    List.contains_eq_mem, decide_eq_false_iff_not, pure, Except.pure, Except.ok.injEq, exists_const,
    Nat.not_lt, gt_iff_lt]
  constructor
  · rintro ⟨hnew, target, htarget, hle, rfl⟩
    exact ⟨hnew, ⟨target, htarget, hle⟩, rfl⟩
  · rintro ⟨hnew, ⟨target, htarget, hle⟩, rfl⟩
    exact ⟨hnew, target, htarget, hle, rfl⟩

/-- The state of the loop after some records: their entries, of heights that differ, each with a
target. -/
structure SidecarInvariant (taken : List Bytes) (s : SidecarState) : Prop where
  entries : s.result = taken.map sidecarEntry
  seen : ∀ record ∈ taken, recordHeight record ∈ s.seen
  nodup : (taken.map recordHeight).Nodup
  targets : ∀ record ∈ taken, ∃ target, compactTarget (recordBits record) = .ok target

theorem SidecarInvariant.init : SidecarInvariant [] ⟨[], []⟩ where
  entries := rfl
  seen := List.forall_mem_nil _
  nodup := List.nodup_nil
  targets := List.forall_mem_nil _

theorem SidecarInvariant.step {taken : List Bytes} {s s' : SidecarState} {record : Bytes}
    (inv : SidecarInvariant taken s) (h : sidecarStep s record = .ok s') :
    SidecarInvariant (taken ++ [record]) s' := by
  obtain ⟨hnew, ⟨target, htarget, -⟩, rfl⟩ := sidecarStep_eq_ok.mp h
  refine ⟨?_, ?_, ?_, ?_⟩
  · rw [List.map_append, ← inv.entries]
    rfl
  · intro other hother
    rcases List.mem_append.mp hother with hold | hlast
    · exact List.mem_cons_of_mem _ (inv.seen other hold)
    · rw [List.mem_singleton.mp hlast]
      exact List.mem_cons_self
  · rw [List.map_append, List.map_singleton, List.nodup_append]
    refine ⟨inv.nodup, List.nodup_singleton _, ?_⟩
    rintro height hheight last hlast rfl
    obtain ⟨other, hother, rfl⟩ := List.mem_map.mp hheight
    rw [List.mem_singleton] at hlast
    exact hnew (hlast ▸ inv.seen other hother)
  · intro other hother
    rcases List.mem_append.mp hother with hold | hlast
    · exact inv.targets other hold
    · rw [List.mem_singleton.mp hlast]
      exact ⟨target, htarget⟩

/-- An accepted file is whole, and its result the entries of the loop in the order of their
heights. -/
theorem parseSparseSidecar_eq_ok {raw : Bytes} {result : List SidecarEntry}
    (h : parseSparseSidecar raw = .ok result) :
    (raw.drop verifyCacheHeaderSize).length % verifyCacheRecordSize = 0
      ∧ ∃ s, SidecarInvariant (fileRecords raw) s
        ∧ result = s.result.mergeSort fun a b => a.height ≤ b.height := by
  simp only [parseSparseSidecar, Except.bind_eq_ok, Except.require_eq_ok] at h
  obtain ⟨_, -, _, -, _, hwhole, s, hloop, h⟩ := h
  refine ⟨of_decide_eq_true hwhole, s, ?_, (Except.ok.inj h).symm⟩
  exact Except.foldlM_induction hloop SidecarInvariant.init fun _ _ _ _ inv hstep => inv.step hstep

/-! ## What is listed -/

/-- A result lists every record of its file once, in the order of their heights. -/
structure Listed (raw : Bytes) (result : List SidecarEntry) : Prop where
  whole : (fileRecords raw).flatten = raw.drop verifyCacheHeaderSize
  headers : ∀ record ∈ fileRecords raw, (recordHeader record).length = 80
  entries : result.Perm ((fileRecords raw).map sidecarEntry)
  increasing : result.Pairwise fun a b => a.height < b.height

theorem listed_of_parse {raw : Bytes} {result : List SidecarEntry}
    (h : parseSparseSidecar raw = .ok result) : Listed raw result := by
  obtain ⟨hwhole, s, inv, rfl⟩ := parseSparseSidecar_eq_ok h
  have hperm := List.mergeSort_perm s.result fun a b => decide (a.height ≤ b.height)
  refine ⟨sidecarRecords_flatten hwhole, ?_, ?_, ?_⟩
  · intro record hrecord
    rw [recordHeader, List.length_drop, length_of_mem_sidecarRecords hwhole hrecord]
    rfl
  · exact inv.entries ▸ hperm
  · have hsorted := @List.pairwise_mergeSort SidecarEntry (fun a b => decide (a.height ≤ b.height))
      (fun a b c hab hbc => by simp at *; omega) (fun a b => by simp; omega) s.result
    have hdistinct : (s.result.map SidecarEntry.height).Nodup := by
      rw [inv.entries, List.map_map]
      exact inv.nodup
    have hnodup := List.pairwise_map.mp ((hperm.map SidecarEntry.height).nodup_iff.mpr hdistinct)
    refine hsorted.imp₂ (fun a b hle hne => ?_) hnodup
    have := of_decide_eq_true hle
    omega

/-- The check of the proof-of-work of each record of an accepted file can reject. -/
structure Effective (raw : Bytes) (result : List SidecarEntry) :
    Prop extends Listed raw result where
  targets : ∀ record ∈ fileRecords raw, ∃ target,
    compactTarget (recordBits record) = .ok target ∧ Rejecting target

/-- The checks of an accepted file can reject where the mantissas of its targets stay in range. -/
theorem proofOfWork_effective_iff {raw : Bytes} {result : List SidecarEntry}
    (h : parseSparseSidecar raw = .ok result) :
    Effective raw result ↔ ∀ record ∈ fileRecords raw, InRange (recordBits record) := by
  obtain ⟨-, s, inv, -⟩ := parseSparseSidecar_eq_ok h
  constructor
  · intro effective record hrecord
    obtain ⟨target, htarget, hrejecting⟩ := effective.targets record hrecord
    exact (rejecting_iff htarget).mp hrejecting
  · intro hrange
    refine ⟨listed_of_parse h, fun record hrecord => ?_⟩
    obtain ⟨target, htarget⟩ := inv.targets record hrecord
    exact ⟨target, htarget, (rejecting_iff htarget).mpr (hrange record hrecord)⟩

end

/-! ## Two files -/

/-- A record of a height below 256. -/
def sampleSidecarRecord (height : UInt8) (bits nonce : Bytes) : Bytes :=
  [height, 0, 0, 0] ++ (List.replicate 72 0 ++ bits ++ nonce)

/-- A file of records. -/
def sampleSidecar (records : List Bytes) : Bytes :=
  utf8Bytes "OTSV" ++ [1, 0, 0, 0] ++ List.replicate 8 0 ++ records.flatten

/-- A target of one bit, past the 256 bits of a hash. -/
def vacuousSidecar : Bytes :=
  sampleSidecar [sampleSidecarRecord 0 [0, 0, 1, 0x21] [0, 0, 0, 0]]

/-- Targets of 255 bits, and nonces that meet them. The greater height comes first. -/
def effectiveSidecar : Bytes :=
  sampleSidecar ([7, 3].map fun height =>
    sampleSidecarRecord height [0xff, 0xff, 0x7f, 0x20] [1, 0, 0, 0])

/-- No hash is above the target of this file. -/
theorem proofOfWork_vacuous :
    ∃ result, @parseSparseSidecar Sha256.fips vacuousSidecar = .ok result
      ∧ ¬ @Effective Sha256.fips vacuousSidecar result := by
  have haccepted : (@parseSparseSidecar Sha256.fips vacuousSidecar).toOption.any (fun _ => true)
    = true := by
    decide +kernel
  obtain ⟨result, hresult, -⟩ := Except.exists_ok_of_any haccepted
  refine ⟨result, hresult, fun effective => ?_⟩
  have hrecord : vacuousSidecar.drop 20 ∈ (fileRecords vacuousSidecar).map recordHeader := by
    decide +kernel
  obtain ⟨record, hmem, hheader⟩ := List.mem_map.mp hrecord
  obtain ⟨target, htarget, rejecting⟩ := @Effective.targets Sha256.fips _ _ effective record hmem
  have hvalue : compactTarget (recordBits record) = .ok (2 ^ 256) := by
    rw [recordBits, hheader]
    decide +kernel
  rw [hvalue] at htarget
  exact Nat.lt_irrefl _ (Except.ok.inj htarget ▸ rejecting.lt)

/-- Two records, listed in the order of their heights and not in that of the file. -/
theorem proofOfWork_effective_sample :
    ∃ result, @parseSparseSidecar Sha256.fips effectiveSidecar = .ok result
      ∧ (fileRecords effectiveSidecar).map recordHeight = [7, 3]
      ∧ result.map SidecarEntry.height = [3, 7]
      ∧ (@Effective Sha256.fips effectiveSidecar result
        ↔ ∀ record ∈ fileRecords effectiveSidecar, InRange (recordBits record))
      ∧ ∀ record ∈ fileRecords effectiveSidecar, InRange (recordBits record) := by
  have haccepted : (@parseSparseSidecar Sha256.fips effectiveSidecar).toOption.any (fun _ => true)
    = true := by
    decide +kernel
  obtain ⟨result, hresult, -⟩ := Except.exists_ok_of_any haccepted
  have hheights : (fileRecords effectiveSidecar).map recordHeight = [7, 3] := by decide +kernel
  have hrange : ∀ record ∈ fileRecords effectiveSidecar, InRange (recordBits record) := by
    decide +kernel
  have hexact := @proofOfWork_effective_iff Sha256.fips _ _ hresult
  obtain ⟨⟨-, -, hentries, hincreasing⟩, -⟩ := hexact.mpr hrange
  -- the heights of the file, in the one order that increases
  have hperm : (result.map SidecarEntry.height).Perm [3, 7] := by
    refine (hentries.map SidecarEntry.height).trans ?_
    rw [List.map_map]
    exact (List.Perm.of_eq hheights).trans (.swap 3 7 [])
  refine ⟨result, hresult, hheights, ?_, hexact, hrange⟩
  exact hperm.eq_of_pairwise (fun a b _ _ hab hba => absurd hab hba.asymm)
    (List.pairwise_map.mpr hincreasing) (by decide)

end TrackOne.Anchoring
