import TrackOne.Ots.Parser

/-!
# Proofs without a misread number

`exactVaruint` reads what `readVaruint` reads, and rejects a number that is not the one encoded. In
a proof with no overlong numeral at any position the two readers agree at every cursor
(`readVaruint_exact`), and so does what the parser makes of them, function by function.

* `parseDetachedOts_exact`: such a proof is parsed as by a parser that reads every number right.
* `readVaruint_never_misreads_iff`: no number is misread exactly where no numeral is overlong.
-/

namespace TrackOne.Ots

/-- A number that is read here is the one that is encoded. -/
def OtsCursor.ReadsExactly (cursor : OtsCursor) : Prop :=
  ∀ read next, cursor.readVaruint = .ok (read, next) →
    read.toNat = groupsValue (cursor.consumed next)

/-- The reader that makes no mistake. -/
def exactVaruint (cursor : OtsCursor) : Except OtsFailure (UInt64 × OtsCursor) := do
  let (read, next) ← cursor.readVaruint
  Except.require (invalid "ots-proof-parse-failed")
    (read.toNat = groupsValue (cursor.consumed next))
  pure (read, next)

/-- No position of the bytes begins an overlong numeral. -/
def NoOverlong (raw : Bytes) : Prop := ∀ offset, ¬ Overlong (raw.drop offset)

/-- Where the cursor reads exactly the two readers agree. -/
theorem exactVaruint_eq {cursor : OtsCursor} (h : cursor.ReadsExactly) :
    exactVaruint cursor = cursor.readVaruint := by
  rw [exactVaruint]
  cases hread : cursor.readVaruint with
  | error failure => rfl
  | ok result =>
    obtain ⟨read, next⟩ := result
    rw [Except.ok_bind]
    dsimp only
    rw [decide_eq_true (h read next hread)]
    rfl

theorem NoOverlong.not_overlong {before input : Bytes} (h : NoOverlong (before ++ input)) :
    ¬ Overlong input := by
  have hdrop := h before.length
  rwa [List.drop_left] at hdrop

/-- What follows a numeral does not shorten it. -/
theorem Overlong.append {input : Bytes} (h : Overlong input) (rest : Bytes) :
    Overlong (input ++ rest) := by
  obtain ⟨hcontinued, last, hlast, hmore, hend⟩ := h
  obtain ⟨hlt, -⟩ := List.getElem?_eq_some_iff.mp hlast
  refine ⟨?_, last, ?_, hmore, hend⟩
  · rwa [List.take_append_of_le_length (by omega)]
  · rwa [List.getElem?_append_left hlt]

/-- A part of bytes without an overlong numeral has none either. -/
theorem NoOverlong.infix {before part rest : Bytes} (h : NoOverlong (before ++ (part ++ rest))) :
    NoOverlong part := by
  intro offset hover
  refine h (before.length + offset) ?_
  rw [List.drop_append, List.drop_eq_nil_of_le (by omega), List.nil_append, Nat.add_sub_cancel_left,
    List.drop_append]
  exact hover.append _

/-- Where no numeral is overlong a number is read exactly. -/
theorem readVaruint_exact {before input : Bytes} (hraw : (before ++ input).length < 2 ^ 63)
    (h : NoOverlong (before ++ input)) :
    exactVaruint (cursorAt before input) = (cursorAt before input).readVaruint :=
  exactVaruint_eq ((readVaruint_exact_iff hraw).mpr h.not_overlong)

/-- A number is read from inside the bytes. -/
theorem readVaruint_inside {raw : Bytes} {offset : Nat} {result : UInt64 × OtsCursor}
    (h : (⟨raw, offset⟩ : OtsCursor).readVaruint = .ok result) : offset < raw.length := by
  rw [OtsCursor.readVaruint, OtsCursor.readVaruintLoop, if_neg (by decide)] at h
  simp only [OtsCursor.readU8, OtsCursor.readBytes, Except.bind_eq_ok, Except.ofOption_eq_ok,
    Except.require_eq_ok, checkedAddUsize_eq_some, decide_eq_true_eq] at h
  obtain ⟨_, ⟨_, ⟨_, ⟨-, rfl⟩, -, hend, -⟩, -⟩, -⟩ := h
  omega

/-! ## The parser -/

theorem readVarbytes_exact {before input : Bytes} (hraw : (before ++ input).length < 2 ^ 63)
    (h : NoOverlong (before ++ input)) (maxLen minLen : Nat) :
    readVarbytes exactVaruint (cursorAt before input) maxLen minLen
      = readVarbytes OtsCursor.readVaruint (cursorAt before input) maxLen minLen := by
  rw [readVarbytes, readVaruint_exact hraw h]
  rfl

theorem parsePendingAttestationUri_exact {payload : Bytes} (hlength : payload.length < 2 ^ 63)
    (h : NoOverlong payload) :
    parsePendingAttestationUri exactVaruint payload
      = parsePendingAttestationUri OtsCursor.readVaruint payload := by
  rw [parsePendingAttestationUri, new_eq_cursorAt, @readVarbytes_exact [] payload hlength h]
  rfl

theorem parseBitcoinBlockHeaderAttestationHeight_exact {payload : Bytes}
    (hlength : payload.length < 2 ^ 63) (h : NoOverlong payload) :
    parseBitcoinBlockHeaderAttestationHeight exactVaruint payload
      = parseBitcoinBlockHeaderAttestationHeight OtsCursor.readVaruint payload := by
  rw [parseBitcoinBlockHeaderAttestationHeight, new_eq_cursorAt,
    @readVaruint_exact [] payload hlength h]
  rfl

theorem parseAttestation_exact {before input : Bytes} (hraw : (before ++ input).length < 2 ^ 63)
    (h : NoOverlong (before ++ input)) (msg : Bytes) (summary : OtsProofSummary) :
    parseAttestation exactVaruint (cursorAt before input) msg summary
      = parseAttestation OtsCursor.readVaruint (cursorAt before input) msg summary := by
  rw [parseAttestation, parseAttestation]
  refine Except.bind_congr fun result hread => ?_
  obtain ⟨tag, cursor⟩ := result
  obtain ⟨rest, rfl, -, rfl⟩ := (readBytes_eq_ok hraw).mp hread
  rw [← List.append_assoc] at hraw h
  dsimp only
  rw [readVarbytes_exact hraw h]
  refine Except.bind_congr fun result hpayload => ?_
  obtain ⟨payload, cursor⟩ := result
  obtain ⟨numeral, rest, rfl, -, -, -, -, -, rfl⟩ := (readVarbytes_eq_ok hraw).mp hpayload
  have hlength : payload.length < 2 ^ 63 := by
    simp only [List.length_append] at hraw
    omega
  have hpart : NoOverlong payload := by
    have hproof : before ++ tag ++ (numeral ++ payload ++ rest)
        = before ++ tag ++ numeral ++ (payload ++ rest) := by
      simp only [List.append_assoc]
    rw [hproof] at h
    exact h.infix
  dsimp only
  rw [parsePendingAttestationUri_exact hlength hpart,
    parseBitcoinBlockHeaderAttestationHeight_exact hlength hpart]

section

variable [Sha256]

theorem applyOtsOp_exact {before input : Bytes} (hraw : (before ++ input).length < 2 ^ 63)
    (h : NoOverlong (before ++ input)) (tag : UInt8) (msg : Bytes) :
    applyOtsOp exactVaruint (cursorAt before input) tag msg
      = applyOtsOp OtsCursor.readVaruint (cursorAt before input) tag msg := by
  rw [applyOtsOp, applyOtsOp, readVarbytes_exact hraw h]

/-- Below one tag the two parsers agree where they do on the rest. -/
theorem parseTimestampTag_exact {parse parse' : OtsCursor → Bytes → UInt16 → OtsProofSummary →
      Except OtsFailure (OtsProofSummary × OtsCursor)}
    {before input : Bytes} {recursionRemaining : UInt16} (msg : Bytes) (tag : UInt8)
    (summary : OtsProofSummary) (hraw : (before ++ input).length < 2 ^ 63)
    (h : NoOverlong (before ++ input))
    (hparse : ∀ part rest msg summary, input = part ++ rest →
      parse (cursorAt (before ++ part) rest) msg (recursionRemaining - 1) summary
        = parse' (cursorAt (before ++ part) rest) msg (recursionRemaining - 1) summary) :
    parseTimestampTag exactVaruint parse msg recursionRemaining (cursorAt before input) tag summary
      = parseTimestampTag OtsCursor.readVaruint parse' msg recursionRemaining
        (cursorAt before input) tag
        summary := by
  rw [parseTimestampTag, parseTimestampTag, parseAttestation_exact hraw h, applyOtsOp_exact hraw h]
  split_ifs
  · rfl
  · refine Except.bind_congr fun result happlied => ?_
    obtain ⟨⟨step, msg'⟩, cursor⟩ := result
    obtain ⟨part, rest, rfl, rfl⟩ := (applyOtsOp_reads hraw tag msg).2 _ _ happlied
    exact Except.bind_congr fun _ _ => hparse part rest msg' _ rfl

end

/-- Reading on where the tags are read alike. -/
theorem parseBranches_exact {parseTag parseTag' : OtsCursor → UInt8 → OtsProofSummary →
      Except OtsFailure (OtsProofSummary × OtsCursor)}
    {steps : Nat} {before input : Bytes} (tag : UInt8) (summary : OtsProofSummary)
    (hraw : (before ++ input).length < 2 ^ 63)
    (hreads : ∀ part rest tag summary, input = part ++ rest →
      Reads (before ++ part) rest (parseTag' (cursorAt (before ++ part) rest) tag summary))
    (hparse : ∀ part rest tag summary, input = part ++ rest →
      parseTag (cursorAt (before ++ part) rest) tag summary
        = parseTag' (cursorAt (before ++ part) rest) tag summary) :
    parseBranches parseTag steps (cursorAt before input) tag summary
      = parseBranches parseTag' steps (cursorAt before input) tag summary := by
  induction steps generalizing before input tag summary with
  | zero => rfl
  | succ steps ih =>
    rw [parseBranches, parseBranches]
    split_ifs
    · refine Except.bind_congr fun result hnext => ?_
      obtain ⟨next, cursor⟩ := result
      obtain ⟨rest, rfl, rfl⟩ := (readU8_eq_ok hraw).mp hnext
      dsimp only
      rw [hparse [next] rest next summary rfl]
      refine Except.bind_congr fun result hbranch => ?_
      obtain ⟨summary', cursor⟩ := result
      obtain ⟨part, rest, rfl, rfl⟩ := (hreads [next] rest next summary rfl).2 _ _ hbranch
      rw [List.append_cons, ← List.append_assoc] at hraw
      refine Except.bind_congr fun result htag => ?_
      obtain ⟨tag', cursor⟩ := result
      obtain ⟨rest, rfl, rfl⟩ := (readU8_eq_ok hraw).mp htag
      rw [List.append_cons] at hraw
      refine ih tag' summary' hraw (fun more rest' tag summary hrest => ?_)
        fun more rest' tag summary hrest => ?_
      · have hlater := hreads (next :: part ++ tag' :: more) rest' tag summary (by simp [hrest])
        simpa using hlater
      · have hlater := hparse (next :: part ++ tag' :: more) rest' tag summary (by simp [hrest])
        simpa using hlater
    · have hfirst := hparse [] input tag summary rfl
      rwa [List.append_nil] at hfirst

section

variable [Sha256]

/-- Where no numeral is overlong the two parsers agree. Induction on the steps left. -/
theorem parseTimestamp_exact {steps : Nat} {before input : Bytes} (msg : Bytes)
    (recursionRemaining : UInt16) (summary : OtsProofSummary)
    (hraw : (before ++ input).length < 2 ^ 63) (h : NoOverlong (before ++ input))
    (hsteps : input.length < steps) :
    parseTimestamp exactVaruint steps (cursorAt before input) msg recursionRemaining summary
      = parseTimestamp OtsCursor.readVaruint steps (cursorAt before input) msg recursionRemaining
        summary := by
  induction steps generalizing before input msg recursionRemaining summary with
  | zero => omega
  | succ steps ih =>
    -- a tag, its branches, and the rest by the induction
    rw [parseTimestamp, parseTimestamp]
    split_ifs with hleft
    · rfl
    · refine Except.bind_congr fun result htag => ?_
      obtain ⟨tag, cursor⟩ := result
      obtain ⟨rest, rfl, rfl⟩ := (readU8_eq_ok hraw).mp htag
      rw [List.length_cons] at hsteps
      rw [List.append_cons] at hraw h
      refine parseBranches_exact tag summary hraw (fun part rest' tag summary hrest => ?_)
        fun part rest' tag summary hrest => ?_
      · subst hrest
        rw [List.length_append] at hsteps
        rw [← List.append_assoc] at hraw
        refine parseTimestampTag_reads msg tag summary hraw hleft fun more rest msg summary hrest =>
          ?_
        subst hrest
        rw [List.length_append] at hsteps
        rw [← List.append_assoc] at hraw
        exact parseTimestamp_reads msg _ summary hraw (by omega)
      · subst hrest
        rw [List.length_append] at hsteps
        rw [← List.append_assoc] at hraw h
        refine parseTimestampTag_exact msg tag summary hraw h fun more rest msg summary hrest => ?_
        subst hrest
        rw [List.length_append] at hsteps
        rw [← List.append_assoc] at hraw h
        exact ih msg _ summary hraw h (by omega)

/-- Where no numeral is overlong, the proof is parsed as by the reader that makes no mistake. -/
theorem parseDetachedOts_exact {raw : Bytes} (artifact : Option ArtifactFile)
    (expectedDigest : Option Digest) (hraw : raw.length < 2 ^ 63) (h : NoOverlong raw) :
    parseDetachedOts raw artifact expectedDigest
      = parseDetachedOtsWith exactVaruint (raw.length + 1) raw artifact expectedDigest := by
  symm
  rw [parseDetachedOts, parseDetachedOtsWith, parseDetachedOtsWith, new_eq_cursorAt]
  refine Except.bind_congr fun _ _ => ?_
  refine Except.bind_congr fun cursor hmagic => ?_
  obtain ⟨rest, hproof, rfl⟩ := (assertMagic_eq_ok (by simpa using hraw)).mp hmagic
  rw [List.nil_append]
  have hsteps : raw.length + 1 = (otsHeaderMagic ++ rest).length + 1 := by rw [hproof]
  rw [hproof] at hraw h
  rw [readVaruint_exact hraw h]
  -- each step reads the same, and leaves a shorter input
  refine Except.bind_congr fun result hmajor => ?_
  obtain ⟨major, cursor⟩ := result
  obtain ⟨part, rest, rfl, rfl⟩ := (readVaruint_reads hraw).2 _ _ hmajor
  refine Except.bind_congr fun _ _ => ?_
  rw [← List.append_assoc] at hraw h
  refine Except.bind_congr fun result hop => ?_
  obtain ⟨fileHashOp, cursor⟩ := result
  obtain ⟨rest, rfl, rfl⟩ := (readU8_eq_ok hraw).mp hop
  refine Except.bind_congr fun _ _ => ?_
  rw [List.append_cons] at hraw h
  refine Except.bind_congr fun result hdigest => ?_
  obtain ⟨bytes, cursor⟩ := result
  obtain ⟨rest, rfl, -, rfl⟩ := (readBytes_eq_ok hraw).mp hdigest
  refine Except.bind_congr fun fileDigest _ => ?_
  refine Except.bind_congr fun expected _ => ?_
  refine Except.bind_congr fun _ _ => ?_
  rw [← List.append_assoc] at hraw h
  dsimp only
  rw [parseTimestamp_exact _ _ _ hraw h]
  rw [hsteps]
  simp only [List.length_append, List.length_cons]
  omega

/-- No number is misread exactly where no numeral is overlong; the heights and the lengths of a
proof in which this holds everywhere are the ones that are encoded. -/
theorem readVaruint_never_misreads_iff {raw : Bytes} (hraw : raw.length < 2 ^ 63) :
    (∀ offset, (⟨raw, offset⟩ : OtsCursor).ReadsExactly ↔ ¬ Overlong (raw.drop offset))
    ∧ (((∀ offset, (⟨raw, offset⟩ : OtsCursor).ReadsExactly)
        ∧ ∀ artifact expectedDigest, parseDetachedOts raw artifact expectedDigest
          = parseDetachedOtsWith exactVaruint (raw.length + 1) raw artifact expectedDigest)
      ↔ ∀ offset, ¬ Overlong (raw.drop offset)) := by
  have hposition : ∀ offset, (⟨raw, offset⟩ : OtsCursor).ReadsExactly
    ↔ ¬ Overlong (raw.drop offset) := by
    intro offset
    by_cases hinside : offset ≤ raw.length
    · have hcursor : (⟨raw, offset⟩ : OtsCursor)
        = cursorAt (raw.take offset) (raw.drop offset) := by
        rw [cursorAt, List.take_append_drop, List.length_take_of_le hinside]
      rw [hcursor]
      exact readVaruint_exact_iff (by rwa [List.take_append_drop])
    · -- Nothing is read behind the end.
      refine iff_of_true (fun read next hread => absurd (readVaruint_inside hread) (by omega)) ?_
      rw [List.drop_eq_nil_of_le (by omega)]
      rintro ⟨-, last, hlast, -⟩
      cases hlast
  refine ⟨hposition, ?_, ?_⟩
  · rintro ⟨hexact, -⟩ offset
    exact (hposition offset).mp (hexact offset)
  · intro hreadable
    exact ⟨fun offset => (hposition offset).mpr (hreadable offset),
      fun artifact expectedDigest => parseDetachedOts_exact artifact expectedDigest hraw hreadable⟩

end

theorem readVaruint_never_misreads_iff_short : (⟨[0xac, 0x02], 0⟩ : OtsCursor).ReadsExactly := by
  refine ((@readVaruint_never_misreads_iff Sha256.fips [0xac, 0x02] (by decide)).1 0).mpr ?_
  rintro ⟨-, last, hlast, -⟩
  cases hlast

/-- A proof attested in the block of height `2 ^ 64`, if there were one. -/
def misreadProof : Bytes :=
  otsHeaderMagic ++ [1, otsOpSha256] ++ List.replicate 32 0 ++ [otsTimestampAttestation]
    ++ otsBitcoinBlockHeaderAttestationTag ++ [10] ++ List.replicate 9 0x80 ++ [2]

/-- A Bitcoin height of `2 ^ 64` is read as zero, and the proof accepted. -/
theorem misreadProof_reads :
    ∃ next, (⟨misreadProof, 75⟩ : OtsCursor).readVaruint = .ok (0, next)
      ∧ groupsValue (OtsCursor.consumed ⟨misreadProof, 75⟩ next) = 2 ^ 64
      ∧ ∃ summary, @parseDetachedOts Sha256.fips misreadProof none none = .ok summary
        ∧ summary.bitcoinHeights = [0] :=
  ⟨⟨misreadProof, 85⟩, by decide +kernel, by decide +kernel,
    ⟨.zero, [], [0], ["verify BitcoinBlockHeaderAttestation(0)"]⟩, by decide +kernel, rfl⟩

end TrackOne.Ots
