import TrackOne.Ots.Parser

/-!
# Proof trees

What a detached OpenTimestamps proof says: a tree of operations on a message, with attestations at
its leaves. A branch is written behind its tag, and every branch of a timestamp but the last one
behind the marker that more follow.

* `Tree.Valid`: the operands and the messages on the way are within the limits, and what is attested
  may be attested.
* `Branch.Parses`, `Tree.Parses`: the parser reads a tree back in front of anything, and records
  what happens in it in the order in which it is written. -/

namespace TrackOne.Ots

/-! ## Trees -/

inductive OtsOp where
  | append (suffix : Bytes)
  | prepend (front : Bytes)
  | sha256
deriving DecidableEq

inductive OtsAttestation where
  | pending (uri : String)
  | bitcoin (height : UInt64)
deriving DecidableEq

mutual

inductive Branch where
  | attestation (attestation : OtsAttestation)
  | operation (op : OtsOp) (next : Tree)

/-- The branches of a timestamp. -/
inductive Tree where
  | last (branch : Branch)
  | more (branch : Branch) (rest : Tree)

end

/-- To show something of all trees, show it for each way to build one. -/
theorem Tree.both {P : Branch → Prop} {Q : Tree → Prop}
    (hattestation : ∀ attestation, P (.attestation attestation))
    (hoperation : ∀ op next, Q next → P (.operation op next))
    (hlast : ∀ branch, P branch → Q (.last branch))
    (hmore : ∀ branch rest, P branch → Q rest → Q (.more branch rest)) (tree : Tree) : Q tree :=
  @Tree.rec P Q hattestation hoperation hlast hmore tree

/-! ## The messages -/

def OtsOp.apply [Sha256] : OtsOp → Bytes → Bytes
  | .append suffix, msg => msg ++ suffix
  | .prepend front, msg => front ++ msg
  | .sha256, msg => (sha256Digest msg).bytes

/-- An operand has one byte at least, and the result of the operation is within the limit. -/
def OtsOp.Valid (msg : Bytes) : OtsOp → Prop
  | .append suffix => 1 ≤ suffix.length ∧ (msg ++ suffix).length ≤ otsMaxOpResultLen
  | .prepend front => 1 ≤ front.length ∧ (front ++ msg).length ≤ otsMaxOpResultLen
  | .sha256 => True

def OtsAttestation.Valid (msg : Bytes) : OtsAttestation → Prop
  | .pending uri => (utf8Bytes uri).all isUriByte
  | .bitcoin _ => msg.length = 32

mutual

def Branch.Valid [Sha256] : Branch → Bytes → Prop
  | .attestation attestation, msg => attestation.Valid msg
  | .operation op next, msg => op.Valid msg ∧ next.Valid (op.apply msg)

def Tree.Valid [Sha256] : Tree → Bytes → Prop
  | .last branch, msg => branch.Valid msg
  | .more branch rest, msg => branch.Valid msg ∧ rest.Valid msg

end

mutual

/-- The most operations there are one after the other. -/
def Branch.depth : Branch → Nat
  | .attestation _ => 0
  | .operation _ next => next.depth + 1

def Tree.depth : Tree → Nat
  | .last branch => branch.depth
  | .more branch rest => max branch.depth rest.depth

end

/-! ## What happens in a tree -/

inductive OtsEvent where
  | operation (op : OtsOp)
  | attestation (attestation : OtsAttestation)

mutual

def Branch.events : Branch → List OtsEvent
  | .attestation attestation => [.attestation attestation]
  | .operation op next => .operation op :: next.events

def Tree.events : Tree → List OtsEvent
  | .last branch => branch.events
  | .more branch rest => branch.events ++ rest.events

end

def OtsOp.step : OtsOp → String
  | .append suffix => "append " ++ hexLower suffix
  | .prepend front => "prepend " ++ hexLower front
  | .sha256 => "sha256"

def OtsAttestation.step : OtsAttestation → String
  | .pending uri => "verify PendingAttestation(" ++ uri ++ ")"
  | .bitcoin height => "verify BitcoinBlockHeaderAttestation(" ++ toString height ++ ")"

def OtsEvent.step : OtsEvent → String
  | .operation op => op.step
  | .attestation leaf => leaf.step

def OtsEvent.pendingUri? : OtsEvent → Option String
  | .attestation (.pending uri) => some uri
  | _ => none

def OtsEvent.bitcoinHeight? : OtsEvent → Option UInt64
  | .attestation (.bitcoin height) => some height
  | _ => none

def Tree.steps (tree : Tree) : List String := tree.events.map OtsEvent.step

def Tree.pendingUris (tree : Tree) : List String := tree.events.filterMap OtsEvent.pendingUri?

def Tree.bitcoinHeights (tree : Tree) : List UInt64 := tree.events.filterMap OtsEvent.bitcoinHeight?

/-- What the parser has recorded when these events come after the ones before. -/
def OtsProofSummary.record (summary : OtsProofSummary) (events : List OtsEvent) :
    OtsProofSummary where
  fileDigest := summary.fileDigest
  pendingUris := summary.pendingUris ++ events.filterMap OtsEvent.pendingUri?
  bitcoinHeights := summary.bitcoinHeights ++ events.filterMap OtsEvent.bitcoinHeight?
  steps := summary.steps ++ events.map OtsEvent.step

/-- Events are recorded one after the other. -/
theorem OtsProofSummary.record_append (summary : OtsProofSummary) (events more : List OtsEvent) :
    (summary.record events).record more = summary.record (events ++ more) := by
  simp [OtsProofSummary.record]

/-- A pending attestation adds its calendar. -/
theorem OtsProofSummary.record_pending (summary : OtsProofSummary) (uri : String) :
    summary.record [.attestation (.pending uri)] =
      { summary with
        steps := summary.steps ++ [(OtsAttestation.pending uri).step]
        pendingUris := summary.pendingUris ++ [uri] } := by
  simp only [record, List.filterMap_cons, List.filterMap_nil, List.map_cons, List.map_nil,
    OtsEvent.pendingUri?, OtsEvent.bitcoinHeight?, OtsEvent.step, List.append_nil]

/-- A Bitcoin attestation adds its height. -/
theorem OtsProofSummary.record_bitcoin (summary : OtsProofSummary) (height : UInt64) :
    summary.record [.attestation (.bitcoin height)] =
      { summary with
        steps := summary.steps ++ [(OtsAttestation.bitcoin height).step]
        bitcoinHeights := summary.bitcoinHeights ++ [height] } := by
  simp only [record, List.filterMap_cons, List.filterMap_nil, List.map_cons, List.map_nil,
    OtsEvent.pendingUri?, OtsEvent.bitcoinHeight?, OtsEvent.step, List.append_nil]

/-- An operation adds a step. -/
theorem OtsProofSummary.record_operation (summary : OtsProofSummary) (op : OtsOp)
    (events : List OtsEvent) :
    OtsProofSummary.record { summary with steps := summary.steps ++ [op.step] } events
      = summary.record (.operation op :: events) := by
  simp only [record, List.filterMap_cons, List.map_cons, OtsEvent.pendingUri?,
    OtsEvent.bitcoinHeight?, OtsEvent.step, List.append_assoc, List.cons_append, List.nil_append]

/-! ## Serialisation -/

def varbytes (bytes : Bytes) : Bytes := Codec.writeVarint bytes.length ++ bytes

def OtsOp.tag : OtsOp → UInt8
  | .append _ => otsOpAppend
  | .prepend _ => otsOpPrepend
  | .sha256 => otsOpSha256

def OtsOp.operand : OtsOp → Bytes
  | .append suffix => varbytes suffix
  | .prepend front => varbytes front
  | .sha256 => []

def OtsAttestation.bytes : OtsAttestation → Bytes
  | .pending uri => otsPendingAttestationTag ++ varbytes (varbytes (utf8Bytes uri))
  | .bitcoin height =>
    otsBitcoinBlockHeaderAttestationTag ++ varbytes (Codec.writeVarint height.toNat)

mutual

def Branch.bytes : Branch → Bytes
  | .attestation attestation => otsTimestampAttestation :: attestation.bytes
  | .operation op next => op.tag :: (op.operand ++ next.bytes)

def Tree.bytes : Tree → Bytes
  | .last branch => branch.bytes
  | .more branch rest => otsTimestampMore :: (branch.bytes ++ rest.bytes)

end

/-- A detached proof: the header, the version, the file digest and the tree. -/
def Tree.proof (tree : Tree) (fileDigest : Digest) : Bytes :=
  otsHeaderMagic ++ (Codec.writeVarint 1 ++ (otsOpSha256 :: (fileDigest.bytes ++ tree.bytes)))

/-! ## Numbers and byte strings are read back -/

/-- A written number is a numeral of seven-bit groups. -/
theorem isNumeral_writeVarint (n : Nat) : IsNumeral (Codec.writeVarint n) := by
  fun_induction Codec.writeVarint n with
  | case1 n hsmall =>
    refine ⟨[], UInt8.ofNat n, rfl, by simp, ?_⟩
    rw [UInt8.toNat_ofNat']
    omega
  | case2 n hlarge ih =>
    obtain ⟨groups, last, heq, hgroups, hlast⟩ := ih
    refine ⟨UInt8.ofNat (n % 128 + 128) :: groups, last, by rw [heq, List.cons_append], ?_, hlast⟩
    refine List.forall_mem_cons.mpr ⟨?_, hgroups⟩
    rw [UInt8.toNat_ofNat']
    omega

/-- A written number has its value. -/
theorem groupsValue_writeVarint (n : Nat) : groupsValue (Codec.writeVarint n) = n := by
  fun_induction Codec.writeVarint n with
  | case1 n hsmall =>
    rw [groupsValue, groupsValue, UInt8.toNat_ofNat']
    omega
  | case2 n hlarge ih =>
    rw [groupsValue, ih, UInt8.toNat_ofNat']
    omega

/-- A number below 128 is written in one byte. -/
theorem writeVarint_of_lt {n : Nat} (h : n < 128) : Codec.writeVarint n = [UInt8.ofNat n] := by
  rw [Codec.writeVarint, if_pos h]

/-- Numbers of 64 bits take ten groups at most. -/
theorem length_writeVarint_le {n : Nat} (h : n < 2 ^ 64) : (Codec.writeVarint n).length ≤ 10 := by
  rw [Codec.length_writeVarint]
  exact Codec.varintLength_le (Nat.lt_of_lt_of_le h (by decide))

/-- A written number is read back. -/
theorem readVaruint_write (before rest : Bytes) (n : UInt64)
    (hraw : (before ++ (Codec.writeVarint n.toNat ++ rest)).length < 2 ^ 63) :
    (cursorAt before (Codec.writeVarint n.toNat ++ rest)).readVaruint
      = .ok (n, cursorAt (before ++ Codec.writeVarint n.toNat) rest) := by
  rw [readVaruint_eq_ok hraw]
  refine ⟨_, rest, rfl, isNumeral_writeVarint _, length_writeVarint_le n.toNat_lt, ?_, rfl⟩
  rw [groupsValue_writeVarint, Nat.mod_eq_of_lt n.toNat_lt]

/-- Written bytes within the limits are read back. -/
theorem readVarbytes_write (before rest : Bytes) {bytes : Bytes} {maxLen minLen : Nat}
    (hraw : (before ++ (varbytes bytes ++ rest)).length < 2 ^ 63) (hmin : minLen ≤ bytes.length)
    (hmax : bytes.length ≤ maxLen) :
    readVarbytes OtsCursor.readVaruint (cursorAt before (varbytes bytes ++ rest)) maxLen minLen
      = .ok (bytes, cursorAt (before ++ varbytes bytes) rest) := by
  have hlength : bytes.length < 2 ^ 64 := by
    simp only [varbytes, List.length_append] at hraw
    omega
  rw [readVarbytes_eq_ok hraw]
  refine ⟨_, rest, rfl, isNumeral_writeVarint _, length_writeVarint_le hlength, ?_, hmin, hmax, rfl⟩
  rw [groupsValue_writeVarint, Nat.mod_eq_of_lt hlength]

/-- The bytes at the front are read. -/
theorem readBytes_front {before bytes rest : Bytes} {len : Nat}
    (hraw : (before ++ (bytes ++ rest)).length < 2 ^ 63) (hlength : bytes.length = len) :
    (cursorAt before (bytes ++ rest)).readBytes len
      = .ok (bytes, cursorAt (before ++ bytes) rest) :=
  (readBytes_eq_ok hraw).mpr ⟨rest, rfl, hlength, rfl⟩

/-- The byte at the front is read. -/
theorem readU8_front {before rest : Bytes} {byte : UInt8}
    (hraw : (before ++ byte :: rest).length < 2 ^ 63) :
    (cursorAt before (byte :: rest)).readU8 = .ok (byte, cursorAt (before ++ [byte]) rest) :=
  (readU8_eq_ok hraw).mpr ⟨rest, rfl, rfl⟩

/-- At the end there is nothing left to read. -/
theorem assertEof_cursorAt (before : Bytes) : (cursorAt before []).assertEof = .ok () := by
  rw [OtsCursor.assertEof, cursorAt, List.append_nil, decide_eq_true rfl]
  rfl

/-! ## Attestations and operations are read back -/

/-- No calendar has a longer name than the parser takes. -/
def UrisFit (events : List OtsEvent) : Prop :=
  ∀ uri ∈ events.filterMap OtsEvent.pendingUri?, (utf8Bytes uri).length ≤ otsMaxUriLen

/-- Two stretches of events fit when each does. -/
theorem urisFit_append (events more : List OtsEvent) :
    UrisFit (events ++ more) ↔ UrisFit events ∧ UrisFit more := by
  simp only [UrisFit, List.filterMap_append, List.mem_append, or_imp, forall_and]

/-- An operation has no URI to fit. -/
theorem urisFit_operation (op : OtsOp) (events : List OtsEvent) :
    UrisFit (.operation op :: events) ↔ UrisFit events := Iff.rfl

/-- A length takes ten bytes at most. -/
theorem length_varbytes_le {bytes : Bytes} (h : bytes.length < 2 ^ 64) :
    (varbytes bytes).length ≤ bytes.length + 10 := by
  have := length_writeVarint_le h
  rw [varbytes, List.length_append]
  omega

/-- A written URI of permitted characters within the limit is read back. -/
theorem parsePendingAttestationUri_write {uri : String}
    (hfits : (utf8Bytes uri).length ≤ otsMaxUriLen)
    (hbytes : (utf8Bytes uri).all isUriByte) :
    parsePendingAttestationUri OtsCursor.readVaruint (varbytes (utf8Bytes uri)) = .ok uri := by
  have hlimit : otsMaxUriLen = 1000 := rfl
  have hlength := @length_varbytes_le (utf8Bytes uri) (by omega)
  have hread := readVarbytes_write [] [] (by simp; omega) (Nat.zero_le _) hfits
  rw [List.append_nil, ← new_eq_cursorAt] at hread
  rw [parsePendingAttestationUri, hread, Except.ok_bind]
  dsimp only
  rw [assertEof_cursorAt, Except.ok_bind, hbytes, ofUtf8?_utf8Bytes]
  rfl

/-- A written height is read back. -/
theorem parseBitcoinBlockHeaderAttestationHeight_write (height : UInt64) :
    parseBitcoinBlockHeaderAttestationHeight OtsCursor.readVaruint (Codec.writeVarint height.toNat)
      = .ok height := by
  have hlength := length_writeVarint_le height.toNat_lt
  have hread := readVaruint_write [] [] height (by simp; omega)
  rw [List.append_nil, ← new_eq_cursorAt] at hread
  rw [parseBitcoinBlockHeaderAttestationHeight, hread, Except.ok_bind]
  dsimp only
  rw [assertEof_cursorAt]
  rfl

/-- A written attestation is read back and recorded. -/
theorem parseAttestation_write {before rest msg : Bytes} {attestation : OtsAttestation}
    (summary : OtsProofSummary) (hraw : (before ++ (attestation.bytes ++ rest)).length < 2 ^ 63)
    (hvalid : attestation.Valid msg) (hfits : UrisFit [.attestation attestation]) :
    parseAttestation OtsCursor.readVaruint (cursorAt before (attestation.bytes ++ rest)) msg summary
      = .ok (summary.record [.attestation attestation],
        cursorAt (before ++ attestation.bytes) rest) := by
  cases attestation with
  -- the URI fits into its payload
  | pending uri =>
    have huri : (utf8Bytes uri).length ≤ otsMaxUriLen := hfits uri (by simp [OtsEvent.pendingUri?])
    have hlimit : otsMaxUriLen = 1000 := rfl
    have hlength := @length_varbytes_le (utf8Bytes uri) (by omega)
    have hpayload : (varbytes (utf8Bytes uri)).length ≤ otsMaxAttestationPayloadLen := by
      have : otsMaxAttestationPayloadLen = 8192 := rfl
      omega
    rw [OtsAttestation.bytes, List.append_assoc] at hraw ⊢
    rw [parseAttestation, readBytes_front hraw (show otsPendingAttestationTag.length = 8 from rfl),
      Except.ok_bind]
    rw [← List.append_assoc] at hraw
    dsimp only
    rw [readVarbytes_write _ _ hraw (Nat.zero_le _) hpayload, Except.ok_bind]
    dsimp only
    rw [if_pos rfl, parsePendingAttestationUri_write huri hvalid, OtsProofSummary.record_pending,
      List.append_assoc]
    rfl
  | bitcoin height =>
    -- so does the height of a block
    have hlength := length_writeVarint_le height.toNat_lt
    have hpayload : (Codec.writeVarint height.toNat).length ≤ otsMaxAttestationPayloadLen := by
      have : otsMaxAttestationPayloadLen = 8192 := rfl
      omega
    rw [OtsAttestation.bytes, List.append_assoc] at hraw ⊢
    rw [parseAttestation, readBytes_front hraw
      (show otsBitcoinBlockHeaderAttestationTag.length = 8 from rfl), Except.ok_bind]
    rw [← List.append_assoc] at hraw
    dsimp only
    rw [readVarbytes_write _ _ hraw (Nat.zero_le _) hpayload, Except.ok_bind]
    dsimp only
    rw [if_neg (by decide), if_pos rfl, decide_eq_true (show msg.length = 32 from hvalid),
      parseBitcoinBlockHeaderAttestationHeight_write, OtsProofSummary.record_bitcoin,
      List.append_assoc]
    rfl

/-- No operation has the tag of a fork or of an attestation. -/
theorem OtsOp.tag_ne (op : OtsOp) : op.tag ≠ otsTimestampMore
    ∧ op.tag ≠ otsTimestampAttestation := by
  have htags : ∀ tag ∈ [otsOpAppend, otsOpPrepend, otsOpSha256],
      tag ≠ otsTimestampMore ∧ tag ≠ otsTimestampAttestation := by decide +kernel
  exact htags op.tag (by cases op <;> simp [tag])

/-- An operation in front of which its tag has been read. -/
theorem applyOtsOp_write [Sha256] {before rest msg : Bytes} {op : OtsOp}
    (hraw : (before ++ (op.operand ++ rest)).length < 2 ^ 63)
    (hmsg : msg.length ≤ otsMaxOpResultLen)
    (hvalid : op.Valid msg) :
    applyOtsOp OtsCursor.readVaruint (cursorAt before (op.operand ++ rest)) op.tag msg
      = .ok ((op.step, op.apply msg), cursorAt (before ++ op.operand) rest) := by
  rw [applyOtsOp, decide_eq_true hmsg]
  cases op with
  | append suffix =>
    obtain ⟨hmin, hmax⟩ := hvalid
    have hsuffix : suffix.length ≤ otsMaxOpResultLen := by
      rw [List.length_append] at hmax
      omega
    have hread := readVarbytes_write before rest hraw hmin hsuffix
    simp only [OtsOp.operand, OtsOp.tag, hread, Except.ok_bind, decide_eq_true hmax, if_true]
    rfl
  | prepend front =>
    obtain ⟨hmin, hmax⟩ := hvalid
    have hfront : front.length ≤ otsMaxOpResultLen := by
      rw [List.length_append] at hmax
      omega
    have hread := readVarbytes_write before rest hraw hmin hfront
    simp only [OtsOp.operand, OtsOp.tag, hread, Except.ok_bind, decide_eq_true hmax]
    rfl
  | sha256 =>
    rw [OtsOp.operand, List.append_nil]
    rfl

/-- A valid operation keeps the message within its limit. -/
theorem OtsOp.length_apply [Sha256] {op : OtsOp} {msg : Bytes} (hvalid : op.Valid msg) :
    (op.apply msg).length ≤ otsMaxOpResultLen := by
  cases op with
  | append suffix => exact hvalid.2
  | prepend front => exact hvalid.2
  | sha256 =>
    rw [OtsOp.apply, (sha256Digest msg).length_eq]
    decide

/-! ## Trees are read back -/

section

variable [Sha256]

/-- A branch is read back behind its tag, where as many nested calls are left as it has
operations. -/
def Branch.Parses (branch : Branch) : Prop :=
  ∃ tag body, branch.bytes = tag :: body ∧ tag ≠ otsTimestampMore
    ∧ ∀ (before rest msg : Bytes) (left : UInt16) (summary : OtsProofSummary) (steps : Nat),
      (before ++ (body ++ rest)).length < 2 ^ 63 → msg.length ≤ otsMaxOpResultLen →
      branch.Valid msg → UrisFit branch.events → branch.depth < left.toNat → body.length ≤ steps →
        parseTimestampTag OtsCursor.readVaruint
          (parseTimestamp OtsCursor.readVaruint steps) msg left
            (cursorAt before (body ++ rest)) tag summary
          = .ok (summary.record branch.events, cursorAt (before ++ body) rest)

/-- The branches of a timestamp are read back behind the first tag. -/
def Tree.Parses (tree : Tree) : Prop :=
  ∃ tag body, tree.bytes = tag :: body
    ∧ ∀ (before rest msg : Bytes) (left : UInt16) (summary : OtsProofSummary) (steps rounds : Nat),
      (before ++ (body ++ rest)).length < 2 ^ 63 → msg.length ≤ otsMaxOpResultLen →
      tree.Valid msg → UrisFit tree.events → tree.depth < left.toNat → body.length ≤ steps →
      body.length < rounds →
        parseBranches
            (parseTimestampTag OtsCursor.readVaruint (parseTimestamp OtsCursor.readVaruint steps)
              msg left)
            rounds (cursorAt before (body ++ rest)) tag summary
          = .ok (summary.record tree.events, cursorAt (before ++ body) rest)

/-- What a tree that parses is read to, under any depth that it leaves. -/
theorem Tree.Parses.parseTimestamp {tree : Tree} (h : tree.Parses) {before rest msg : Bytes}
    {left : UInt16} (summary : OtsProofSummary) {steps : Nat}
    (hraw : (before ++ (tree.bytes ++ rest)).length < 2 ^ 63)
    (hmsg : msg.length ≤ otsMaxOpResultLen)
    (hvalid : tree.Valid msg) (hfits : UrisFit tree.events) (hdepth : tree.depth < left.toNat)
    (hsteps : tree.bytes.length ≤ steps) :
    parseTimestamp OtsCursor.readVaruint steps (cursorAt before (tree.bytes ++ rest)) msg
      left summary
      = .ok (summary.record tree.events, cursorAt (before ++ tree.bytes) rest) := by
  obtain ⟨tag, body, hbytes, hparses⟩ := h
  rw [hbytes, List.length_cons] at hsteps
  rw [hbytes, List.cons_append] at hraw ⊢
  obtain ⟨steps, rfl⟩ : ∃ fewer, steps = fewer + 1 := ⟨steps - 1, by omega⟩
  have hleft : left ≠ 0 := by
    rintro rfl
    exact absurd hdepth (Nat.not_lt_zero _)
  rw [TrackOne.Ots.parseTimestamp, if_neg hleft, readU8_front hraw, Except.ok_bind]
  rw [List.append_cons] at hraw
  dsimp only
  rw [hparses (before ++ [tag]) rest msg left summary steps (steps + 1) hraw hmsg hvalid
    hfits hdepth
    (by omega) (by omega), List.append_assoc, List.singleton_append]

/-- An attestation parses. -/
theorem Branch.parses_attestation (attestation : OtsAttestation) :
    (Branch.attestation attestation).Parses := by
  refine ⟨otsTimestampAttestation, attestation.bytes, by rw [Branch.bytes], by decide, ?_⟩
  intro before rest msg left summary steps hraw _ hvalid hfits _ _
  rw [Branch.Valid] at hvalid
  rw [Branch.events] at hfits ⊢
  rw [parseTimestampTag, if_pos rfl]
  exact parseAttestation_write summary hraw hvalid hfits

/-- An operation parses when the tree after it does. -/
theorem Branch.parses_operation (op : OtsOp) {next : Tree} (hnext : next.Parses) :
    (Branch.operation op next).Parses := by
  refine ⟨op.tag, op.operand ++ next.bytes, by rw [Branch.bytes], op.tag_ne.1, ?_⟩
  intro before rest msg left summary steps hraw hmsg hvalid hfits hdepth hsteps
  rw [Branch.Valid] at hvalid
  rw [Branch.depth] at hdepth
  rw [Branch.events, urisFit_operation] at hfits
  rw [List.length_append] at hsteps
  rw [List.append_assoc] at hraw ⊢
  have hone : (1 : UInt16).toNat = 1 := rfl
  have hleft : 1 ≤ left := by
    rw [UInt16.le_iff_toNat_le]
    omega
  have hfewer : next.depth < (left - 1).toNat := by
    rw [UInt16.toNat_sub_of_le _ _ hleft]
    omega
  rw [parseTimestampTag, if_neg op.tag_ne.2, applyOtsOp_write hraw hmsg hvalid.1, Except.ok_bind]
  rw [← List.append_assoc] at hraw
  dsimp only
  rw [decide_eq_true hleft, Branch.events, ← List.append_assoc, ← OtsProofSummary.record_operation]
  exact hnext.parseTimestamp _ hraw (OtsOp.length_apply hvalid.1) hvalid.2 hfits hfewer (by omega)

/-- A tree of one branch parses when the branch does. -/
theorem Tree.parses_last {branch : Branch} (hbranch : branch.Parses) :
    (Tree.last branch).Parses := by
  obtain ⟨tag, body, hbytes, htag, hparses⟩ := hbranch
  refine ⟨tag, body, by rw [Tree.bytes, hbytes], ?_⟩
  intro before rest msg left summary steps rounds hraw hmsg hvalid hfits hdepth hsteps hrounds
  rw [Tree.Valid] at hvalid
  rw [Tree.depth] at hdepth
  rw [Tree.events] at hfits ⊢
  obtain ⟨rounds, rfl⟩ : ∃ fewer, rounds = fewer + 1 := ⟨rounds - 1, by omega⟩
  rw [parseBranches, if_neg htag]
  exact hparses before rest msg left summary steps hraw hmsg hvalid hfits hdepth hsteps

/-- A fork parses when its branch and the rest do. -/
theorem Tree.parses_more {branch : Branch} {others : Tree} (hbranch : branch.Parses)
    (hothers : others.Parses) : (Tree.more branch others).Parses := by
  obtain ⟨tag, body, hbytes, -, hparses⟩ := hbranch
  obtain ⟨tag', body', hbytes', hparses'⟩ := hothers
  refine ⟨otsTimestampMore, tag :: body ++ (tag' :: body'), by rw [Tree.bytes, hbytes, hbytes'], ?_⟩
  intro before rest msg left summary steps rounds hraw hmsg hvalid hfits hdepth hsteps hrounds
  rw [Tree.Valid] at hvalid
  rw [Tree.depth] at hdepth
  rw [Tree.events, urisFit_append] at hfits
  simp only [List.length_append, List.length_cons] at hsteps hrounds
  obtain ⟨rounds, rfl⟩ : ∃ fewer, rounds = fewer + 1 := ⟨rounds - 1, by omega⟩
  rw [parseBranches, if_pos rfl]
  simp only [List.cons_append, List.append_assoc] at hraw ⊢
  rw [readU8_front hraw, Except.ok_bind]
  rw [List.append_cons] at hraw
  dsimp only
  rw [hparses (before ++ [tag]) (tag' :: (body' ++ rest)) msg left summary steps hraw hmsg hvalid.1
    hfits.1 (by omega) (by omega), Except.ok_bind]
  rw [← List.append_assoc] at hraw
  dsimp only
  rw [readU8_front hraw, Except.ok_bind]
  rw [List.append_cons] at hraw
  dsimp only
  rw [hparses' _ rest msg left _ steps rounds hraw hmsg hvalid.2 hfits.2 (by omega) (by omega)
    (by omega), OtsProofSummary.record_append, Tree.events]
  simp only [List.append_assoc, List.cons_append, List.nil_append]

/-- Whatever its shape, a tree is read back. -/
theorem Tree.parses (tree : Tree) : tree.Parses :=
  Tree.both Branch.parses_attestation (fun op _ hnext => Branch.parses_operation op hnext)
    (fun _ hbranch => Tree.parses_last hbranch)
    (fun _ _ hbranch hrest => Tree.parses_more hbranch hrest) tree

/-- The proof of a tree is read back, where the file digest is the one that is expected, if any
is. -/
theorem Tree.parse_proof {tree : Tree} {fileDigest : Digest} {artifact : Option ArtifactFile}
    {expectedDigest expected : Option Digest} (hraw : (tree.proof fileDigest).length < 2 ^ 63)
    (hvalid : tree.Valid fileDigest.bytes) (hdepth : tree.depth < otsMaxRecursionDepth.toNat)
    (hfits : UrisFit tree.events)
    (hfound : expectedDigestForOts artifact expectedDigest = .ok expected)
    (hexpected : expected.all (fileDigest = ·)) :
    parseDetachedOts (tree.proof fileDigest) artifact expectedDigest
      = .ok ((OtsProofSummary.new fileDigest).record tree.events) := by
  have hsteps : tree.bytes.length ≤ (tree.proof fileDigest).length + 1 := by
    simp only [Tree.proof, List.length_append, List.length_cons]
    omega
  have hmsg : fileDigest.bytes.length ≤ otsMaxOpResultLen := by
    rw [fileDigest.length_eq]
    decide
  have hprefix : otsHeaderMagic.isPrefixOf (tree.proof fileDigest) = true := by
    rw [List.isPrefixOf_iff_prefix]
    exact List.prefix_append _ _
  rw [parseDetachedOts]
  generalize (tree.proof fileDigest).length + 1 = steps at hsteps
  simp only [parseDetachedOtsWith, Except.bind_eq_ok, Except.require_eq_ok, Except.ofOption_eq_ok,
    decide_eq_true_eq]
  -- What is read of the proof, part by part.
  rw [Tree.proof] at hraw
  have hmagic :=
    (@assertMagic_eq_ok [] (tree.proof fileDigest) otsHeaderMagic _ hraw).mpr ⟨_, rfl, rfl⟩
  have hversion := readVaruint_write otsHeaderMagic
    (otsOpSha256 :: (fileDigest.bytes ++ tree.bytes)) otsMajorVersion hraw
  rw [← List.append_assoc] at hraw
  have hop := readU8_front hraw
  rw [List.append_cons] at hraw
  have hdigest := readBytes_front hraw fileDigest.length_eq
  rw [← List.append_assoc, ← List.append_nil tree.bytes] at hraw
  have htree := tree.parses.parseTimestamp (.new fileDigest) hraw hmsg hvalid hfits hdepth hsteps
  rw [List.append_nil] at htree
  exact ⟨(), hprefix, _, hmagic, _, hversion, (), rfl, _, hop, (), rfl, _, hdigest, fileDigest,
    Digest.ofBytes?_bytes _, expected, hfound, (), hexpected, _, htree, (),
    assertEof_cursorAt _, rfl⟩

/-- A verified proof was parsed, and is pending: it names a calendar and no Bitcoin height. -/
theorem verifyDetachedOtsProof_eq_ok {raw : Bytes} {artifact : Option ArtifactFile}
    {expectedDigest : Option Digest} {result : OtsVerifyResult}
    (h : verifyDetachedOtsProof raw artifact expectedDigest = .ok result) :
    result.status = .pending ∧ ∃ summary, parseDetachedOts raw artifact expectedDigest = .ok summary
      ∧ summary.pendingUris ≠ [] ∧ summary.bitcoinHeights = [] := by
  rw [verifyDetachedOtsProof, Except.bind_eq_ok] at h
  obtain ⟨summary, hparse, h⟩ := h
  split_ifs at h with hheights huris
  cases h
  exact ⟨rfl, summary, hparse, huris, not_not.mp hheights⟩

/-- Every tree is read back from its proof; whatever the proof, the parser returns; and what it does
not verify it calls pending only where something is pending and nothing is attested in a block. -/
theorem parseDetachedOts_readsBack {raw : Bytes} (artifact : Option ArtifactFile)
    (expectedDigest : Option Digest) (hraw : raw.length < 2 ^ 63) :
    (∀ (tree : Tree) (fileDigest : Digest) (expected : Option Digest),
      raw = tree.proof fileDigest → tree.Valid fileDigest.bytes →
      tree.depth < otsMaxRecursionDepth.toNat →
      (∀ uri ∈ tree.pendingUris, (utf8Bytes uri).length ≤ otsMaxUriLen) →
      expectedDigestForOts artifact expectedDigest = .ok expected → expected.all (fileDigest = ·) →
        (∃ summary, parseDetachedOts raw artifact expectedDigest = .ok summary
          ∧ summary.fileDigest = fileDigest ∧ summary.steps = tree.steps
          ∧ summary.pendingUris = tree.pendingUris ∧ summary.bitcoinHeights = tree.bitcoinHeights)
        ∧ ∀ result, verifyDetachedOtsProof raw artifact expectedDigest = .ok result →
            result.status = .pending ∧ tree.pendingUris ≠ [] ∧ tree.bitcoinHeights = [])
    ∧ Returns (parseDetachedOts raw artifact expectedDigest)
    ∧ ∀ result, verifyDetachedOtsProof raw artifact expectedDigest = .ok result →
        result.status = .pending ∧ ∃ summary, parseDetachedOts raw artifact expectedDigest
          = .ok summary
          ∧ summary.pendingUris ≠ [] ∧ summary.bitcoinHeights = [] := by
  refine ⟨?_, parseDetachedOts_returns artifact expectedDigest hraw,
    fun result hverify => verifyDetachedOtsProof_eq_ok hverify⟩
  rintro tree fileDigest expected rfl hvalid hdepth hfits hfound hexpected
  have hparse := Tree.parse_proof hraw hvalid hdepth hfits hfound hexpected
  refine ⟨⟨_, hparse, rfl, List.nil_append _, List.nil_append _, List.nil_append _⟩, ?_⟩
  intro result hverify
  obtain ⟨hstatus, summary, hsummary, huris, hheights⟩ := verifyDetachedOtsProof_eq_ok hverify
  cases hparse.symm.trans hsummary
  exact ⟨hstatus, huris, hheights⟩

end

/-- A tree that is pending at a calendar and attested in a block, behind an operation. -/
def sampleTree : Tree :=
  .more (.operation (.append [0x2a])
    (.last (.operation .sha256 (.last (.attestation (.pending "a.b"))))))
    (.last (.attestation (.bitcoin 7)))

/-- Two attestations below a fork. -/
theorem parseDetachedOts_readsBack_sample :
    ∃ summary, @parseDetachedOts Sha256.fips (sampleTree.proof .zero) none (some .zero)
      = .ok summary
      ∧ summary.pendingUris = ["a.b"] ∧ summary.bitcoinHeights = [7] := by
  have hraw : (sampleTree.proof .zero).length < 2 ^ 63 := by
    have huri : (utf8Bytes "a.b").length = 3 := by decide
    simp [Tree.proof, sampleTree, Tree.bytes, Branch.bytes, OtsOp.operand, OtsAttestation.bytes,
      varbytes, writeVarint_of_lt, otsHeaderMagic, otsPendingAttestationTag,
      otsBitcoinBlockHeaderAttestationTag, Digest.length_eq, huri]
  have hvalid : @Tree.Valid Sha256.fips sampleTree Digest.zero.bytes := by
    refine ⟨⟨⟨by decide, by decide⟩, trivial, ?_⟩, rfl⟩
    show (utf8Bytes "a.b").all isUriByte = true
    decide
  obtain ⟨⟨summary, hparse, -, -, huris, hheights⟩, -⟩ :=
    (@parseDetachedOts_readsBack Sha256.fips _ none (some .zero) hraw).1 sampleTree .zero
      (some .zero) rfl
      hvalid (by decide) (by decide) rfl (by decide)
  exact ⟨summary, hparse, huris, hheights⟩

/-- A calendar whose name has one byte more than the parser takes. -/
def longUri : String := String.ofList (List.replicate 1001 'a')

theorem utf8Bytes_replicate (n : Nat) :
    utf8Bytes (String.ofList (List.replicate n 'a')) = List.replicate n 0x61 := by
  have hchar : String.utf8EncodeChar 'a' = [0x61] := by decide
  rw [utf8Bytes_ofList, List.flatMap_replicate, hchar, List.flatten_replicate_singleton]

/-- A calendar's URI may be longer than the parser takes. -/
theorem parseDetachedOts_rejects_long_uri :
    (Tree.last (.attestation (.pending longUri))).depth < otsMaxRecursionDepth.toNat
    ∧ @Tree.Valid Sha256.fips (.last (.attestation (.pending longUri))) Digest.zero.bytes
    ∧ @parseDetachedOts Sha256.fips ((Tree.last (.attestation (.pending longUri))).proof .zero) none
        none = .error (invalid "ots-proof-parse-failed") := by
  have hlength : Codec.writeVarint 1001 = [0xe9, 0x07] := by
    rw [Codec.writeVarint, if_neg (by decide), writeVarint_of_lt (by decide)]
    rfl
  have hpayload : Codec.writeVarint 1003 = [0xeb, 0x07] := by
    rw [Codec.writeVarint, if_neg (by decide), writeVarint_of_lt (by decide)]
    rfl
  have huri : utf8Bytes longUri = List.replicate 1001 0x61 := utf8Bytes_replicate 1001
  refine ⟨by decide, ?_, ?_⟩
  · show (utf8Bytes longUri).all isUriByte = true
    rw [huri, List.all_replicate]
    decide
  · have hproof : (Tree.last (.attestation (.pending longUri))).proof .zero
        = otsHeaderMagic ++ (1 :: otsOpSha256 :: (List.replicate 32 0 ++ (otsTimestampAttestation ::
            (otsPendingAttestationTag
              ++ (0xeb :: 0x07 :: 0xe9 :: 0x07 :: List.replicate 1001 0x61))))) := by
      simp only [Tree.proof, Tree.bytes, Branch.bytes, OtsAttestation.bytes, varbytes, huri,
        List.length_append, List.length_replicate, hlength, List.length_cons, List.length_nil,
        Nat.reduceAdd, hpayload, writeVarint_of_lt (show 1 < 128 by decide)]
      rfl
    rw [hproof]
    decide +kernel

end TrackOne.Ots
