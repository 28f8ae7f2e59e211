import TrackOne.Checker.Exchange
import TrackOne.Lib.Percent

/-!
# Portable paths of both verifiers

`portable_path` and the quoting of `HttpRetriever.get` in
`toolset/independent-verifier/verify_https_bundle.py`, beside `validate_portable_path` and
`encode_path` of `trackone-evidence`. The checker lists the control characters of ASCII, the
verifier all of Unicode's.

* `portablePath_eq_ok`, `validatePortablePath_eq_ok`: the paths that each accepts.
* `encodePath_eq_quotePath`: both encode a path in one way.
* `portablePaths_agree_iff`: the paths on which both agree.
-/

namespace TrackOne.Checker

open Evidence

/-! ## Encodings of paths -/

/-- `u8::is_ascii_alphanumeric`. -/
def isAsciiAlphanumeric (byte : UInt8) : Bool :=
  (0x30 ≤ byte && byte ≤ 0x39) || (0x41 ≤ byte && byte ≤ 0x5a) || (0x61 ≤ byte && byte ≤ 0x7a)

/-- The bytes that `encode_path` leaves as they are. -/
def pathSafe (byte : UInt8) : Bool :=
  isAsciiAlphanumeric byte || [0x2f, 0x2d, 0x2e, 0x5f, 0x7e].contains byte

def encodePath (path : String) : String :=
  String.ofList (Percent.encode pathSafe (utf8Bytes path))

/-- The bytes that `urllib.parse.quote` never encodes, beside the ASCII letters and digits. -/
def alwaysSafe : List UInt8 := [0x5f, 0x2e, 0x2d, 0x7e]

/-- `quote`, with the bytes that are safe. -/
def quote (safe : List UInt8) (part : List Char) : List Char :=
  Percent.encode (fun byte => isAsciiAlphanumeric byte || alwaysSafe.contains byte
    || safe.contains byte)
    (utf8Bytes (String.ofList part))

/-- The `suffix` of `HttpRetriever.get`. -/
def quotePath (relative : String) : String :=
  String.ofList
    (['/'].intercalate ((relative.toList.splitOn '/').map (quote [0x2d, 0x2e, 0x5f, 0x7e])))

/-! ## What is accepted -/

/-- A character that the checker forbids in a part. -/
def Forbidden (c : Char) : Prop := c = '\\' ∨ c = ':' ∨ c.toNat < 0x20 ∨ c.toNat = 0x7f

/-- The control characters past ASCII. -/
def IsC1Control (c : Char) : Prop := 0x80 ≤ c.toNat ∧ c.toNat ≤ 0x9f

/-- The parts of a path are names, of characters that the checker allows. -/
structure PortableShape (path : String) : Prop where
  chars : ∀ c ∈ path.toList, ¬ Forbidden c
  parts : ∀ part ∈ pathParts path, part ≠ [] ∧ part ≠ ['.'] ∧ part ≠ ['.', '.']

theorem head?_ne_slash {path : String} (h : ∀ part ∈ pathParts path, part ≠ []) :
    path.toList.head? ≠ some '/' := by
  intro hhead
  obtain ⟨rest, hrest⟩ := List.head?_eq_some_iff.mp hhead
  refine h [] ?_ rfl
  rw [pathParts, hrest, List.splitOn_cons_eq_if_modifyHead, if_pos (by decide)]
  exact List.mem_cons_self

theorem ne_empty {path : String} (h : ∀ part ∈ pathParts path, part ≠ []) :
    path.isEmpty = false := by
  rw [Bool.eq_false_iff, ne_eq, String.isEmpty_iff]
  rintro rfl
  exact h [] (by decide) rfl

theorem badPart_iff {parts : List (List Char)} :
    (parts.any fun part => part == [] || part == ['.'] || part == ['.', '.']) = false
      ↔ ∀ part ∈ parts, part ≠ [] ∧ part ≠ ['.'] ∧ part ≠ ['.', '.'] := by
  simp only [List.any_eq_false, Bool.or_eq_true, beq_iff_eq, not_or, and_assoc, ne_eq]

theorem forbidden_iff {text : List Char} :
    ((text.contains '\\' || text.contains ':') || text.any fun c => c.toNat
      < 0x20 || c.toNat == 0x7f) = false
      ↔ ∀ c ∈ text, ¬ Forbidden c := by
  simp only [Bool.or_eq_false_iff, List.contains_eq_mem, decide_eq_false_iff_not, List.any_eq_false,
    Bool.or_eq_true, decide_eq_true_eq, beq_iff_eq, Forbidden, not_or]
  constructor
  · rintro ⟨⟨hbackslash, hcolon⟩, hcontrol⟩ c hc
    exact ⟨fun heq => hbackslash (heq ▸ hc), fun heq => hcolon (heq ▸ hc), hcontrol c hc⟩
  · intro h
    exact ⟨⟨fun hmem => (h _ hmem).1 rfl, fun hmem => (h _ hmem).2.1 rfl⟩, fun c hc => (h c hc).2.2⟩

/-- The paths that the checker accepts. -/
theorem portablePath_eq_ok {path result : String} :
    portablePath path = .ok result ↔ PortableShape path ∧ result = path := by
  simp only [portablePath, Except.bind_eq_ok, Except.require_eq_ok, Bool.not_eq_true', badPart_iff]
  constructor
  · rintro ⟨_, -, _, hchars, _, hparts, h⟩
    rw [Bool.or_assoc, Bool.or_assoc, Bool.or_eq_false_iff, Bool.or_eq_false_iff, ← Bool.or_assoc]
      at hchars
    exact ⟨⟨forbidden_iff.mp hchars.2, hparts⟩, (Except.ok.inj h).symm⟩
  · rintro ⟨shape, rfl⟩
    have hne : ∀ part ∈ pathParts result, part ≠ [] := fun part hpart => (shape.parts part hpart).1
    refine ⟨(), ne_empty hne, (), ?_, (), shape.parts, rfl⟩
    have hslash : (result.toList.head? == some '/') = false := by
      rw [beq_eq_false_iff_ne]
      exact head?_ne_slash hne
    have hbackslash : (result.toList.head? == some '\\') = false := by
      rw [beq_eq_false_iff_ne]
      intro hhead
      exact shape.chars _ (List.mem_of_head? hhead) (.inl rfl)
    rw [hslash, hbackslash, Bool.false_or, Bool.false_or]
    exact forbidden_iff.mpr shape.chars

/-- The paths that the verifier accepts: none has a control character. -/
theorem validatePortablePath_eq_ok {path : String} :
    validatePortablePath path = .ok () ↔ PortableShape path
      ∧ ∀ c ∈ path.toList, ¬ IsC1Control c := by
  constructor
  · intro h
    refine ⟨(portablePath_eq_ok.mp (portablePath_of_validate h)).1, ?_⟩
    simp only [validatePortablePath, Except.require_eq_ok, Bool.not_eq_true', notPortable,
      Bool.or_eq_false_iff] at h
    obtain ⟨⟨⟨-, hcontrol⟩, -⟩, -⟩ := h
    rintro c hc ⟨hge, hle⟩
    have hnot := List.any_eq_false.mp hcontrol c hc
    simp only [isControl, Bool.or_eq_true, Bool.and_eq_true, decide_eq_true_eq] at hnot
    omega
  · rintro ⟨shape, hc1⟩
    refine @validatePortablePath_intercalate path (pathParts path)
      (@List.intercalate_splitOn Char path.toList _ _ '/').symm (List.splitOn_ne_nil _ _) ?_
    intro name hname
    -- each part is a name, and a control character is below 32, or between 127 and 159
    obtain ⟨hnil, hdot, hdots⟩ := shape.parts name hname
    simp only [portableName, Bool.and_eq_true, bne_iff_ne, List.all_eq_true, Bool.not_eq_eq_eq_not,
      Bool.not_true]
    refine ⟨⟨⟨hnil, hdot⟩, hdots⟩, fun c hc => ?_⟩
    have hmem : c ∈ path.toList := Percent.mem_of_mem_splitOn hname hc
    have hallowed := shape.chars c hmem
    simp only [Forbidden, not_or] at hallowed
    obtain ⟨hbackslash, hcolon, hlow, hdelete⟩ := hallowed
    have hhigh := hc1 c hmem
    refine ⟨⟨⟨?_, hbackslash⟩, hcolon⟩, ?_⟩
    · rintro rfl
      exact Percent.notMem_of_mem_splitOn hname hc
    · unfold IsC1Control at hhigh
      rw [isControl, Bool.or_eq_false_iff, Bool.and_eq_false_iff, decide_eq_false_iff_not,
        decide_eq_false_iff_not, decide_eq_false_iff_not]
      omega

/-! ## How accepted paths are encoded -/

/-- The byte of a slash is in no other character. -/
theorem slash_notMem_utf8 {c : Char} (hc : c ≠ '/') : 0x2f ∉ String.utf8EncodeChar c := by
  have hlarge : ∀ n : Nat, 0x80 ≤ n → n < 256 → (0x2f : UInt8) ≠ UInt8.ofNat n := by
    intro n hge hlt heq
    have hvalue := congrArg UInt8.toNat heq
    rw [UInt8.toNat_ofNat_of_lt' (by simpa using hlt)] at hvalue
    change 47 = n at hvalue
    omega
  unfold String.utf8EncodeChar
  dsimp only
  split_ifs with h1 h2 h3
  · rw [List.mem_singleton]
    intro heq
    have hvalue := congrArg UInt8.toNat heq
    rw [UInt8.toNat_ofNat_of_lt' (show c.val.toNat < 256 by omega)] at hvalue
    exact hc (Char.toNat_inj.mp hvalue.symm)
  · simp only [List.mem_cons, List.not_mem_nil, or_false, not_or]
    exact ⟨hlarge _ (by omega) (by omega), hlarge _ (by omega) (by omega)⟩
  · simp only [List.mem_cons, List.not_mem_nil, or_false, not_or]
    exact ⟨hlarge _ (by omega) (by omega), hlarge _ (by omega) (by omega),
      hlarge _ (by omega) (by omega)⟩
  · simp only [List.mem_cons, List.not_mem_nil, or_false, not_or]
    exact ⟨hlarge _ (by omega) (by omega), hlarge _ (by omega) (by omega),
      hlarge _ (by omega) (by omega), hlarge _ (by omega) (by omega)⟩

theorem utf8Bytes_eq_flatMap (text : String) :
    utf8Bytes text = text.toList.flatMap String.utf8EncodeChar := by
  rw [← utf8Bytes_ofList, String.ofList_toList]

theorem plain_pathSafe : Percent.Plain pathSafe := by
  have hall : ∀ n : Fin 256, pathSafe (UInt8.ofNat n) = true → n.val < 128
    ∧ UInt8.ofNat n ≠ 0x25 := by
    decide +kernel
  intro byte hsafe
  simpa using hall ⟨byte.toNat, byte.toNat_lt⟩ (by simpa using hsafe)

/-- The encoding of a character of a path. -/
def encodeChar (c : Char) : List Char := Percent.encode pathSafe (String.utf8EncodeChar c)

theorem toList_encodePath (path : String) :
    (encodePath path).toList = path.toList.flatMap encodeChar := by
  rw [encodePath, String.toList_ofList, utf8Bytes_eq_flatMap, Percent.encode, List.flatMap_assoc]
  rfl

theorem encodeChar_slash : encodeChar '/' = ['/'] := by decide +kernel

theorem slash_notMem_encodeChar (c : Char) (hc : c ≠ '/') : '/' ∉ encodeChar c :=
  Percent.slash_notMem_encode plain_pathSafe (slash_notMem_utf8 hc)

/-- The sets of safe bytes differ in the slash alone, which no part has. -/
theorem quote_eq {part : List Char} (h : '/' ∉ part) :
    quote [0x2d, 0x2e, 0x5f, 0x7e] part = part.flatMap encodeChar := by
  have hbyte : ∀ n : Fin 256, UInt8.ofNat n ≠ 0x2f →
      (isAsciiAlphanumeric (UInt8.ofNat n) || alwaysSafe.contains (UInt8.ofNat n)
        || [0x2d, 0x2e, 0x5f, 0x7e].contains (UInt8.ofNat n)) = pathSafe (UInt8.ofNat n) := by
          decide +kernel
  rw [quote, utf8Bytes_ofList, Percent.encode, List.flatMap_assoc]
  refine List.flatMap_congr fun c hc => ?_
  refine List.flatMap_congr fun byte hmem => ?_
  have hne : byte ≠ 0x2f := by
    rintro rfl
    exact slash_notMem_utf8 (fun heq => h (heq ▸ hc)) hmem
  have hsafe := hbyte ⟨byte.toNat, byte.toNat_lt⟩ (by simpa using hne)
  simp only [UInt8.ofNat_toNat] at hsafe
  rw [Percent.encodeByte, Percent.encodeByte, hsafe]

/-- Both encode a path in one way. -/
theorem encodePath_eq_quotePath (path : String) : encodePath path = quotePath path := by
  rw [← String.toList_inj, toList_encodePath, quotePath, String.toList_ofList]
  have hquoted : (path.toList.splitOn '/').map (quote [0x2d, 0x2e, 0x5f, 0x7e])
      = (path.toList.splitOn '/').map (List.flatMap encodeChar) :=
    List.map_congr_left fun part hpart => quote_eq (Percent.notMem_of_mem_splitOn hpart)
  rw [hquoted, Percent.intercalate_flatMap encodeChar_slash, List.intercalate_splitOn]

/-- A path of names below the root, which both encode in one way that keeps the names. -/
structure StaysBelow (path : String) : Prop where
  parts : ∀ part ∈ pathParts path, part ≠ [] ∧ part ≠ ['.'] ∧ part ≠ ['.', '.']
  encoded_eq : encodePath path = quotePath path
  count_eq : (pathParts (encodePath path)).length = (pathParts path).length
  decoded : Percent.decode (encodePath path).toList = some (utf8Bytes path)

theorem PortableShape.staysBelow {path : String} (shape : PortableShape path) :
    StaysBelow path where
  parts := shape.parts
  encoded_eq := encodePath_eq_quotePath path
  count_eq := by
    rw [pathParts, toList_encodePath,
      Percent.splitOn_flatMap encodeChar_slash slash_notMem_encodeChar, List.length_map]
    rfl
  decoded := by
    rw [encodePath, String.toList_ofList]
    exact Percent.decode_encode plain_pathSafe _

/-- Both accept the same paths, of names below the root that both encode in one way, but for those
with a control character past ASCII and nothing else that is forbidden. -/
theorem portablePaths_agree_iff (path : String) :
    ((portablePath path = .ok path ↔ validatePortablePath path = .ok ())
        ∧ (portablePath path = .ok path ∨ validatePortablePath path = .ok () → StaysBelow path))
      ↔ (∀ c ∈ path.toList, ¬ IsC1Control c) ∨ ¬ PortableShape path := by
  rw [portablePath_eq_ok, validatePortablePath_eq_ok]
  constructor
  · rintro ⟨hagree, -⟩
    by_cases shape : PortableShape path
    · exact .inl (hagree.mp ⟨shape, rfl⟩).2
    · exact .inr shape
  · intro h
    refine ⟨?_, ?_⟩
    · constructor
      · rintro ⟨shape, -⟩
        exact ⟨shape, h.resolve_right (not_not.mpr shape)⟩
      · rintro ⟨shape, -⟩
        exact ⟨shape, rfl⟩
    · rintro (⟨shape, -⟩ | ⟨shape, -⟩) <;> exact shape.staysBelow

/-- A name with a control character past ASCII. -/
theorem portablePaths_differ :
    portablePath "day\u0085log" = .ok "day\u0085log"
      ∧ validatePortablePath "day\u0085log" ≠ .ok () := by
  decide +kernel

example : encodePath "day/50%.log" = "day/50%25.log" := by decide +kernel

end TrackOne.Checker
