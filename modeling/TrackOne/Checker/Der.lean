import TrackOne.Checker.Decoder
import TrackOne.Lib.Decimal
import TrackOne.Lib.Der
import TrackOne.Lib.Slice

/-!
# The DER reader of the independent checker

`der_nodes` and `der_oid` of `toolset/independent-verifier/verify_https_bundle.py`. The nested calls
that the interpreter allows are counted down; the data from the offset on are passed instead of the
offset.

* `derNodes_eq_ok`: exactly the data that are read, and the nodes they are read as.
* `derReader_exact_iff`: where the nodes, and an object identifier, are written back as they were
  read. A length with a zero octet in front is read as well, and so are groups that say nothing. -/

namespace TrackOne.Checker

open Der

/-- What a function of the checker raises. -/
inductive PyError where
  | check (message : String)
  | recursion
  | value
deriving DecidableEq, Repr

structure DerNode where
  tag : UInt8
  value : Bytes
  children : List DerNode

/-! ## Nodes -/

/-- The length behind a tag, and the data behind the length. -/
def derLength : Bytes → Except PyError (Nat × Bytes)
  | [] => .error (.check "truncated DER length")
  | length :: data =>
    if length &&& 0x80 ≠ 0 then
      let width := (length &&& 0x7f).toNat
      if width = 0 ∨ 4 < width ∨ data.length < width then .error (.check "invalid DER length")
      else
        let length := ofBeBytes (data.take width)
        if length < 128 then .error (.check "non-minimal DER length")
        else .ok (length, data.drop width)
    else .ok (length.toNat, data)

/-- The value behind a tag, and the data behind the value. -/
def derValue (tag : UInt8) (data : Bytes) : Except PyError (Bytes × Bytes) := do
  Except.require (.check "high-tag-number DER is outside this checker") (tag &&& 0x1f ≠ 0x1f)
  let (length, data) ← derLength data
  Except.require (.check "truncated DER value") (length ≤ data.length)
  pure (data.take length, data.drop length)

/-- The lengths that are read have four octets at most. -/
def FourOctets : LengthField → Prop
  | .short _ => True
  | .long octets => octets.length ≤ 4

/-- An octet is below 128 when its high bit is clear. -/
theorem high_bit (octet : UInt8) : octet &&& 0x80 = 0 ↔ octet.toNat < 128 := by
  have hall : ∀ n : Fin 256, UInt8.ofNat n &&& 0x80 = 0 ↔ n.val < 128 := by decide +kernel
  simpa using hall ⟨octet.toNat, octet.toNat_lt⟩

/-- The low seven bits of an octet. -/
theorem low_bits (octet : UInt8) : (octet &&& 0x7f).toNat = octet.toNat % 128 := by
  rw [UInt8.toNat_and]
  exact Nat.and_two_pow_sub_one_eq_mod octet.toNat 7

/-- A length is read in either form. -/
theorem derLength_eq_ok {input rest : Bytes} {n : Nat} :
    derLength input = .ok (n, rest)
      ↔ ∃ field : LengthField, field.WellFormed ∧ FourOctets field ∧ field.value = n
        ∧ input = field.bytes ++ rest := by
  cases input with
  | nil =>
    refine iff_of_false (by simp [derLength]) ?_
    rintro ⟨field, -, -, -, hinput⟩
    cases field <;> cases hinput
  | cons octet data =>
    have hbits := low_bits octet
    rw [derLength]
    -- a length below 128 is one octet
    by_cases hlong : octet &&& 0x80 = 0
    · rw [if_neg (not_not.mpr hlong)]
      rw [high_bit] at hlong
      constructor
      · intro h
        cases h
        exact ⟨.short octet, hlong, trivial, rfl, rfl⟩
      · rintro ⟨field, hformed, hfour, rfl, hinput⟩
        cases field with
        | short n =>
          obtain ⟨rfl, rfl⟩ := List.cons.inj hinput
          rfl
        | long octets =>
          obtain ⟨rfl, -⟩ := List.cons.inj hinput
          have hfour : octets.length ≤ 4 := hfour
          rw [UInt8.toNat_ofNat'] at hlong
          omega
    -- else the octet counts those of the length
    · rw [if_pos hlong]
      rw [high_bit, Nat.not_lt] at hlong
      have hoctet : octet.toNat < 256 := octet.toNat_lt
      constructor
      -- the loop accepts a length of four octets at most, from 128 on
      · intro h
        dsimp only at h
        split_ifs at h with hwidth hleast
        obtain ⟨rfl, rfl⟩ := Prod.mk.inj (Except.ok.inj h)
        refine ⟨.long (data.take (octet &&& 0x7f).toNat), Nat.not_lt.mp hleast, ?_, rfl, ?_⟩
        · show (data.take _).length ≤ 4
          rw [List.length_take]
          omega
        · have hcount : UInt8.ofNat (128 + (data.take (octet &&& 0x7f).toNat).length) = octet := by
            rw [← UInt8.toNat_inj, UInt8.toNat_ofNat', List.length_take]
            omega
          rw [LengthField.bytes, hcount, List.cons_append, List.take_append_drop]
      -- a written length has these bounds
      · rintro ⟨field, hformed, hfour, rfl, hinput⟩
        cases field with
        | short n =>
          obtain ⟨rfl, -⟩ := List.cons.inj hinput
          have hlt : octet.toNat < 128 := hformed
          omega
        | long octets =>
          obtain ⟨rfl, hdata⟩ := List.cons.inj hinput
          obtain rfl : data = octets ++ rest := hdata
          have hfour : octets.length ≤ 4 := hfour
          have hge : 128 ≤ ofBeBytes octets := hformed
          have hne : octets.length ≠ 0 := by
            intro hnil
            rw [List.length_eq_zero_iff.mp hnil] at hge
            exact absurd hge (by decide)
          have hwidth : (UInt8.ofNat (128 + octets.length) &&& 0x7f).toNat = octets.length := by
            rw [hbits, UInt8.toNat_ofNat']
            omega
          dsimp only
          rw [hwidth, if_neg (by rw [List.length_append]; omega), List.take_left, List.drop_left,
            if_neg (Nat.not_lt.mpr hge), LengthField.value]

/-- A value is read behind its length. -/
theorem derValue_eq_ok {tag : UInt8} {data value rest : Bytes} :
    derValue tag data = .ok (value, rest)
      ↔ tag &&& 0x1f ≠ 0x1f ∧ ∃ field : LengthField, field.WellFormed ∧ FourOctets field
        ∧ field.value = value.length ∧ data = field.bytes ++ (value ++ rest) := by
  simp only [derValue, Except.bind_eq_ok, Except.require_eq_ok, decide_eq_true_eq]
  constructor
  · rintro ⟨-, htag, ⟨length, behind⟩, hlength, -, hle, h⟩
    obtain ⟨field, hformed, hfour, rfl, rfl⟩ := derLength_eq_ok.mp hlength
    cases h
    refine ⟨htag, field, hformed, hfour, ?_, ?_⟩
    · rw [List.length_take, Nat.min_eq_left hle]
    · rw [List.take_append_drop]
  · rintro ⟨htag, field, hformed, hfour, hvalue, rfl⟩
    refine ⟨(), htag, (_, _), derLength_eq_ok.mpr ⟨field, hformed, hfour, rfl, rfl⟩, (), ?_, ?_⟩
    · rw [hvalue, List.length_append]
      omega
    · rw [hvalue, List.take_left, List.drop_left]
      rfl

/-- Reading a value leaves no more than there was. -/
theorem length_derValue {tag : UInt8} {data value rest : Bytes}
    (h : derValue tag data = .ok (value, rest)) :
    rest.length ≤ data.length := by
  obtain ⟨-, field, -, -, -, rfl⟩ := derValue_eq_ok.mp h
  simp only [List.length_append]
  omega

/-- The `children` of a node: only a constructed one has any. -/
def derChildren (children : Bytes → Except PyError (List DerNode)) (tag : UInt8) (value : Bytes) :
    Except PyError (List DerNode) :=
  if tag &&& 0x20 ≠ 0 then children value else .ok []

/-- The loop of `der_nodes`, with the call for the children of a node. -/
def derLoop (children : Bytes → Except PyError (List DerNode)) :
    Bytes → Except PyError (List DerNode)
  | [] => .ok []
  | tag :: data =>
    match _h : derValue tag data with
    | .error e => .error e
    | .ok (value, rest) => do
      let nested ← derChildren children tag value
      let nodes ← derLoop children rest
      pure ({ tag, value, children := nested } :: nodes)
termination_by data => data.length
decreasing_by
  have := length_derValue _h
  rw [List.length_cons]
  omega

/-- `der_nodes`. -/
def derNodes : Nat → Bytes → Except PyError (List DerNode)
  | 0, _ => .error .recursion
  | depth + 1, data => derLoop (derNodes depth) data

/-! ## Object identifiers -/

/-- The body of the loop of `der_oid`. -/
def oidStep (state : List Nat × Nat) (byte : UInt8) : List Nat × Nat :=
  let value := (state.2 <<< 7) ||| (byte &&& 0x7f).toNat
  if byte &&& 0x80 = 0 then (state.1 ++ [value], 0) else (state.1, value)

def maxStrDigits : Nat := 4300

/-- `str` of a number, which raises `ValueError` for one that is too long. -/
def pyStr (n : Nat) : Except PyError String :=
  if maxStrDigits < (Nat.toDigits 10 n).length then .error .value else .ok (toString n)

def derOid (node : DerNode) : Except PyError String :=
  match node.value with
  | [] => .error (.check "invalid DER OID")
  | first :: rest => do
    Except.require (.check "invalid DER OID") (node.tag = 0x06)
    let firstComponent := min (first.toNat / 40) 2
    let (parts, value) :=
      rest.foldl oidStep ([firstComponent, first.toNat - firstComponent * 40], 0)
    Except.require (.check "truncated DER OID") (value = 0)
    let texts ← parts.mapM pyStr
    pure (".".intercalate texts)

/-! ## What is read -/

/-- An element as it is written. -/
inductive Element where
  | primitive (tag : UInt8) (length : LengthField) (content : Bytes)
  | constructed (tag : UInt8) (length : LengthField) (children : List Element)

mutual

def Element.bytes : Element → Bytes
  | .primitive tag length content => tag :: (length.bytes ++ content)
  | .constructed tag length children => tag :: (length.bytes ++ elementBytes children)

def elementBytes : List Element → Bytes
  | [] => []
  | element :: elements => element.bytes ++ elementBytes elements

end

mutual

/-- The node that an element is read as. -/
def Element.node : Element → DerNode
  | .primitive tag _ content => { tag, value := content, children := [] }
  | .constructed tag _ children =>
    { tag, value := elementBytes children, children := elementNodes children }

def elementNodes : List Element → List DerNode
  | [] => []
  | element :: elements => element.node :: elementNodes elements

end

/-- A tag and a length that are read. -/
structure HeaderRead (tag : UInt8) (length : LengthField) (content : Bytes) : Prop where
  low_tag : tag &&& 0x1f ≠ 0x1f
  wellFormed : length.WellFormed
  fourOctets : FourOctets length
  value_eq : length.value = content.length

/-- The elements that are read where that many calls may be nested. -/
def ElementsRead : Nat → List Element → Prop
  | 0, _ => False
  | depth + 1, elements => ∀ element ∈ elements,
    match element with
    | .primitive tag length content => tag &&& 0x20 = 0 ∧ HeaderRead tag length content
    | .constructed tag length children =>
      tag &&& 0x20 ≠ 0 ∧ HeaderRead tag length (elementBytes children) ∧ ElementsRead depth children

/-- The loop on an element: its value, its children, and the loop on the rest. -/
theorem derLoop_cons {children : Bytes → Except PyError (List DerNode)} {tag : UInt8}
    {data value rest : Bytes} (h : derValue tag data = .ok (value, rest)) :
    derLoop children (tag :: data) = (do
      let nested ← derChildren children tag value
      let nodes ← derLoop children rest
      pure ({ tag, value, children := nested } :: nodes)) := by
  rw [derLoop]
  split
  · rename_i e herror
    rw [h] at herror
    cases herror
  · rename_i value' rest' hok
    rw [h] at hok
    cases hok
    rfl

/-- The loop reads elements, where the call for the children does. -/
theorem derLoop_eq_ok {depth : Nat} {data : Bytes} {nodes : List DerNode}
    (hchildren : ∀ {value : Bytes} {nested : List DerNode}, derNodes depth value = .ok nested
      ↔ ∃ children, ElementsRead depth children ∧ value = elementBytes children
        ∧ nested = elementNodes children) :
    derLoop (derNodes depth) data = .ok nodes
      ↔ ∃ elements, ElementsRead (depth + 1) elements ∧ data = elementBytes elements
        ∧ nodes = elementNodes elements := by
  constructor
  -- the induction is on the number of octets: each element takes some
  · intro h
    induction hlength : data.length using Nat.strongRecOn generalizing data nodes with
    | ind size ih =>
      cases data with
      | nil =>
        rw [derLoop] at h
        cases h
        exact ⟨[], by simp [ElementsRead], rfl, rfl⟩
      | cons tag data =>
        -- the first element is refused, or it is read and the loop goes on
        cases hvalue : derValue tag data with
        | error e =>
          rw [derLoop] at h
          split at h
          · cases h
          · rename_i hok
            rw [hvalue] at hok
            cases hok
        | ok read =>
          obtain ⟨value, rest⟩ := read
          rw [derLoop_cons hvalue] at h
          simp only [Except.bind_eq_ok, derChildren] at h
          obtain ⟨nested, hnested, more, hmore, h⟩ := h
          cases h
          have hshorter := length_derValue hvalue
          obtain ⟨elements, helements, rfl, rfl⟩ :=
            ih rest.length (by rw [← hlength, List.length_cons]; omega) hmore rfl
          obtain ⟨htag, field, hformed, hfour, hfield, rfl⟩ := derValue_eq_ok.mp hvalue
          -- whether it has children is in its tag
          by_cases hconstructed : tag &&& 0x20 = 0
          · rw [if_neg (not_not.mpr hconstructed)] at hnested
            cases hnested
            refine ⟨.primitive tag field value :: elements, ?_, ?_, rfl⟩
            · exact List.forall_mem_cons.mpr
                ⟨⟨hconstructed, htag, hformed, hfour, hfield⟩, helements⟩
            · simp only [elementBytes, Element.bytes, List.cons_append, List.append_assoc]
          · rw [if_pos hconstructed, hchildren] at hnested
            obtain ⟨children, hread, rfl, rfl⟩ := hnested
            refine ⟨.constructed tag field children :: elements, ?_, ?_, rfl⟩
            · exact List.forall_mem_cons.mpr
                ⟨⟨hconstructed, ⟨htag, hformed, hfour, hfield⟩, hread⟩, helements⟩
            · simp only [elementBytes, Element.bytes, List.cons_append, List.append_assoc]
  · rintro ⟨elements, hread, rfl, rfl⟩
    -- elements that were written are read one after the other
    induction elements with
    | nil =>
      rw [elementBytes, derLoop, elementNodes]
    | cons element elements ih =>
      obtain ⟨helement, helements⟩ := List.forall_mem_cons.mp hread
      have hmore := ih helements
      cases element with
      | primitive tag field content =>
        obtain ⟨hprimitive, header⟩ := helement
        have hvalue : derValue tag (field.bytes ++ (content ++ elementBytes elements))
            = .ok (content, elementBytes elements) :=
          derValue_eq_ok.mpr ⟨header.low_tag, field, header.wellFormed, header.fourOctets,
            header.value_eq, rfl⟩
        rw [elementBytes, Element.bytes, List.cons_append, List.append_assoc, derLoop_cons hvalue,
          derChildren, if_neg (not_not.mpr hprimitive), hmore]
        rfl
      | constructed tag field children =>
        obtain ⟨hconstructed, header, hchildrenRead⟩ := helement
        have hvalue : derValue tag (field.bytes ++ (elementBytes children ++ elementBytes elements))
            = .ok (elementBytes children, elementBytes elements) :=
          derValue_eq_ok.mpr ⟨header.low_tag, field, header.wellFormed, header.fourOctets,
            header.value_eq, rfl⟩
        have hnested := hchildren.mpr ⟨children, hchildrenRead, rfl, rfl⟩
        rw [elementBytes, Element.bytes, List.cons_append, List.append_assoc, derLoop_cons hvalue,
          derChildren, if_pos hconstructed, hnested, hmore]
        rfl

/-- Exactly the data that are read, and the nodes they are read as. -/
theorem derNodes_eq_ok {depth : Nat} {data : Bytes} {nodes : List DerNode} :
    derNodes depth data = .ok nodes
      ↔ ∃ elements, ElementsRead depth elements ∧ data = elementBytes elements
        ∧ nodes = elementNodes elements := by
  induction depth generalizing data nodes with
  | zero =>
    refine iff_of_false (by simp [derNodes]) ?_
    rintro ⟨elements, hread, -⟩
    exact hread
  | succ depth ih => exact derLoop_eq_ok ih

/-! ## Nodes are written back -/

mutual

/-- A node as it is written back, with the shortest length. -/
def DerNode.encode : DerNode → Bytes
  | ⟨tag, value, children⟩ =>
    let content := if tag &&& 0x20 ≠ 0 then encodeNodes children else value
    tag :: (lengthOctets content.length ++ content)

def encodeNodes : List DerNode → Bytes
  | [] => []
  | node :: nodes => node.encode ++ encodeNodes nodes

end

mutual

/-- No length has a zero octet in front, at any level. -/
def Element.Tight : Element → Prop
  | .primitive _ length _ => length.Tight
  | .constructed _ length children => length.Tight ∧ ElementsTight children

def ElementsTight : List Element → Prop
  | [] => True
  | element :: elements => element.Tight ∧ ElementsTight elements

end

/-- What is written back is what was read, where that was tight, and else is shorter. -/
def WritesBack (Tight : Prop) (written read : Bytes) : Prop :=
  (Tight ∧ written = read) ∨ (¬ Tight ∧ written.length < read.length)

/-- What is written is what was read exactly where it was tight. -/
theorem WritesBack.eq_iff {Tight : Prop} {written read : Bytes}
    (h : WritesBack Tight written read) :
    written = read ↔ Tight := by
  rcases h with ⟨htight, heq⟩ | ⟨hloose, hlt⟩
  · exact iff_of_true heq htight
  · refine iff_of_false ?_ hloose
    rintro rfl
    exact Nat.lt_irrefl _ hlt

/-- Two parts are written back when each is. -/
theorem WritesBack.append {Tight Tight' : Prop} {written written' read read' : Bytes}
    (h : WritesBack Tight written read) (h' : WritesBack Tight' written' read') :
    WritesBack (Tight ∧ Tight') (written ++ written') (read ++ read') := by
  unfold WritesBack at *
  simp only [List.length_append]
  rcases h with ⟨htight, rfl⟩ | ⟨hloose, hlt⟩
  · rcases h' with ⟨htight', rfl⟩ | ⟨hloose, hlt⟩
    · exact .inl ⟨⟨htight, htight'⟩, rfl⟩
    · exact .inr ⟨fun hboth => hloose hboth.2, by omega⟩
  · refine .inr ⟨fun hboth => hloose hboth.1, ?_⟩
    have hle : written'.length ≤ read'.length := by
      rcases h' with ⟨-, rfl⟩ | ⟨-, hlt⟩
      · exact Nat.le_refl _
      · exact Nat.le_of_lt hlt
    omega

/-- An element is written back with the shortest length of its new content. -/
theorem HeaderRead.writesBack {tag : UInt8} {field : LengthField} {content written : Bytes}
    {Tight : Prop}
    (header : HeaderRead tag field content) (h : WritesBack Tight written content) :
    WritesBack (field.Tight ∧ Tight) (tag :: (lengthOctets written.length ++ written))
      (tag :: (field.bytes ++ content)) := by
  unfold WritesBack at *
  simp only [List.length_cons, List.length_append]
  rcases h with ⟨htight, rfl⟩ | ⟨hloose, hlt⟩
  · rw [← header.value_eq]
    by_cases hfield : field.Tight
    · rw [LengthField.bytes_of_tight header.wellFormed hfield]
      exact .inl ⟨⟨hfield, htight⟩, rfl⟩
    · have := LengthField.length_lt_of_not_tight header.wellFormed hfield
      exact .inr ⟨fun hboth => hfield hboth.1, by omega⟩
  · have hmono := length_lengthOctets_mono (Nat.le_of_lt hlt)
    have hle := LengthField.length_le header.wellFormed
    rw [header.value_eq] at hle
    exact .inr ⟨fun hboth => hloose hboth.2, by omega⟩

/-- By the levels of nesting, and along the elements of each. -/
theorem elements_writeBack {depth : Nat} {elements : List Element}
    (h : ElementsRead depth elements) :
    WritesBack (ElementsTight elements) (encodeNodes (elementNodes elements))
    (elementBytes elements) := by
  induction depth generalizing elements with
  | zero => exact absurd h id
  | succ depth ihDepth =>
    induction elements with
    | nil =>
      rw [elementNodes, encodeNodes, elementBytes, ElementsTight]
      exact .inl ⟨trivial, rfl⟩
    | cons element elements ih =>
      obtain ⟨helement, helements⟩ := List.forall_mem_cons.mp h
      rw [elementNodes, encodeNodes, elementBytes, ElementsTight]
      refine WritesBack.append ?_ (ih helements)
      cases element with
      | primitive tag field content =>
        obtain ⟨hprimitive, header⟩ := helement
        have hcontent : WritesBack True content content := .inl ⟨trivial, rfl⟩
        have helement := header.writesBack hcontent
        rw [and_true] at helement
        rw [Element.node, DerNode.encode, Element.bytes, Element.Tight,
          if_neg (not_not.mpr hprimitive)]
        exact helement
      | constructed tag field children =>
        obtain ⟨hconstructed, header, hchildren⟩ := helement
        have helement := header.writesBack (ihDepth hchildren)
        rw [Element.node, DerNode.encode, Element.bytes, Element.Tight, if_pos hconstructed]
        exact helement

/-- No length in the data has a zero octet in front. -/
def TightLengths (depth : Nat) (data : Bytes) : Prop :=
  ∃ elements, ElementsRead depth elements ∧ elementBytes elements = data ∧ ElementsTight elements

/-- Elements are written back exactly where their lengths are tight. -/
theorem encodeNodes_eq_iff {depth : Nat} {data : Bytes} {nodes : List DerNode}
    (h : derNodes depth data = .ok nodes) : encodeNodes nodes = data ↔ TightLengths depth data := by
  constructor
  · intro heq
    obtain ⟨elements, hread, rfl, rfl⟩ := derNodes_eq_ok.mp h
    exact ⟨elements, hread, rfl, (elements_writeBack hread).eq_iff.mp heq⟩
  · rintro ⟨elements, hread, rfl, htight⟩
    rw [derNodes_eq_ok.mpr ⟨elements, hread, rfl, rfl⟩] at h
    cases h
    exact (elements_writeBack hread).eq_iff.mpr htight

/-! ## Object identifiers are written back -/

/-- The condition may be said in other words. -/
theorem WritesBack.congr {Tight Tight' : Prop} {written read : Bytes}
    (h : WritesBack Tight written read)
    (hiff : Tight ↔ Tight') : WritesBack Tight' written read := by
  rw [← propext hiff]
  exact h

/-- No octet `0x80` stands behind one that ends a subidentifier. -/
def Unpadded (octets : Bytes) : Prop :=
  octets.IsChain fun before octet => before.toNat < 128 → octet ≠ 0x80

/-- An octet ends a number or carries it on. -/
theorem oidStep_eq (parts : List Nat) (value : Nat) (octet : UInt8) :
    oidStep (parts, value) octet
      = if octet.toNat < 128 then (parts ++ [value * 128 + octet.toNat % 128], 0)
        else (parts, value * 128 + octet.toNat % 128) := by
  have hvalue : (value <<< 7) ||| (octet &&& 0x7f).toNat = value * 128 + octet.toNat % 128 := by
    rw [low_bits, ← Nat.shiftLeft_add_eq_or_of_lt (Nat.mod_lt _ (by decide)), Nat.shiftLeft_eq]
  rw [oidStep]
  dsimp only
  rw [hvalue]
  simp only [high_bit]

/-- The groups of a subidentifier that is not read to its end. -/
theorem writesBack_group {before octet : UInt8} {pending : Bytes} {value : Nat} {Tight : Prop}
    (hpending : WritesBack Tight (continuation value) pending)
    (hstart : before.toNat < 128 ↔ pending = [])
    (hoctet : 128 ≤ octet.toNat) :
    WritesBack (Tight ∧ (before.toNat < 128 → octet ≠ 0x80))
    (continuation (value * 128 + octet.toNat % 128))
      (pending ++ [octet]) := by
  have hlt := octet.toNat_lt
  have hpad : octet = 0x80 ↔ octet.toNat % 128 = 0 := by
    rw [← UInt8.toNat_inj]
    show octet.toNat = 128 ↔ _
    omega
  by_cases hsays : value ≠ 0 ∨ octet.toNat % 128 ≠ 0
  · have hback : UInt8.ofNat (octet.toNat % 128 + 128) = octet := by
      rw [← UInt8.toNat_inj, UInt8.toNat_ofNat']
      omega
    have hone : WritesBack True [octet] [octet] := .inl ⟨trivial, rfl⟩
    rw [continuation_succ (Nat.mod_lt _ (by decide)) hsays, hback]
    refine (hpending.append hone).congr (and_congr_right fun htight => ?_)
    rw [true_iff]
    intro hbefore heq
    -- nothing is pending, so the number is zero, and the group is not
    have hvalue : continuation value = [] := by
      rw [hpending.eq_iff.mpr htight, hstart.mp hbefore]
    refine hsays.elim (fun hne => ?_) fun hne => hne (hpad.mp heq)
    rw [continuation, List.reverse_eq_nil_iff, List.map_eq_nil_iff] at hvalue
    exact hne (Nat.digits_eq_nil_iff_eq_zero.mp hvalue)
  · obtain ⟨rfl, hzero⟩ : value = 0 ∧ octet.toNat % 128 = 0 := by omega
    rw [hzero, Nat.zero_mul, continuation_zero]
    refine .inr ⟨?_, by simp⟩
    rintro ⟨htight, hunpadded⟩
    have hnil : pending = [] := by
      rw [← hpending.eq_iff.mpr htight, continuation_zero]
    exact hunpadded (hstart.mpr hnil) (hpad.mpr hzero)

/-- Along the octets, with the groups that are pending. -/
theorem oid_writesBack (rest : Bytes) {before : UInt8} {pending : Bytes} {value : Nat}
    {Tight : Prop}
    (hpending : WritesBack Tight (continuation value) pending)
    (hstart : before.toNat < 128 ↔ pending = [])
    (parts : List Nat) :
    ∃ components last, rest.foldl oidStep (parts, value) = (parts ++ components, last)
      ∧ components.length = lastOctets rest
      ∧ WritesBack (Tight ∧ Unpadded (before :: rest))
        (components.flatMap subidentifier ++ continuation last) (pending ++ rest) := by
  induction rest generalizing before pending value Tight parts with
  | nil =>
    refine ⟨[], value, by simp, rfl, ?_⟩
    rw [List.append_nil, List.flatMap_nil, List.nil_append]
    exact hpending.congr (by simp [Unpadded])
  | cons octet rest ih =>
    rw [List.foldl_cons, oidStep_eq]
    -- an octet without its top bit ends a subidentifier
    by_cases hoctet : octet.toNat < 128
    · have hempty : WritesBack True (continuation 0) [] := .inl ⟨trivial, continuation_zero⟩
      have hone : WritesBack True [octet] [octet] := .inl ⟨trivial, rfl⟩
      have hne : octet ≠ 0x80 := by
        rintro rfl
        exact absurd hoctet (by decide)
      obtain ⟨components, last, hfold, hlength, hback⟩ := ih hempty (iff_of_true hoctet rfl)
        (parts ++ [value * 128 + octet.toNat % 128])
      rw [if_pos hoctet, hfold]
      refine ⟨(value * 128 + octet.toNat % 128) :: components, last, by simp, ?_, ?_⟩
      · rw [List.length_cons, hlength, lastOctets, lastOctets,
          List.countP_cons_of_pos (by simpa using hoctet)]
      · have hsub : subidentifier (value * 128 + octet.toNat % 128)
          = continuation value ++ [octet] := by
          rw [subidentifier_succ (Nat.mod_lt _ (by decide)), Nat.mod_eq_of_lt hoctet,
            UInt8.ofNat_toNat]
        rw [List.flatMap_cons, hsub, List.append_assoc, List.append_assoc]
        refine (hpending.append (hone.append hback)).congr ?_
        simp [Unpadded, hne]
    -- an octet with its top bit is one group of it
    · obtain ⟨components, last, hfold, hlength, hback⟩ :=
        ih (writesBack_group hpending hstart (Nat.not_lt.mp hoctet))
          (iff_of_false hoctet (by simp)) parts
      rw [if_neg hoctet, hfold]
      refine ⟨components, last, rfl, ?_, ?_⟩
      · rw [hlength, lastOctets, lastOctets, List.countP_cons_of_neg (by simpa using hoctet)]
      · rw [List.append_assoc] at hback
        refine hback.congr ?_
        simp [Unpadded, and_assoc]

/-- The dotted form of the components of an object identifier. -/
def dotted (components : List Nat) : String := ".".intercalate (components.map toString)

/-- Numbers are known from their dotted form. -/
theorem dotted_inj {xs ys : List Nat} (hxs : xs ≠ []) (hys : ys ≠ []) (h : dotted xs = dotted ys) :
    xs = ys := by
  have htext : ∀ zs : List Nat, (dotted zs).toList
    = ['.'].intercalate (zs.map (Nat.toDigits 10)) := by
    intro zs
    rw [dotted, String.toList_intercalate, List.map_map]
    congr 1
    refine List.map_congr_left fun n _ => ?_
    rw [Function.comp_apply, Nat.toString_eq_ofList_toDigits, String.toList_ofList]
  have hsplit : ∀ zs : List Nat, zs ≠ [] →
    (dotted zs).toList.splitOn '.' = zs.map (Nat.toDigits 10) := by
    intro zs hzs
    rw [htext]
    refine List.splitOn_intercalate '.' ?_ (by simpa using hzs)
    intro numeral hnumeral hpoint
    obtain ⟨n, -, rfl⟩ := List.mem_map.mp hnumeral
    exact absurd (Decimal.isDigit_of_mem hpoint) (by decide)
  have hnumerals := hsplit xs hxs
  rw [h, hsplit ys hys] at hnumerals
  refine (List.map_injective_iff.mpr ?_ hnumerals).symm
  intro n m hdigits
  rw [← Decimal.value_toDigits n, hdigits, Decimal.value_toDigits]

/-- Numbers that can be printed are printed in decimal. -/
theorem mapM_pyStr {parts : List Nat} {texts : List String} (h : parts.mapM pyStr = .ok texts) :
    texts = parts.map toString := by
  rw [Except.mapM_eq_ok_iff] at h
  induction h with
  | nil => rfl
  | @cons n text parts texts hfirst _ ih =>
    unfold pyStr at hfirst
    split_ifs at hfirst
    rw [List.map_cons, ← ih, Except.ok.inj hfirst]

/-- What is read of an object identifier, in components. -/
theorem derOid_ok {node : DerNode} {text : String} (h : derOid node = .ok text) :
    ∃ first rest components, node.value = first :: rest
      ∧ text = dotted (min (first.toNat / 40) 2 :: (first.toNat - min (first.toNat / 40) 2 * 40)
        :: components)
      ∧ components.length = lastOctets rest
      ∧ WritesBack (Unpadded (0 :: rest)) (components.flatMap subidentifier) rest := by
  unfold derOid at h
  cases hvalue : node.value with
  | nil =>
    rw [hvalue] at h
    cases h
  | cons first rest =>
    have hempty : WritesBack True (continuation 0) [] := .inl ⟨trivial, continuation_zero⟩
    obtain ⟨components, last, hfold, hlength, hback⟩ :=
      @oid_writesBack rest 0 [] 0 True hempty (iff_of_true (by decide) rfl)
        [min (first.toNat / 40) 2, first.toNat - min (first.toNat / 40) 2 * 40]
    rw [hvalue] at h
    simp only [Except.bind_eq_ok, Except.require_eq_ok, decide_eq_true_eq, hfold] at h
    obtain ⟨-, -, -, rfl, texts, htexts, h⟩ := h
    rw [mapM_pyStr htexts] at h
    refine ⟨first, rest, components, rfl, (Except.ok.inj h).symm, hlength, ?_⟩
    rw [continuation_zero, List.append_nil, List.nil_append] at hback
    exact hback.congr (iff_of_eq (true_and _))

/-- The text is the dotted form whose content octets these are. -/
def IsDotted (text : String) (octets : Bytes) : Prop :=
  ∃ a b components, a ≤ 2 ∧ (a < 2 → b < 40) ∧ text = dotted (a :: b :: components)
    ∧ octets = subidentifier (40 * a + b) ++ components.flatMap subidentifier

/-- The first octet ends its subidentifier, and no other has a zero group in front. -/
def ShortestOid (octets : Bytes) : Prop :=
  (∃ first ∈ octets.head?, first.toNat < 128) ∧ Unpadded octets

/-- A zero in front changes no padding of the octets behind it. -/
theorem unpadded_zero_cons {first : UInt8} (h : first.toNat < 128) (rest : Bytes) :
    Unpadded (0 :: rest) ↔ Unpadded (first :: rest) := by
  cases rest with
  | nil => simp [Unpadded]
  | cons octet rest => simp [Unpadded, h]

/-- A dotted form has its own content octets exactly where they are the shortest. -/
theorem derOid_isDotted_iff {node : DerNode} {text : String} (h : derOid node = .ok text) :
    IsDotted text node.value ↔ ShortestOid node.value := by
  obtain ⟨first, rest, components, hvalue, rfl, hlength, hback⟩ := derOid_ok h
  rw [hvalue]
  have hfirst := first.toNat_lt
  have harcs : 40 * min (first.toNat / 40) 2 + (first.toNat - min (first.toNat / 40) 2 * 40)
      = first.toNat := by omega
  -- the text is the dotted form exactly when the octets are the shortest ones
  have hdotted : IsDotted (dotted (min (first.toNat / 40) 2
        :: (first.toNat - min (first.toNat / 40) 2 * 40) :: components)) (first :: rest)
      ↔ first :: rest = subidentifier first.toNat ++ components.flatMap subidentifier := by
    constructor
    · rintro ⟨a, b, components', -, -, htext, hoctets⟩
      have hparts := dotted_inj (by simp) (by simp) htext
      simp only [List.cons.injEq] at hparts
      obtain ⟨rfl, rfl, rfl⟩ := hparts
      rw [hoctets, harcs]
    · intro hoctets
      exact ⟨_, _, components, by omega, by omega, rfl, by rw [harcs]; exact hoctets⟩
  rw [hdotted, ShortestOid]
  -- a first octet without its top bit is a subidentifier of its own
  by_cases hsmall : first.toNat < 128
  · have hsub : subidentifier first.toNat = [first] := by
      have hsucc := @subidentifier_succ 0 first.toNat hsmall
      rw [Nat.zero_mul, Nat.zero_add, continuation_zero, UInt8.ofNat_toNat] at hsucc
      exact hsucc
    rw [hsub, List.cons_append, List.nil_append, List.cons.injEq, ← unpadded_zero_cons hsmall,
      ← hback.eq_iff]
    constructor
    · rintro ⟨-, hrest⟩
      exact ⟨⟨first, rfl, hsmall⟩, hrest.symm⟩
    · rintro ⟨-, hrest⟩
      exact ⟨rfl, hrest.symm⟩
  · refine iff_of_false ?_ ?_
    · -- the subidentifier of the first octet ends in an octet of its own
      intro hoctets
      have hcount := congrArg lastOctets hoctets
      rw [lastOctets, lastOctets, List.countP_append,
        List.countP_cons_of_neg (by simpa using hsmall)] at hcount
      change lastOctets rest = lastOctets _ + lastOctets _ at hcount
      rw [lastOctets_subidentifier, lastOctets_flatMap, hlength] at hcount
      omega
    · rintro ⟨⟨octet, hoctet, hlt⟩, -⟩
      cases hoctet
      exact hsmall hlt

/-- Nodes are written back as they were read where no length has a zero octet in front, and the
dotted form of an object identifier has its content octets where the first is below 128 and no group
in front of a subidentifier is zero. -/
theorem derReader_exact_iff (depth : Nat) (data : Bytes) (node : DerNode) :
    (∀ nodes, derNodes depth data = .ok nodes →
      (encodeNodes nodes = data ↔ TightLengths depth data))
      ∧ ∀ text, derOid node = .ok text → (IsDotted text node.value ↔ ShortestOid node.value) :=
  ⟨fun _ h => encodeNodes_eq_iff h, fun _ h => derOid_isDotted_iff h⟩

/-- The policy `1.2.3`, or the same with a group that says nothing. -/
def oidNode (octets : Bytes) : DerNode := { tag := 0x06, value := octets, children := [] }

/-- An object identifier of two octets, as it is written. -/
def oidElement : Element := .primitive 0x06 (.short 2) [0x2a, 0x03]

/-- The sample identifier is read. -/
theorem oidElement_read : ElementsRead 1 [oidElement] := by
  refine List.forall_mem_cons.mpr ⟨⟨by decide, by decide, ?_, trivial, rfl⟩, by simp⟩
  show (2 : UInt8).toNat < 128
  decide

/-- A short identifier with a short length. -/
theorem derReader_exact_sample :
    encodeNodes [oidNode [0x2a, 0x03]] = [0x06, 0x02, 0x2a, 0x03]
      ∧ IsDotted "1.2.3" [0x2a, 0x03] := by
  have hread : derNodes 1 [0x06, 0x02, 0x2a, 0x03] = .ok [oidNode [0x2a, 0x03]] :=
    derNodes_eq_ok.mpr ⟨_, oidElement_read, rfl, rfl⟩
  obtain ⟨hnodes, hoid⟩ :=
    derReader_exact_iff 1 [0x06, 0x02, 0x2a, 0x03] (oidNode [0x2a, 0x03])
  refine ⟨(hnodes _ hread).mpr ⟨_, oidElement_read, rfl, trivial, trivial⟩, ?_⟩
  refine (hoid "1.2.3" (by decide +kernel)).mpr ?_
  exact ⟨⟨0x2a, rfl, by decide⟩, by simp [oidNode, Unpadded]⟩

/-- An `OCTET STRING` of 128 zeros, its length with two octets. -/
def looseElement : Element := .primitive 0x04 (.long [0x00, 0x80]) (List.replicate 128 0)

/-- The sample string is read. -/
theorem looseElement_read : ElementsRead 1 [looseElement] := by
  refine List.forall_mem_cons.mpr ⟨⟨by decide, by decide, ?_, ?_, ?_⟩, by simp⟩
  · show 128 ≤ ofBeBytes [0x00, 0x80]
    decide
  · show [(0x00 : UInt8), 0x80].length ≤ 4
    decide
  · rw [List.length_replicate]
    decide

/-- The sample string has a zero octet in front of its length. -/
theorem looseElement_bytes :
    [0x04, 0x82, 0x00, 0x80] ++ List.replicate 128 0 = elementBytes [looseElement] := by
  rw [elementBytes, elementBytes, List.append_nil, looseElement, Element.bytes, LengthField.bytes]
  simp only [List.cons_append, List.nil_append]
  rfl

/-- A length with a zero octet in front is read, and two contents have one dotted form. -/
theorem derReader_not_exact :
    (∃ nodes, derNodes 1 ([0x04, 0x82, 0x00, 0x80] ++ List.replicate 128 0) = .ok nodes
        ∧ encodeNodes nodes ≠ [0x04, 0x82, 0x00, 0x80] ++ List.replicate 128 0)
      ∧ derOid (oidNode [0x2a, 0x03]) = .ok "1.2.3"
        ∧ derOid (oidNode [0x2a, 0x80, 0x03]) = .ok "1.2.3"
      ∧ ¬ IsDotted "1.2.3" [0x2a, 0x80, 0x03] := by
  have halias : derOid (oidNode [0x2a, 0x80, 0x03]) = .ok "1.2.3" := by decide +kernel
  rw [looseElement_bytes]
  refine ⟨⟨_, derNodes_eq_ok.mpr ⟨_, looseElement_read, rfl, rfl⟩, ?_⟩, by decide +kernel,
    halias, ?_⟩
  · intro heq
    obtain ⟨htight, -⟩ := (elements_writeBack looseElement_read).eq_iff.mp heq
    exact htight rfl
  · intro hdotted
    obtain ⟨-, hunpadded⟩ := (derOid_isDotted_iff halias).mp hdotted
    simp [oidNode, Unpadded] at hunpadded

end TrackOne.Checker
