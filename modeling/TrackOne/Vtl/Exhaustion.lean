import TrackOne.Vtl.Guards
import TrackOne.Vtl.ProfileId

/-!
# Where the item budget runs out

The budget of `decode_segment_record` starts at the length of the artifact, and an item takes one
byte or more, so the budget is never behind the bytes that are left. It is level with them only as
long as every item was one byte; the bytes that end there, with another item owed, find the budget
empty before they are found to be truncated.

## Architecture
* `oneByteItem` follows the items of one byte, without a budget: `owed` is where the bytes end
  inside of a collection, or before the root.
* `Spared` is what holds while the budget is ahead of the bytes, and `OneByte.Describes` what holds
  while the two are level. `Spared.bind` and `OneByte.Describes.bind` pass them on from an item to
  the next, so the loops are two inductions each.
* `parseCborValue_tracksRun` is the induction on the levels; `decodeSegmentRecord_of_owed` and
  `limitMet_of_resourceLimit` are its outcome.
-/

namespace TrackOne

open DetCbor

/-! ## Items of one byte -/

/-- What items of one byte make of some bytes: they end before the given rest, the bytes end where
an item is owed, or something else is met first. -/
inductive OneByte where
  | done (rest : Bytes)
  | owed
  | other
deriving DecidableEq

def OneByte.bind (run : OneByte) (next : Bytes → OneByte) : OneByte :=
  match run with
  | done rest => next rest
  | owed => owed
  | other => other

def oneByteItems (item : Bytes → OneByte) : Nat → Bytes → OneByte
  | 0, input => .done input
  | count + 1, input => (item input).bind (oneByteItems item count)

/-- The one key of one byte is the empty text, so no second key is in order. -/
def oneByteEntries (item : Bytes → OneByte) : Nat → Bool → Bytes → OneByte
  | 0, _, input => .done input
  | count + 1, first, input =>
    (item input).bind fun rest =>
      if first ∧ input.head? = some 0x60 then (item rest).bind (oneByteEntries item count false)
      else .other

/-- The content of an item whose head is one byte. A collection declares no more than the bytes
left. -/
def oneByteContent (item : Bytes → OneByte) (major ai : UInt8) (rest : Bytes) : OneByte :=
  match major with
  | 0 => .done rest
  | 2 => if ai = 0 then .done rest else .other
  | 3 => if ai = 0 then .done rest else .other
  | 4 => if ai.toNat ≤ rest.length then oneByteItems item ai.toNat rest else .other
  | 5 => if ai.toNat * 2 ≤ rest.length then oneByteEntries item ai.toNat true rest else .other
  | 7 => if ai = 22 then .done rest else .other
  | _ => .other

def oneByteItem : Nat → Bytes → OneByte
  | 0, _ => .other
  | _ + 1, [] => .owed
  | levels + 1, initial :: rest =>
    if initial &&& 0x1f ≤ 23 then
      oneByteContent (oneByteItem levels) (initial >>> 5) (initial &&& 0x1f) rest
    else .other

example : oneByteItem rootLevels [0x82, 0x81, 0x00] = .owed := by decide

example : oneByteItem rootLevels [0x82, 0x00] = .other := by decide

/-! ## A budget ahead of the bytes, and one level with them -/

/-- A budget ahead of the bytes stays ahead, and the only limits that are reported are exceeded. -/
def Spared {α : Type} (result : DecodeResult (α × Nat × Bytes))
    (events : List DecodeEvent) : Prop :=
  (∀ a, result = .ok a → a.2.2.length < a.2.1)
    ∧ ∀ message, result = .error (.resourceLimit message) → ∃ e ∈ events, e.LimitExceeded

def WithinLimits (events : List DecodeEvent) : Prop := ∀ e ∈ events, ¬ e.LimitExceeded

/-- What a run of items of one byte says about a budget level with the bytes. -/
def OneByte.Describes {α : Type} (run : OneByte) (result : DecodeResult (α × Nat × Bytes))
    (events : List DecodeEvent) : Prop :=
  match run with
  | done rest => (∃ a, result = .ok (a, rest.length, rest)) ∧ WithinLimits events
  | owed => result = .error (.resourceLimit "CBOR item budget exceeded") ∧ WithinLimits events
  | other => Spared result events

def NotResourceLimit (error : SegmentDecodeError) : Prop :=
  ∀ message, error ≠ .resourceLimit message

section Combinators

variable {α β : Type} {result : DecodeResult (α × Nat × Bytes)} {events : List DecodeEvent}

/-- An error that is no resource limit needs no witness among the events. -/
theorem spared_of_error {error : SegmentDecodeError} (h : NotResourceLimit error) :
    Spared (.error error : DecodeResult (α × Nat × Bytes)) events := by
  refine ⟨fun a ha => ?_, fun message hmessage => ?_⟩
  · cases ha
  · cases hmessage
    exact absurd rfl (h message)

/-- One more event in front spares no less. -/
theorem Spared.cons (h : Spared result events) (e : DecodeEvent) : Spared result (e :: events) := by
  refine ⟨h.1, fun message hmessage => ?_⟩
  obtain ⟨e', he', hlimit⟩ := h.2 message hmessage
  exact ⟨e', List.mem_cons_of_mem _ he', hlimit⟩

/-- A step and what follows it are spared when both are: what follows runs ahead of its budget
too. -/
theorem Spared.bind {f : α × Nat × Bytes → DecodeResult (β × Nat × Bytes)}
    {next : α × Nat × Bytes → List DecodeEvent} (h : Spared result events)
    (hf : ∀ a, a.2.2.length < a.2.1 → Spared (f a) (next a)) :
    Spared (result >>= f) (events ++ DecodeEvent.after result next) := by
  cases result with
  | error error =>
    refine ⟨fun a ha => ?_, fun message hmessage => ?_⟩
    · cases ha
    · cases hmessage
      obtain ⟨e, he, hlimit⟩ := h.2 message rfl
      exact ⟨e, List.mem_append_left _ he, hlimit⟩
  | ok a =>
    obtain ⟨hok, hlimits⟩ := hf a (h.1 a rfl)
    refine ⟨hok, fun message hmessage => ?_⟩
    obtain ⟨e, he, hlimit⟩ := hlimits message hmessage
    exact ⟨e, List.mem_append_right _ he, hlimit⟩

/-- Wrapping the value changes neither the budget nor the rest. -/
theorem Spared.map {g : α → β} (h : Spared result events) :
    Spared (result >>= fun a => .ok (g a.1, a.2.1, a.2.2)) events := by
  cases result with
  | error error =>
    refine ⟨fun a ha => ?_, fun message hmessage => ?_⟩
    · cases ha
    · cases hmessage
      exact h.2 message rfl
  | ok a =>
    refine ⟨fun b hb => ?_, fun message hmessage => ?_⟩
    · cases hb
      exact h.1 a rfl
    · cases hmessage

variable {run : OneByte}

/-- Two stretches of events within the limits, one after the other. -/
theorem WithinLimits.append {events' : List DecodeEvent} (h : WithinLimits events)
    (h' : WithinLimits events') : WithinLimits (events ++ events') :=
  List.forall_mem_append.mpr ⟨h, h'⟩

/-- One event within the limits in front of others. -/
theorem WithinLimits.cons {e : DecodeEvent} (he : ¬ e.LimitExceeded) (h : WithinLimits events) :
    WithinLimits (e :: events) :=
  List.forall_mem_cons.mpr ⟨he, h⟩

/-- An event within the limits changes nothing that the run says of the result. -/
theorem OneByte.Describes.cons (h : run.Describes result events) {e : DecodeEvent}
    (he : ¬ e.LimitExceeded) : run.Describes result (e :: events) := by
  cases run with
  | done rest => exact ⟨h.1, h.2.cons he⟩
  | owed => exact ⟨h.1, h.2.cons he⟩
  | other => exact Spared.cons h e

/-- The run of a step followed by the run of the rest: level while the one-byte items last, ahead of
the budget from the first longer one on. -/
theorem OneByte.Describes.bind {f : α × Nat × Bytes → DecodeResult (β × Nat × Bytes)}
    {next : α × Nat × Bytes → List DecodeEvent} {nextRun : Bytes → OneByte}
    (h : run.Describes result events)
    (hahead : ∀ a, a.2.2.length < a.2.1 → Spared (f a) (next a))
    (hlevel : ∀ a rest, run = .done rest → result = .ok (a, rest.length, rest) →
      (nextRun rest).Describes (f (a, rest.length, rest)) (next (a, rest.length, rest))) :
    (run.bind nextRun).Describes (result >>= f) (events ++ DecodeEvent.after result next) := by
  cases run with
  | other => exact Spared.bind h hahead
  | owed =>
    obtain ⟨rfl, hwithin⟩ := h
    exact ⟨rfl, hwithin.append (by simp [WithinLimits, DecodeEvent.after])⟩
  | done rest =>
    obtain ⟨⟨a, rfl⟩, hwithin⟩ := h
    have hnext := hlevel a rest rfl rfl
    rw [OneByte.bind, Except.ok_bind]
    simp only [DecodeEvent.after]
    cases hrun : nextRun rest with
    | done rest' =>
      rw [hrun] at hnext
      exact ⟨hnext.1, hwithin.append hnext.2⟩
    | owed =>
      rw [hrun] at hnext
      exact ⟨hnext.1, hwithin.append hnext.2⟩
    | other =>
      rw [hrun] at hnext
      refine ⟨hnext.1, fun message hmessage => ?_⟩
      obtain ⟨e, he, hlimit⟩ := hnext.2 message hmessage
      exact ⟨e, List.mem_append_right _ he, hlimit⟩

/-- What becomes of a parsed value does not matter to its run. -/
theorem OneByte.Describes.map {g : α → β} (h : run.Describes result events) :
    run.Describes (result >>= fun a => .ok (g a.1, a.2.1, a.2.2)) events := by
  cases run with
  | other => exact Spared.map h
  | owed =>
    obtain ⟨rfl, hwithin⟩ := h
    exact ⟨rfl, hwithin⟩
  | done rest =>
    obtain ⟨⟨a, rfl⟩, hwithin⟩ := h
    exact ⟨⟨g a, rfl⟩, hwithin⟩

end Combinators

/-! ## The loops -/

/-- A parser, what it meets, and the run of one-byte items it is followed by. -/
structure TracksRun (parse : Nat → Bytes → DecodeResult (CborValue × Nat × Bytes))
    (met : Nat → Bytes → List DecodeEvent) (item : Bytes → OneByte) : Prop where
  ahead : ∀ {n input}, input.length < n → Spared (parse n input) (met n input)
  level : ∀ input, (item input).Describes (parse input.length input) (met input.length input)
  text : ∀ {input rest s m rest'}, item input = .done rest →
    parse input.length input = .ok (.text s, m, rest') → input.head? = some 0x60
  emptyText : ∀ {tail rest}, item (0x60 :: tail) = .done rest →
    parse (tail.length + 1) (0x60 :: tail) = .ok (.text "", tail.length, tail)

section Loops

variable {parse : Nat → Bytes → DecodeResult (CborValue × Nat × Bytes)}
variable {met : Nat → Bytes → List DecodeEvent} {item : Bytes → OneByte}

/-- With fewer bytes left than budget an array is spared: each item consumes at least what it is
charged. -/
theorem parseItems_ahead (h : TracksRun parse met item) {count n : Nat} {input : Bytes}
    (hlt : input.length < n) :
    Spared (parseItems parse count n input) (itemsMet parse met count n input) := by
  induction count generalizing n input with
  | zero =>
    refine ⟨fun a ha => ?_, fun message hmessage => ?_⟩
    · cases ha
      exact hlt
    · cases hmessage
  | succ count ih =>
    refine (h.ahead hlt).bind ?_
    rintro ⟨value, n', rest⟩ hlt'
    exact (ih hlt').map (g := fun values => value :: values)

/-- With as many bytes left as budget an array follows the run of its items. -/
theorem parseItems_level (h : TracksRun parse met item) (count : Nat) (input : Bytes) :
    (oneByteItems item count input).Describes (parseItems parse count input.length input)
      (itemsMet parse met count input.length input) := by
  induction count generalizing input with
  | zero => exact ⟨⟨[], rfl⟩, by simp [WithinLimits, itemsMet]⟩
  | succ count ih =>
    refine (h.level input).bind ?_ ?_
    · rintro ⟨value, n', rest⟩ hlt'
      exact (parseItems_ahead h hlt').map (g := fun values => value :: values)
    · rintro value rest - -
      exact (ih rest).map (g := fun values => value :: values)

/-- With fewer bytes left than budget a map is spared, key and value of each entry in turn. -/
theorem parseEntries_ahead (h : TracksRun parse met item) {count n : Nat} {previous : Option Bytes}
    {input : Bytes} (hlt : input.length < n) :
    Spared (parseEntries parse count previous n input)
      (entriesMet parse met count previous n input) := by
  induction count generalizing n previous input with
  | zero =>
    refine ⟨fun a ha => ?_, fun message hmessage => ?_⟩
    · cases ha
      exact hlt
    · cases hmessage
  | succ count ih =>
    refine (h.ahead hlt).bind ?_
    rintro ⟨key, n', rest⟩ hlt'
    dsimp only
    split
    · exact spared_of_error (by simp [NotResourceLimit])
    · cases key with
      | text key =>
        refine (h.ahead hlt').bind ?_
        rintro ⟨value, n'', rest'⟩ hlt''
        exact (ih hlt'').map (g := fun entries => (key, value) :: entries)
      | _ => exact spared_of_error (by simp [NotResourceLimit])

/-- The key of one byte. -/
theorem rawKey_emptyText (tail : Bytes) :
    ((0x60 : UInt8) :: tail).take (((0x60 : UInt8) :: tail).length - tail.length) = [0x60] := by
  rw [List.length_cons, Nat.add_sub_cancel_left]
  rfl

/-- With as many bytes left as budget a map follows the run of its entries. The keys of such a run
are all the empty text, so that a second entry is out of order. -/
theorem parseEntries_level (h : TracksRun parse met item) (count : Nat) {first : Bool}
    {previous : Option Bytes} (hprevious : previous = if first then none else some [0x60])
    (input : Bytes) :
    (oneByteEntries item count first input).Describes
      (parseEntries parse count previous input.length input)
      (entriesMet parse met count previous input.length input) := by
  induction count generalizing first previous input with
  | zero => exact ⟨⟨[], rfl⟩, by simp [WithinLimits, entriesMet]⟩
  | succ count ih =>
    refine (h.level input).bind ?_ ?_
    · rintro ⟨key, n', rest⟩ hlt'
      dsimp only
      split
      · exact spared_of_error (by simp [NotResourceLimit])
      · cases key with
        | text key =>
          refine (h.ahead hlt').bind ?_
          rintro ⟨value, n'', rest'⟩ hlt''
          exact (parseEntries_ahead h hlt'').map (g := fun entries => (key, value) :: entries)
        | _ => exact spared_of_error (by simp [NotResourceLimit])
    · rintro key rest hrun hkey
      have htext : ∀ s, key = .text s → ∃ tail, input = 0x60 :: tail ∧ rest = tail := by
        rintro s rfl
        obtain ⟨tail, rfl⟩ := List.head?_eq_some_iff.mp (h.text hrun hkey)
        have hempty := h.emptyText hrun
        rw [List.length_cons, hempty, Except.ok.injEq, Prod.mk.injEq, Prod.mk.injEq] at hkey
        exact ⟨tail, rfl, hkey.2.2.symm⟩
      split
      · next hgoes =>
        -- the first key is the empty text, and the value is next
        obtain ⟨hfirst, hhead⟩ := hgoes
        obtain ⟨tail, rfl⟩ := List.head?_eq_some_iff.mp hhead
        have hempty := h.emptyText hrun
        rw [List.length_cons, hempty, Except.ok.injEq, Prod.mk.injEq, Prod.mk.injEq] at hkey
        obtain ⟨rfl, -, rfl⟩ := hkey
        rw [hfirst, if_pos rfl] at hprevious
        subst hprevious
        simp only [keyOutOfOrder, Bool.false_eq_true, if_false, rawKey_emptyText]
        refine (h.level tail).bind ?_ ?_
        · rintro ⟨value, n'', rest'⟩ hlt''
          exact (parseEntries_ahead h hlt'').map (g := fun entries => ("", value) :: entries)
        · rintro value rest' - -
          exact (ih rfl rest').map (g := fun entries => ("", value) :: entries)
      · next hstops =>
        -- no second key of one byte is in order, and no other is a text
        dsimp only
        split
        · exact spared_of_error (by simp [NotResourceLimit])
        · next horder =>
          cases key with
          | text key =>
            obtain ⟨tail, rfl, rfl⟩ := htext key rfl
            have hfirst : first = false := by
              rw [← Bool.not_eq_true]
              exact fun hfirst => hstops ⟨hfirst, rfl⟩
            rw [hfirst, if_neg (by decide)] at hprevious
            rw [hprevious, rawKey_emptyText] at horder
            exact absurd (by decide : keyOutOfOrder (some [0x60]) [0x60] = true) horder
          | _ => exact spared_of_error (by simp [NotResourceLimit])

end Loops

/-! ## Errors that report no limit -/

/-- Bytes that are missing are no resource limit. -/
theorem takeBytes_failsWith {message : String} {width : Nat} {input : Bytes} :
    Except.FailsWith NotResourceLimit (takeBytes message width input) := by
  unfold takeBytes
  split
  · exact Except.failsWith_ok _
  · exact Except.failsWith_error (by simp [NotResourceLimit])

/-- An argument cut short, or longer than it need be, is no resource limit. -/
theorem readWideArgument_failsWith {width shorterMax : Nat} {input : Bytes} :
    Except.FailsWith NotResourceLimit (readWideArgument width shorterMax input) := by
  refine takeBytes_failsWith.bind fun part _ => ?_
  dsimp only
  split
  · exact Except.failsWith_error (by simp [NotResourceLimit])
  · exact Except.failsWith_ok _

/-- The head of an item fails with no resource limit. -/
theorem readCborArgument_failsWith {input : Bytes} {ai : UInt8} :
    Except.FailsWith NotResourceLimit (readCborArgument input ai) := by
  unfold readCborArgument
  split_ifs
  · exact Except.failsWith_ok _
  · exact readWideArgument_failsWith
  · exact readWideArgument_failsWith
  · exact readWideArgument_failsWith
  · exact readWideArgument_failsWith
  · exact Except.failsWith_error (by simp [NotResourceLimit])

/-- A wider argument has bytes of its own. -/
theorem length_lt_of_readCborArgument {input rest : Bytes} {ai : UInt8} {n : UInt64}
    (hwide : ¬ ai ≤ 23) (h : readCborArgument input ai = .ok (n, rest)) :
    rest.length < input.length := by
  have hread : ∀ width shorterMax, 0 < width → width ≤ 8 →
      readWideArgument width shorterMax input = .ok (n, rest) → rest.length < input.length := by
    intro width shorterMax hpos hle h
    obtain ⟨-, -, rfl⟩ := (readWideArgument_eq_ok hle).mp h
    rw [List.length_append, length_beBytes]
    omega
  unfold readCborArgument at h
  rw [if_neg hwide] at h
  split_ifs at h
  · exact hread _ _ (by decide) (by decide) h
  · exact hread _ _ (by decide) (by decide) h
  · exact hread _ _ (by decide) (by decide) h
  · exact hread _ _ (by decide) (by decide) h

section Content

variable {parse : Nat → Bytes → DecodeResult (CborValue × Nat × Bytes)}
variable {met : Nat → Bytes → List DecodeEvent} {item : Bytes → OneByte}

/-- Below a scalar nothing is charged, so nothing can run out. -/
theorem parseContent_scalar_failsWith {major ai : UInt8} {len : UInt64} {n : Nat} {input : Bytes}
    (harray : major ≠ 4) (hmap : major ≠ 5) :
    Except.FailsWith NotResourceLimit (parseContent parse major ai len n input) := by
  unfold parseContent
  split
  · exact Except.failsWith_ok _
  · exact takeBytes_failsWith.bind fun _ _ => Except.failsWith_ok _
  · refine takeBytes_failsWith.bind fun _ _ => ?_
    exact (Except.failsWith_ofOption (by simp [NotResourceLimit]) _).bind
      fun _ _ => Except.failsWith_ok _
  · exact absurd rfl harray
  · exact absurd rfl hmap
  · split
    · exact Except.failsWith_ok _
    · exact Except.failsWith_error (by simp [NotResourceLimit])
  · exact Except.failsWith_error (by simp [NotResourceLimit])
  · exact Except.failsWith_error (by simp [NotResourceLimit])
  · exact Except.failsWith_error (by simp [NotResourceLimit])

/-- A step that fails with no resource limit, and consumes a byte when it succeeds, is spared. -/
theorem spared_of_failsWith {α : Type} {result : DecodeResult (α × Nat × Bytes)}
    {events : List DecodeEvent} (hok : ∀ a, result = .ok a → a.2.2.length < a.2.1)
    (h : Except.FailsWith NotResourceLimit result) : Spared result events :=
  ⟨hok, fun message hmessage => absurd rfl (h _ hmessage message)⟩

/-- The size check reports a limit for a collection that exceeds it. -/
theorem spared_of_fits {α : Type} {input : Bytes} {len : UInt64} {k : Nat}
    {f : Nat → DecodeResult (α × Nat × Bytes)} {next : Nat → List DecodeEvent}
    (h : ∀ count, Spared (f count) (next count)) :
    Spared (ensureCollectionFits input len k >>= f)
      (.collection len k input.length
        :: DecodeEvent.after (ensureCollectionFits input len k) next) := by
  cases hfits : ensureCollectionFits input len k with
  | ok count => exact (h count).cons _
  | error error =>
    simp only [ensureCollectionFits] at hfits
    split_ifs at hfits with hsize hfew
    · cases hfits
      refine ⟨fun a ha => ?_, fun message hmessage => ⟨_, List.mem_cons_self, hsize⟩⟩
      cases ha
    · cases hfits
      exact spared_of_error (by simp [NotResourceLimit])

/-- With fewer bytes left than budget the content of an item is spared. -/
theorem parseContent_ahead (h : TracksRun parse met item) {major ai : UInt8} {len : UInt64}
    {n : Nat}
    {input : Bytes} (hlt : input.length < n) :
    Spared (parseContent parse major ai len n input)
      (contentMet (.of true true) parse met major len n input) := by
  by_cases harray : major = 4
  · subst harray
    exact spared_of_fits fun count => (parseItems_ahead h hlt).map (g := CborValue.array)
  · by_cases hmap : major = 5
    · subst hmap
      exact spared_of_fits fun count => (parseEntries_ahead h hlt).map (g := CborValue.map)
    · refine spared_of_failsWith ?_ (parseContent_scalar_failsWith harray hmap)
      rintro ⟨value, m, rest⟩ hok
      obtain ⟨rfl, hle, -⟩ := @parseContent_scalar parse parse _ _ _ _ _ _ _ _ harray hmap hok
      exact Nat.lt_of_le_of_lt hle hlt

/-- A string of one byte is the empty one. -/
theorem takeBytes_oneByte {message : String} {ai : UInt8} {input : Bytes} {α : Type}
    {f : Bytes × Bytes → DecodeResult (α × Nat × Bytes)} {g : Bytes → α}
    (hf : ∀ part rest, Except.FailsWith NotResourceLimit (f (part, rest))
      ∧ ∀ a, f (part, rest) = .ok a → a.2 = (input.length, rest))
    (hempty : f ([], input) = .ok (g [], input.length, input)) :
    (if ai = 0 then OneByte.done input else .other).Describes
      (takeBytes message ai.toUInt64.toNat input >>= f) [] := by
  split
  · next hai =>
    subst hai
    have htake : takeBytes message (0 : UInt8).toUInt64.toNat input = .ok ([], input) :=
      takeBytes_eq_ok.mpr ⟨rfl, rfl⟩
    rw [htake, Except.ok_bind, hempty]
    exact ⟨⟨_, rfl⟩, by simp [WithinLimits]⟩
  · next hai =>
    refine spared_of_failsWith ?_ (takeBytes_failsWith.bind fun a _ => (hf a.1 a.2).1)
    intro a ha
    obtain ⟨⟨part, rest⟩, htake, hread⟩ := Except.bind_eq_ok.mp ha
    obtain ⟨hlen, rfl⟩ := takeBytes_eq_ok.mp htake
    rw [(hf part rest).2 a hread, List.length_append, hlen, UInt8.toNat_toUInt64]
    have hpos : 0 < ai.toNat := Nat.pos_of_ne_zero fun h => hai (UInt8.toNat_inj.mp h)
    show rest.length < ai.toNat + rest.length
    omega

/-- A collection of more items than the bytes left is malformed. -/
theorem ensureCollectionFits_few {input : Bytes} {len : UInt64} {k : Nat}
    (hsize : len.toNat * k < 2 ^ 64) (hfew : input.length < len.toNat * k) :
    ensureCollectionFits input len k
      = .error (.malformed "CBOR collection length exceeds remaining input") := by
  simp only [ensureCollectionFits]
  rw [if_neg (by omega), if_pos hfew]

/-- With as many bytes left as budget the content of an item follows its one-byte run. -/
theorem parseContent_level (h : TracksRun parse met item) {major ai : UInt8} (input : Bytes) :
    (oneByteContent item major ai input).Describes
      (parseContent parse major ai ai.toUInt64 input.length input)
      (contentMet (.of true true) parse met major ai.toUInt64 input.length input) := by
  have hai := ai.toNat_lt
  have hlen : ai.toUInt64.toNat = ai.toNat := UInt8.toNat_toUInt64 ai
  unfold oneByteContent
  split
  -- an unsigned integer ends with its head
  · exact ⟨⟨_, rfl⟩, by simp [WithinLimits, contentMet]⟩
  -- a byte string or a text of one byte is empty
  · refine takeBytes_oneByte (g := CborValue.bytes) (fun part rest => ⟨?_, fun a ha => ?_⟩) rfl
    · exact Except.failsWith_ok _
    · cases ha
      rfl
  · refine takeBytes_oneByte (g := fun _ => CborValue.text "")
      (fun part rest => ⟨?_, fun a ha => ?_⟩) rfl
    · exact (Except.failsWith_ofOption (by simp [NotResourceLimit]) _).bind
        fun _ _ => Except.failsWith_ok _
    · obtain ⟨text, -, ha⟩ := Except.bind_eq_ok.mp ha
      cases ha
      rfl
  -- an array: its size passes the guard when it is within the bytes left
  · split
    · next hle =>
      have hfits : ensureCollectionFits input ai.toUInt64 1 = .ok ai.toNat :=
        ensureCollectionFits_eq_ok.mpr ⟨hlen.symm, by omega, by omega⟩
      simp only [parseContent, contentMet, Guards.of, if_true, hfits, Except.ok_bind,
        DecodeEvent.after]
      refine ((parseItems_level h ai.toNat input).map (g := CborValue.array)).cons ?_
      show ¬ 2 ^ 64 ≤ ai.toUInt64.toNat * 1
      omega
    · next hfew =>
      simp only [parseContent]
      rw [ensureCollectionFits_few (by omega) (by omega)]
      exact spared_of_error (by simp [NotResourceLimit])
  -- a map: twice its size is within the bytes left
  · split
    · next hle =>
      have hfits : ensureCollectionFits input ai.toUInt64 2 = .ok ai.toNat :=
        ensureCollectionFits_eq_ok.mpr ⟨hlen.symm, by omega, by omega⟩
      simp only [parseContent, contentMet, Guards.of, if_true, hfits, Except.ok_bind,
        DecodeEvent.after]
      refine ((parseEntries_level h ai.toNat rfl input).map (g := CborValue.map)).cons ?_
      show ¬ 2 ^ 64 ≤ ai.toUInt64.toNat * 2
      omega
    · next hfew =>
      simp only [parseContent]
      rw [ensureCollectionFits_few (by omega) (by omega)]
      exact spared_of_error (by simp [NotResourceLimit])
  -- null is the one simple value of one byte
  · simp only [parseContent, contentMet]
    split
    · exact ⟨⟨_, rfl⟩, by simp [WithinLimits]⟩
    · exact spared_of_error (by simp [NotResourceLimit])
  · next huint hbytes htext harray hmap hsimple =>
    -- no other major type is read
    unfold parseContent
    split
    · exact absurd rfl huint
    · exact absurd rfl hbytes
    · exact absurd rfl htext
    · exact absurd rfl harray
    · exact absurd rfl hmap
    · exact absurd rfl hsimple
    all_goals exact spared_of_error (by simp [NotResourceLimit])

end Content

/-! ## The parser -/

/-- The one-byte text is the empty text, and the parser reads it as such. -/
theorem oneByteItem_emptyText {levels : Nat} {tail rest : Bytes}
    (h : oneByteItem levels (0x60 :: tail) = .done rest) :
    parseCborValue levels (tail.length + 1) (0x60 :: tail) = .ok (.text "", tail.length, tail) := by
  cases levels with
  | zero => cases h
  | succ levels =>
    have htake : takeBytes "truncated CBOR text" (UInt64.toNat 0) tail = .ok ([], tail) :=
      takeBytes_eq_ok.mpr ⟨rfl, rfl⟩
    simp only [parseCborValue, consumeItem, Except.ok_bind]
    show parseContent (parseCborValue levels) 3 0 0 tail.length tail = _
    simp only [parseContent, htake, Except.ok_bind]
    rfl

/-- The only text of one byte is the empty one. -/
theorem oneByteItem_text {levels m : Nat} {input rest rest' : Bytes} {s : String}
    (h : oneByteItem levels input = .done rest)
    (hparse : parseCborValue levels input.length input = .ok (.text s, m, rest')) :
    input.head? = some 0x60 := by
  obtain ⟨-, hinput⟩ := parseCborValue_sound levels _ _ _ _ _ hparse
  rw [CborValue.toItem, Item.encode, encodeText, lengthHead, head_eq_cons] at hinput
  obtain ⟨hmajor, -⟩ := initial_fields (by decide : (3 : UInt8) < 8)
    (UInt8.lt_trans (shortestInfo_lt (UInt64.ofNat (utf8Bytes s).length)) (by decide))
  cases levels with
  | zero => cases h
  | succ levels =>
    cases input with
    | nil => cases h
    | cons initial input =>
      simp only [List.cons_append, List.cons.injEq] at hinput
      rw [← hinput.1] at hmajor
      simp only [oneByteItem, oneByteContent, hmajor] at h
      split_ifs at h with hai hzero
      have hinitial := initial_of_fields initial
      rw [hmajor, hzero] at hinitial
      rw [List.head?_cons, ← hinitial]
      rfl

/-- The parser on an item: its head, then its content on a budget one smaller. -/
theorem parseCborValue_cons {levels n : Nat} {initial : UInt8} {input : Bytes} :
    parseCborValue (levels + 1) (n + 1) (initial :: input)
      = (readCborArgument input (initial &&& 0x1f) >>= fun head =>
        parseContent (parseCborValue levels) (initial >>> 5) (initial &&& 0x1f) head.1 n head.2) :=
  rfl

/-- The events of an item: the item itself, and then those of its content. -/
theorem parseMet_cons {levels n : Nat} {initial : UInt8} {input : Bytes} :
    parseMet (.of true true) (levels + 1) (n + 1) (initial :: input)
      = .item (levels + 1)
        :: DecodeEvent.after (readCborArgument input (initial &&& 0x1f)) fun head =>
        contentMet (.of true true) (parseCborValue levels) (parseMet (.of true true) levels)
          (initial >>> 5) head.1 n head.2 := by
  rw [← parseCborValueWith_source]
  rfl

/-- A head reports no limit. -/
theorem spared_of_head {α : Type} {input : Bytes} {ai : UInt8}
    {f : UInt64 × Bytes → DecodeResult (α × Nat × Bytes)} {next : UInt64 × Bytes → List DecodeEvent}
    (h : ∀ head, readCborArgument input ai = .ok head → Spared (f head) (next head)) :
    Spared (readCborArgument input ai >>= f)
    (DecodeEvent.after (readCborArgument input ai) next) := by
  cases hread : readCborArgument input ai with
  | error error => exact spared_of_error (readCborArgument_failsWith error hread)
  | ok head => exact h head hread

/-- With fewer bytes left than budget an item is spared. -/
theorem parseCborValue_ahead {levels n : Nat} {input : Bytes}
    (ih : TracksRun (parseCborValue levels) (parseMet (.of true true) levels) (oneByteItem levels))
    (hlt : input.length < n) :
    Spared (parseCborValue (levels + 1) n input)
    (parseMet (.of true true) (levels + 1) n input) := by
  obtain ⟨n, rfl⟩ : ∃ m, n = m + 1 := ⟨n - 1, by omega⟩
  cases input with
  | nil => exact spared_of_error (by simp [NotResourceLimit])
  | cons initial input =>
    rw [parseCborValue_cons, parseMet_cons]
    refine Spared.cons (spared_of_head fun head hread => ?_) _
    have hle := length_le_of_readCborArgument hread
    rw [List.length_cons] at hlt
    exact parseContent_ahead ih (by omega)

/-- A head of one byte leaves the budget level with the bytes, a longer one leaves it ahead. -/
theorem parseCborValue_level {levels : Nat}
    (ih : TracksRun (parseCborValue levels) (parseMet (.of true true) levels) (oneByteItem levels))
    (input : Bytes) :
    (oneByteItem (levels + 1) input).Describes (parseCborValue (levels + 1) input.length input)
      (parseMet (.of true true) (levels + 1) input.length input) := by
  have hitem : ¬ (DecodeEvent.item (levels + 1)).LimitExceeded := Nat.succ_ne_zero levels
  cases input with
  | nil =>
    have hnil : WithinLimits [] := by simp [WithinLimits]
    exact ⟨rfl, hnil.cons hitem⟩
  | cons initial input =>
    rw [List.length_cons, parseCborValue_cons, parseMet_cons, oneByteItem]
    refine OneByte.Describes.cons ?_ hitem
    split
    · next hai =>
      have hread : readCborArgument input (initial &&& 0x1f)
          = .ok ((initial &&& 0x1f).toUInt64, input) := if_pos hai
      rw [hread, Except.ok_bind]
      exact parseContent_level ih input
    · next hwide =>
      refine spared_of_head fun head hread => ?_
      exact parseContent_ahead ih (length_lt_of_readCborArgument hwide hread)

/-- The parser tracks the run of one-byte items at every nesting level. Induction on the level. -/
theorem parseCborValue_tracksRun (levels : Nat) :
    TracksRun (parseCborValue levels) (parseMet (.of true true) levels) (oneByteItem levels) := by
  induction levels with
  | zero =>
    have hspared : ∀ n input,
        Spared (parseCborValue 0 n input) (parseMet (.of true true) 0 n input) := by
      refine fun n input => ⟨fun a ha => ?_, fun message _ => ⟨.item 0, List.mem_cons_self, rfl⟩⟩
      cases ha
    exact {
      ahead := fun _ => hspared _ _
      level := fun input => hspared _ _
      text := oneByteItem_text
      emptyText := oneByteItem_emptyText }
  | succ levels ih =>
    exact {
      ahead := parseCborValue_ahead ih
      level := parseCborValue_level ih
      text := oneByteItem_text
      emptyText := oneByteItem_emptyText }

/-! ## The decoder -/

/-- A value that is no map is reported as such. -/
theorem intoMap_failsWith {value : CborValue} :
    Except.FailsWith NotResourceLimit (intoMap value) := by
  cases value with
  | map entries => exact Except.failsWith_ok _
  | _ => exact Except.failsWith_error (by simp [NotResourceLimit])

/-- A missing field is reported as such. -/
theorem take_failsWith {fields : Fields} {name : String} :
    Except.FailsWith NotResourceLimit (take fields name) :=
  (Except.failsWith_ofOption (by simp [NotResourceLimit]) _).bind fun _ _ => Except.failsWith_ok _

/-- A field that is no text is reported as such. -/
theorem takeText_failsWith {fields : Fields} {name : String} :
    Except.FailsWith NotResourceLimit (takeText fields name) := by
  refine take_failsWith.bind fun taken _ => ?_
  split
  · exact Except.failsWith_ok _
  · exact Except.failsWith_error (by simp [NotResourceLimit])

/-- A field that is no unsigned integer is reported as such. -/
theorem takeUint_failsWith {fields : Fields} {name : String} :
    Except.FailsWith NotResourceLimit (takeUint fields name) := by
  refine take_failsWith.bind fun taken _ => ?_
  split
  · exact Except.failsWith_ok _
  · exact Except.failsWith_error (by simp [NotResourceLimit])

/-- A field that is neither null nor an unsigned integer is reported as such. -/
theorem optionalUint_failsWith {fields : Fields} {name : String} :
    Except.FailsWith NotResourceLimit (optionalUint fields name) := by
  refine take_failsWith.bind fun taken _ => ?_
  split
  · exact Except.failsWith_ok _
  · exact Except.failsWith_ok _
  · exact Except.failsWith_error (by simp [NotResourceLimit])

/-- A value that is no digest is reported as such. -/
theorem sha256Value_failsWith {name : String} {value : CborValue} :
    Except.FailsWith NotResourceLimit (sha256Value name value) := by
  cases value with
  | bytes value => exact Except.failsWith_ofOption (by simp [NotResourceLimit]) _
  | _ => exact Except.failsWith_error (by simp [NotResourceLimit])

/-- A field that is no digest is reported as such. -/
theorem takeSha256_failsWith {fields : Fields} {name : String} :
    Except.FailsWith NotResourceLimit (takeSha256 fields name) :=
  take_failsWith.bind fun _ _ => sha256Value_failsWith.bind fun _ _ => Except.failsWith_ok _

/-- A field that is no array of digests is reported as such. -/
theorem takeSha256Array_failsWith {fields : Fields} {name : String} :
    Except.FailsWith NotResourceLimit (takeSha256Array fields name) := by
  refine take_failsWith.bind fun taken _ => ?_
  split
  · exact (Except.failsWith_mapM (fun _ => sha256Value_failsWith) _).bind
      fun _ _ => Except.failsWith_ok _
  · exact Except.failsWith_error (by simp [NotResourceLimit])

/-- A field that is not in the schema is reported as such. -/
theorem noFieldsLeft_failsWith {fields : Fields} :
    Except.FailsWith NotResourceLimit (noFieldsLeft fields) := by
  unfold noFieldsLeft
  split
  · exact Except.failsWith_ok _
  · exact Except.failsWith_error (by simp [NotResourceLimit])

/-- An unknown mode for empty segments is reported as such. -/
theorem emptyModeOfText_failsWith {text : String} :
    Except.FailsWith NotResourceLimit (emptyModeOfText text) := by
  unfold emptyModeOfText
  split_ifs
  · exact Except.failsWith_ok _
  · exact Except.failsWith_ok _
  · exact Except.failsWith_error (by simp [NotResourceLimit])

/-- The decoder of a policy fails with no resource limit. -/
theorem decodePolicy_failsWith {value : CborValue} :
    Except.FailsWith NotResourceLimit (decodePolicy value) := by
  refine intoMap_failsWith.bind fun _ _ => takeUint_failsWith.bind fun _ _ => ?_
  refine (Except.failsWith_require (by simp [NotResourceLimit]) _).bind fun _ _ => ?_
  refine takeUint_failsWith.bind fun _ _ => takeUint_failsWith.bind fun _ _ => ?_
  refine optionalUint_failsWith.bind fun _ _ => optionalUint_failsWith.bind fun _ _ => ?_
  refine takeText_failsWith.bind fun _ _ => emptyModeOfText_failsWith.bind fun _ _ => ?_
  refine noFieldsLeft_failsWith.bind fun _ _ => ?_
  exact (Except.failsWith_mapError (by simp [NotResourceLimit]) _).bind
    fun _ _ => Except.failsWith_ok _

/-- Past the parser nothing is charged: the reading of the fields fails with no resource limit. -/
theorem segmentFromFields_failsWith {value : CborValue} :
    Except.FailsWith NotResourceLimit (segmentFromFields value) := by
  refine intoMap_failsWith.bind fun _ _ => takeUint_failsWith.bind fun _ _ => ?_
  refine (Except.failsWith_require (by simp [NotResourceLimit]) _).bind fun _ _ => ?_
  refine takeText_failsWith.bind fun _ _ => ?_
  refine (Except.failsWith_require (by simp [NotResourceLimit]) _).bind fun _ _ => ?_
  refine takeText_failsWith.bind fun _ _ => takeUint_failsWith.bind fun _ _ => ?_
  refine take_failsWith.bind fun _ _ => decodePolicy_failsWith.bind fun _ _ => ?_
  refine takeText_failsWith.bind fun _ _ => takeSha256_failsWith.bind fun _ _ => ?_
  refine takeUint_failsWith.bind fun _ _ => takeSha256Array_failsWith.bind fun _ _ => ?_
  refine takeSha256_failsWith.bind fun _ _ => noFieldsLeft_failsWith.bind fun _ _ => ?_
  exact Except.failsWith_ok _

/-- The segment enters an item nested more than 32 levels below the root, or meets a collection
whose declared minimum size is no `usize`. -/
def LimitMet (bytes : Bytes) : Prop :=
  ∃ e ∈ parseMet (.of true true) rootLevels bytes.length bytes, e.LimitExceeded

instance (bytes : Bytes) : Decidable (LimitMet bytes) :=
  inferInstanceAs (Decidable (∃ e ∈ parseMet (.of true true) rootLevels bytes.length bytes, _))

section Decode

variable [Sha256]

/-- Only the parser reports a limit. -/
theorem parse_of_resourceLimit {bytes : Bytes} {message : String}
    (h : decodeSegmentRecord bytes = .error (.resourceLimit message)) :
    parseCborValue rootLevels bytes.length bytes = .error (.resourceLimit message) := by
  cases hparse : parseCborValue rootLevels bytes.length bytes with
  | error error =>
    rw [decodeSegmentRecord, hparse] at h
    cases h
    rfl
  | ok a =>
    have hfails : Except.FailsWith NotResourceLimit (decodeSegmentRecord bytes) := by
      rw [decodeSegmentRecord, hparse, Except.ok_bind]
      refine (Except.failsWith_require (by simp [NotResourceLimit]) _).bind fun _ _ => ?_
      refine segmentFromFields_failsWith.bind fun _ _ => ?_
      refine (Except.failsWith_mapError (by simp [NotResourceLimit]) _).bind fun _ _ => ?_
      refine (Except.failsWith_mapError (by simp [NotResourceLimit]) _).bind fun _ _ => ?_
      exact (Except.failsWith_require (by simp [NotResourceLimit]) _).bind
        fun _ _ => Except.failsWith_ok _
    exact absurd rfl (hfails _ h message)

/-- A segment that ends where an item of one byte is owed runs out of budget, within the limits. -/
theorem decodeSegmentRecord_of_owed {bytes : Bytes} (h : oneByteItem rootLevels bytes = .owed) :
    decodeSegmentRecord bytes = .error (.resourceLimit "CBOR item budget exceeded")
      ∧ ¬ LimitMet bytes := by
  have hlevel := (parseCborValue_tracksRun rootLevels).level bytes
  rw [h] at hlevel
  obtain ⟨hparse, hwithin⟩ := hlevel
  refine ⟨?_, ?_⟩
  · rw [decodeSegmentRecord, hparse]
    rfl
  · rintro ⟨e, he, hlimit⟩
    exact hwithin e he hlimit

/-- Any other segment that is reported for a limit has met one. -/
theorem limitMet_of_resourceLimit {bytes : Bytes} {message : String}
    (hrun : oneByteItem rootLevels bytes ≠ .owed)
    (h : decodeSegmentRecord bytes = .error (.resourceLimit message)) : LimitMet bytes := by
  have hparse := parse_of_resourceLimit h
  have hlevel := (parseCborValue_tracksRun rootLevels).level bytes
  cases hcase : oneByteItem rootLevels bytes with
  | owed => exact absurd hcase hrun
  | done rest =>
    rw [hcase] at hlevel
    obtain ⟨⟨value, hok⟩, -⟩ := hlevel
    rw [hok] at hparse
    cases hparse
  | other =>
    rw [hcase] at hlevel
    exact hlevel.2 message hparse

end Decode

end TrackOne
