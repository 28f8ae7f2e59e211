import TrackOne.Lib.Run
import TrackOne.Lib.Words
import Mathlib.Data.Finset.Sort

/-!
# The replay window

`trackone-ingest/src/replay.rs`. The gateway keeps, for one device, the highest frame counter it
accepted and the accepted counters near it; the specification `Admits` speaks of the whole history.

* `Tracks`: what the window is of the history. `Tracks.checkAndUpdate` is one call, and
  `Tracks.restart` that a snapshot brings back the window it was taken of.
* `replay_window_spec`: the run theorem.
-/

namespace TrackOne

/-- `RejectReason` of the admission module. -/
inductive RejectReason where
  | salt8Length
  | ckUpLength
  | nonceLength
  | tagLength
  | emptyCiphertext
  | ciphertextTooLarge
  | nonceSaltMismatch
  | nonceFcMismatch
  | unsupportedFlags
  | unsupportedMessageType
  | headerDeviceIdMismatch
  | decryptFailed
  | invalidFact
  | invalidIngestProfile
  | payloadDeviceIdMismatch
  | payloadFcMismatch
  | duplicate
  | outOfWindow
  | continuityBreak
  | resyncRequired
  | replayNamespaceEmpty
  | replayNamespaceMismatch
deriving DecidableEq, Repr

/-! ## The code -/

/-- The characters of the Unicode property `White_Space`. -/
def isWhiteSpace (c : Char) : Bool :=
  (9 ≤ c.toNat && c.toNat ≤ 13) || c.toNat = 0x20 || c.toNat = 0x85 || c.toNat = 0xa0
    || c.toNat = 0x1680 || (0x2000 ≤ c.toNat && c.toNat ≤ 0x200a) || c.toNat = 0x2028
    || c.toNat = 0x2029 || c.toNat = 0x202f || c.toNat = 0x205f || c.toNat = 0x3000

/-- `str::trim`, as the characters that stay. -/
def trim (s : String) : List Char :=
  ((s.toList.dropWhile isWhiteSpace).reverse.dropWhile isWhiteSpace).reverse

def saturatingSub (a b : UInt64) : UInt64 := if b ≤ a then a - b else 0

/-- `ReplayWindow`; the `BTreeSet` is the set of its elements. -/
structure ReplayWindow where
  windowSize : UInt64
  highestFcSeen : Option UInt64
  seen : Finset UInt64
deriving DecidableEq

structure ReplayWindowSnapshot where
  version : UInt8
  name : String
  windowSize : UInt64
  highestFcSeen : Option UInt64
  seenFcs : List UInt64
deriving DecidableEq

namespace ReplayWindow

def new (windowSize : UInt64) (highestFcSeen : Option UInt64) : ReplayWindow :=
  ⟨windowSize, highestFcSeen, highestFcSeen.elim ∅ fun fc => {fc}⟩

/-- The counters in ascending order, as the set is iterated. -/
def seenFcs (win : ReplayWindow) : List UInt64 := win.seen.sort (· ≤ ·)

def fromSnapshot (expectedNamespace : String) (snapshot : ReplayWindowSnapshot) :
    Except RejectReason ReplayWindow := do
  if trim expectedNamespace = [] ∨ trim snapshot.name = [] then
    throw .replayNamespaceEmpty
  if snapshot.name ≠ expectedNamespace then
    throw .replayNamespaceMismatch
  if snapshot.version ≠ 1 ∨ snapshot.windowSize = 0 then
    throw .continuityBreak
  match snapshot.highestFcSeen with
  | some highest =>
    let seen := insert highest snapshot.seenFcs.toFinset
    let lower := saturatingSub highest snapshot.windowSize
    if ∃ fc ∈ seen, fc < lower ∨ highest < fc then
      throw .continuityBreak
    pure ⟨snapshot.windowSize, some highest, seen⟩
  | none =>
    let seen := snapshot.seenFcs.toFinset
    if seen ≠ ∅ then
      throw .continuityBreak
    pure ⟨snapshot.windowSize, none, seen⟩

def snapshot (win : ReplayWindow) (name : String) : Except RejectReason ReplayWindowSnapshot :=
  if trim name = [] then .error .replayNamespaceEmpty
  else .ok ⟨1, name, win.windowSize, win.highestFcSeen, win.seenFcs⟩

/-- `check_and_update`: the answer, and the window after the call. -/
def checkAndUpdate (win : ReplayWindow) (fc : UInt64) : Except RejectReason Unit × ReplayWindow :=
  match win.highestFcSeen with
  | none => (.ok (), { win with highestFcSeen := some fc, seen := insert fc win.seen })
  | some highest =>
    if fc ∈ win.seen then (.error .duplicate, win)
    else if fc < highest ∧ win.windowSize < highest - fc then (.error .outOfWindow, win)
    else if highest < fc ∧ win.windowSize < fc - highest then (.error .outOfWindow, win)
    else if highest < fc then
      let lowerBound := saturatingSub fc win.windowSize
      (.ok (), { win with
        highestFcSeen := some fc
        seen := insert fc (win.seen.filter fun seenFc => lowerBound ≤ seenFc) })
    else (.ok (), { win with seen := insert fc win.seen })

end ReplayWindow

/-- A call of a gateway: a counter is checked, or the process restarts from its durable state. -/
inductive ReplayCall where
  | checkAndUpdate (fc : UInt64)
  | restart
deriving DecidableEq

/-- `snapshot` followed by `from_snapshot`. -/
def ReplayWindow.restored (name : String) (win : ReplayWindow) :
    Except RejectReason ReplayWindow := do
  let snapshot ← win.snapshot name
  fromSnapshot name snapshot

def replayStep (name : String) (win : ReplayWindow) :
    ReplayCall → Except RejectReason Unit × ReplayWindow
  | .checkAndUpdate fc => win.checkAndUpdate fc
  | .restart =>
    match win.restored name with
    | .ok restored => (.ok (), restored)
    | .error reason => (.error reason, win)

/-- The counters a run accepted, in order. -/
def acceptedCounters (trace : List (ReplayCall × Except RejectReason Unit)) : List UInt64 :=
  trace.filterMap fun
    | (.checkAndUpdate fc, .ok ()) => some fc
    | _ => none

/-! ## The specification -/

/-- The largest counter of the history. -/
def Largest (accepted : List UInt64) (h : UInt64) : Prop := h ∈ accepted ∧ ∀ fc ∈ accepted, fc ≤ h

/-- What is accepted after a history: anything at first, then a counter that was not accepted
before and differs from the largest one by at most the size of the window. -/
def Admits (windowSize : Nat) (accepted : List UInt64) (fc : UInt64) : Prop :=
  accepted = [] ∨ (fc ∉ accepted ∧ ∃ h, Largest accepted h
    ∧ ((fc.toNat : Int) - h.toNat).natAbs ≤ windowSize)

/-- A counter of the history that lies in the window below the largest one. -/
def InWindow (windowSize : Nat) (accepted : List UInt64) (fc : UInt64) : Prop :=
  fc ∈ accepted ∧ ∃ h, Largest accepted h
    ∧ h.toNat - windowSize ≤ fc.toNat ∧ fc.toNat ≤ h.toNat

/-- The window is the one of the history. -/
structure Tracks (windowSize : UInt64) (win : ReplayWindow) (accepted : List UInt64) : Prop where
  windowSize_eq : win.windowSize = windowSize
  highest_none : win.highestFcSeen = none → accepted = []
  highest_some : ∀ h, win.highestFcSeen = some h → Largest accepted h
  seen : ∀ fc, fc ∈ win.seen ↔ InWindow windowSize.toNat accepted fc

/-! ## Numbers -/

theorem toNat_saturatingSub (a b : UInt64) : (saturatingSub a b).toNat = a.toNat - b.toNat := by
  unfold saturatingSub
  split_ifs with hle
  · exact UInt64.toNat_sub_of_le _ _ hle
  · rw [UInt64.le_iff_toNat_le] at hle
    rw [UInt64.toNat_zero]
    omega

/-- The two tests of the code say that the counter is not far from the highest one. -/
theorem near_iff {fc highest w : UInt64} :
    (¬ (fc < highest ∧ w < highest - fc) ∧ ¬ (highest < fc ∧ w < fc - highest))
      ↔ ((fc.toNat : Int) - highest.toNat).natAbs ≤ w.toNat := by
  rw [UInt64.lt_iff_toNat_lt, UInt64.lt_iff_toNat_lt, UInt64.lt_iff_toNat_lt,
    UInt64.lt_iff_toNat_lt]
  rcases Nat.lt_trichotomy fc.toNat highest.toNat with hlt | heq | hgt
  · rw [UInt64.toNat_sub_of_le highest fc (UInt64.le_iff_toNat_le.mpr (by omega))]
    omega
  · omega
  · rw [UInt64.toNat_sub_of_le fc highest (UInt64.le_iff_toNat_le.mpr (by omega))]
    omega

theorem Largest.le_toNat {accepted : List UInt64} {h fc : UInt64} (hlargest : Largest accepted h)
    (hmem : fc ∈ accepted) : fc.toNat ≤ h.toNat :=
  UInt64.le_iff_toNat_le.mp (hlargest.2 fc hmem)

theorem Largest.unique {accepted : List UInt64} {h h' : UInt64} (hlargest : Largest accepted h)
    (hlargest' : Largest accepted h') : h = h' :=
  UInt64.le_antisymm (hlargest'.2 h hlargest.1) (hlargest.2 h' hlargest'.1)

/-! ## One call -/

namespace Tracks

variable {w : UInt64} {win : ReplayWindow} {accepted : List UInt64}

theorem new : Tracks w (ReplayWindow.new w none) [] where
  windowSize_eq := rfl
  highest_none _ := rfl
  highest_some h heq := by cases heq
  seen fc := by simp [ReplayWindow.new, InWindow]

/-- Below the largest counter, near it and in the window are the same. -/
theorem inWindow_iff_of_near (h : Tracks w win accepted) {highest fc : UInt64}
    (hhighest : win.highestFcSeen = some highest)
    (hnear : ((fc.toNat : Int) - highest.toNat).natAbs ≤ w.toNat) :
    fc ∈ win.seen ↔ fc ∈ accepted := by
  have hlargest := h.highest_some highest hhighest
  rw [h.seen]
  constructor
  · exact And.left
  · intro hmem
    have hle := hlargest.le_toNat hmem
    exact ⟨hmem, highest, hlargest, by omega, hle⟩

/-- A counter is accepted exactly when the specification admits it. -/
theorem checkAndUpdate_eq_ok (h : Tracks w win accepted) (fc : UInt64) :
    (win.checkAndUpdate fc).1 = .ok () ↔ Admits w.toNat accepted fc := by
  unfold ReplayWindow.checkAndUpdate
  cases hhighest : win.highestFcSeen with
  | none => exact iff_of_true rfl (.inl (h.highest_none hhighest))
  | some highest =>
    have hlargest := h.highest_some highest hhighest
    have hne : accepted ≠ [] := List.ne_nil_of_mem hlargest.1
    have hnear := @near_iff fc highest w
    -- a counter far from the highest one is refused, whether it was seen or not
    have hadmits : Admits w.toNat accepted fc
        ↔ fc ∉ win.seen ∧ ¬ (fc < highest ∧ w < highest - fc)
          ∧ ¬ (highest < fc ∧ w < fc - highest) := by
      rw [hnear]
      constructor
      · rintro (hnil | ⟨hfresh, h', hlargest', hle⟩)
        · exact absurd hnil hne
        · obtain rfl := hlargest'.unique hlargest
          exact ⟨fun hseen => hfresh ((h.inWindow_iff_of_near hhighest hle).mp hseen), hle⟩
      · rintro ⟨hfresh, hle⟩
        exact .inr ⟨fun hmem => hfresh ((h.inWindow_iff_of_near hhighest hle).mpr hmem), highest,
          hlargest, hle⟩
    rw [hadmits]
    dsimp only
    rw [h.windowSize_eq]
    split_ifs with hseen hbelow habove hhigher
    · exact iff_of_false (fun heq => by cases heq) fun hall => hall.1 hseen
    · exact iff_of_false (fun heq => by cases heq) fun hall => hall.2.1 hbelow
    · exact iff_of_false (fun heq => by cases heq) fun hall => hall.2.2 habove
    · exact iff_of_true rfl ⟨hseen, hbelow, habove⟩
    · exact iff_of_true rfl ⟨hseen, hbelow, habove⟩

end Tracks

/-- A rejected call leaves the window as it was. -/
theorem checkAndUpdate_rejected {win : ReplayWindow} {fc : UInt64} {reason : RejectReason}
    (h : (win.checkAndUpdate fc).1 = .error reason) : (win.checkAndUpdate fc).2 = win := by
  unfold ReplayWindow.checkAndUpdate at h ⊢
  cases hhighest : win.highestFcSeen with
  | none =>
    rw [hhighest] at h
    cases h
  | some highest =>
    rw [hhighest] at h
    dsimp only at h ⊢
    split_ifs at h ⊢ with hseen hbelow habove hhigher
    · rfl
    · rfl
    · rfl

/-- The largest of a longer history. -/
theorem largest_concat {accepted : List UInt64} {highest : UInt64}
    (hlargest : Largest accepted highest) (fc : UInt64) :
    Largest (accepted ++ [fc]) (if highest < fc then fc else highest) := by
  split_ifs with hlt
  · refine ⟨List.mem_append_right _ List.mem_cons_self, ?_⟩
    intro c hc
    rcases List.mem_append.mp hc with hold | hnew
    · exact UInt64.le_of_lt (UInt64.lt_of_le_of_lt (hlargest.2 c hold) hlt)
    · rw [List.mem_singleton.mp hnew]
      exact UInt64.le_refl fc
  · refine ⟨List.mem_append_left _ hlargest.1, ?_⟩
    intro c hc
    rcases List.mem_append.mp hc with hold | hnew
    · exact hlargest.2 c hold
    · rw [List.mem_singleton.mp hnew]
      exact UInt64.not_lt.mp hlt

/-- The window of a history, by its largest counter. -/
theorem inWindow_iff {w : Nat} {accepted : List UInt64} {highest fc : UInt64}
    (hlargest : Largest accepted highest) :
    InWindow w accepted fc ↔ fc ∈ accepted ∧ highest.toNat - w ≤ fc.toNat := by
  constructor
  · rintro ⟨hmem, h', hlargest', hlow, -⟩
    obtain rfl := hlargest'.unique hlargest
    exact ⟨hmem, hlow⟩
  · rintro ⟨hmem, hlow⟩
    exact ⟨hmem, highest, hlargest, hlow, hlargest.le_toNat hmem⟩

namespace Tracks

variable {w : UInt64} {win : ReplayWindow} {accepted : List UInt64}

/-- The window follows the history by one accepted counter. -/
theorem checkAndUpdate (h : Tracks w win accepted) {fc : UInt64}
    (hok : (win.checkAndUpdate fc).1 = .ok ()) :
    Tracks w (win.checkAndUpdate fc).2 (accepted ++ [fc]) := by
  unfold ReplayWindow.checkAndUpdate at hok ⊢
  cases hhighest : win.highestFcSeen with
  -- the first counter is the highest
  | none =>
    obtain rfl := h.highest_none hhighest
    have hlargest : Largest ([] ++ [fc]) fc := by
      refine ⟨List.mem_cons_self, fun c hc => ?_⟩
      rw [List.mem_singleton.mp hc]
      exact UInt64.le_refl fc
    have hempty : ∀ c, c ∉ win.seen := by
      intro c hc
      exact absurd ((h.seen c).mp hc).1 List.not_mem_nil
    refine ⟨h.windowSize_eq, fun heq => ?_, fun h' heq => ?_, fun c => ?_⟩
    · cases heq
    · obtain rfl := Option.some.inj heq
      exact hlargest
    · rw [inWindow_iff hlargest, Finset.mem_insert]
      simp only [hempty c, or_false, List.nil_append, List.mem_singleton]
      constructor
      · rintro rfl
        exact ⟨rfl, by omega⟩
      · exact And.left
  -- later ones are compared with the highest so far
  | some highest =>
    have hlargest := h.highest_some highest hhighest
    rw [hhighest] at hok
    dsimp only at hok ⊢
    split_ifs at hok ⊢ with hseen hbelow habove hhigher
    · -- the window moves up, and the counters that fall out of it are dropped
      have hlargest' : Largest (accepted ++ [fc]) fc := by
        simpa only [if_pos hhigher] using largest_concat hlargest fc
      refine ⟨h.windowSize_eq, fun heq => ?_, fun h' heq => ?_, fun c => ?_⟩
      · cases heq
      · obtain rfl := Option.some.inj heq
        exact hlargest'
      · rw [inWindow_iff hlargest', Finset.mem_insert, Finset.mem_filter, h.seen,
          inWindow_iff hlargest, UInt64.le_iff_toNat_le, toNat_saturatingSub, h.windowSize_eq,
          List.mem_append, List.mem_singleton]
        rw [UInt64.lt_iff_toNat_lt] at hhigher
        constructor
        · rintro (rfl | ⟨⟨hmem, -⟩, hlow⟩)
          · exact ⟨.inr rfl, by omega⟩
          · exact ⟨.inl hmem, hlow⟩
        · rintro ⟨hmem | rfl, hlow⟩
          · exact .inr ⟨⟨hmem, by omega⟩, hlow⟩
          · exact .inl rfl
    · -- a counter below the highest one joins it
      have hlargest' : Largest (accepted ++ [fc]) highest := by
        simpa only [if_neg hhigher] using largest_concat hlargest fc
      have hnear := near_iff.mp ⟨hbelow, habove⟩
      refine ⟨h.windowSize_eq, fun heq => ?_, fun h' heq => ?_, fun c => ?_⟩
      · cases heq
      · obtain rfl := Option.some.inj heq
        exact hlargest'
      · rw [inWindow_iff hlargest', Finset.mem_insert, h.seen, inWindow_iff hlargest,
          List.mem_append, List.mem_singleton]
        rw [h.windowSize_eq] at hnear
        rw [UInt64.lt_iff_toNat_lt] at hhigher
        constructor
        · rintro (rfl | ⟨hmem, hlow⟩)
          · exact ⟨.inr rfl, by omega⟩
          · exact ⟨.inl hmem, hlow⟩
        · rintro ⟨hmem | rfl, hlow⟩
          · exact .inr ⟨hmem, hlow⟩
          · exact .inl rfl

theorem windowed (h : Tracks w win accepted) {highest fc : UInt64}
    (hhighest : win.highestFcSeen = some highest) (hseen : fc ∈ win.seen) :
    saturatingSub highest w ≤ fc ∧ fc ≤ highest := by
  have hlargest := h.highest_some highest hhighest
  obtain ⟨hmem, hlow⟩ := (inWindow_iff hlargest).mp ((h.seen fc).mp hseen)
  rw [UInt64.le_iff_toNat_le, toNat_saturatingSub]
  exact ⟨hlow, hlargest.2 fc hmem⟩

/-- The highest counter is one of those kept, so adding it to a snapshot changes nothing. -/
theorem highest_mem_seen (h : Tracks w win accepted) {highest : UInt64}
    (hhighest : win.highestFcSeen = some highest) : highest ∈ win.seen := by
  have hlargest := h.highest_some highest hhighest
  exact (h.seen highest).mpr ((inWindow_iff hlargest).mpr ⟨hlargest.1, by omega⟩)

/-- A window of a history comes back from its snapshot. -/
theorem restored (h : Tracks w win accepted) (hw : w ≠ 0) {name : String} (hname : trim name ≠ []) :
    win.restored name = .ok win := by
  have hsnapshot : win.snapshot name
      = .ok ⟨1, name, win.windowSize, win.highestFcSeen, win.seenFcs⟩ := if_neg hname
  have hset : win.seenFcs.toFinset = win.seen := Finset.sort_toFinset _ _
  have hsize : win.windowSize ≠ 0 := h.windowSize_eq ▸ hw
  rw [ReplayWindow.restored, hsnapshot]
  show ReplayWindow.fromSnapshot name _ = .ok win
  rw [ReplayWindow.fromSnapshot]
  simp only [hname, hsize, hset, or_self, ne_eq, not_true_eq_false, if_false]
  cases hhighest : win.highestFcSeen with
  | some highest =>
    have hnone : ¬ ∃ fc ∈ win.seen, fc < saturatingSub highest w ∨ highest < fc := by
      rintro ⟨fc, hfc, hbelow | habove⟩
      · exact UInt64.not_lt.mpr (h.windowed hhighest hfc).1 hbelow
      · exact UInt64.not_lt.mpr (h.windowed hhighest hfc).2 habove
    simp only [Finset.insert_eq_of_mem (h.highest_mem_seen hhighest), h.windowSize_eq, hnone,
      if_false]
    rw [← h.windowSize_eq, ← hhighest]
    rfl
  | none =>
    have hempty : win.seen = ∅ := by
      refine Finset.eq_empty_of_forall_notMem fun fc hfc => ?_
      have hmem := ((h.seen fc).mp hfc).1
      rw [h.highest_none hhighest] at hmem
      exact absurd hmem List.not_mem_nil
    simp only [hempty, not_true_eq_false, if_false]
    rw [← hhighest, ← hempty]
    rfl

end Tracks

/-! ## Runs -/

theorem acceptedCounters_concat (trace : List (ReplayCall × Except RejectReason Unit))
    (entry : ReplayCall × Except RejectReason Unit) :
    acceptedCounters (trace ++ [entry]) = acceptedCounters trace ++ acceptedCounters [entry] :=
  List.filterMap_append

/-- What a gateway with restarts keeps of its history. -/
theorem replayRun_tracks {w : UInt64} {name : String} (hw : w ≠ 0) (hname : trim name ≠ [])
    (calls : List ReplayCall) :
    Tracks w (runTrace (replayStep name) (ReplayWindow.new w none) calls).1
      (acceptedCounters (runTrace (replayStep name) (ReplayWindow.new w none) calls).2) := by
  refine runTrace_induction (P := fun win trace => Tracks w win (acceptedCounters trace))
    Tracks.new ?_ calls
  intro win trace call h
  rw [acceptedCounters_concat]
  cases call with
  | checkAndUpdate fc =>
    show Tracks w (win.checkAndUpdate fc).2 (_ ++ acceptedCounters [(_, (win.checkAndUpdate fc).1)])
    cases hanswer : (win.checkAndUpdate fc).1 with
    | ok u => exact h.checkAndUpdate hanswer
    | error reason =>
      rw [checkAndUpdate_rejected hanswer]
      simpa [acceptedCounters] using h
  | restart =>
    have hstep : replayStep name win .restart = (.ok (), win) := by
      rw [replayStep, h.restored hw hname]
    rw [hstep]
    simpa [acceptedCounters] using h

/-- **The replay window implements its specification across restarts.** After every run of checks
and restarts, with the accepted counters of the whole run: the next check is accepted exactly when
the specification admits it; a rejected one leaves the window unchanged; a restart brings back the
window; and the window holds the accepted counters that lie in it. -/
theorem replay_window_spec (w : UInt64) (name : String) (hw : 0 < w) (hname : trim name ≠ [])
    (calls : List ReplayCall) :
    let run := runTrace (replayStep name) (ReplayWindow.new w none) calls
    let win := run.1
    let accepted := acceptedCounters run.2
    (∀ fc, (win.checkAndUpdate fc).1 = .ok () ↔ Admits w.toNat accepted fc)
      ∧ (∀ fc reason, (win.checkAndUpdate fc).1 = .error reason → (win.checkAndUpdate fc).2 = win)
      ∧ (win.restored name = .ok win)
      ∧ (∀ fc, fc ∈ win.seen ↔ InWindow w.toNat accepted fc) := by
  have hne : w ≠ 0 := by
    rintro rfl
    exact absurd hw (by decide)
  have h := replayRun_tracks hne hname calls
  exact ⟨h.checkAndUpdate_eq_ok, fun fc reason => checkAndUpdate_rejected, h.restored hne hname,
    h.seen⟩

/-- A window of size four: 10 and then 8 are accepted, and a restart does not reopen either. -/
theorem replay_window_spec_sample :
    let run := runTrace (replayStep "device-101:epoch-1") (ReplayWindow.new 4 none)
      [.checkAndUpdate 10, .checkAndUpdate 8, .restart]
    (∀ fc, (run.1.checkAndUpdate fc).1 = .ok () ↔ Admits 4 (acceptedCounters run.2) fc)
      ∧ run.1.restored "device-101:epoch-1" = .ok run.1 := by
  have h := replay_window_spec 4 "device-101:epoch-1" (by decide) (by decide)
    [.checkAndUpdate 10, .checkAndUpdate 8, .restart]
  exact ⟨h.1, h.2.2.1⟩

end TrackOne
