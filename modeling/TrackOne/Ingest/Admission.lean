import TrackOne.Ingest.Pod

/-!
# From the pod to the gateway

A pod that is given valid payloads and facts emits a frame for each of them, and the gateway that
knows the pod admits each frame once.

* `emits_next`: one valid emission; `emissionRun_state`: the counter of the pod is the number of the
  frames emitted.
* `replay_inOrder`: the replay window on counters that come in order, with repetitions.
* `frames_accepted_once`: the run theorem.
-/

namespace TrackOne

/-! ## Emissions -/

/-- What a pod is given to emit. -/
inductive Emission where
  | payload (payload : FactPayload)
  | fact (fact : Fact)
deriving DecidableEq

namespace Emission

/-- The call of `emit_payload` or `emit_fact`. -/
def call (encrypt : AeadCall) : Emission → PodCall
  | .payload p => .emitPayload encrypt p
  | .fact f => .emitFact encrypt f

/-- A valid payload, or a valid fact with the identity and the next counter of the pod. -/
def Valid (pod : Pod) : Emission → Prop
  | .payload p => p.Valid
  | .fact f => f.validate = .ok () ∧ f.podId = pod.podId
    ∧ pod.nextFc.map UInt32.toUInt64 = some f.fc

/-- The fact that is emitted under a counter. -/
def original (podId : PodId) (fc : UInt32) : Emission → Fact
  | .payload p => factOf podId fc.toUInt64 p
  | .fact f => f

end Emission

/-- The next counter after so many frames. -/
def counterAfter (count : Nat) : Option UInt32 :=
  if count < 2 ^ 32 then some (UInt32.ofNat count) else none

theorem counterAfter_eq_some {count : Nat} (h : count < 2 ^ 32) :
    counterAfter count = some (UInt32.ofNat count) := if_pos h

theorem checkedSucc_ofNat {count : Nat} (h : count < 2 ^ 32) :
    checkedSucc (UInt32.ofNat count) = counterAfter (count + 1) := by
  have hcount : (UInt32.ofNat count).toNat = count := UInt32.toNat_ofNat_of_lt' h
  unfold checkedSucc counterAfter
  rw [hcount]
  split_ifs with hlt
  · congr 1
    rw [← UInt32.toNat_inj, UInt32.toNat_add, hcount, UInt32.toNat_ofNat_of_lt' hlt]
    simp only [UInt32.toNat_one]
    omega
  · rfl

section

variable [Postcard] {n : Nat} {encrypt decrypt : AeadCall} {xchacha : XChaChaDecrypt} {key : Bytes}
  {podId : PodId} {gen : CounterNonce24}

/-- A pod that is not exhausted emits what is valid, and counts it. -/
theorem emits_next (haead : AeadCorrect encrypt decrypt xchacha key) (hn : 272 ≤ n) {count : Nat}
    (hcount : count < 2 ^ 32) {emission : Emission}
    (hvalid : emission.Valid ⟨podId, counterAfter count, gen⟩) :
    ∃ frame, podStep n ⟨podId, counterAfter count, gen⟩ (emission.call encrypt)
        = (.ok (some frame), ⟨podId, counterAfter (count + 1), gen⟩)
      ∧ encryptFact n encrypt (framedNonce gen.salt8 (UInt32.ofNat count) gen.tail8)
        (emission.original podId (UInt32.ofNat count)) = .ok frame
      ∧ (emission.original podId (UInt32.ofNat count)).podId = podId
      ∧ (emission.original podId (UInt32.ofNat count)).fc = (UInt32.ofNat count).toUInt64 := by
  have hnext : (Pod.mk podId (counterAfter count) gen).nextFc = some (UInt32.ofNat count) :=
    counterAfter_eq_some hcount
  have hsealed : ∀ fact : Fact, fact.validate = .ok () →
      ∃ frame, encryptFact n encrypt (framedNonce gen.salt8 (UInt32.ofNat count) gen.tail8) fact
        = .ok frame := by
    intro fact hfact
    have hroom : fact.postcardLength + aeadTagLen ≤ n := by
      have := fact.postcardLength_le
      unfold aeadTagLen
      omega
    obtain ⟨ciphertext, hcipher⟩ := haead.seals
      (framedNonce gen.salt8 (UInt32.ofNat count) gen.tail8) (framedAadForPod fact.podId 1 0)
      (Postcard.toBytes fact) n (by rwa [Postcard.length_toBytes])
    exact ⟨_, encryptFact_of_valid hfact hroom hcipher⟩
  -- what the call emits is the fact of its payload, or the fact itself
  cases emission with
  | payload payload =>
    obtain ⟨frame, hframe⟩ := hsealed _ (validate_factOf hvalid podId (UInt32.ofNat count).toUInt64)
    refine ⟨frame, ?_, hframe, rfl, rfl⟩
    rw [Emission.call, podStep, callPod_emitPayload_of_valid hnext hvalid hframe,
      checkedSucc_ofNat hcount]
    rfl
  | fact fact =>
    obtain ⟨hfact, hid, hfc⟩ := hvalid
    rw [hnext] at hfc
    obtain ⟨frame, hframe⟩ := hsealed fact hfact
    have hcounter : fact.fc = (UInt32.ofNat count).toUInt64 := (Option.some.inj hfc).symm
    refine ⟨frame, ?_, hframe, hid, hcounter⟩
    rw [Emission.call, podStep, callPod_emitFact_next hnext hid hcounter, hframe,
      checkedSucc_ofNat hcount]
    rfl

/-- Every emission is valid when its turn comes. -/
def ValidEmissions (n : Nat) (encrypt : AeadCall) (pod : Pod) (emissions : List Emission) : Prop :=
  ∀ before emission after, emissions = before ++ emission :: after →
    emission.Valid (runTrace (podStep n) pod (before.map (·.call encrypt))).1

theorem ValidEmissions.init {pod : Pod} {emissions : List Emission} {emission : Emission}
    (h : ValidEmissions n encrypt pod (emissions ++ [emission])) :
    ValidEmissions n encrypt pod emissions := by
  rintro before e after rfl
  exact h before e (after ++ [emission]) (by simp)

/-- The pod counts the frames. -/
theorem emissionRun_state (haead : AeadCorrect encrypt decrypt xchacha key) (hn : 272 ≤ n)
    {emissions : List Emission} (hvalid : ValidEmissions n encrypt (Pod.new podId gen) emissions) :
    (runTrace (podStep n) (Pod.new podId gen) (emissions.map (·.call encrypt))).1
      = ⟨podId, counterAfter emissions.length, gen⟩ := by
  induction emissions using List.reverseRecOn with
  | nil => rfl
  | append_singleton emissions emission ih =>
    have hstate := ih hvalid.init
    have hlast := hvalid emissions emission [] rfl
    rw [List.map_append, List.map_singleton, runTrace_concat, hstate, List.length_append,
      List.length_singleton]
    rw [hstate] at hlast
    by_cases hcount : emissions.length < 2 ^ 32
    · obtain ⟨frame, hstep, -⟩ := emits_next haead hn hcount hlast
      rw [hstep]
    · -- an exhausted pod stays so
      have hnone : counterAfter emissions.length = none := if_neg hcount
      have hnone' : counterAfter (emissions.length + 1) = none := if_neg (by omega)
      rw [hnone, hnone']
      have hexhausted := @callPod_exhausted _ n encrypt ⟨podId, none, gen⟩ rfl
      cases emission with
      | payload payload =>
        rw [Emission.call, podStep, (hexhausted payload ⟨podId, 0, 0, none, .env, payload⟩).1]
      | fact fact => rw [Emission.call, podStep, (hexhausted fact.payload fact).2]

end

/-! ## The replay window on counters in order -/

/-- The numbers from `start` on, in order and without a gap; a number that has come may come
again. `next` is the one that has not come yet. -/
def InOrder (start : Nat) : (next : Nat) → List Nat → Prop
  | _, [] => True
  | next, i :: rest =>
    (i = next ∧ InOrder start (next + 1) rest) ∨ (start ≤ i ∧ i < next ∧ InOrder start next rest)

section

variable {w : UInt64} {win : ReplayWindow} {accepted : List UInt64} {start next : Nat}

/-- The history holds the counters from the start up to the next one. -/
def Consecutive (start next : Nat) (accepted : List UInt64) : Prop :=
  start ≤ next ∧ ∀ fc, fc ∈ accepted ↔ start ≤ fc.toNat ∧ fc.toNat < next

theorem Consecutive.concat (h : Consecutive start next accepted) (hnext : next < 2 ^ 64) :
    Consecutive start (next + 1) (accepted ++ [UInt64.ofNat next]) := by
  have hvalue : (UInt64.ofNat next).toNat = next := UInt64.toNat_ofNat_of_lt64 hnext
  refine ⟨by have := h.1; omega, fun fc => ?_⟩
  rw [List.mem_append, h.2, List.mem_singleton, ← UInt64.toNat_inj, hvalue]
  have := h.1
  omega

/-- The next counter is admitted, and one that has come is not. -/
theorem Consecutive.admits_iff (h : Consecutive start next accepted) (hw : 0 < w.toNat)
    {fc : UInt64} (hfc : start ≤ fc.toNat ∧ fc.toNat ≤ next) :
    Admits w.toNat accepted fc ↔ fc.toNat = next := by
  constructor
  · intro hadmits
    by_contra hne
    have hmem : fc ∈ accepted := (h.2 fc).mpr ⟨hfc.1, by omega⟩
    rcases hadmits with hnil | ⟨hfresh, -⟩
    · exact absurd hmem (hnil ▸ List.not_mem_nil)
    · exact hfresh hmem
  · intro heq
    have hfresh : fc ∉ accepted := by
      rw [h.2]
      omega
    rcases Nat.eq_or_lt_of_le h.1 with hempty | hlt
    · refine .inl (List.eq_nil_iff_forall_not_mem.mpr fun c hc => ?_)
      have := (h.2 c).mp hc
      omega
    · -- the largest counter so far is the one before it
      have hlt64 := fc.toNat_lt
      have hprevious : (UInt64.ofNat (next - 1)).toNat = next - 1 :=
        UInt64.toNat_ofNat_of_lt64 (by omega)
      refine .inr ⟨hfresh, UInt64.ofNat (next - 1), ⟨?_, fun c hc => ?_⟩, ?_⟩
      · rw [h.2, hprevious]
        omega
      · have := (h.2 c).mp hc
        rw [UInt64.le_iff_toNat_le, hprevious]
        omega
      · rw [hprevious]
        omega

/-- Each counter is accepted when it comes first, and rejected when it comes again. -/
theorem replay_inOrder (hw : 0 < w.toNat) (htracks : Tracks w win accepted)
    (hconsecutive : Consecutive start next accepted) {fed : List Nat}
    (hfed : ∀ j, j ∈ fed ↔ start ≤ j ∧ j < next) {before after : List Nat} {i : Nat}
    (hfeed : InOrder start next (before ++ i :: after))
    (hlt : ∀ j ∈ before ++ i :: after, j < 2 ^ 64) :
    ((runTrace ReplayWindow.checkAndUpdate win (before.map UInt64.ofNat)).1.checkAndUpdate
        (UInt64.ofNat i)).1 = .ok () ↔ i ∉ fed ++ before := by
  induction before generalizing win accepted next fed with
  | nil =>
    have hvalue : (UInt64.ofNat i).toNat = i :=
      UInt64.toNat_ofNat_of_lt64 (hlt i (by simp))
    have hstart := hconsecutive.1
    have hrange : start ≤ (UInt64.ofNat i).toNat ∧ (UInt64.ofNat i).toNat ≤ next := by
      rw [hvalue]
      rcases hfeed with ⟨rfl, -⟩ | ⟨hlow, hhigh, -⟩ <;> omega
    show (win.checkAndUpdate (UInt64.ofNat i)).1 = .ok () ↔ i ∉ fed ++ []
    rw [htracks.checkAndUpdate_eq_ok, hconsecutive.admits_iff hw hrange, List.append_nil, hfed,
      hvalue]
    rw [hvalue] at hrange
    omega
  | cons j before ih =>
    have hj : j < 2 ^ 64 := hlt j (by simp)
    have hvalue : (UInt64.ofNat j).toNat = j := UInt64.toNat_ofNat_of_lt64 hj
    have hstart := hconsecutive.1
    have hrest : ∀ k ∈ before ++ i :: after, k < 2 ^ 64 :=
      fun k hk => hlt k (List.mem_cons_of_mem _ hk)
    have hassoc : fed ++ j :: before = (fed ++ [j]) ++ before := by simp
    rw [List.map_cons, runTrace_cons, hassoc]
    -- the counter is the next one: it is admitted, and the window moves
    rcases hfeed with ⟨rfl, hfeed⟩ | ⟨hlow, hhigh, hfeed⟩
    · have hok : (win.checkAndUpdate (UInt64.ofNat j)).1 = .ok () := by
        rw [htracks.checkAndUpdate_eq_ok, hconsecutive.admits_iff hw (by omega), hvalue]
      refine ih (htracks.checkAndUpdate hok) (hconsecutive.concat hj) (fun k => ?_) hfeed hrest
      rw [List.mem_append, hfed, List.mem_singleton]
      omega
    -- or it has come before: it is rejected, and the window stays
    · have hnot : (win.checkAndUpdate (UInt64.ofNat j)).1 ≠ .ok () := by
        rw [ne_eq, htracks.checkAndUpdate_eq_ok, hconsecutive.admits_iff hw (by omega), hvalue]
        omega
      have hunchanged : (win.checkAndUpdate (UInt64.ofNat j)).2 = win := by
        cases hanswer : (win.checkAndUpdate (UInt64.ofNat j)).1 with
        | ok u => exact absurd hanswer hnot
        | error reason => exact checkAndUpdate_rejected hanswer
      rw [hunchanged]
      refine ih htracks hconsecutive (fun k => ?_) hfeed hrest
      rw [List.mem_append, hfed, List.mem_singleton]
      omega

end

/-! ## The frames of a run -/

section

variable [Postcard] {n : Nat} {encrypt decrypt : AeadCall} {xchacha : XChaChaDecrypt} {key : Bytes}
  {podId : PodId} {gen : CounterNonce24}

/-- The frame is that of the emission with this number. -/
def FrameOf (encrypt : AeadCall) (podId : PodId) (gen : CounterNonce24) (i : Nat)
    (emission : Emission) (frame : EncryptedFrame n) : Prop :=
  encryptFact n encrypt (framedNonce gen.salt8 (UInt32.ofNat i) gen.tail8)
      (emission.original podId (UInt32.ofNat i)) = .ok frame
    ∧ (emission.original podId (UInt32.ofNat i)).podId = podId
    ∧ (emission.original podId (UInt32.ofNat i)).fc = (UInt32.ofNat i).toUInt64

/-- The emissions before exhaustion give a frame each, in order. -/
theorem emissionRun_frames (haead : AeadCorrect encrypt decrypt xchacha key) (hn : 272 ≤ n)
    {emissions : List Emission} (hvalid : ValidEmissions n encrypt (Pod.new podId gen) emissions) :
    let answers := (runTrace (podStep n) (Pod.new podId gen) (emissions.map (·.call encrypt))).2
    (emittedFrames answers).length = min emissions.length (2 ^ 32)
      ∧ ∀ i emission, emissions[i]? = some emission → i < 2 ^ 32 →
        ∃ frame, answers[i]? = some (emission.call encrypt, .ok (some frame))
          ∧ (emittedFrames answers)[i]? = some frame
            ∧ FrameOf encrypt podId gen i emission frame := by
  induction emissions using List.reverseRecOn with
  | nil => exact ⟨rfl, fun i emission h => by cases h⟩
  | append_singleton emissions emission ih =>
    obtain ⟨hlength, hframes⟩ := ih hvalid.init
    have hstate := emissionRun_state haead hn hvalid.init
    have hlast := hvalid emissions emission [] rfl
    rw [hstate] at hlast
    dsimp only at hlength hframes ⊢
    rw [List.map_append, List.map_singleton, runTrace_concat, hstate, emittedFrames_concat]
    -- the trace is as long as the emissions
    have htrace := congrArg List.length (map_fst_runTrace (podStep n) (Pod.new podId gen)
      (emissions.map (·.call encrypt)))
    rw [List.length_map, List.length_map] at htrace
    -- what an earlier emission gave is not touched by the last one
    have hearlier : ∀ (entry : PodCall × Except PodError (Option (EncryptedFrame n))) i e,
        emissions[i]? = some e → i < 2 ^ 32 →
        ∃ frame, ((runTrace (podStep n) (Pod.new podId gen) (emissions.map (·.call encrypt))).2
            ++ [entry])[i]? = some (e.call encrypt, .ok (some frame))
          ∧ (emittedFrames (runTrace (podStep n) (Pod.new podId gen)
              (emissions.map (·.call encrypt))).2 ++ emittedFrames [entry])[i]? = some frame
          ∧ FrameOf encrypt podId gen i e frame := by
      intro entry i e he hi
      obtain ⟨frame, htraceAt, hframeAt, hframe⟩ := hframes i e he hi
      refine ⟨frame, ?_, ?_, hframe⟩
      · rw [List.getElem?_append_left (List.getElem?_eq_some_iff.mp htraceAt).1, htraceAt]
      · rw [List.getElem?_append_left (List.getElem?_eq_some_iff.mp hframeAt).1, hframeAt]
    -- below `2 ^ 32` the last emission gives one frame more, with the next counter
    by_cases hcount : emissions.length < 2 ^ 32
    · obtain ⟨frame, hstep, hframe⟩ := emits_next haead hn hcount hlast
      rw [hstep]
      have hone : emittedFrames [(emission.call encrypt, Except.ok (some frame))] = [frame] := rfl
      refine ⟨?_, fun i e he hi => ?_⟩
      · rw [hone, List.length_append, List.length_append, hlength, List.length_singleton,
          List.length_singleton]
        omega
      · rcases Nat.lt_or_ge i emissions.length with hlt | hge
        · rw [List.getElem?_append_left hlt] at he
          exact hearlier _ i e he hi
        · have hbound := (List.getElem?_eq_some_iff.mp he).1
          rw [List.length_append, List.length_singleton] at hbound
          obtain rfl : i = emissions.length := by omega
          rw [List.getElem?_concat_length] at he
          obtain rfl := Option.some.inj he
          refine ⟨frame, ?_, ?_, hframe⟩
          · rw [← htrace]
            exact List.getElem?_concat_length
          · rw [hone, show emissions.length = (emittedFrames (runTrace (podStep n)
              (Pod.new podId gen) (emissions.map (·.call encrypt))).2).length by omega]
            exact List.getElem?_concat_length
    · -- nothing is emitted any more
      have hnone : counterAfter emissions.length = none := if_neg hcount
      have hexhausted := @podStep_exhausted _ n ⟨podId, counterAfter emissions.length, gen⟩ hnone
        (emission.call encrypt)
      have hemission : (emission.call encrypt).IsEmission := by cases emission <;> trivial
      have hanswer := hexhausted.1 hemission
      refine ⟨?_, fun i e he hi => ?_⟩
      · rw [hanswer]
        show (emittedFrames _ ++ []).length = _
        rw [List.append_nil, hlength, List.length_append, List.length_singleton]
        omega
      · rw [List.getElem?_append_left (by omega)] at he
        exact hearlier _ i e he hi

end

/-- **The frames of a pod are accepted exactly once.** For every sequence of valid payloads and of
valid facts with the pod's identity and next counter, with room for 272 bytes: every emission before
the counters are exhausted gives a frame; from each frame both the gateway and `decrypt_fact` read
the original fact; and a replay window of size at least one that is fed the frames in order, without
a gap and with any repetitions, accepts each frame when it comes first and rejects it when it comes
again. -/
theorem frames_accepted_once [Postcard] (encrypt decrypt : AeadCall) (xchacha : XChaChaDecrypt)
    (key : Bytes) (haead : AeadCorrect encrypt decrypt xchacha key) (hkey : key.length = 32)
    (podId : PodId) (salt8 tail8 : Bytes8) (n : Nat) (hn : 272 ≤ n) (emissions : List Emission)
    (hvalid : ValidEmissions n encrypt
      (Pod.new podId (CounterNonce24.fromProvisionedSalt salt8 tail8)) emissions) :
    let answers := (runTrace (podStep n)
      (Pod.new podId (CounterNonce24.fromProvisionedSalt salt8 tail8))
      (emissions.map (·.call encrypt))).2
    let frames := emittedFrames answers
    (∀ i emission, emissions[i]? = some emission → i < 2 ^ 32 →
      ∃ frame, answers[i]? = some (emission.call encrypt, .ok (some frame))
        ∧ frames[i]? = some frame
        ∧ ∃ fc : UInt32, fc.toNat = i ∧ frame.fc = fc.toUInt64
          ∧ validateAndDecrypt xchacha (frame.received (headerOf podId fc)) ⟨podId, salt8.1, key⟩
            = .ok ⟨headerOf podId fc, emission.original podId fc⟩
          ∧ decryptFact decrypt frame podId = .ok (emission.original podId fc))
      ∧ ∀ (w : UInt64) (start : Nat) (feed : List (Fin frames.length)), 0 < w →
        InOrder start start (feed.map Fin.val) →
        ∀ before i after, feed = before ++ i :: after →
          (((runTrace ReplayWindow.checkAndUpdate (ReplayWindow.new w none)
              (before.map fun j => (frames.get j).fc)).1.checkAndUpdate (frames.get i).fc).1
            = .ok () ↔ i ∉ before) := by
  -- the frames of the run, by their numbers
  intro answers frames
  obtain ⟨hlength, hframes⟩ := emissionRun_frames haead hn hvalid
  refine ⟨fun i emission hemission hi => ?_, fun w start feed hw hfeed before i after hsplit => ?_⟩
  -- frame `i` has the counter `i`, and is decrypted by both receivers
  · obtain ⟨frame, htraceAt, hframeAt, hencrypt, hid, hfc⟩ := hframes i emission hemission hi
    have hvalue : (UInt32.ofNat i).toNat = i := UInt32.toNat_ofNat_of_lt' hi
    have hadmitted := validateAndDecrypt_of_encryptFact haead hkey hfc hencrypt
    have hdecrypted := decryptFact_of_encryptFact haead hencrypt
    rw [hid] at hadmitted hdecrypted
    exact ⟨frame, htraceAt, hframeAt, UInt32.ofNat i, hvalue,
      (encryptFact_eq_ok hencrypt).2.2.1.trans hfc, hadmitted, hdecrypted⟩
  · -- the counter of a frame is its number
    have hcounter : ∀ j : Fin frames.length, j.1 < 2 ^ 32
      ∧ (frames.get j).fc = UInt64.ofNat j.1 := by
      intro j
      have hj : j.1 < min emissions.length (2 ^ 32) := hlength ▸ j.2
      have hget : frames[j.1]? = some (frames.get j) := List.getElem?_eq_getElem j.2
      obtain ⟨emission, hemission⟩ : ∃ emission, emissions[j.1]? = some emission :=
        ⟨_, List.getElem?_eq_getElem (by omega)⟩
      obtain ⟨frame, -, hframeAt, hencrypt, -, hfc⟩ := hframes j.1 emission hemission (by omega)
      have hsame : frame = frames.get j := Option.some.inj (hframeAt.symm.trans hget)
      refine ⟨by omega, ?_⟩
      rw [← hsame, (encryptFact_eq_ok hencrypt).2.2.1, hfc, ← UInt64.toNat_inj,
        UInt64.toNat_ofNat_of_lt64 (by omega)]
      simpa using UInt32.toNat_ofNat_of_lt' (show j.1 < 2 ^ 32 by omega)
    have hwindow : 0 < w.toNat := UInt64.lt_iff_toNat_lt.mp hw
    -- the frames fed before are fed as their counters
    have hmap : (before.map fun j => (frames.get j).fc)
      = (before.map Fin.val).map UInt64.ofNat := by
      rw [List.map_map]
      exact List.map_congr_left fun j _ => (hcounter j).2
    -- the feed stays in order
    have hfeed' : InOrder start start (before.map Fin.val ++ i.1 :: after.map Fin.val) := by
      rw [hsplit] at hfeed
      simpa using hfeed
    have hlt : ∀ j ∈ before.map Fin.val ++ i.1 :: after.map Fin.val, j < 2 ^ 64 := by
      intro j hj
      have hj' : j ∈ feed.map Fin.val := by
        rw [hsplit]
        simpa using hj
      obtain ⟨k, -, rfl⟩ := List.mem_map.mp hj'
      have := (hcounter k).1
      omega
    have hconsecutive : Consecutive start start [] := by
      refine ⟨Nat.le_refl start, fun fc => iff_of_false List.not_mem_nil ?_⟩
      omega
    have hfed : ∀ j, j ∈ ([] : List Nat) ↔ start ≤ j ∧ j < start := by
      refine fun j => iff_of_false List.not_mem_nil ?_
      omega
    -- the window accepts a counter in order exactly when it is new
    have hinorder := replay_inOrder hwindow Tracks.new hconsecutive hfed hfeed' hlt
    rw [hmap, (hcounter i).2, hinorder, List.nil_append, List.mem_map]
    constructor
    · intro hnot hmem
      exact hnot ⟨i, hmem, rfl⟩
    · rintro hnot ⟨j, hj, heq⟩
      obtain rfl := Fin.ext heq
      exact hnot hj

/-! ### A pod with XChaCha20-Poly1305 -/

/-- A reading, and then a fact that was made elsewhere for the second counter. -/
def sampleEmissions (podId : PodId) : List Emission :=
  [.payload (.env sampleReading),
    .fact ⟨podId, 1, -5, some 1700000001, .health, .custom ⟨[1, 2, 3], by decide⟩⟩]

theorem sampleEmissions_valid [Postcard] :
    ValidEmissions 272 (xchachaEncrypt sampleKey) (Pod.new samplePodId sampleNonceGen)
      (sampleEmissions samplePodId) := by
  have hreading : (FactPayload.env sampleReading).Valid := by
    show sampleReading.validate = .ok ()
    decide
  have hfirst : ValidEmissions 272 (xchachaEncrypt sampleKey) (Pod.new samplePodId sampleNonceGen)
      [.payload (.env sampleReading)] := by
    intro before emission after hsplit
    cases before with
    | nil =>
      obtain ⟨rfl, -⟩ := List.cons.inj hsplit
      exact hreading
    | cons e before => simp at hsplit
  have hstate := emissionRun_state (aeadCorrect_xchacha sampleKey) (Nat.le_refl 272) hfirst
  intro before emission after hsplit
  rcases before with _ | ⟨e, _ | ⟨e', before⟩⟩
  · obtain ⟨rfl, -⟩ := List.cons.inj hsplit
    exact hreading
  · obtain ⟨hfirst', hrest⟩ := List.cons.inj hsplit
    obtain ⟨hsecond, -⟩ := List.cons.inj hrest
    rw [← hfirst', ← hsecond, hstate]
    exact ⟨rfl, rfl, rfl⟩
  · simp [sampleEmissions] at hsplit

/-- The second frame of the sample pod gives the gateway its fact. -/
theorem frames_accepted_once_sample :
    letI := Postcard.wire
    ∃ (frame : EncryptedFrame 272) (fact : Fact), fact.fc = 1
      ∧ validateAndDecrypt XChaCha.xchachaOpen (frame.received (headerOf samplePodId 1))
          ⟨samplePodId, List.replicate 8 0x42, sampleKey⟩ = .ok ⟨headerOf samplePodId 1, fact⟩
      ∧ decryptFact (xchachaDecrypt sampleKey) frame samplePodId = .ok fact := by
  let := Postcard.wire
  have h := frames_accepted_once (xchachaEncrypt sampleKey) (xchachaDecrypt sampleKey)
    XChaCha.xchachaOpen sampleKey (aeadCorrect_xchacha sampleKey) rfl samplePodId
    ⟨List.replicate 8 0x42, rfl⟩ ⟨List.replicate 8 0x99, rfl⟩ 272 (Nat.le_refl 272)
    (sampleEmissions samplePodId) sampleEmissions_valid
  obtain ⟨frame, -, -, fc, hvalue, -, hadmitted, hdecrypted⟩ := h.1 1 _ rfl (by decide)
  obtain rfl : fc = 1 := UInt32.toNat_inj.mp hvalue
  exact ⟨frame, _, rfl, hadmitted, hdecrypted⟩

end TrackOne
