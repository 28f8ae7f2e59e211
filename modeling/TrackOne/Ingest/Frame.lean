import TrackOne.Ingest.Fact
import TrackOne.Ingest.Replay
import TrackOne.Lib.XChaCha

/-!
# Frames

A fact on its way from a pod to the gateway: `frame.rs`, `aad.rs`, `nonce.rs` and
`validate_and_decrypt` of `trackone-ingest`. The ciphers are parameters. `AeadCorrect` says of them
that one device's key opens what it sealed, with a tag of sixteen bytes.

* `encryptFact_of_valid`: a valid fact is encrypted when the frame has room for it.
* `decryptFact_of_encryptFact`, `validateAndDecrypt_of_encryptFact`: both readers give the fact
  back. -/

namespace TrackOne

/-! ## Errors and constants -/

/-- `Error` of the core crate. -/
inductive CoreError where
  | cryptoError
  | serializeBufferTooSmall
  | serializeError
  | deserializeError
  | ciphertextTooLarge
  | invalidFact (reason : FactValidationError)
deriving DecidableEq, Repr

def maxFactLen : Nat := 256

def aeadNonceLen : Nat := 24

def aeadTagLen : Nat := 16

def maxFrameCiphertextBytes : Nat := 256

def framedFactMsgType : UInt8 := 1

/-! ## Associated data and nonces -/

def legacyDevIdFromPodId (podId : PodId) : UInt16 := UInt16.ofNat (ofBeBytes (podId.1.drop 6))

def framedAad (devId : UInt16) (msgType flags : UInt8) : Bytes :=
  beBytes 2 devId.toNat ++ [msgType, flags]

def framedAadForPod (podId : PodId) (msgType flags : UInt8) : Bytes :=
  framedAad (legacyDevIdFromPodId podId) msgType flags

inductive FramedFactBindingError where
  | podIdMismatch
  | frameCounterMismatch
deriving DecidableEq, Repr

def validateFactBinding (fact : Fact) (expectedPodId : PodId) (expectedFc : UInt64) :
    Except FramedFactBindingError Unit :=
  if fact.podId ≠ expectedPodId then .error .podIdMismatch
  else if fact.fc ≠ expectedFc then .error .frameCounterMismatch
  else .ok ()

/-- `[u8; 8]`, a salt or a tail. -/
abbrev Bytes8 := { bytes : Bytes // bytes.length = 8 }

/-- `[u8; AEAD_NONCE_LEN]`. -/
abbrev Nonce := { bytes : Bytes // bytes.length = aeadNonceLen }

/-- `salt8 || fc32_as_u64_be || tail8`. -/
def framedNonce (salt8 : Bytes8) (fc : UInt32) (tail8 : Bytes8) : Nonce :=
  ⟨salt8.1 ++ (beBytes 8 fc.toNat ++ tail8.1), by simp [salt8.2, tail8.2, aeadNonceLen]⟩

inductive FramedNonceError where
  | nonceLength
  | salt8Length
  | saltMismatch
  | frameCounterMismatch
deriving DecidableEq, Repr

def validateNoncePrefix (nonce salt8 : Bytes) (fc : UInt32) : Except FramedNonceError Unit :=
  if nonce.length ≠ aeadNonceLen then .error .nonceLength
  else if salt8.length ≠ 8 then .error .salt8Length
  else if nonce.take 8 ≠ salt8 then .error .saltMismatch
  else if ofBeBytes ((nonce.drop 8).take 8) ≠ fc.toNat then .error .frameCounterMismatch
  else .ok ()

/-- Two counters never share a nonce. -/
theorem framedNonce_injective {salt8 tail8 : Bytes8} {fc fc' : UInt32}
    (h : framedNonce salt8 fc tail8 = framedNonce salt8 fc' tail8) : fc = fc' := by
  have hbytes := Subtype.ext_iff.mp h
  have hmiddle := (List.append_inj (List.append_cancel_left hbytes) (by simp)).1
  have hvalue := congrArg ofBeBytes hmiddle
  have hlt := fc.toNat_lt
  have hlt' := fc'.toNat_lt
  rw [ofBeBytes_beBytes, ofBeBytes_beBytes, Nat.mod_eq_of_lt (by omega),
    Nat.mod_eq_of_lt (by omega)] at hvalue
  exact UInt32.toNat_inj.mp hvalue

theorem validateNoncePrefix_framedNonce (salt8 tail8 : Bytes8) (fc : UInt32) :
    validateNoncePrefix (framedNonce salt8 fc tail8).1 salt8.1 fc = .ok () := by
  have hlt := fc.toNat_lt
  have hsalt : (framedNonce salt8 fc tail8).1.take 8 = salt8.1 := by
    rw [framedNonce, List.take_left' salt8.2]
  have hcounter : ofBeBytes (((framedNonce salt8 fc tail8).1.drop 8).take 8) = fc.toNat := by
    rw [framedNonce, List.drop_left' salt8.2, List.take_left' (by simp), ofBeBytes_beBytes,
      Nat.mod_eq_of_lt (by omega)]
  simp [validateNoncePrefix, (framedNonce salt8 fc tail8).2, salt8.2, hsalt, hcounter]

/-! ## Encrypting and decrypting -/

/-- `AeadEncrypt::encrypt` and `AeadDecrypt::decrypt` of one key: nonce, associated data, input and
the room of the output, to what was written there. -/
abbrev AeadCall :=
  (nonce aad input : Bytes) → (room : Nat) →
    Except CoreError { written : Bytes // written.length ≤ room }

/-- `EncryptedFrame<N>`. -/
structure EncryptedFrame (n : Nat) where
  podId : PodId
  fc : UInt64
  nonce : Nonce
  ciphertext : { bytes : Bytes // bytes.length ≤ n }
deriving DecidableEq

section

variable [Postcard]

def encodeFactPostcard (fact : Fact) (room : Nat) : Except CoreError Bytes := do
  fact.validate.mapError .invalidFact
  if room < (Postcard.toBytes fact).length then
    throw .serializeError
  pure (Postcard.toBytes fact)

def decodeFactPostcard (bytes : Bytes) : Except CoreError Fact := do
  let fact ← Except.ofOption .deserializeError (Postcard.fromBytes bytes)
  fact.validate.mapError .invalidFact
  pure fact

def makeFact (podId : PodId) (fc : UInt64) (payload : FactPayload) : Except CoreError Fact := do
  let kind := match payload with
    | .env _ => FactKind.env
    | .custom _ => FactKind.custom
  let fact : Fact := { podId, fc, ingestTime := 0, podTime := none, kind, payload }
  fact.validate.mapError .invalidFact
  pure fact

def encryptFact (n : Nat) (encrypt : AeadCall) (nonce : Nonce) (fact : Fact) :
    Except CoreError (EncryptedFrame n) := do
  let used ← encodeFactPostcard fact maxFactLen
  let aad := framedAadForPod fact.podId 1 0
  if n < used.length + aeadTagLen then
    throw .ciphertextTooLarge
  let ciphertext ← (encrypt nonce.1 aad used n).mapError fun _ => .cryptoError
  pure { podId := fact.podId, fc := fact.fc, nonce, ciphertext }

def decryptFact {n : Nat} (decrypt : AeadCall) (frame : EncryptedFrame n) (expectedPodId : PodId) :
    Except CoreError Fact := do
  if frame.podId ≠ expectedPodId then
    throw .cryptoError
  let aad := framedAadForPod frame.podId 1 0
  if maxFactLen < frame.ciphertext.1.length then
    throw .deserializeError
  let plaintext ← (decrypt frame.nonce.1 aad frame.ciphertext.1 maxFactLen).mapError
    fun _ => .cryptoError
  let fact ← decodeFactPostcard plaintext.1
  (validateFactBinding fact expectedPodId frame.fc).mapError fun _ => .cryptoError
  pure fact

end

/-! ## Admission -/

structure FrameHeader where
  devId : UInt16
  msgType : UInt8
  fc : UInt32
  flags : UInt8
deriving DecidableEq

structure FrameInput where
  header : FrameHeader
  nonce : Bytes
  ct : Bytes
  tag : Bytes
deriving DecidableEq

structure DeviceMaterial where
  expectedPodId : PodId
  salt8 : Bytes
  ckUp : Bytes

structure AcceptedFrame where
  header : FrameHeader
  fact : Fact
deriving DecidableEq

def mapFramedNonceError : FramedNonceError → RejectReason
  | .nonceLength => .nonceLength
  | .salt8Length => .salt8Length
  | .saltMismatch => .nonceSaltMismatch
  | .frameCounterMismatch => .nonceFcMismatch

/-- Decryption with `XChaCha20Poly1305`: key, nonce, associated data and the text with its tag. -/
abbrev XChaChaDecrypt := (key nonce aad combined : Bytes) → Option Bytes

def validateAndDecrypt [Postcard] (xchacha : XChaChaDecrypt) (frame : FrameInput)
    (device : DeviceMaterial) : Except RejectReason AcceptedFrame := do
  if frame.tag.length ≠ aeadTagLen then
    throw .tagLength
  if device.ckUp.length ≠ 32 then
    throw .ckUpLength
  if frame.ct = [] then
    throw .emptyCiphertext
  if maxFrameCiphertextBytes < frame.ct.length then
    throw .ciphertextTooLarge
  if frame.header.flags ≠ 0 then
    throw .unsupportedFlags
  if frame.header.msgType ≠ framedFactMsgType then
    throw .unsupportedMessageType
  if legacyDevIdFromPodId device.expectedPodId ≠ frame.header.devId then
    throw .headerDeviceIdMismatch
  (validateNoncePrefix frame.nonce device.salt8 frame.header.fc).mapError mapFramedNonceError
  let aad := framedAad frame.header.devId frame.header.msgType frame.header.flags
  let plaintext ← Except.ofOption .decryptFailed
    (xchacha device.ckUp frame.nonce aad (frame.ct ++ frame.tag))
  let fact ← (decodeFactPostcard plaintext).mapError fun
    | .invalidFact _ => .invalidFact
    | _ => .decryptFailed
  (validateFactBinding fact device.expectedPodId frame.header.fc.toUInt64).mapError fun
    | .podIdMismatch => .payloadDeviceIdMismatch
    | .frameCounterMismatch => .payloadFcMismatch
  pure { header := frame.header, fact }

/-! ## The readers undo the writer -/

/-- What is assumed of the ciphers of a pod and of the gateway that knows its key: with room for the
tag a text is sealed, into a text sixteen bytes longer, and both ways of opening it give it back. -/
structure AeadCorrect (encrypt decrypt : AeadCall) (xchacha : XChaChaDecrypt) (key : Bytes) :
    Prop where
  seals : ∀ (nonce : Nonce) aad plaintext room, plaintext.length + aeadTagLen ≤ room →
    ∃ ciphertext, encrypt nonce.1 aad plaintext room = .ok ciphertext
  sealed_length : ∀ (nonce : Nonce) aad plaintext room ciphertext,
    encrypt nonce.1 aad plaintext room = .ok ciphertext →
      ciphertext.1.length = plaintext.length + aeadTagLen
  decrypt_sealed : ∀ (nonce : Nonce) aad plaintext room ciphertext room',
    encrypt nonce.1 aad plaintext room = .ok ciphertext → ciphertext.1.length ≤ room' →
      ∃ h, decrypt nonce.1 aad ciphertext.1 room' = .ok ⟨plaintext, h⟩
  xchacha_sealed : ∀ (nonce : Nonce) aad plaintext room ciphertext,
    encrypt nonce.1 aad plaintext room = .ok ciphertext →
      xchacha key nonce.1 aad ciphertext.1 = some plaintext

section

variable [Postcard] {encrypt decrypt : AeadCall} {xchacha : XChaChaDecrypt} {key : Bytes}
  {n : Nat} {nonce : Nonce} {fact : Fact}

theorem length_toBytes_le (fact : Fact) : (Postcard.toBytes fact).length ≤ 106 := by
  rw [Postcard.length_toBytes]
  exact fact.postcardLength_le

theorem encodeFactPostcard_of_valid (hvalid : fact.validate = .ok ()) :
    encodeFactPostcard fact maxFactLen = .ok (Postcard.toBytes fact) := by
  have hfits : ¬ maxFactLen < (Postcard.toBytes fact).length := by
    have := length_toBytes_le fact
    unfold maxFactLen
    omega
  simp [encodeFactPostcard, hvalid, hfits, Except.mapError, bind, Except.bind, pure, Except.pure]

theorem decodeFactPostcard_toBytes (hvalid : fact.validate = .ok ()) :
    decodeFactPostcard (Postcard.toBytes fact) = .ok fact := by
  simp [decodeFactPostcard, Postcard.fromBytes_toBytes, hvalid, Except.mapError, Except.ofOption,
    bind, Except.bind, pure, Except.pure]

/-- A fact that was encrypted is valid, and its frame says what it is about. -/
theorem encryptFact_eq_ok {frame : EncryptedFrame n}
    (h : encryptFact n encrypt nonce fact = .ok frame) :
    fact.validate = .ok () ∧ frame.podId = fact.podId ∧ frame.fc = fact.fc ∧ frame.nonce = nonce
      ∧ encrypt nonce.1 (framedAadForPod fact.podId 1 0) (Postcard.toBytes fact) n
        = .ok frame.ciphertext := by
  simp only [encryptFact, Except.bind_eq_ok] at h
  obtain ⟨used, hused, h⟩ := h
  split_ifs at h with hroom
  · cases h
  · simp only [Except.bind_eq_ok, Except.mapError_eq_ok] at h
    obtain ⟨ciphertext, hcipher, heq⟩ := h
    obtain rfl := Except.ok.inj heq
    simp only [encodeFactPostcard, Except.bind_eq_ok, Except.mapError_eq_ok] at hused
    obtain ⟨u, hvalid, hused⟩ := hused
    split_ifs at hused with hfits
    · cases hused
    · obtain rfl := Except.ok.inj hused
      exact ⟨hvalid, rfl, rfl, rfl, hcipher⟩

/-- A valid fact is encrypted when there is room for it and the cipher does not fail. -/
theorem encryptFact_of_valid (hvalid : fact.validate = .ok ())
    (hroom : fact.postcardLength + aeadTagLen ≤ n)
    {ciphertext : { bytes : Bytes // bytes.length ≤ n }}
    (hcipher : encrypt nonce.1 (framedAadForPod fact.podId 1 0) (Postcard.toBytes fact) n
      = .ok ciphertext) :
    encryptFact n encrypt nonce fact = .ok ⟨fact.podId, fact.fc, nonce, ciphertext⟩ := by
  have hfits : ¬ n < (Postcard.toBytes fact).length + aeadTagLen := by
    rw [Postcard.length_toBytes]
    omega
  rw [encryptFact, encodeFactPostcard_of_valid hvalid]
  simp [hfits, hcipher, Except.mapError, bind, Except.bind, pure, Except.pure]

omit [Postcard] in
theorem validateFactBinding_self (fact : Fact) :
    validateFactBinding fact fact.podId fact.fc = .ok () := by
  simp [validateFactBinding]

/-- The pod side reader gives the fact back. -/
theorem decryptFact_of_encryptFact (haead : AeadCorrect encrypt decrypt xchacha key)
    {frame : EncryptedFrame n} (h : encryptFact n encrypt nonce fact = .ok frame) :
    decryptFact decrypt frame fact.podId = .ok fact := by
  obtain ⟨hvalid, hid, hfc, hnonce, hcipher⟩ := encryptFact_eq_ok h
  have hlength := haead.sealed_length _ _ _ _ _ hcipher
  have hfits : frame.ciphertext.1.length ≤ maxFactLen := by
    have := length_toBytes_le fact
    unfold maxFactLen
    unfold aeadTagLen at hlength
    omega
  obtain ⟨hroom, hdecrypt⟩ := haead.decrypt_sealed _ _ _ _ _ _ hcipher hfits
  simp [decryptFact, hid, hfc, hnonce, Nat.not_lt.mpr hfits, hdecrypt, Except.mapError,
    decodeFactPostcard_toBytes hvalid, validateFactBinding_self, bind, Except.bind, pure,
    Except.pure]

/-- The header a gateway receives with a frame. -/
def headerOf (podId : PodId) (fc : UInt32) : FrameHeader :=
  { devId := legacyDevIdFromPodId podId, msgType := 1, fc, flags := 0 }

/-- The frame as the gateway receives it: the last sixteen bytes of the ciphertext are the tag. -/
def EncryptedFrame.received (frame : EncryptedFrame n) (header : FrameHeader) : FrameInput where
  header
  nonce := frame.nonce.1
  ct := frame.ciphertext.1.take (frame.ciphertext.1.length - aeadTagLen)
  tag := frame.ciphertext.1.drop (frame.ciphertext.1.length - aeadTagLen)

/-- The gateway gives the fact back. -/
theorem validateAndDecrypt_of_encryptFact (haead : AeadCorrect encrypt decrypt xchacha key)
    (hkey : key.length = 32) {salt8 tail8 : Bytes8} {fc : UInt32} (hfc : fact.fc = fc.toUInt64)
    {frame : EncryptedFrame n}
    (h : encryptFact n encrypt (framedNonce salt8 fc tail8) fact = .ok frame) :
    validateAndDecrypt xchacha (frame.received (headerOf fact.podId fc))
        ⟨fact.podId, salt8.1, key⟩
      = .ok ⟨headerOf fact.podId fc, fact⟩ := by
  obtain ⟨hvalid, -, -, hnonce, hcipher⟩ := encryptFact_eq_ok h
  have hlength := haead.sealed_length _ _ _ _ _ hcipher
  have hopen := haead.xchacha_sealed _ _ _ _ _ hcipher
  have hpos : 0 < (Postcard.toBytes fact).length := by
    rw [Postcard.length_toBytes]
    exact fact.postcardLength_pos
  have hle := length_toBytes_le fact
  unfold aeadTagLen at hlength
  -- the checks of lengths, in the order of the code
  have htag : (frame.received (headerOf fact.podId fc)).tag.length = aeadTagLen := by
    simp only [EncryptedFrame.received, List.length_drop, aeadTagLen]
    omega
  have hctLength : (frame.received (headerOf fact.podId fc)).ct.length
      = (Postcard.toBytes fact).length := by
    simp only [EncryptedFrame.received, List.length_take, aeadTagLen]
    omega
  have hct : (frame.received (headerOf fact.podId fc)).ct ≠ [] := by
    rw [← List.length_pos_iff, hctLength]
    exact hpos
  have hctMax : ¬ maxFrameCiphertextBytes
      < (frame.received (headerOf fact.podId fc)).ct.length := by
    rw [hctLength]
    unfold maxFrameCiphertextBytes
    omega
  -- the ciphertext and the tag are the two parts of what was sealed
  have hcombined : (frame.received (headerOf fact.podId fc)).ct
      ++ (frame.received (headerOf fact.podId fc)).tag = frame.ciphertext.1 :=
    List.take_append_drop _ _
  have hreceived : (frame.received (headerOf fact.podId fc)).nonce
      = (framedNonce salt8 fc tail8).1 := by
    rw [← hnonce]
    rfl
  -- the fact is bound to the pod and the counter of its frame
  have hbinding : validateFactBinding fact fact.podId fc.toUInt64 = .ok () := by
    rw [← hfc]
    exact validateFactBinding_self fact
  have hheader : (frame.received (headerOf fact.podId fc)).header = headerOf fact.podId fc := rfl
  have hdev : (headerOf fact.podId fc).devId = legacyDevIdFromPodId fact.podId := rfl
  have htype : (headerOf fact.podId fc).msgType = 1 := rfl
  have hcounter : (headerOf fact.podId fc).fc = fc := rfl
  have hflags : (headerOf fact.podId fc).flags = 0 := rfl
  have haad : framedAad (legacyDevIdFromPodId fact.podId) 1 0 = framedAadForPod fact.podId 1 0 :=
    rfl
  simp only [validateAndDecrypt, htag, hkey, hct, hctMax, hheader, hdev, htype, hcounter, hflags,
    hreceived, hcombined, framedFactMsgType, ne_eq, not_true_eq_false, if_false,
    validateNoncePrefix_framedNonce, haad, hopen, Except.ofOption, Except.mapError, bind,
    Except.bind, pure, Except.pure, decodeFactPostcard_toBytes hvalid, hbinding]

end

/-! ## XChaCha20-Poly1305 -/

/-- The cipher of a pod, by its key. -/
def xchachaEncrypt (key : Bytes) : AeadCall := fun nonce aad plaintext room =>
  if h : (XChaCha.xchachaSeal key nonce aad plaintext).length ≤ room then .ok ⟨_, h⟩
  else .error .cryptoError

def xchachaDecrypt (key : Bytes) : AeadCall := fun nonce aad ciphertext room =>
  match XChaCha.xchachaOpen key nonce aad ciphertext with
  | some plaintext =>
    if h : plaintext.length ≤ room then .ok ⟨plaintext, h⟩ else .error .cryptoError
  | none => .error .cryptoError

theorem xchachaEncrypt_eq_ok {key nonce aad plaintext : Bytes} {room : Nat}
    {ciphertext : { written : Bytes // written.length ≤ room }}
    (h : xchachaEncrypt key nonce aad plaintext room = .ok ciphertext) :
    ciphertext.1 = XChaCha.xchachaSeal key nonce aad plaintext := by
  unfold xchachaEncrypt at h
  split_ifs at h with hroom
  rw [← Except.ok.inj h]

theorem aeadCorrect_xchacha (key : Bytes) :
    AeadCorrect (xchachaEncrypt key) (xchachaDecrypt key) XChaCha.xchachaOpen key where
  seals nonce aad plaintext room hroom := by
    rw [aeadTagLen, ← XChaCha.length_xchachaSeal key nonce.1 aad] at hroom
    exact ⟨_, dif_pos hroom⟩
  sealed_length nonce aad plaintext room ciphertext h := by
    rw [xchachaEncrypt_eq_ok h, XChaCha.length_xchachaSeal]
    rfl
  decrypt_sealed nonce aad plaintext room ciphertext room' h hroom := by
    rw [xchachaEncrypt_eq_ok h, XChaCha.length_xchachaSeal] at hroom
    have hfits : plaintext.length ≤ room' := by omega
    refine ⟨hfits, ?_⟩
    unfold xchachaDecrypt
    rw [xchachaEncrypt_eq_ok h, XChaCha.xchachaOpen_xchachaSeal]
    exact dif_pos hfits
  xchacha_sealed nonce aad plaintext room ciphertext h := by
    rw [xchachaEncrypt_eq_ok h, XChaCha.xchachaOpen_xchachaSeal]

end TrackOne
