import TrackOne.Lib.Words

/-!
# XChaCha20-Poly1305

An authenticated cipher built of a keystream and a tag over the ciphertext. `sealWith` and
`openWith` are the construction for any keystream and any tag of a fixed length, and
`openWith_sealWith` is that opening undoes sealing. `xchachaSeal` and `xchachaOpen` put in the
keystream of ChaCha20 under an extended nonce and the tag of Poly1305. -/

namespace XChaCha

/-! ## The construction -/

section

variable (stream : Nat → Bytes) (mac : Bytes → Bytes)

def xorBytes (a b : Bytes) : Bytes := List.zipWith (· ^^^ ·) a b

def sealWith (plaintext : Bytes) : Bytes :=
  xorBytes plaintext (stream plaintext.length) ++ mac (xorBytes plaintext (stream plaintext.length))

def openWith (tagLen : Nat) (combined : Bytes) : Option Bytes :=
  if combined.length < tagLen then none
  else
    let ciphertext := combined.take (combined.length - tagLen)
    if combined.drop (combined.length - tagLen) = mac ciphertext then
      some (xorBytes ciphertext (stream ciphertext.length))
    else none

end

theorem length_xorBytes {a b : Bytes} (h : b.length = a.length) :
    (xorBytes a b).length = a.length := by
  rw [xorBytes, List.length_zipWith, h, Nat.min_self]

/-- The same keystream twice changes nothing. -/
theorem xorBytes_xorBytes {a b : Bytes} (h : b.length = a.length) :
    xorBytes (xorBytes a b) b = a := by
  induction a generalizing b with
  | nil => rfl
  | cons x a ih =>
    cases b with
    | nil => simp at h
    | cons y b =>
      have hbyte : x ^^^ y ^^^ y = x := by
        rw [UInt8.xor_assoc, UInt8.xor_self, UInt8.xor_zero]
      show (x ^^^ y ^^^ y) :: xorBytes (xorBytes a b) b = x :: a
      rw [hbyte, ih (by simpa using h)]

section

variable {stream : Nat → Bytes} {mac : Bytes → Bytes} {tagLen : Nat}

theorem length_sealWith (hstream : ∀ n, (stream n).length = n)
    (hmac : ∀ bytes, (mac bytes).length = tagLen) (plaintext : Bytes) :
    (sealWith stream mac plaintext).length = plaintext.length + tagLen := by
  rw [sealWith, List.length_append, length_xorBytes (hstream _), hmac]

/-- Opening undoes sealing. -/
theorem openWith_sealWith (hstream : ∀ n, (stream n).length = n)
    (hmac : ∀ bytes, (mac bytes).length = tagLen) (plaintext : Bytes) :
    openWith stream mac tagLen (sealWith stream mac plaintext) = some plaintext := by
  have hlength := length_sealWith hstream hmac plaintext
  have hxor : (xorBytes plaintext (stream plaintext.length)).length = plaintext.length :=
    length_xorBytes (hstream _)
  have hcut : (sealWith stream mac plaintext).length - tagLen
      = (xorBytes plaintext (stream plaintext.length)).length := by
    omega
  have htake : (sealWith stream mac plaintext).take
    ((sealWith stream mac plaintext).length - tagLen)
      = xorBytes plaintext (stream plaintext.length) := by
    rw [hcut]
    exact List.take_left
  have hdrop : (sealWith stream mac plaintext).drop
    ((sealWith stream mac plaintext).length - tagLen)
      = mac (xorBytes plaintext (stream plaintext.length)) := by
    rw [hcut]
    exact List.drop_left
  rw [openWith, if_neg (by omega)]
  simp only [htake, hdrop, if_true, hxor]
  rw [xorBytes_xorBytes (hstream _)]

end

/-! ## ChaCha20 -/

def rotateLeft (x : UInt32) (n : UInt32) : UInt32 := (x <<< n) ||| (x >>> (32 - n))

def quarterRound (s : Array UInt32) (a b c d : Nat) : Array UInt32 :=
  let s := s.setIfInBounds a (s.getD a 0 + s.getD b 0)
  let s := s.setIfInBounds d (rotateLeft (s.getD d 0 ^^^ s.getD a 0) 16)
  let s := s.setIfInBounds c (s.getD c 0 + s.getD d 0)
  let s := s.setIfInBounds b (rotateLeft (s.getD b 0 ^^^ s.getD c 0) 12)
  let s := s.setIfInBounds a (s.getD a 0 + s.getD b 0)
  let s := s.setIfInBounds d (rotateLeft (s.getD d 0 ^^^ s.getD a 0) 8)
  let s := s.setIfInBounds c (s.getD c 0 + s.getD d 0)
  s.setIfInBounds b (rotateLeft (s.getD b 0 ^^^ s.getD c 0) 7)

/-- A round over the columns and one over the diagonals. -/
def doubleRound (s : Array UInt32) : Array UInt32 :=
  let s := quarterRound (quarterRound s 0 4 8 12) 1 5 9 13
  let s := quarterRound (quarterRound s 2 6 10 14) 3 7 11 15
  let s := quarterRound (quarterRound s 0 5 10 15) 1 6 11 12
  quarterRound (quarterRound s 2 7 8 13) 3 4 9 14

def rounds (s : Array UInt32) : Array UInt32 := Nat.repeat doubleRound 10 s

/-- The words of bytes, the lowest byte first. -/
def leWords : Bytes → List UInt32
  | a :: b :: c :: d :: rest => UInt32.ofNat (ofBeBytes [d, c, b, a]) :: leWords rest
  | _ => []

def constants : List UInt32 := [0x61707865, 0x3320646e, 0x79622d32, 0x6b206574]

def chachaBlock (key : Bytes) (counter : UInt32) (nonce : Bytes) : Bytes :=
  let initial := (constants ++ leWords key ++ [counter] ++ leWords nonce).toArray
  let mixed := rounds initial
  (List.range 16).flatMap fun i => leBytes 4 (mixed.getD i 0 + initial.getD i 0).toNat

/-- The key for the second part of an extended nonce. -/
def hchacha (key nonce16 : Bytes) : Bytes :=
  let mixed := rounds (constants ++ leWords key ++ leWords nonce16).toArray
  ([0, 1, 2, 3, 12, 13, 14, 15] : List Nat).flatMap fun i => leBytes 4 (mixed.getD i 0).toNat

theorem length_chachaBlock (key : Bytes) (counter : UInt32) (nonce : Bytes) :
    (chachaBlock key counter nonce).length = 64 := by
  simp only [chachaBlock, leBytes, List.length_flatMap, List.length_reverse, length_beBytes]
  rfl

/-- The keystream, from the block with counter one on. -/
def keystream (key nonce : Bytes) (n : Nat) : Bytes :=
  ((List.range (n / 64 + 1)).flatMap fun i => chachaBlock key (UInt32.ofNat (i + 1)) nonce).take n

theorem length_keystream (key nonce : Bytes) (n : Nat) : (keystream key nonce n).length = n := by
  simp only [keystream, List.length_take, List.length_flatMap, length_chachaBlock, List.map_const',
    List.length_range, List.sum_replicate_nat]
  omega

/-! ## Poly1305 -/

def poly1305 (key message : Bytes) : Bytes :=
  let r := ofBeBytes (key.take 16).reverse &&& 0x0ffffffc0ffffffc0ffffffc0fffffff
  let s := ofBeBytes (key.drop 16).reverse
  let acc := (message.toChunks 16).foldl
    (fun acc chunk => (acc + ofBeBytes chunk.reverse + 256 ^ chunk.length) * r % (2 ^ 130 - 5)) 0
  leBytes 16 ((acc + s) % 2 ^ 128)

def pad16 (bytes : Bytes) : Bytes := bytes ++ List.replicate ((16 - bytes.length % 16) % 16) 0

def tag (key nonce aad ciphertext : Bytes) : Bytes :=
  poly1305 ((chachaBlock key 0 nonce).take 32)
    (pad16 aad ++ pad16 ciphertext ++ leBytes 8 aad.length ++ leBytes 8 ciphertext.length)

theorem length_tag (key nonce aad ciphertext : Bytes) :
    (tag key nonce aad ciphertext).length = 16 := by
  simp [tag, poly1305, leBytes]

/-! ## The cipher -/

/-- The key and the nonce for the parts of an extended nonce. -/
def derived (key nonce24 : Bytes) : Bytes × Bytes :=
  (hchacha key (nonce24.take 16), [0, 0, 0, 0] ++ nonce24.drop 16)

def xchachaSeal (key nonce aad plaintext : Bytes) : Bytes :=
  let (key, nonce) := derived key nonce
  sealWith (keystream key nonce) (tag key nonce aad) plaintext

def xchachaOpen (key nonce aad combined : Bytes) : Option Bytes :=
  let (key, nonce) := derived key nonce
  openWith (keystream key nonce) (tag key nonce aad) 16 combined

theorem length_xchachaSeal (key nonce aad plaintext : Bytes) :
    (xchachaSeal key nonce aad plaintext).length = plaintext.length + 16 :=
  length_sealWith (length_keystream _ _) (length_tag _ _ _) plaintext

theorem xchachaOpen_xchachaSeal (key nonce aad plaintext : Bytes) :
    xchachaOpen key nonce aad (xchachaSeal key nonce aad plaintext) = some plaintext :=
  openWith_sealWith (length_keystream _ _) (length_tag _ _ _) plaintext

end XChaCha
