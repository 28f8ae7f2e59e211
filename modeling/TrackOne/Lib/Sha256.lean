import TrackOne.Lib.Words

/-!
# SHA-256

The hash function of FIPS 180-4, executable: padding, the message schedule and the compression
of one 64-byte block, over 32-bit words. The developments below are parametric in the hash; this
is the function they are instantiated with when a concrete value is wanted.
-/

namespace Fips180

/-- The eight working words. -/
structure Words8 where
  a : UInt32
  b : UInt32
  c : UInt32
  d : UInt32
  e : UInt32
  f : UInt32
  g : UInt32
  h : UInt32
deriving DecidableEq

/-- The round constants: the first 32 bits of the fractional parts of the cube roots of the
first 64 primes. -/
def roundConstants : List UInt32 :=
  [0x428a2f98, 0x71374491, 0xb5c0fbcf, 0xe9b5dba5, 0x3956c25b, 0x59f111f1, 0x923f82a4, 0xab1c5ed5,
   0xd807aa98, 0x12835b01, 0x243185be, 0x550c7dc3, 0x72be5d74, 0x80deb1fe, 0x9bdc06a7, 0xc19bf174,
   0xe49b69c1, 0xefbe4786, 0x0fc19dc6, 0x240ca1cc, 0x2de92c6f, 0x4a7484aa, 0x5cb0a9dc, 0x76f988da,
   0x983e5152, 0xa831c66d, 0xb00327c8, 0xbf597fc7, 0xc6e00bf3, 0xd5a79147, 0x06ca6351, 0x14292967,
   0x27b70a85, 0x2e1b2138, 0x4d2c6dfc, 0x53380d13, 0x650a7354, 0x766a0abb, 0x81c2c92e, 0x92722c85,
   0xa2bfe8a1, 0xa81a664b, 0xc24b8b70, 0xc76c51a3, 0xd192e819, 0xd6990624, 0xf40e3585, 0x106aa070,
   0x19a4c116, 0x1e376c08, 0x2748774c, 0x34b0bcb5, 0x391c0cb3, 0x4ed8aa4a, 0x5b9cca4f, 0x682e6ff3,
   0x748f82ee, 0x78a5636f, 0x84c87814, 0x8cc70208, 0x90befffa, 0xa4506ceb, 0xbef9a3f7, 0xc67178f2]

/-- The initial hash value: the same for the square roots of the first eight primes. -/
def initial : Words8 :=
  ⟨0x6a09e667, 0xbb67ae85, 0x3c6ef372, 0xa54ff53a,
   0x510e527f, 0x9b05688c, 0x1f83d9ab, 0x5be0cd19⟩

def rotr (x : UInt32) (n : UInt32) : UInt32 := (x >>> n) ||| (x <<< (32 - n))

def smallSigma0 (x : UInt32) : UInt32 := rotr x 7 ^^^ rotr x 18 ^^^ (x >>> 3)

def smallSigma1 (x : UInt32) : UInt32 := rotr x 17 ^^^ rotr x 19 ^^^ (x >>> 10)

def bigSigma0 (x : UInt32) : UInt32 := rotr x 2 ^^^ rotr x 13 ^^^ rotr x 22

def bigSigma1 (x : UInt32) : UInt32 := rotr x 6 ^^^ rotr x 11 ^^^ rotr x 25

/-- The next word of the message schedule, from the sixteen before it (oldest first). -/
def scheduleNext : List UInt32 → UInt32
  | w0 :: w1 :: _ :: _ :: _ :: _ :: _ :: _ :: _ :: w9 :: _ :: _ :: _ :: _ :: w14 :: _ =>
    smallSigma1 w14 + w9 + smallSigma0 w1 + w0
  | _ => 0

/-- The round for one word and one constant. -/
def round (s : Words8) (k w : UInt32) : Words8 :=
  let t1 := s.h + bigSigma1 s.e + ((s.e &&& s.f) ^^^ (~~~s.e &&& s.g)) + k + w
  let t2 := bigSigma0 s.a + ((s.a &&& s.b) ^^^ (s.a &&& s.c) ^^^ (s.b &&& s.c))
  ⟨t1 + t2, s.a, s.b, s.c, s.d + t1, s.e, s.f, s.g⟩

/-- All rounds of a block: the window holds the sixteen schedule words still to be used first. -/
def rounds : List UInt32 → List UInt32 → Words8 → Words8
  | k :: ks, w :: ws, s => rounds ks (ws ++ [scheduleNext (w :: ws)]) (round s k w)
  | _, _, s => s

/-- Sixteen big-endian words of a 64-byte block. -/
def blockWords : Nat → Bytes → List UInt32
  | 0, _ => []
  | n + 1, bytes => UInt32.ofNat (ofBeBytes (bytes.take 4)) :: blockWords n (bytes.drop 4)

/-- The compression of one block into the hash value. -/
def compress (s : Words8) (block : Bytes) : Words8 :=
  let t := rounds roundConstants (blockWords 16 block) s
  ⟨s.a + t.a, s.b + t.b, s.c + t.c, s.d + t.d, s.e + t.e, s.f + t.f, s.g + t.g, s.h + t.h⟩

/-- The message with its padding: a one bit, zeros, and the bit length as eight bytes. -/
def pad (message : Bytes) : Bytes :=
  message ++ [0x80] ++ List.replicate ((119 - message.length % 64) % 64) 0
    ++ beBytes 8 (8 * message.length)

/-- Absorb a padded message, one block at a time. -/
def absorb : Nat → Bytes → Words8 → Words8
  | 0, _, s => s
  | n + 1, bytes, s => absorb n (bytes.drop 64) (compress s (bytes.take 64))

/-- The digest of a message. -/
def sha256 (message : Bytes) : Bytes :=
  let s := absorb ((pad message).length / 64) (pad message) initial
  [s.a, s.b, s.c, s.d, s.e, s.f, s.g, s.h].flatMap fun w => beBytes 4 w.toNat

theorem length_sha256 (message : Bytes) : (sha256 message).length = 32 := by
  simp [sha256]

example : sha256 (utf8Bytes "abc") =
    beBytes 32 0xba7816bf8f01cfea414140de5dae2223b00361a396177a9cb410ff61f20015ad := by
  decide +kernel

end Fips180
