/-
# Keccak-256 and SHA-256

The two hash functions, computable.  Nothing is proved of them: results about hashing hold for
any function, up to a collision of it, and these are what such a result is instantiated with.
-/
import Hyperliquid.Lib.Msgpack

namespace Lib.Hash

open Msgpack

/-! ## 1. Keccak-256 -/

namespace Keccak

/-- The rotation of each lane. -/
def rotations : List Nat :=
  [0, 1, 62, 28, 27, 36, 44, 6, 55, 20, 3, 10, 43, 25, 39, 41, 45, 15, 21, 8, 18, 2, 61, 56, 14]

/-- The constant of each round. -/
def roundConstants : List UInt64 :=
  [0x0000000000000001, 0x0000000000008082, 0x800000000000808a, 0x8000000080008000,
   0x000000000000808b, 0x0000000080000001, 0x8000000080008081, 0x8000000000008009,
   0x000000000000008a, 0x0000000000000088, 0x0000000080008009, 0x000000008000000a,
   0x000000008000808b, 0x800000000000008b, 0x8000000000008089, 0x8000000000008003,
   0x8000000000008002, 0x8000000000000080, 0x000000000000800a, 0x800000008000000a,
   0x8000000080008081, 0x8000000000008080, 0x0000000080000001, 0x8000000080008008]

def rotl (x : UInt64) (n : Nat) : UInt64 :=
  (x <<< UInt64.ofNat n) ||| (x >>> UInt64.ofNat (64 - n))

/-- The 25 lanes, each a function of the lanes before. -/
def lanes (f : Nat → UInt64) : List UInt64 := (List.range 25).map f

def theta (s : List UInt64) : List UInt64 :=
  let c := (List.range 5).map fun x =>
    s.getD x 0 ^^^ s.getD (x + 5) 0 ^^^ s.getD (x + 10) 0 ^^^ s.getD (x + 15) 0 ^^^
      s.getD (x + 20) 0
  lanes fun i =>
    s.getD i 0 ^^^ c.getD ((i + 4) % 5) 0 ^^^ rotl (c.getD ((i + 1) % 5) 0) 1

def rhoPi (s : List UInt64) : List UInt64 :=
  lanes fun i =>
    let j := (i % 5 + 3 * (i / 5)) % 5 + 5 * (i % 5)
    rotl (s.getD j 0) (rotations.getD j 0)

def chi (s : List UInt64) : List UInt64 :=
  lanes fun i =>
    let row := 5 * (i / 5)
    s.getD i 0 ^^^ (~~~ s.getD (row + (i + 1) % 5) 0 &&& s.getD (row + (i + 2) % 5) 0)

def iota (rc : UInt64) : List UInt64 → List UInt64
  | [] => []
  | l :: ls => (l ^^^ rc) :: ls

def permute (s : List UInt64) : List UInt64 :=
  roundConstants.foldl (fun s rc => iota rc (chi (rhoPi (theta s)))) s

/-- The bytes of a block that a sponge of this rate absorbs at once. -/
def rate : Nat := 136

/-- The message and its padding, a whole number of blocks. -/
def pad (message : Bytes) : Bytes :=
  let zeros := rate - 1 - message.length % rate
  if zeros = 0 then message ++ [0x81]
  else message ++ [0x01] ++ List.replicate (zeros - 1) 0 ++ [0x80]

/-- A block as lanes, little-endian. -/
def blockLanes (block : Bytes) : List UInt64 :=
  lanes fun i => UInt64.ofNat (beNat ((block.drop (8 * i)).take 8).reverse)

def absorb : Nat → Bytes → List UInt64 → List UInt64
  | 0, _, s => s
  | n + 1, message, s =>
    absorb n (message.drop rate)
      (permute (List.zipWith (· ^^^ ·) s (blockLanes (message.take rate))))

/-- The bytes of a lane, little-endian. -/
def laneBytes (l : UInt64) : Bytes :=
  (List.range 8).map fun i => UInt8.ofNat (l.toNat / 256 ^ i)

end Keccak

open Keccak in
def keccak256 (message : Bytes) : Vector UInt8 32 :=
  let padded := pad message
  let s := absorb (padded.length / rate) padded (lanes fun _ => 0)
  let digest := (s.take 4).flatMap laneBytes
  Vector.ofFn fun i => digest.getD i.val 0

example : (keccak256 []).toList.take 4 = [0xc5, 0xd2, 0x46, 0x01] := by decide +kernel

/-! ## 2. SHA-256 -/

namespace Sha256

def initial : List UInt32 :=
  [0x6a09e667, 0xbb67ae85, 0x3c6ef372, 0xa54ff53a, 0x510e527f, 0x9b05688c, 0x1f83d9ab, 0x5be0cd19]

def roundConstants : List UInt32 :=
  [0x428a2f98, 0x71374491, 0xb5c0fbcf, 0xe9b5dba5, 0x3956c25b, 0x59f111f1, 0x923f82a4, 0xab1c5ed5,
   0xd807aa98, 0x12835b01, 0x243185be, 0x550c7dc3, 0x72be5d74, 0x80deb1fe, 0x9bdc06a7, 0xc19bf174,
   0xe49b69c1, 0xefbe4786, 0x0fc19dc6, 0x240ca1cc, 0x2de92c6f, 0x4a7484aa, 0x5cb0a9dc, 0x76f988da,
   0x983e5152, 0xa831c66d, 0xb00327c8, 0xbf597fc7, 0xc6e00bf3, 0xd5a79147, 0x06ca6351, 0x14292967,
   0x27b70a85, 0x2e1b2138, 0x4d2c6dfc, 0x53380d13, 0x650a7354, 0x766a0abb, 0x81c2c92e, 0x92722c85,
   0xa2bfe8a1, 0xa81a664b, 0xc24b8b70, 0xc76c51a3, 0xd192e819, 0xd6990624, 0xf40e3585, 0x106aa070,
   0x19a4c116, 0x1e376c08, 0x2748774c, 0x34b0bcb5, 0x391c0cb3, 0x4ed8aa4a, 0x5b9cca4f, 0x682e6ff3,
   0x748f82ee, 0x78a5636f, 0x84c87814, 0x8cc70208, 0x90befffa, 0xa4506ceb, 0xbef9a3f7, 0xc67178f2]

def rotr (x : UInt32) (n : Nat) : UInt32 :=
  (x >>> UInt32.ofNat n) ||| (x <<< UInt32.ofNat (32 - n))

/-- The next word of the schedule, from the words before, the latest first. -/
def nextWord (ws : List UInt32) : UInt32 :=
  let a := ws.getD 14 0
  let b := ws.getD 1 0
  (rotr b 17 ^^^ rotr b 19 ^^^ (b >>> 10)) + ws.getD 6 0 +
    (rotr a 7 ^^^ rotr a 18 ^^^ (a >>> 3)) + ws.getD 15 0

/-- The 64 words of a block. -/
def schedule (block : Bytes) : List UInt32 :=
  let first := (List.range 16).map fun i => UInt32.ofNat (beNat ((block.drop (4 * i)).take 4))
  ((List.range 48).foldl (fun ws _ => nextWord ws :: ws) first.reverse).reverse

def round (s : List UInt32) (kw : UInt32 × UInt32) : List UInt32 :=
  let a := s.getD 0 0
  let e := s.getD 4 0
  let ch := (e &&& s.getD 5 0) ^^^ (~~~ e &&& s.getD 6 0)
  let maj := (a &&& s.getD 1 0) ^^^ (a &&& s.getD 2 0) ^^^ (s.getD 1 0 &&& s.getD 2 0)
  let t1 := s.getD 7 0 + (rotr e 6 ^^^ rotr e 11 ^^^ rotr e 25) + ch + kw.1 + kw.2
  let t2 := (rotr a 2 ^^^ rotr a 13 ^^^ rotr a 22) + maj
  [t1 + t2, a, s.getD 1 0, s.getD 2 0, s.getD 3 0 + t1, e, s.getD 5 0, s.getD 6 0]

def compress (s : List UInt32) (block : Bytes) : List UInt32 :=
  List.zipWith (· + ·) s ((roundConstants.zip (schedule block)).foldl round s)

/-- The message and its padding, a whole number of blocks. -/
def pad (message : Bytes) : Bytes :=
  message ++ [0x80] ++ List.replicate ((119 - message.length % 64) % 64) 0 ++
    (List.range 8).map fun i => UInt8.ofNat (8 * message.length / 256 ^ (7 - i))

def absorb : Nat → Bytes → List UInt32 → List UInt32
  | 0, _, s => s
  | n + 1, message, s => absorb n (message.drop 64) (compress s (message.take 64))

/-- The bytes of a word, big-endian. -/
def wordBytes (w : UInt32) : Bytes :=
  (List.range 4).map fun i => UInt8.ofNat (w.toNat / 256 ^ (3 - i))

end Sha256

open Sha256 in
def sha256 (message : Bytes) : Vector UInt8 32 :=
  let padded := pad message
  let digest := (absorb (padded.length / 64) padded initial).flatMap wordBytes
  Vector.ofFn fun i => digest.getD i.val 0

example : (sha256 (text "abc")).toList.take 4 = [0xba, 0x78, 0x16, 0xbf] := by decide +kernel

end Lib.Hash
