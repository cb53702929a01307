import Mathlib.Algebra.Ring.Nat
import QsBitwarden.Lib.Wire

/-! Owns SHA-1 and SHA-256 (FIPS 180-4) and HMAC (RFC 2104) over bytes. It does not own what is
hashed. -/

namespace QsBitwarden.Lib.Sha

open List

abbrev Word := BitVec 32

/-! ### Words and bytes -/

def wordOf (a b c d : UInt8) : Word :=
  a.toBitVec.setWidth 32 <<< 24 ||| b.toBitVec.setWidth 32 <<< 16 |||
    c.toBitVec.setWidth 32 <<< 8 ||| d.toBitVec.setWidth 32

def bytesOf (word : Word) : Bytes :=
  [24, 16, 8, 0].map fun shift => UInt8.ofNat (word.toNat / 2 ^ shift)

/-- A number in so many bytes, the highest first. -/
def bigEndian (count value : ℕ) : Bytes :=
  (List.range count).reverse.map fun place => UInt8.ofNat (value / 256 ^ place)

/-- The message, a one bit, zeros up to eight bytes before the end of a block, and the length in
bits. -/
def pad (message : Bytes) : Bytes :=
  message ++ 0x80 :: List.replicate ((119 - message.length % 64) % 64) 0 ++
    bigEndian 8 (message.length * 8)

def wordAt (message : Bytes) (index : ℕ) : Word :=
  wordOf (message.getD index 0) (message.getD (index + 1) 0) (message.getD (index + 2) 0)
    (message.getD (index + 3) 0)

/-- The sixteen words of the block that starts at an index. -/
def blockAt (message : Bytes) (start : ℕ) : List Word :=
  (List.range 16).map fun index => wordAt message (start + index * 4)

/-- The schedule: the words of a block and those that follow from them. -/
def expand (next : List Word → ℕ → Word) (count : ℕ) (block : List Word) : List Word :=
  (List.range' 16 (count - 16)).foldl (fun words index => words ++ [next words index]) block

/-- A hash that stirs one block after the other into its state. -/
def digest {State : Type} (initial : State) (compress : State → List Word → State)
    (words : State → List Word) (message : Bytes) : Bytes :=
  let padded := pad message
  (words ((List.range (padded.length / 64)).foldl
    (fun state index => compress state (blockAt padded (index * 64))) initial)).flatMap bytesOf

def choose (x y z : Word) : Word := (x &&& y) ^^^ (~~~x &&& z)

def majority (x y z : Word) : Word := (x &&& y) ^^^ (x &&& z) ^^^ (y &&& z)

/-! ### SHA-1 -/

structure Five (α : Type) where
  (a b c d e : α)

namespace Five

variable {α β : Type}

def map (convert : α → β) (five : Five α) : Five β :=
  ⟨convert five.a, convert five.b, convert five.c, convert five.d, convert five.e⟩

def zipWith (combine : α → α → α) (first second : Five α) : Five α :=
  ⟨combine first.a second.a, combine first.b second.b, combine first.c second.c,
    combine first.d second.d, combine first.e second.e⟩

def toList (five : Five α) : List α := [five.a, five.b, five.c, five.d, five.e]

end Five

def sha1Initial : Five Word := ⟨0x67452301, 0xefcdab89, 0x98badcfe, 0x10325476, 0xc3d2e1f0⟩

def sha1Function (round : ℕ) (x y z : Word) : Word :=
  if round < 20 then choose x y z
  else if round < 40 then x ^^^ y ^^^ z
  else if round < 60 then majority x y z
  else x ^^^ y ^^^ z

def sha1Constant (round : ℕ) : Word :=
  if round < 20 then 0x5a827999
  else if round < 40 then 0x6ed9eba1
  else if round < 60 then 0x8f1bbcdc
  else 0xca62c1d6

def sha1Next (words : List Word) (index : ℕ) : Word :=
  (words.getD (index - 3) 0 ^^^ words.getD (index - 8) 0 ^^^ words.getD (index - 14) 0 ^^^
    words.getD (index - 16) 0).rotateLeft 1

def sha1Round (words : List Word) (state : Five Word) (round : ℕ) : Five Word :=
  ⟨state.a.rotateLeft 5 + sha1Function round state.b state.c state.d + state.e +
      sha1Constant round + words.getD round 0,
    state.a, state.b.rotateLeft 30, state.c, state.d⟩

def sha1Compress (state : Five Word) (block : List Word) : Five Word :=
  state.zipWith (· + ·) ((List.range 80).foldl (sha1Round (expand sha1Next 80 block)) state)

def sha1 : Bytes → Bytes := digest sha1Initial sha1Compress Five.toList

/-! ### SHA-256 -/

structure Eight (α : Type) where
  (a b c d e f g h : α)

namespace Eight

variable {α β : Type}

def map (convert : α → β) (eight : Eight α) : Eight β :=
  ⟨convert eight.a, convert eight.b, convert eight.c, convert eight.d, convert eight.e,
    convert eight.f, convert eight.g, convert eight.h⟩

def zipWith (combine : α → α → α) (first second : Eight α) : Eight α :=
  ⟨combine first.a second.a, combine first.b second.b, combine first.c second.c,
    combine first.d second.d, combine first.e second.e, combine first.f second.f,
    combine first.g second.g, combine first.h second.h⟩

def toList (eight : Eight α) : List α :=
  [eight.a, eight.b, eight.c, eight.d, eight.e, eight.f, eight.g, eight.h]

end Eight

def sha256Initial : Eight Word :=
  ⟨0x6a09e667, 0xbb67ae85, 0x3c6ef372, 0xa54ff53a, 0x510e527f, 0x9b05688c, 0x1f83d9ab,
    0x5be0cd19⟩

def sha256Constants : List Word :=
  [0x428a2f98, 0x71374491, 0xb5c0fbcf, 0xe9b5dba5, 0x3956c25b, 0x59f111f1, 0x923f82a4, 0xab1c5ed5,
    0xd807aa98, 0x12835b01, 0x243185be, 0x550c7dc3, 0x72be5d74, 0x80deb1fe, 0x9bdc06a7, 0xc19bf174,
    0xe49b69c1, 0xefbe4786, 0x0fc19dc6, 0x240ca1cc, 0x2de92c6f, 0x4a7484aa, 0x5cb0a9dc, 0x76f988da,
    0x983e5152, 0xa831c66d, 0xb00327c8, 0xbf597fc7, 0xc6e00bf3, 0xd5a79147, 0x06ca6351, 0x14292967,
    0x27b70a85, 0x2e1b2138, 0x4d2c6dfc, 0x53380d13, 0x650a7354, 0x766a0abb, 0x81c2c92e, 0x92722c85,
    0xa2bfe8a1, 0xa81a664b, 0xc24b8b70, 0xc76c51a3, 0xd192e819, 0xd6990624, 0xf40e3585, 0x106aa070,
    0x19a4c116, 0x1e376c08, 0x2748774c, 0x34b0bcb5, 0x391c0cb3, 0x4ed8aa4a, 0x5b9cca4f, 0x682e6ff3,
    0x748f82ee, 0x78a5636f, 0x84c87814, 0x8cc70208, 0x90befffa, 0xa4506ceb, 0xbef9a3f7, 0xc67178f2]

def sha256Next (words : List Word) (index : ℕ) : Word :=
  let early := words.getD (index - 15) 0
  let late := words.getD (index - 2) 0
  words.getD (index - 16) 0 +
    (early.rotateRight 7 ^^^ early.rotateRight 18 ^^^ early >>> 3) + words.getD (index - 7) 0 +
    (late.rotateRight 17 ^^^ late.rotateRight 19 ^^^ late >>> 10)

def sha256Round (words : List Word) (state : Eight Word) (round : ℕ) : Eight Word :=
  let first := state.h +
    (state.e.rotateRight 6 ^^^ state.e.rotateRight 11 ^^^ state.e.rotateRight 25) +
    choose state.e state.f state.g + sha256Constants.getD round 0 + words.getD round 0
  let second := (state.a.rotateRight 2 ^^^ state.a.rotateRight 13 ^^^ state.a.rotateRight 22) +
    majority state.a state.b state.c
  ⟨first + second, state.a, state.b, state.c, state.d + first, state.e, state.f, state.g⟩

def sha256Compress (state : Eight Word) (block : List Word) : Eight Word :=
  state.zipWith (· + ·) ((List.range 64).foldl (sha256Round (expand sha256Next 64 block)) state)

def sha256 : Bytes → Bytes := digest sha256Initial sha256Compress Eight.toList

/-! ### HMAC -/

/-- The key in a whole block: hashed if it is longer, with zeros if it is shorter. -/
def blockKey (hash : Bytes → Bytes) (key : Bytes) : Bytes :=
  let key := if 64 < key.length then hash key else key
  key ++ List.replicate (64 - key.length) 0

def hmac (hash : Bytes → Bytes) (key message : Bytes) : Bytes :=
  let key := blockKey hash key
  hash (key.map (· ^^^ 0x5c) ++ hash (key.map (· ^^^ 0x36) ++ message))

/-! ### Lengths -/

theorem length_sha1 (message : Bytes) : (sha1 message).length = 20 := rfl

theorem length_sha256 (message : Bytes) : (sha256 message).length = 32 := rfl

example : sha1 [0x61, 0x62, 0x63] = [0xa9, 0x99, 0x3e, 0x36, 0x47, 0x06, 0x81, 0x6a, 0xba, 0x3e,
    0x25, 0x71, 0x78, 0x50, 0xc2, 0x6c, 0x9c, 0xd0, 0xd8, 0x9d] := by
  decide +kernel

example : sha256 [0x61, 0x62, 0x63] = [0xba, 0x78, 0x16, 0xbf, 0x8f, 0x01, 0xcf, 0xea, 0x41, 0x41,
    0x40, 0xde, 0x5d, 0xae, 0x22, 0x23, 0xb0, 0x03, 0x61, 0xa3, 0x96, 0x17, 0x7a, 0x9c, 0xb4, 0x10,
    0xff, 0x61, 0xf2, 0x00, 0x15, 0xad] := by
  decide +kernel

end QsBitwarden.Lib.Sha
