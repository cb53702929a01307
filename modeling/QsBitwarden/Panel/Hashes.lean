import QsBitwarden.Lib.JsNumber
import QsBitwarden.Lib.Sha
import Mathlib.Tactic.IntervalCases

/-! Owns the panel's own SHA-1, SHA-256 and HMAC over arrays of numbers, and that on bytes they
are the standard ones. -/

namespace QsBitwarden.Panel.Totp

open Lib Lib.JsNumber Lib.Sha UInt8
open List hiding choose

/-! ### The functions -/

/-- An element of an array; a missing one counts as zero in a bitwise operator. -/
def element (array : List ℤ) (index : ℕ) : ℤ := array.getD index 0

/-- `(value >>> 24) & 0xff` down to the lowest byte. -/
def pushedBytes (value : ℤ) : List ℤ :=
  [3, 2, 1, 0].map fun index => bitAnd (shiftRight value (index * 8)) 0xff

/-- Zeros are pushed until the length is eight short of whole blocks; 64 are enough. -/
def pushZeros : ℕ → List ℤ → List ℤ
  | 0, padded => padded
  | more + 1, padded => if padded.length % 64 ≠ 56 then pushZeros more (padded ++ [0]) else padded

def padMessage (bytes : List ℤ) : List ℤ :=
  let bitLength := bytes.length * 8
  let hi := bitLength / 4294967296
  pushZeros 64 (bytes ++ [0x80]) ++ pushedBytes hi ++ pushedBytes bitLength

def wordsToBytes (words : List ℤ) : List ℤ :=
  words.flatMap fun value =>
    [bitAnd (shiftRight value 24) 0xff, bitAnd (shiftRight value 16) 0xff,
      bitAnd (shiftRight value 8) 0xff, bitAnd value 0xff]

def rotl (x : ℤ) (n : ℕ) : ℤ := bitOr (shiftLeft x n) (shiftRight x (32 - n))

def rotr (x : ℤ) (n : ℕ) : ℤ := bitOr (shiftRight x n) (shiftLeft x (32 - n))

/-- The sixteen words both hashes read of a block. -/
def messageWords (m : List ℤ) (off : ℕ) : List ℤ :=
  (List.range 16).map fun i =>
    bitOr (bitOr (bitOr (shiftLeft (element m (off + i * 4)) 24)
      (shiftLeft (element m (off + i * 4 + 1)) 16))
      (shiftLeft (element m (off + i * 4 + 2)) 8)) (element m (off + i * 4 + 3))

/-- The words from the sixteenth on. -/
def fillWords (next : List ℤ → ℕ → ℤ) (count : ℕ) (w : List ℤ) : List ℤ :=
  (List.range' 16 (count - 16)).foldl (fun w t => w ++ [next w t]) w

def sha1Schedule (w : List ℤ) (t : ℕ) : ℤ :=
  rotl (bitXor (bitXor (bitXor (element w (t - 3)) (element w (t - 8))) (element w (t - 14)))
    (element w (t - 16))) 1

/-- `f` and `k` of a round. -/
def sha1F (s : ℕ) (b c d : ℤ) : ℤ :=
  if s < 20 then bitOr (bitAnd b c) (bitAnd (bitNot b) d)
  else if s < 40 then bitXor (bitXor b c) d
  else if s < 60 then bitOr (bitOr (bitAnd b c) (bitAnd b d)) (bitAnd c d)
  else bitXor (bitXor b c) d

def sha1K (s : ℕ) : ℤ :=
  if s < 20 then 0x5a827999
  else if s < 40 then 0x6ed9eba1
  else if s < 60 then 0x8f1bbcdc
  else 0xca62c1d6

def sha1Step (w : List ℤ) (v : Five ℤ) (s : ℕ) : Five ℤ :=
  let temp := bitOr (rotl v.a 5 + sha1F s v.b v.c v.d + v.e + sha1K s + element w s) 0
  ⟨temp, v.a, rotl v.b 30, v.c, v.d⟩

/-- `(x + y) | 0`. -/
def wrappedSum (x y : ℤ) : ℤ := bitOr (x + y) 0

def sha1Block (m : List ℤ) (h : Five ℤ) (off : ℕ) : Five ℤ :=
  let w := fillWords sha1Schedule 80 (messageWords m off)
  h.zipWith wrappedSum ((List.range 80).foldl (sha1Step w) h)

/-- The offsets of the blocks of a message. -/
def offsets (m : List ℤ) : List ℕ := (List.range (m.length / 64)).map (· * 64)

def sha1 (bytes : List ℤ) : List ℤ :=
  let m := padMessage bytes
  let h : Five ℤ := ⟨0x67452301, 0xefcdab89, 0x98badcfe, 0x10325476, 0xc3d2e1f0⟩
  wordsToBytes ((offsets m).foldl (sha1Block m) h).toList

def sha256K : List ℤ :=
  [0x428a2f98, 0x71374491, 0xb5c0fbcf, 0xe9b5dba5, 0x3956c25b, 0x59f111f1, 0x923f82a4, 0xab1c5ed5,
    0xd807aa98, 0x12835b01, 0x243185be, 0x550c7dc3, 0x72be5d74, 0x80deb1fe, 0x9bdc06a7, 0xc19bf174,
    0xe49b69c1, 0xefbe4786, 0x0fc19dc6, 0x240ca1cc, 0x2de92c6f, 0x4a7484aa, 0x5cb0a9dc, 0x76f988da,
    0x983e5152, 0xa831c66d, 0xb00327c8, 0xbf597fc7, 0xc6e00bf3, 0xd5a79147, 0x06ca6351, 0x14292967,
    0x27b70a85, 0x2e1b2138, 0x4d2c6dfc, 0x53380d13, 0x650a7354, 0x766a0abb, 0x81c2c92e, 0x92722c85,
    0xa2bfe8a1, 0xa81a664b, 0xc24b8b70, 0xc76c51a3, 0xd192e819, 0xd6990624, 0xf40e3585, 0x106aa070,
    0x19a4c116, 0x1e376c08, 0x2748774c, 0x34b0bcb5, 0x391c0cb3, 0x4ed8aa4a, 0x5b9cca4f, 0x682e6ff3,
    0x748f82ee, 0x78a5636f, 0x84c87814, 0x8cc70208, 0x90befffa, 0xa4506ceb, 0xbef9a3f7, 0xc67178f2]

def sha256Schedule (w : List ℤ) (t : ℕ) : ℤ :=
  let s0 := bitXor (bitXor (rotr (element w (t - 15)) 7) (rotr (element w (t - 15)) 18))
    (shiftRight (element w (t - 15)) 3)
  let s1 := bitXor (bitXor (rotr (element w (t - 2)) 17) (rotr (element w (t - 2)) 19))
    (shiftRight (element w (t - 2)) 10)
  bitOr (element w (t - 16) + s0 + element w (t - 7) + s1) 0

def sha256Step (w : List ℤ) (v : Eight ℤ) (r : ℕ) : Eight ℤ :=
  let S1 := bitXor (bitXor (rotr v.e 6) (rotr v.e 11)) (rotr v.e 25)
  let ch := bitXor (bitAnd v.e v.f) (bitAnd (bitNot v.e) v.g)
  let temp1 := bitOr (v.h + S1 + ch + element sha256K r + element w r) 0
  let S0 := bitXor (bitXor (rotr v.a 2) (rotr v.a 13)) (rotr v.a 22)
  let maj := bitXor (bitXor (bitAnd v.a v.b) (bitAnd v.a v.c)) (bitAnd v.b v.c)
  let temp2 := wrappedSum S0 maj
  ⟨wrappedSum temp1 temp2, v.a, v.b, v.c, wrappedSum v.d temp1, v.e, v.f, v.g⟩

def sha256Block (m : List ℤ) (h : Eight ℤ) (off : ℕ) : Eight ℤ :=
  let w := fillWords sha256Schedule 64 (messageWords m off)
  h.zipWith wrappedSum ((List.range 64).foldl (sha256Step w) h)

def sha256 (bytes : List ℤ) : List ℤ :=
  let m := padMessage bytes
  let h : Eight ℤ := ⟨0x6a09e667, 0xbb67ae85, 0x3c6ef372, 0xa54ff53a, 0x510e527f, 0x9b05688c,
    0x1f83d9ab, 0x5be0cd19⟩
  wordsToBytes ((offsets m).foldl (sha256Block m) h).toList

def hmac (hashFn : List ℤ → List ℤ) (key message : List ℤ) : List ℤ :=
  let block := 64
  let k := if block < key.length then hashFn key else key
  let k := k ++ List.replicate (block - k.length) 0
  let inner := (List.range block).map fun i => bitXor (element k i) 0x36
  let outer := (List.range block).map fun i => bitXor (element k i) 0x5c
  hashFn (outer ++ hashFn (inner ++ message))

/-! ### Bytes as numbers -/

def ofBytes (bytes : Bytes) : List ℤ := bytes.map fun byte => (byte.toNat : ℤ)

theorem ofBytes_append (first second : Bytes) :
    ofBytes (first ++ second) = ofBytes first ++ ofBytes second := map_append

variable (bytes : Bytes)

theorem length_ofBytes : (ofBytes bytes).length = bytes.length := List.length_map _

theorem element_ofBytes (index : ℕ) :
    element (ofBytes bytes) index = ((bytes.getD index 0).toNat : ℤ) := by
  unfold element ofBytes
  rw [getD_eq_getElem?_getD, getElem?_map, getD_eq_getElem?_getD]
  cases bytes[index]? <;> rfl

theorem word_byte (byte : UInt8) : word (byte.toNat : ℤ) = byte.toBitVec.setWidth 32 := by
  rw [word_natCast]
  apply BitVec.eq_of_toNat_eq
  rw [BitVec.toNat_ofNat, BitVec.toNat_setWidth]
  rfl

theorem bitAnd_ff_eq (value : ℤ) :
    bitAnd value 0xff = ((ofNat (word value).toNat).toNat : ℤ) := by
  rw [bitAnd_255, toNat_ofNat']

theorem bitAnd_shiftRight (value : ℤ) (count : ℕ) :
    bitAnd (shiftRight value count) 0xff =
      ((ofNat ((word value).toNat / 2 ^ count)).toNat : ℤ) := by
  rw [bitAnd_ff_eq, word_shiftRight, BitVec.toNat_ushiftRight, Nat.shiftRight_eq_div_pow]

theorem wordsToBytes_eq (words : List ℤ) :
    wordsToBytes words = ofBytes ((words.map word).flatMap bytesOf) := by
  unfold wordsToBytes
  induction words with
  | nil => rfl
  | cons value rest ih =>
    rw [flatMap_cons, ih, map_cons, flatMap_cons, ofBytes_append]
    have last : bitAnd value 0xff = ((ofNat ((word value).toNat / 2 ^ 0)).toNat : ℤ) := by
      rw [bitAnd_ff_eq, Nat.pow_zero, Nat.div_one]
    rw [bitAnd_shiftRight, bitAnd_shiftRight, bitAnd_shiftRight, last]
    rfl

/-! ### Padding -/

theorem pushZeros_eq {count more : ℕ} {padded : List ℤ} (enough : count ≤ more)
    (before : ∀ index < count, (padded.length + index) % 64 ≠ 56)
    (after : (padded.length + count) % 64 = 56) :
    pushZeros more padded = padded ++ List.replicate count 0 := by
  induction count generalizing more padded with
  | zero =>
    rw [Nat.add_zero] at after
    rw [replicate_zero, append_nil]
    cases more with
    | zero => rfl
    | succ more => rw [pushZeros, if_neg (not_not.mpr after)]
  | succ count ih =>
    obtain ⟨more, rfl⟩ : ∃ rest, more = rest + 1 := ⟨more - 1, by omega⟩
    have short := before 0 (by omega)
    rw [Nat.add_zero] at short
    have length : (padded ++ [0]).length = padded.length + 1 := length_append
    rw [pushZeros, if_pos short, ih (by omega), append_assoc]
    · rfl
    · intro index below
      rw [length, Nat.add_right_comm, Nat.add_assoc]
      exact before (index + 1) (by omega)
    · rw [length, Nat.add_right_comm, Nat.add_assoc]
      exact after

theorem pushedBytes_eq (value : ℕ) : pushedBytes value = ofBytes (bigEndian 4 value) := by
  have byte {place : ℕ} (inside : place < 4) :
      bitAnd (shiftRight value (place * 8)) 0xff =
        ((ofNat (value / 256 ^ place)).toNat : ℤ) := by
    rw [bitAnd_shiftRight, word_natCast, BitVec.toNat_ofNat, toNat_ofNat',
      toNat_ofNat']
    interval_cases place <;> omega
  show [bitAnd (shiftRight value (3 * 8)) 0xff, bitAnd (shiftRight value (2 * 8)) 0xff,
    bitAnd (shiftRight value (1 * 8)) 0xff, bitAnd (shiftRight value (0 * 8)) 0xff] = _
  rw [byte (by decide), byte (by decide), byte (by decide), byte (by decide)]
  rfl

/-- Eight bytes in two halves. -/
theorem bigEndian_eight (value : ℕ) :
    bigEndian 8 value = bigEndian 4 (value / 4294967296) ++ bigEndian 4 value := by
  have upper (place : ℕ) : value / 4294967296 / 256 ^ place = value / 256 ^ (place + 4) := by
    rw [Nat.div_div_eq_div_mul, Nat.pow_add, Nat.mul_comm]
  show _ = [ofNat (value / 4294967296 / 256 ^ 3), ofNat (value / 4294967296 / 256 ^ 2),
    ofNat (value / 4294967296 / 256 ^ 1), ofNat (value / 4294967296 / 256 ^ 0)] ++
      bigEndian 4 value
  rw [upper, upper, upper, upper]
  rfl

theorem padMessage_ofBytes : padMessage (ofBytes bytes) = ofBytes (pad bytes) := by
  have zeros : pushZeros 64 (ofBytes bytes ++ [0x80]) =
      ofBytes bytes ++ [0x80] ++ List.replicate ((119 - bytes.length % 64) % 64) 0 := by
    have length : (ofBytes bytes ++ [0x80]).length = bytes.length + 1 := by
      rw [length_append, length_ofBytes]
      rfl
    apply pushZeros_eq
    · omega
    · intro index below
      rw [length]
      omega
    · rw [length]
      omega
  unfold padMessage pad
  dsimp only
  have marked (count : ℕ) : ofBytes (0x80 :: List.replicate count 0) =
      0x80 :: List.replicate count 0 := by
    rw [ofBytes, map_cons, map_replicate]
    rfl
  rw [zeros, length_ofBytes, bigEndian_eight, ofBytes_append, ofBytes_append, ofBytes_append,
    pushedBytes_eq, pushedBytes_eq, marked]
  simp only [append_assoc, cons_append, nil_append]

/-! ### Words as numbers -/

theorem word_rotl (x : ℤ) {n : ℕ} (small : n < 32) : word (rotl x n) = (word x).rotateLeft n := by
  rw [rotl, word_bitOr, word_shiftLeft, word_shiftRight, BitVec.rotateLeft_def,
    Nat.mod_eq_of_lt small]

theorem word_rotr (x : ℤ) {n : ℕ} (small : n < 32) : word (rotr x n) = (word x).rotateRight n := by
  rw [rotr, word_bitOr, word_shiftLeft, word_shiftRight, BitVec.rotateRight_def,
    Nat.mod_eq_of_lt small]

variable (w : List ℤ)

theorem word_element (index : ℕ) :
    word (element w index) = (w.map word).getD index 0 := by
  unfold element
  rw [getD_eq_getElem?_getD, getD_eq_getElem?_getD, getElem?_map]
  cases w[index]? <;> rfl

theorem word_wrappedSum (x y : ℤ) : word (wrappedSum x y) = word x + word y := by
  rw [wrappedSum, word_bitOr, word_add]
  exact BitVec.or_zero

/-- The bits chosen with an or are those chosen with an exclusive or. -/
theorem or_eq_choose (x y z : Word) : x &&& y ||| ~~~x &&& z = choose x y z := by
  unfold choose
  ext index inside
  simp only [BitVec.getElem_or, BitVec.getElem_and, BitVec.getElem_not, BitVec.getElem_xor]
  cases x[index] <;> simp

theorem or_eq_majority (x y z : Word) :
    x &&& y ||| x &&& z ||| y &&& z = majority x y z := by
  unfold majority
  ext index inside
  simp only [BitVec.getElem_or, BitVec.getElem_and, BitVec.getElem_xor]
  cases x[index] <;> cases y[index] <;> cases z[index] <;> rfl

theorem map_messageWords (off : ℕ) :
    (messageWords (ofBytes bytes) off).map word = blockAt bytes off := by
  unfold messageWords blockAt
  rw [map_map]
  apply map_congr_left
  intro index mem
  rw [Function.comp_apply, word_bitOr, word_bitOr, word_bitOr, word_shiftLeft, word_shiftLeft,
    word_shiftLeft, element_ofBytes, element_ofBytes, element_ofBytes, element_ofBytes, word_byte,
    word_byte, word_byte, word_byte]
  rfl

/-- A loop on numbers is the loop on their words, if each step is. -/
theorem map_fillWords {next : List ℤ → ℕ → ℤ} {nextWord : List Word → ℕ → Word}
    (step : ∀ w index, word (next w index) = nextWord (w.map word) index) (count : ℕ)
    (w : List ℤ) : (fillWords next count w).map word = expand nextWord count (w.map word) := by
  unfold fillWords expand
  generalize List.range' 16 (count - 16) = indices
  induction indices generalizing w with
  | nil => rfl
  | cons index rest ih =>
    rw [foldl_cons, ih, foldl_cons, map_append, map_singleton,
      step]

/-! ### SHA-1 -/

theorem word_sha1Schedule (t : ℕ) :
    word (sha1Schedule w t) = sha1Next (w.map word) t := by
  rw [sha1Schedule, word_rotl _ (by decide), word_bitXor, word_bitXor, word_bitXor, word_element,
    word_element, word_element, word_element]
  rfl

theorem word_sha1F (s : ℕ) (b c d : ℤ) :
    word (sha1F s b c d) = sha1Function s (word b) (word c) (word d) := by
  unfold sha1F sha1Function
  split_ifs
  · rw [word_bitOr, word_bitAnd, word_bitAnd, word_bitNot, or_eq_choose]
  · rw [word_bitXor, word_bitXor]
  · rw [word_bitOr, word_bitOr, word_bitAnd, word_bitAnd, word_bitAnd, or_eq_majority]
  · rw [word_bitXor, word_bitXor]

theorem word_sha1K (s : ℕ) : word (sha1K s) = sha1Constant s := by
  unfold sha1K sha1Constant
  split_ifs <;> rfl

theorem map_sha1Step (v : Five ℤ) (s : ℕ) :
    (sha1Step w v s).map word = sha1Round (w.map word) (v.map word) s := by
  have temp : word (bitOr (rotl v.a 5 + sha1F s v.b v.c v.d + v.e + sha1K s + element w s) 0) =
      (word v.a).rotateLeft 5 + sha1Function s (word v.b) (word v.c) (word v.d) + word v.e +
        sha1Constant s + (w.map word).getD s 0 := by
    rw [word_bitOr, word_add, word_add, word_add, word_add, word_rotl _ (by decide), word_sha1F,
      word_sha1K, word_element]
    exact BitVec.or_zero
  unfold sha1Step sha1Round Five.map
  dsimp only
  rw [temp, word_rotl _ (by decide)]

/-- A state after a block of numbers has the words of the state after the block of words. -/
theorem map_sha1Block (h : Five ℤ) (off : ℕ) : (sha1Block (ofBytes bytes) h off).map word =
      sha1Compress (h.map word) (blockAt bytes off) := by
  have rounds (w : List ℤ) (v : Five ℤ) (indices : List ℕ) :
      (indices.foldl (sha1Step w) v).map word =
        indices.foldl (sha1Round (w.map word)) (v.map word) :=
    (foldl_hom (Five.map word) fun state round => (map_sha1Step w state round).symm).symm
  have sums (first second : Five ℤ) : (first.zipWith wrappedSum second).map word =
      (first.map word).zipWith (· + ·) (second.map word) := by
    simp only [Five.map, Five.zipWith, word_wrappedSum]
  unfold sha1Block sha1Compress
  dsimp only
  rw [sums, rounds, map_fillWords word_sha1Schedule, map_messageWords]

/-! ### Whole messages -/

theorem offsets_ofBytes :
    offsets (ofBytes bytes) = (List.range (bytes.length / 64)).map (· * 64) := by
  rw [offsets, length_ofBytes]

/-- A hash of numbers that goes block by block as one of words does. -/
theorem wordsToBytes_foldl {Numbers State : Type} {block : List ℤ → Numbers → ℕ → Numbers}
    {compress : State → List Word → State} {initial : Numbers} (words : Numbers → State)
    {list : Numbers → List ℤ} {toList : State → List Word}
    (listed : ∀ state, (list state).map word = toList (words state))
    (step : ∀ bytes state off, words (block (ofBytes bytes) state off) =
      compress (words state) (blockAt bytes off)) (bytes : Bytes) :
    wordsToBytes (list ((offsets (padMessage (ofBytes bytes))).foldl
        (block (padMessage (ofBytes bytes))) initial)) =
      ofBytes (digest (words initial) compress toList bytes) := by
  rw [padMessage_ofBytes, offsets_ofBytes, wordsToBytes_eq, listed, foldl_map]
  unfold digest
  dsimp only
  rw [foldl_hom words fun state index => (step (pad bytes) state (index * 64)).symm]

theorem sha1_ofBytes : sha1 (ofBytes bytes) = ofBytes (Sha.sha1 bytes) :=
  wordsToBytes_foldl (Five.map word) (fun _ => rfl) map_sha1Block bytes

/-! ### SHA-256 -/

theorem word_sha256Schedule (t : ℕ) :
    word (sha256Schedule w t) = sha256Next (w.map word) t := by
  unfold sha256Schedule sha256Next
  dsimp only
  rw [word_bitOr, word_add, word_add, word_add, word_bitXor, word_bitXor, word_bitXor, word_bitXor,
    word_rotr _ (by decide), word_rotr _ (by decide), word_rotr _ (by decide),
    word_rotr _ (by decide), word_shiftRight, word_shiftRight, word_element, word_element,
    word_element, word_element]
  exact BitVec.or_zero

theorem word_sha256K (r : ℕ) : word (element sha256K r) = sha256Constants.getD r 0 := by
  rw [word_element]
  rfl

theorem map_sha256Step (v : Eight ℤ) (r : ℕ) :
    (sha256Step w v r).map word = sha256Round (w.map word) (v.map word) r := by
  have temp1 : word (bitOr (v.h + bitXor (bitXor (rotr v.e 6) (rotr v.e 11)) (rotr v.e 25) +
      bitXor (bitAnd v.e v.f) (bitAnd (bitNot v.e) v.g) + element sha256K r + element w r) 0) =
      word v.h + ((word v.e).rotateRight 6 ^^^ (word v.e).rotateRight 11 ^^^
        (word v.e).rotateRight 25) + choose (word v.e) (word v.f) (word v.g) +
        sha256Constants.getD r 0 + (w.map word).getD r 0 := by
    rw [word_bitOr, word_add, word_add, word_add, word_add, word_bitXor, word_bitXor, word_bitXor,
      word_bitAnd, word_bitAnd, word_bitNot, word_rotr _ (by decide), word_rotr _ (by decide),
      word_rotr _ (by decide), word_sha256K, word_element]
    exact BitVec.or_zero
  have temp2 : word (wrappedSum (bitXor (bitXor (rotr v.a 2) (rotr v.a 13)) (rotr v.a 22))
      (bitXor (bitXor (bitAnd v.a v.b) (bitAnd v.a v.c)) (bitAnd v.b v.c))) =
      ((word v.a).rotateRight 2 ^^^ (word v.a).rotateRight 13 ^^^ (word v.a).rotateRight 22) +
        majority (word v.a) (word v.b) (word v.c) := by
    rw [word_wrappedSum, word_bitXor, word_bitXor, word_bitXor, word_bitXor, word_bitAnd,
      word_bitAnd, word_bitAnd, word_rotr _ (by decide), word_rotr _ (by decide),
      word_rotr _ (by decide)]
    rfl
  unfold sha256Step sha256Round Eight.map
  dsimp only
  rw [word_wrappedSum v.d, word_wrappedSum (bitOr _ 0), temp1, temp2]

theorem map_sha256Block (h : Eight ℤ) (off : ℕ) : (sha256Block (ofBytes bytes) h off).map word =
      sha256Compress (h.map word) (blockAt bytes off) := by
  have rounds (w : List ℤ) (v : Eight ℤ) (indices : List ℕ) :
      (indices.foldl (sha256Step w) v).map word =
        indices.foldl (sha256Round (w.map word)) (v.map word) :=
    (foldl_hom (Eight.map word) fun state round => (map_sha256Step w state round).symm).symm
  have sums (first second : Eight ℤ) : (first.zipWith wrappedSum second).map word =
      (first.map word).zipWith (· + ·) (second.map word) := by
    simp only [Eight.map, Eight.zipWith, word_wrappedSum]
  unfold sha256Block sha256Compress
  dsimp only
  rw [sums, rounds, map_fillWords word_sha256Schedule, map_messageWords]

theorem sha256_ofBytes : sha256 (ofBytes bytes) = ofBytes (Sha.sha256 bytes) :=
  wordsToBytes_foldl (Eight.map word) (fun _ => rfl) map_sha256Block bytes

/-! ### HMAC -/

theorem bitXor_byte (byte mask : UInt8) :
    bitXor (byte.toNat : ℤ) (mask.toNat : ℤ) = ((byte ^^^ mask).toNat : ℤ) := by
  have value : (word (byte.toNat : ℤ) ^^^ word (mask.toNat : ℤ)).toNat = (byte ^^^ mask).toNat := by
    have small (byte : UInt8) : byte.toNat % 2 ^ 32 = byte.toNat :=
      Nat.mod_eq_of_lt (Nat.lt_trans byte.toNat_lt (by decide))
    rw [word_natCast, word_natCast, BitVec.toNat_xor, BitVec.toNat_ofNat, BitVec.toNat_ofNat,
      small, small, UInt8.toNat_xor]
  have below := (byte ^^^ mask).toNat_lt
  rw [bitXor, BitVec.toInt_eq_toNat_of_lt (by rw [value]; omega), value]

/-- A block of the key, each byte with a mask. -/
theorem map_bitXor_ofBytes {key : Bytes} {block : ℕ} (whole : key.length = block) (mask : UInt8) :
    ((List.range block).map fun i => bitXor (element (ofBytes key) i) (mask.toNat : ℤ)) =
      ofBytes (key.map (· ^^^ mask)) := by
  subst whole
  apply ext_getElem
  · rw [length_map, length_range, length_ofBytes, length_map]
  · intro index inside _
    rw [length_map, length_range] at inside
    rw [getElem_map, getElem_range, element_ofBytes, bitXor_byte,
      getD_eq_getElem?_getD, getElem?_eq_getElem inside]
    simp [ofBytes]

variable {hash : Bytes → Bytes}

theorem ofBytes_blockKey {hashFn : List ℤ → List ℤ}
    (same : ∀ bytes, hashFn (ofBytes bytes) = ofBytes (hash bytes)) (key : Bytes) :
    let k := if 64 < (ofBytes key).length then hashFn (ofBytes key) else ofBytes key
    k ++ List.replicate (64 - k.length) 0 = ofBytes (blockKey hash key) := by
  have zeros (count : ℕ) : ofBytes (List.replicate count 0) = List.replicate count 0 := by
    rw [ofBytes, map_replicate]
    rfl
  dsimp only
  unfold blockKey
  rw [length_ofBytes, same]
  split_ifs <;> rw [ofBytes_append, length_ofBytes, zeros]

theorem length_blockKey (short : ∀ message, (hash message).length ≤ 64)
    (key : Bytes) : (blockKey hash key).length = 64 := by
  have hashed := short key
  unfold blockKey
  split_ifs
  · rw [length_append, length_replicate]
    omega
  · rw [length_append, length_replicate]
    omega

theorem hmac_ofBytes {hashFn : List ℤ → List ℤ}
    (same : ∀ bytes, hashFn (ofBytes bytes) = ofBytes (hash bytes))
    (short : ∀ message, (hash message).length ≤ 64) (key message : Bytes) :
    hmac hashFn (ofBytes key) (ofBytes message) = ofBytes (Sha.hmac hash key message) := by
  have masked := map_bitXor_ofBytes (length_blockKey short key)
  have inner := masked 0x36
  have outer := masked 0x5c
  unfold hmac Sha.hmac
  dsimp only
  rw [ofBytes_blockKey same]
  change hashFn ((List.range 64).map (fun i => bitXor (element (ofBytes (blockKey hash key)) i)
      (toNat 0x5c : ℤ)) ++ hashFn ((List.range 64).map (fun i =>
      bitXor (element (ofBytes (blockKey hash key)) i) (toNat 0x36 : ℤ)) ++
      ofBytes message)) = _
  rw [inner, outer, ← ofBytes_append, same, ← ofBytes_append, same]

/-- On bytes the panel's hashes are the standard ones, and so are its message authentication codes
over either, with a key of any length. No sum of a round reaches 2^53, so numbers are exact here. -/
theorem hashes_standard (key message : Bytes) :
    sha1 (ofBytes message) = ofBytes (Sha.sha1 message) ∧
      sha256 (ofBytes message) = ofBytes (Sha.sha256 message) ∧
      hmac sha1 (ofBytes key) (ofBytes message) = ofBytes (Sha.hmac Sha.sha1 key message) ∧
      hmac sha256 (ofBytes key) (ofBytes message) =
        ofBytes (Sha.hmac Sha.sha256 key message) := by
  refine ⟨sha1_ofBytes message, sha256_ofBytes message, ?_, ?_⟩
  · exact hmac_ofBytes sha1_ofBytes (fun text => (length_sha1 text).trans_le (by decide))
      key message
  · exact hmac_ofBytes sha256_ofBytes (fun text => (length_sha256 text).trans_le (by decide)) key
      message

end QsBitwarden.Panel.Totp
