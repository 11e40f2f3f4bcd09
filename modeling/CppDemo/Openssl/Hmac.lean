import CppDemo.Foundation.ByteStream
import Mathlib.Tactic.Common

/-!
# A keyed hash

`do_my_hmac` copies the key into a buffer of one block, changes the buffer in place to the key with
the inner pad, and later to the key with the outer pad. A key that is longer than a block is not
hashed first, and is copied past the end of the buffer.

The hash function and the conversion to hexadecimal digits are not part of the repository. They are
a `CryptoLibrary`: any function to 32 bytes, and a function of which `CryptoLibrary.Documented` says
what it returns.

Source: `openssl/hmac.cpp`.

## Main definitions

* `CryptoLibrary` : the functions that the program uses.
* `doMyHmac` : the function of the source, `none` if it writes outside of its buffer.
* `hmac` : the keyed hash, by its definition with two pads.

## Main results

* `write_eq_some_iff` : what a copy into a buffer does.
* `doMyHmac_eq_iff` : the two agree exactly for the keys of one block at most.
-/

namespace CppDemo.Openssl

def blockSize : Nat := 64

def digestSize : Nat := 32

/-! ### The buffer -/

/-- Write bytes to a buffer from the index `i` on, `none` if one of them is written past its end. -/
def write {n : Nat} : Bytes → Vector UInt8 n → Nat → Option (Vector UInt8 n)
  | [], buffer, _ => some buffer
  | c :: bytes, buffer, i =>
    if h : i < n then write bytes (buffer.set i c) (i + 1) else none

/-- A copy replaces the bytes where it writes, which are all inside of the buffer. -/
theorem write_eq_some_iff {n : Nat} (bytes : Bytes) (buffer result : Vector UInt8 n) {i : Nat}
    (hi : i ≤ n) :
    write bytes buffer i = some result ↔
      i + bytes.length ≤ n ∧
        result.toList =
          buffer.toList.take i ++ bytes ++ buffer.toList.drop (i + bytes.length) := by
  induction bytes generalizing buffer i with
  | nil =>
    rw [write, Option.some.injEq, List.length_nil, Nat.add_zero, List.append_nil,
      List.take_append_drop, and_iff_right hi, eq_comm]
    exact Vector.toList_inj.symm
  | cons c bytes ih =>
    rw [write]
    split_ifs with h
    · have hlength : (buffer.toList.take i).length = i := by
        rw [List.length_take, Vector.length_toList, Nat.min_eq_left hi]
      have hset : (buffer.set i c).toList =
          buffer.toList.take i ++ c :: buffer.toList.drop (i + 1) := by
        rw [Vector.toList_set, List.set_eq_take_append_cons_drop, if_pos (by simpa using h)]
      have htake : (buffer.set i c).toList.take (i + 1) = buffer.toList.take i ++ [c] := by
        rw [hset, List.take_append, List.take_of_length_le (by omega), hlength]
        simp
      have hdrop : (buffer.set i c).toList.drop (i + 1 + bytes.length) =
          buffer.toList.drop (i + 1 + bytes.length) := by
        rw [Vector.toList_set, List.drop_set_of_lt (by omega)]
      have hadd : i + (bytes.length + 1) = i + 1 + bytes.length := by omega
      rw [ih (buffer.set i c) h, List.length_cons, htake, hdrop, hadd, List.append_assoc,
        List.append_assoc, List.append_assoc, List.singleton_append, List.cons_append]
    · rw [List.length_cons]
      exact iff_of_false (by simp) fun hle ↦ h (by omega)

/-! ### The function of the source -/

/-- What the program uses of the libraries. -/
structure CryptoLibrary where
  /-- `EVP_Digest` with `EVP_sha256`. -/
  sha256 : Bytes → Vector UInt8 digestSize
  /-- `absl::BytesToHexString`. -/
  bytesToHexString : Bytes → Bytes

/-- A digit of a number in base 16, in lower case. -/
def hexDigit (d : UInt8) : UInt8 := if d < 10 then 48 + d else 87 + d

/-- Two digits for each byte, the upper half of it first. -/
def lowerHex (bytes : Bytes) : Bytes :=
  bytes.flatMap fun c ↦ [hexDigit (c / 16), hexDigit (c % 16)]

/-- What the program relies on: the digits are in lower case. -/
structure CryptoLibrary.Documented (lib : CryptoLibrary) : Prop where
  bytesToHexString : ∀ bytes, lib.bytesToHexString bytes = lowerHex bytes

section Hash

variable (lib : CryptoLibrary)

def doSha256 (input : Bytes) : Bytes := (lib.sha256 input).toList

def doMyHmac (key data : Bytes) : Option Bytes := do
  let buffer ← write key (Vector.replicate blockSize 0) 0
  let buffer := buffer.map fun c ↦ c ^^^ 0x36
  let innerResult := doSha256 lib (buffer.toList ++ data)
  -- The inner pad is taken back first.
  let buffer := buffer.map fun c ↦ c ^^^ 0x36 ^^^ 0x5c
  let result := doSha256 lib (buffer.toList ++ innerResult)
  return lib.bytesToHexString result

/-! ### The keyed hash -/

/-- The key of one block: a longer key is hashed, and zeros are appended. -/
def blockKey (key : Bytes) : Bytes :=
  let key := if key.length > blockSize then doSha256 lib key else key
  key ++ List.replicate (blockSize - key.length) 0

/-- A block with each byte changed by the pad. -/
def xorPad (pad : UInt8) (block : Bytes) : Bytes := block.map fun c ↦ c ^^^ pad

def ipad : UInt8 := 0x36

def opad : UInt8 := 0x5c

/-- The hash of the outer block and the hash of the inner block and the data. -/
def hmac (key data : Bytes) : Bytes :=
  let key := blockKey lib key
  doSha256 lib (xorPad opad key ++ doSha256 lib (xorPad ipad key ++ data))

variable (key data : Bytes)

theorem blockKey_of_le {key : Bytes} (h : key.length ≤ blockSize) :
    blockKey lib key = key ++ List.replicate (blockSize - key.length) 0 := by
  rw [blockKey, if_neg (Nat.not_lt.mpr h)]

/-- A key of one block at most is copied to the start of the buffer. -/
theorem write_key {key : Bytes} (h : key.length ≤ blockSize) :
    ∃ buffer, write key (Vector.replicate blockSize 0) 0 = some buffer ∧
      buffer.toList = blockKey lib key := by
  have hsize : (blockKey lib key).toArray.size = blockSize := by
    rw [blockKey_of_le lib h, List.size_toArray, List.length_append, List.length_replicate]
    omega
  refine ⟨⟨(blockKey lib key).toArray, hsize⟩, ?_, rfl⟩
  refine (write_eq_some_iff key _ _ (Nat.zero_le _)).mpr ⟨by omega, ?_⟩
  rw [List.take_zero, List.nil_append, Nat.zero_add, Vector.toList_replicate,
    List.drop_replicate]
  exact blockKey_of_le lib h

/-- A longer key is copied past the end of the buffer. -/
theorem doMyHmac_of_lt {key : Bytes} (h : blockSize < key.length) :
    doMyHmac lib key data = none := by
  have hwrite : write key (Vector.replicate blockSize 0) 0 = none := by
    refine Option.eq_none_iff_forall_ne_some.mpr fun buffer hbuffer ↦ ?_
    have hle := ((write_eq_some_iff key _ buffer (Nat.zero_le _)).mp hbuffer).1
    omega
  rw [doMyHmac, hwrite]
  rfl

/-- The pads are put on the key of one block. -/
theorem doMyHmac_of_le {key : Bytes} (h : key.length ≤ blockSize) :
    doMyHmac lib key data = some (lib.bytesToHexString (hmac lib key data)) := by
  obtain ⟨buffer, hbuffer, hlist⟩ := write_key lib h
  have hinner : (buffer.map fun c ↦ c ^^^ 0x36).toList = xorPad ipad (blockKey lib key) := by
    rw [Vector.toList_map, hlist]
    rfl
  have houter : ((buffer.map fun c ↦ c ^^^ 0x36).map fun c ↦ c ^^^ 0x36 ^^^ 0x5c).toList =
      xorPad opad (blockKey lib key) := by
    rw [Vector.toList_map, hinner, xorPad, List.map_map]
    refine List.map_congr_left fun c _ ↦ ?_
    rw [Function.comp_apply, ipad, UInt8.xor_assoc c, UInt8.xor_self, UInt8.xor_zero]
    rfl
  rw [doMyHmac, hbuffer]
  change some _ = _
  rw [hinner, houter]
  rfl

/-- The source stays inside of its buffer and returns the keyed hash in lower case, exactly if the
key has one block at most. -/
theorem doMyHmac_eq_iff {lib : CryptoLibrary} (hlib : lib.Documented) (key data : Bytes) :
    doMyHmac lib key data = some (lowerHex (hmac lib key data)) ↔ key.length ≤ blockSize := by
  constructor
  · intro h
    by_contra hlt
    rw [doMyHmac_of_lt lib data (Nat.not_le.mp hlt)] at h
    exact absurd h (by simp)
  · intro hle
    rw [doMyHmac_of_le lib data hle, hlib.bytesToHexString]

end Hash

/-- A library with a hash that is zero. -/
def zeroLibrary : CryptoLibrary where
  sha256 _ := Vector.replicate digestSize 0
  bytesToHexString := lowerHex

theorem zeroLibrary_documented : zeroLibrary.Documented where
  bytesToHexString _ := rfl

theorem doMyHmac_eq_iff_zeroLibrary : zeroLibrary.Documented ∧
    (doMyHmac zeroLibrary (ascii "key") (ascii "data") =
        some (lowerHex (hmac zeroLibrary (ascii "key") (ascii "data"))) ↔
      (ascii "key").length ≤ blockSize) :=
  ⟨zeroLibrary_documented, doMyHmac_eq_iff zeroLibrary_documented (ascii "key") (ascii "data")⟩

/-- A key of 65 bytes. -/
def longKey : Bytes := List.replicate 65 107

theorem not_doMyHmac_eq_longKey : ¬∀ lib : CryptoLibrary, lib.Documented → ∀ key data : Bytes,
    doMyHmac lib key data = some (lowerHex (hmac lib key data)) := by
  intro h
  have hlong : blockSize < longKey.length := by decide
  have heq := h zeroLibrary zeroLibrary_documented longKey []
  rw [doMyHmac_of_lt _ _ hlong] at heq
  exact absurd heq (by simp)

end CppDemo.Openssl
