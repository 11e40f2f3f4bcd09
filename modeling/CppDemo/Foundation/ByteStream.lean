import Mathlib.Data.List.Basic

/-!
# Byte streams

One direction of a connection is the bytes that have been written to it and not yet read. A write
puts its bytes behind them. A read takes what is there, up to the size of its buffer, and leaves the
rest for the next read; it blocks while there is nothing.

## Main definitions

* `ByteStream.readSome` : one read.

## Main results

* `ByteStream.readSome_of_le` : a read with room for everything takes everything.
-/

namespace CppDemo

/-- A string of bytes. -/
abbrev Bytes := List UInt8

/-- A string literal. -/
def ascii (s : String) : Bytes := s.toList.map fun c ↦ c.toNat.toUInt8

namespace ByteStream

/-- A read into a buffer of `size` bytes: the bytes read and the bytes left, `none` if there is
nothing to read. -/
def readSome (size : Nat) (stream : Bytes) : Option (Bytes × Bytes) :=
  if stream = [] then none else some (stream.take size, stream.drop size)

@[simp] theorem readSome_nil (size : Nat) : readSome size [] = none := rfl

theorem readSome_of_ne_nil (size : Nat) {stream : Bytes} (h : stream ≠ []) :
    readSome size stream = some (stream.take size, stream.drop size) := if_neg h

theorem readSome_of_le {size : Nat} {stream : Bytes} (h : stream ≠ [])
    (hsize : stream.length ≤ size) : readSome size stream = some (stream, []) := by
  rw [readSome_of_ne_nil size h, List.take_of_length_le hsize, List.drop_of_length_le hsize]

end ByteStream

end CppDemo
