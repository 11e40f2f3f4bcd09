import CppDemo.Foundation.ByteStream

/-!
# A connection of the echo server

The server greets a client and then answers what it reads, in both cases with `doWrite`. The reply
is built from the bytes of `data_` that were read last, copied to the start of `data_` and sent from
there.

Source: `asio/allocation/allocation.cpp`, lines 103–149.

## Main definitions

* `Connection` : a connection with its array `data_`.
* `Connection.doRead`, `Connection.doWrite` : what becomes of `data_` and which bytes are sent.

## Main results

* `Connection.doWrite_doRead` : what is sent after a read is the reply to the bytes read.
-/

namespace CppDemo.Asio.Echo

/-- The size of `data_`. -/
def dataSize : Nat := 1024

/-- The response to `text` at the time `daytime`. -/
def reply (text daytime : Bytes) : Bytes := ascii "got " ++ text ++ ascii " on " ++ daytime

theorem length_reply (text daytime : Bytes) :
    (reply text daytime).length = text.length + daytime.length + 8 := by
  simp only [reply, List.length_append, show (ascii "got ").length = 4 from rfl,
    show (ascii " on ").length = 4 from rfl]
  omega

theorem reply_ne_nil (text daytime : Bytes) : reply text daytime ≠ [] :=
  List.ne_nil_of_length_pos (by rw [length_reply]; omega)

/-- A connection. -/
structure Connection where
  /-- `data_`. -/
  data : Bytes
  data_size : data.length = dataSize
  /-- Bytes have been copied to `data_` that do not fit. -/
  overrun : Bool := false

namespace Connection

/-- Copy bytes to the start of `data_`. -/
def copy (self : Connection) (bytes : Bytes) : Connection where
  data := (bytes ++ self.data.drop bytes.length).take dataSize
  data_size := by
    have hdata := self.data_size
    simp only [List.length_take, List.length_append, List.length_drop]
    omega
  overrun := self.overrun || bytes.length > dataSize

/-- The handler of `doRead` gets the bytes in `data_`. -/
def doRead (self : Connection) (bytes : Bytes) : Connection := self.copy bytes

/-- Build the response from the first `length` bytes of `data_`: the connection and the bytes that
are sent, at most as many as `data_` has. -/
def doWrite (self : Connection) (length : Nat) (daytime : Bytes) : Connection × Bytes :=
  let response := reply (self.data.take length) daytime
  let self := self.copy response
  (self, self.data.take response.length)

theorem take_copy (self : Connection) {bytes : Bytes} (h : bytes.length ≤ dataSize) :
    (self.copy bytes).data.take bytes.length = bytes := by
  simp only [copy, List.take_take, Nat.min_eq_left h, List.take_left]

/-- A response that fits is sent as it is. -/
theorem doWrite_snd (self : Connection) {length : Nat} {daytime : Bytes}
    (h : (reply (self.data.take length) daytime).length ≤ dataSize) :
    (self.doWrite length daytime).2 = reply (self.data.take length) daytime :=
  take_copy self h

/-- What is sent after a read is the reply to the bytes read. -/
theorem doWrite_doRead (self : Connection) {bytes daytime : Bytes}
    (h : (reply bytes daytime).length ≤ dataSize) :
    ((self.doRead bytes).doWrite bytes.length daytime).2 = reply bytes daytime := by
  have hbytes : bytes.length ≤ dataSize := by
    rw [length_reply] at h
    omega
  have htake : (self.doRead bytes).data.take bytes.length = bytes := take_copy self hbytes
  rw [← htake] at h
  rw [doWrite_snd _ (by simpa [htake] using h), htake]

end Connection

end CppDemo.Asio.Echo
