import CppDemo.Foundation.ByteStream
import CppDemo.Foundation.Codec

/-!
# The `ip:port` flag

A flag holds a list of addresses, written as `ip:port` with commas between them. Reading it splits
the text at the commas and every piece at the colons, and stops at the first piece that is not an
address. The addresses read so far stay in the destination, and the destination is not cleared
first.

Whether a port is a number is decided by `absl::ParseFlag<int>`, which is not part of the
repository. It is an `IntFlag`, of which nothing is assumed. Of `absl::StrSplit` and `absl::StrJoin`
their documented behaviour is assumed: a text is split at every separator, so that there is one
piece more than there are separators, and pieces are joined with a separator between any two. That
is what `List.splitOn` and `List.intercalate` do.

Source: `common/abseil_flag_ipport.hpp` and `common/abseil_flag_ipport.cpp`.

## Main definitions

* `abslParseFlag`, `abslUnparseFlag` : the two functions of the flag.
* `ipPortsCodec` : what they are for, a codec of lists of valid addresses.

## Main results

* `parsePieces_of_some` : the loop appends the addresses that the codec reads.
* `abslParseFlag_iff` : into an empty destination, the flag is read by the codec.
-/

namespace CppDemo.Common

def comma : UInt8 := 44
def colon : UInt8 := 58

structure IpPort where
  ip : Bytes
  port : Bytes
  deriving DecidableEq, Repr

/-- `absl::ParseFlag<int>`. -/
structure IntFlag where
  /-- The number that a text stands for. -/
  parse : Bytes → Option Int
  /-- What becomes of the error text when a text is rejected. -/
  error (text error : Bytes) : Bytes

/-! ### Writing -/

/-- The conversion of an address to a string. -/
def IpPort.toString (ipport : IpPort) : Bytes := ipport.ip ++ [colon] ++ ipport.port

/-- The addresses with commas between them, as `absl::StrJoin` puts them. -/
def abslUnparseFlag (ipPorts : List IpPort) : Bytes :=
  [comma].intercalate (ipPorts.map IpPort.toString)

/-! ### Reading -/

/-- What reading writes to: the destination and the error text. -/
structure Destination where
  ipPorts : List IpPort
  error : Bytes
  deriving DecidableEq, Repr

variable (int : IntFlag)

/-- The body of the loop, `false` if it returns `false`. The fields are those of
`absl::StrSplit(p, ":")`. -/
def parsePiece (p : Bytes) (dest : Destination) : Bool × Destination :=
  match p.splitOn colon with
  | [ip, port] =>
    match int.parse port with
    | none => (false, { dest with error := int.error port dest.error })
    | some value =>
      if value < 0 ∨ value > 32767 then
        (false, { dest with error := ascii "invalid port: " ++ port })
      else (true, { dest with ipPorts := dest.ipPorts ++ [⟨ip, port⟩] })
  | _ => (false, { dest with error := ascii "invalid ipport: " ++ p })

/-- The loop over the pieces. -/
def parsePieces : List Bytes → Destination → Bool × Destination
  | [], dest => (true, dest)
  | p :: pieces, dest =>
    match parsePiece int p dest with
    | (true, dest) => parsePieces pieces dest
    | (false, dest) => (false, dest)

/-- The pieces of the loop are those of `absl::StrSplit(text, ",")`. -/
def abslParseFlag (text : Bytes) (dest : Destination) : Bool × Destination :=
  if text.length = 0 then (true, dest) else parsePieces int (text.splitOn comma) dest

/-! ### The codec -/

/-- The port is a number in its range. -/
def IsPort (port : Bytes) : Prop := ∃ value, int.parse port = some value ∧ 0 ≤ value ∧ value ≤ 32767

instance (port : Bytes) : Decidable (IsPort int port) :=
  decidable_of_iff ((int.parse port).any fun value ↦ 0 ≤ value ∧ value ≤ 32767) (by
    cases h : int.parse port <;> simp [IsPort, h])

/-- An address that survives being written and read. -/
structure IpPort.Valid (ipport : IpPort) : Prop where
  ip_comma : comma ∉ ipport.ip
  ip_colon : colon ∉ ipport.ip
  port_comma : comma ∉ ipport.port
  port_colon : colon ∉ ipport.port
  port : IsPort int ipport.port

/-- Read an address from its two fields. -/
def fieldsCodec : Codec (List Bytes) IpPort where
  parse
    | [ip, port] => if IsPort int port then some ⟨ip, port⟩ else none
    | _ => none
  unparse ipport := [ipport.ip, ipport.port]
  Valid ipport := IsPort int ipport.port
  parse_eq_some_iff fields ipport := by
    obtain ⟨ip, port⟩ := ipport
    split
    · grind
    · next hne =>
        simp only [reduceCtorEq, false_iff, not_and]
        rintro - rfl
        exact hne ip port rfl

/-- Read an address. -/
def ipPortCodec : Codec Bytes IpPort := (Codec.pieces colon).comp (fieldsCodec int)

theorem ipPortCodec_parse_nil : (ipPortCodec int).parse [] = none := rfl

/-- Read a list of addresses. -/
def ipPortsCodec : Codec Bytes (List IpPort) :=
  (ipPortCodec int).separatedOrEmpty comma (ipPortCodec_parse_nil int)

theorem ipPortCodec_unparse (ipport : IpPort) :
    (ipPortCodec int).unparse ipport = ipport.toString := by
  simp [ipPortCodec, Codec.comp, Codec.pieces, fieldsCodec, IpPort.toString]

theorem ipPortsCodec_unparse (ipPorts : List IpPort) :
    (ipPortsCodec int).unparse ipPorts = abslUnparseFlag ipPorts := by
  change [comma].intercalate (ipPorts.map (ipPortCodec int).unparse) = _
  rw [abslUnparseFlag, funext (ipPortCodec_unparse int)]

theorem ipPort_valid_iff (ipport : IpPort) :
    ipport.Valid int ↔
      (ipPortCodec int).Valid ipport ∧ comma ∉ (ipPortCodec int).unparse ipport := by
  have hcomma : comma ≠ colon := by decide
  rw [ipPortCodec_unparse]
  simp only [ipPortCodec, Codec.comp, Codec.pieces, fieldsCodec, IpPort.toString, List.mem_append,
    List.mem_singleton, List.forall_mem_cons, forall_eq, hcomma, not_or, and_true,
    not_false_eq_true]
  constructor
  · rintro ⟨ip_comma, ip_colon, port_comma, port_colon, port⟩
    exact ⟨⟨port, List.cons_ne_nil _ _, ip_colon, port_colon⟩, ip_comma, port_comma⟩
  · rintro ⟨⟨port, -, ip_colon, port_colon⟩, ip_comma, port_comma⟩
    exact ⟨ip_comma, ip_colon, port_comma, port_colon, port⟩

theorem ipPortsCodec_valid (ipPorts : List IpPort) :
    (ipPortsCodec int).Valid ipPorts ↔ ∀ ipport ∈ ipPorts, ipport.Valid int := by
  simp only [ipPort_valid_iff]
  rfl

/-! ### The loop and the codec -/

/-- The fields that the codec reads an address from. -/
theorem ipPortCodec_parse (p : Bytes) :
    (ipPortCodec int).parse p = (fieldsCodec int).parse (p.splitOn colon) := rfl

/-- The body of the loop appends the address that its piece is read as. -/
theorem parsePiece_of_some {p : Bytes} {ipport : IpPort}
    (h : (ipPortCodec int).parse p = some ipport) (dest : Destination) :
    parsePiece int p dest = (true, { dest with ipPorts := dest.ipPorts ++ [ipport] }) := by
  obtain ⟨⟨value, hvalue, hmin, hmax⟩, hfields⟩ :=
    ((fieldsCodec int).parse_eq_some_iff _ _).mp h
  have hrange : ¬(value < 0 ∨ value > 32767) := by omega
  change [ipport.ip, ipport.port] = _ at hfields
  simp only [parsePiece, ← hfields, hvalue, if_neg hrange]

/-- The body of the loop returns `false` at a piece that is not an address. -/
theorem parsePiece_of_none {p : Bytes} (h : (ipPortCodec int).parse p = none)
    (dest : Destination) : ∃ error, parsePiece int p dest = (false, { dest with error }) := by
  rw [ipPortCodec_parse] at h
  unfold parsePiece
  split
  · next ip port hfields =>
      have hport : ¬IsPort int port := by
        intro hport
        rw [hfields] at h
        exact absurd ((if_pos hport).symm.trans h) (Option.some_ne_none _)
      cases hvalue : int.parse port with
      | none => exact ⟨_, rfl⟩
      | some value =>
          have hrange : value < 0 ∨ value > 32767 := by
            by_contra hrange
            exact hport ⟨value, hvalue, by omega, by omega⟩
          exact ⟨_, if_pos hrange⟩
  · exact ⟨_, rfl⟩

/-- The loop appends the addresses that the pieces are read as. -/
theorem parsePieces_of_some {pieces : List Bytes} {ipPorts : List IpPort}
    (h : (ipPortCodec int).each.parse pieces = some ipPorts) (dest : Destination) :
    parsePieces int pieces dest = (true, { dest with ipPorts := dest.ipPorts ++ ipPorts }) := by
  induction pieces generalizing ipPorts dest with
  | nil =>
      obtain rfl : [] = ipPorts := Option.some.inj h
      rw [List.append_nil]
      rfl
  | cons p pieces ih =>
      rw [Codec.each_parse_cons, Option.bind_eq_some_iff] at h
      obtain ⟨ipport, hp, h⟩ := h
      obtain ⟨tail, htail, rfl⟩ := Option.map_eq_some_iff.mp h
      rw [parsePieces, parsePiece_of_some int hp]
      simp only [ih htail, List.append_assoc, List.singleton_append]

/-- The loop returns `false` if one of the pieces is not an address. -/
theorem parsePieces_of_none {pieces : List Bytes} (h : (ipPortCodec int).each.parse pieces = none)
    (dest : Destination) : (parsePieces int pieces dest).1 = false := by
  induction pieces generalizing dest with
  | nil => exact absurd h (Option.some_ne_none _)
  | cons p pieces ih =>
      rw [Codec.each_parse_cons] at h
      cases hp : (ipPortCodec int).parse p with
      | none =>
          obtain ⟨error, herror⟩ := parsePiece_of_none int hp dest
          rw [parsePieces, herror]
      | some ipport =>
          rw [hp, Option.bind_some, Option.map_eq_none_iff] at h
          rw [parsePieces, parsePiece_of_some int hp]
          exact ih h _

theorem abslParseFlag_of_some {text : Bytes} {ipPorts : List IpPort}
    (h : (ipPortsCodec int).parse text = some ipPorts) (dest : Destination) :
    abslParseFlag int text dest = (true, { dest with ipPorts := dest.ipPorts ++ ipPorts }) := by
  change (if text = [] then some [] else _) = _ at h
  simp only [abslParseFlag, List.length_eq_zero_iff]
  split_ifs at h ⊢ with htext
  · obtain rfl : [] = ipPorts := Option.some.inj h
    rw [List.append_nil]
  · exact parsePieces_of_some int h dest

theorem abslParseFlag_of_none {text : Bytes} (h : (ipPortsCodec int).parse text = none)
    (dest : Destination) : (abslParseFlag int text dest).1 = false := by
  change (if text = [] then some [] else _) = _ at h
  simp only [abslParseFlag, List.length_eq_zero_iff]
  split_ifs at h ⊢ with htext
  exact parsePieces_of_none int h dest

/-- The flag is accepted exactly if the codec reads it. -/
theorem abslParseFlag_eq_true_iff (text : Bytes) (dest : Destination) :
    (abslParseFlag int text dest).1 = true ↔ ∃ ipPorts, (ipPortsCodec int).parse text = some ipPorts
    := by
  cases h : (ipPortsCodec int).parse text with
  | none => simp [abslParseFlag_of_none int h]
  | some ipPorts => simp [abslParseFlag_of_some int h]

/-- Into an empty destination, exactly the texts of lists of valid addresses are accepted. A list is
read back from its text, an accepted text is written back, and no two lists have one text. -/
theorem abslParseFlag_iff (text error : Bytes) :
    ((abslParseFlag int text ⟨[], error⟩).1 = true ↔
        ∃ ipPorts, (∀ ipport ∈ ipPorts, ipport.Valid int) ∧ abslUnparseFlag ipPorts = text) ∧
      (∀ ipPorts, (∀ ipport ∈ ipPorts, ipport.Valid int) → abslUnparseFlag ipPorts = text →
        abslParseFlag int text ⟨[], error⟩ = (true, ⟨ipPorts, error⟩)) ∧
      (∀ v w, (∀ ipport ∈ v, ipport.Valid int) → (∀ ipport ∈ w, ipport.Valid int) →
        abslUnparseFlag v = text → abslUnparseFlag w = text → v = w) ∧
      ((abslParseFlag int text ⟨[], error⟩).1 = true →
        (∀ ipport ∈ (abslParseFlag int text ⟨[], error⟩).2.ipPorts, ipport.Valid int) ∧
          abslUnparseFlag (abslParseFlag int text ⟨[], error⟩).2.ipPorts = text) := by
  simp only [← ipPortsCodec_valid, ← ipPortsCodec_unparse int]
  refine ⟨?_, fun ipPorts hvalid htext ↦ ?_, fun v w hv hw hvtext hwtext ↦ ?_, fun hret ↦ ?_⟩
  · simp only [abslParseFlag_eq_true_iff, Codec.parse_eq_some_iff]
  · rw [← htext, abslParseFlag_of_some int (Codec.parse_unparse _ hvalid), List.nil_append]
  · exact (ipPortsCodec int).unparse_injOn hv hw (hvtext.trans hwtext.symm)
  · obtain ⟨ipPorts, hparse⟩ := (abslParseFlag_eq_true_iff int text _).mp hret
    rw [abslParseFlag_of_some int hparse]
    exact ⟨Codec.valid_of_parse _ hparse, Codec.unparse_parse _ hparse⟩

end CppDemo.Common
