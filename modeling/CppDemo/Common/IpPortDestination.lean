import CppDemo.Common.IpPortFlag
import CppDemo.Foundation.IntText

/-!
# The destination of the `ip:port` flag

Reading the flag appends to its destination, one address at a time. A text that is rejected leaves
the addresses before its first bad piece there. A text that is accepted is added to what was there
before, so that the flag holds the list of the text only if the destination was empty.

Source: `common/abseil_flag_ipport.cpp`.

## Main definitions

* `abslInt` : `absl::ParseFlag<int>`, as documented.
* `Rejected` : why a piece is not an address.

## Main results

* `abslParseFlag_of_false` : what a rejected text leaves in the destination.
* `replaces_iff` : an accepted text replaces the destination exactly if that was empty.
-/

namespace CppDemo.Common

/-- `absl::ParseFlag<int>` for an `int` of 32 bits. It writes no error text. -/
def abslInt : IntFlag where
  parse := IntText.read
  error _ error := error

variable (int : IntFlag)

/-! ### Rejected texts -/

/-- Why a piece is not an address. -/
inductive Rejected (p : Bytes) : Prop
  | fields (h : (p.splitOn colon).length ≠ 2)
  | notANumber {ip port : Bytes} (hp : p.splitOn colon = [ip, port]) (h : int.parse port = none)
  | outOfRange {ip port : Bytes} {value : Int} (hp : p.splitOn colon = [ip, port])
      (hvalue : int.parse port = some value) (h : value < 0 ∨ value > 32767)

/-- The body of the loop leaves the addresses alone at a piece that it rejects. -/
theorem parsePiece_of_false {p : Bytes} {dest : Destination}
    (h : (parsePiece int p dest).1 = false) :
    Rejected int p ∧ (parsePiece int p dest).2.ipPorts = dest.ipPorts := by
  unfold parsePiece at h ⊢
  split at h
  · next ip port hp =>
      cases hvalue : int.parse port with
      | none => exact ⟨.notANumber hp hvalue, rfl⟩
      | some value =>
          simp only [hvalue] at h ⊢
          split_ifs at h ⊢ with hrange
          exact ⟨.outOfRange hp hvalue hrange, rfl⟩
  · next hne =>
      refine ⟨.fields fun hlength ↦ ?_, rfl⟩
      obtain ⟨ip, port, hp⟩ := List.length_eq_two.mp hlength
      exact hne ip port hp

/-- The loop stops at the first piece that is rejected, with the addresses before it read. -/
theorem parsePieces_of_false {pieces : List Bytes} {dest : Destination}
    (h : (parsePieces int pieces dest).1 = false) :
    ∃ done ipPorts p rest, pieces = done ++ p :: rest ∧
      (ipPortCodec int).each.parse done = some ipPorts ∧
      (parsePiece int p { dest with ipPorts := dest.ipPorts ++ ipPorts }).1 = false ∧
      parsePieces int pieces dest =
        parsePiece int p { dest with ipPorts := dest.ipPorts ++ ipPorts } := by
  induction pieces generalizing dest with
  | nil => exact absurd h (by simp [parsePieces])
  | cons p pieces ih =>
      cases hp : (ipPortCodec int).parse p with
      | none =>
          obtain ⟨error, herror⟩ := parsePiece_of_none int hp dest
          refine ⟨[], [], p, pieces, rfl, rfl, ?_, ?_⟩
          · rw [List.append_nil, herror]
          · rw [List.append_nil, parsePieces, herror]
      | some ipport =>
          rw [parsePieces, parsePiece_of_some int hp] at h ⊢
          obtain ⟨done, ipPorts, q, rest, rfl, hdone, hq, hparse⟩ := ih h
          refine ⟨p :: done, ipport :: ipPorts, q, rest, rfl, ?_, ?_, ?_⟩
          · rw [Codec.each_parse_cons, hp, hdone]
            rfl
          · simpa using hq
          · simpa using hparse

/-- The pieces that addresses are read from are their texts. -/
theorem map_toString_of_parse {pieces : List Bytes} {ipPorts : List IpPort}
    (h : (ipPortCodec int).each.parse pieces = some ipPorts) :
    ipPorts.map IpPort.toString = pieces := by
  rw [← funext (ipPortCodec_unparse int)]
  exact Codec.unparse_parse _ h

/-- A text that is rejected leaves the addresses before its first bad piece in the destination,
behind what was there, and the destination is unchanged exactly if there are none. -/
theorem abslParseFlag_of_false {text : Bytes} {dest : Destination}
    (h : (abslParseFlag int text dest).1 = false) :
    ∃ ipPorts p rest, text.splitOn comma = ipPorts.map IpPort.toString ++ p :: rest ∧
      (∀ ipport ∈ ipPorts, ipport.Valid int) ∧ Rejected int p ∧
      abslParseFlag int text dest =
        parsePiece int p { dest with ipPorts := dest.ipPorts ++ ipPorts } ∧
      (abslParseFlag int text dest).2.ipPorts = dest.ipPorts ++ ipPorts ∧
      ((abslParseFlag int text dest).2.ipPorts = dest.ipPorts ↔ ipPorts = []) := by
  have htext : ¬text.length = 0 := by
    intro htext
    rw [abslParseFlag, if_pos htext] at h
    exact Bool.noConfusion h
  rw [abslParseFlag, if_neg htext] at h ⊢
  obtain ⟨done, ipPorts, p, rest, hpieces, hdone, hp, hparse⟩ := parsePieces_of_false int h
  obtain ⟨hrejected, hleft⟩ := parsePiece_of_false int hp
  have hunparse : ipPorts.map IpPort.toString = done := map_toString_of_parse int hdone
  refine ⟨ipPorts, p, rest, hunparse ▸ hpieces, fun ipport hmem ↦ ?_, hrejected, hparse, ?_, ?_⟩
  · refine (ipPort_valid_iff int ipport).mpr ⟨Codec.valid_of_parse _ hdone ipport hmem, ?_⟩
    refine Codec.not_mem_of_mem_splitOn comma text _ ?_
    rw [hpieces, ← hunparse, ipPortCodec_unparse]
    exact List.mem_append_left _ (List.mem_map_of_mem hmem)
  · rw [hparse, hleft]
  · rw [hparse, hleft]
    simp

/-- One address and a piece without a port. -/
def halfBad : Bytes := ascii "a:1,b"

theorem abslParseFlag_halfBad : abslParseFlag abslInt halfBad ⟨[], []⟩ =
    (false, ⟨[⟨ascii "a", ascii "1"⟩], ascii "invalid ipport: b"⟩) := by
  decide +kernel

theorem abslParseFlag_of_false_halfBad :
    ∃ ipPorts p rest, halfBad.splitOn comma = ipPorts.map IpPort.toString ++ p :: rest ∧
      (∀ ipport ∈ ipPorts, ipport.Valid abslInt) ∧ Rejected abslInt p ∧
      abslParseFlag abslInt halfBad ⟨[], []⟩ = parsePiece abslInt p ⟨[] ++ ipPorts, []⟩ ∧
      (abslParseFlag abslInt halfBad ⟨[], []⟩).2.ipPorts = [] ++ ipPorts ∧
      ((abslParseFlag abslInt halfBad ⟨[], []⟩).2.ipPorts = [] ↔ ipPorts = []) :=
  abslParseFlag_of_false abslInt (by rw [abslParseFlag_halfBad])

/-- The address before a bad piece is not taken back. -/
theorem not_atomic_halfBad : ¬∀ (int : IntFlag) (text : Bytes) (dest : Destination),
    (abslParseFlag int text dest).1 = false →
      (abslParseFlag int text dest).2.ipPorts = dest.ipPorts := by
  intro h
  have hempty := h abslInt halfBad ⟨[], []⟩ (by rw [abslParseFlag_halfBad])
  rw [abslParseFlag_halfBad] at hempty
  exact absurd hempty (by simp)

/-! ### Accepted texts -/

/-- More addresses have a longer text. -/
theorem length_abslUnparseFlag_cons (ipport : IpPort) (ipPorts : List IpPort) :
    (abslUnparseFlag ipPorts).length < (abslUnparseFlag (ipport :: ipPorts)).length := by
  have hpos : 0 < ipport.toString.length := by
    simp only [IpPort.toString, List.length_append, List.length_singleton]
    omega
  rw [abslUnparseFlag, abslUnparseFlag, List.map_cons]
  cases ipPorts with
  | nil => simpa using hpos
  | cons other ipPorts =>
      rw [List.map_cons, List.intercalate_cons_cons]
      simp only [List.length_append]
      omega

theorem length_abslUnparseFlag_append (prior ipPorts : List IpPort) :
    prior.length + (abslUnparseFlag ipPorts).length ≤ (abslUnparseFlag (prior ++ ipPorts)).length
    := by
  induction prior with
  | nil => simp
  | cons ipport prior ih =>
      have hlt := length_abslUnparseFlag_cons ipport (prior ++ ipPorts)
      simp only [List.length_cons, List.cons_append]
      omega

/-- Only no address at all adds nothing to a text. -/
theorem abslUnparseFlag_append_eq_iff (prior ipPorts : List IpPort) :
    abslUnparseFlag (prior ++ ipPorts) = abslUnparseFlag ipPorts ↔ prior = [] := by
  constructor
  · intro h
    have hle := length_abslUnparseFlag_append prior ipPorts
    rw [h] at hle
    exact List.eq_nil_of_length_eq_zero (by omega)
  · rintro rfl
    rfl

/-- After an accepted text the destination holds the list that the text alone stands for, and is
written back as the text, exactly if the destination was empty. The same text once more leaves it as
it is, exactly if the text is empty. -/
theorem replaces_iff {text : Bytes} {dest : Destination}
    (h : (abslParseFlag int text dest).1 = true) :
    ((abslParseFlag int text dest).2.ipPorts =
        (abslParseFlag int text ⟨[], dest.error⟩).2.ipPorts ↔ dest.ipPorts = []) ∧
      (abslUnparseFlag (abslParseFlag int text dest).2.ipPorts = text ↔ dest.ipPorts = []) ∧
      (abslParseFlag int text (abslParseFlag int text dest).2 = abslParseFlag int text dest ↔
        text = []) := by
  obtain ⟨ipPorts, hparse⟩ := (abslParseFlag_eq_true_iff int text dest).mp h
  have htext : abslUnparseFlag ipPorts = text := by
    rw [← ipPortsCodec_unparse int, Codec.unparse_parse _ hparse]
  have hnil : ipPorts = [] ↔ text = [] := by
    rw [← htext, ← abslUnparseFlag_append_eq_iff ipPorts [], List.append_nil]
    rfl
  simp only [abslParseFlag_of_some int hparse]
  refine ⟨?_, ?_, ?_⟩
  · rw [List.nil_append, List.append_left_eq_self]
  · rw [← abslUnparseFlag_append_eq_iff dest.ipPorts ipPorts, htext]
  · rw [← hnil]
    simp

/-- A list of one address. -/
def oneAddress : Bytes := ascii "a:1"

theorem abslParseFlag_oneAddress (prior : List IpPort) :
    abslParseFlag abslInt oneAddress ⟨prior, []⟩ =
      (true, ⟨prior ++ [⟨ascii "a", ascii "1"⟩], []⟩) :=
  abslParseFlag_of_some abslInt (by decide +kernel) _

/-- A destination that holds nothing. -/
def unset : Destination := ⟨[], []⟩

theorem replaces_iff_oneAddress :
    ((abslParseFlag abslInt oneAddress unset).2.ipPorts =
        (abslParseFlag abslInt oneAddress ⟨[], unset.error⟩).2.ipPorts ↔ unset.ipPorts = []) ∧
      (abslUnparseFlag (abslParseFlag abslInt oneAddress unset).2.ipPorts = oneAddress ↔
        unset.ipPorts = []) ∧
      (abslParseFlag abslInt oneAddress (abslParseFlag abslInt oneAddress unset).2 =
        abslParseFlag abslInt oneAddress unset ↔ oneAddress = []) :=
  replaces_iff abslInt (congrArg Prod.fst (abslParseFlag_oneAddress []))

/-- Reading a list of one address twice gives the address twice. -/
theorem not_replaces_oneAddress : ¬∀ (int : IntFlag) (text : Bytes) (dest : Destination),
    (abslParseFlag int text dest).1 = true →
      (abslParseFlag int text dest).2.ipPorts =
          (abslParseFlag int text ⟨[], dest.error⟩).2.ipPorts ∧
        abslParseFlag int text (abslParseFlag int text dest).2 = abslParseFlag int text dest ∧
        abslUnparseFlag (abslParseFlag int text dest).2.ipPorts = text := by
  intro h
  obtain ⟨halone, -, -⟩ := h abslInt oneAddress ⟨[⟨ascii "a", ascii "1"⟩], []⟩
    (by rw [abslParseFlag_oneAddress])
  simp only [abslParseFlag_oneAddress] at halone
  exact absurd (congrArg List.length halone) (by decide)

end CppDemo.Common
