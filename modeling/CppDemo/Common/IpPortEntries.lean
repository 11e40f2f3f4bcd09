import CppDemo.Common.IpPortDestination

/-!
# The addresses of the `ip:port` flag

The flag checks the number that a port is read as and keeps the text of the port, which is later
looked up as it is. The number may be spelled with blanks around it, a sign or in base 16, and
nothing is asked of the ip.

`absl::ParseFlag<int>` is not part of the repository. What it reads is assumed here.

Source: `common/abseil_flag_ipport.hpp`, lines 8–14, `common/abseil_flag_ipport.cpp`, lines 18–33,
and `http/tcp_reuse.cpp`, lines 21–34.

## Main definitions

* `ReadsInt` : what is assumed of `absl::ParseFlag<int>`.
* `IpPort.WellFormed` : an address as it is looked up.
* `PlainPiece` : a piece with an ip and a plain port.

## Main results

* `wellFormed_iff` : the addresses of an accepted text are well-formed exactly if its pieces are
  plain.
-/

namespace CppDemo.Common

/-- `absl::ParseFlag<int>` strips blanks of ASCII, takes an optional sign and reads digits, of base
16 after `0x`, as a number of 32 bits. -/
def ReadsInt (int : IntFlag) : Prop :=
  ∀ text v, int.parse text = some v ↔
    (∃ s : IntText.Spelling, s.Valid ∧ s.text = IntText.strip text ∧ s.value = v) ∧
      -2 ^ 31 ≤ v ∧ v < 2 ^ 31

theorem readsInt_abslInt : ReadsInt abslInt := IntText.read_eq_some_iff

theorem ReadsInt.parse_eq {int : IntFlag} (h : ReadsInt int) (text : Bytes) :
    int.parse text = IntText.read text := by
  refine Option.ext fun v ↦ ?_
  rw [h, IntText.read_eq_some_iff]

/-- An address with an ip and a port of decimal digits, in its range. -/
structure IpPort.WellFormed (ipport : IpPort) : Prop where
  ip : ipport.ip ≠ []
  port : ipport.port ≠ []
  digits : ∀ c ∈ ipport.port, IntText.IsDigit 10 c
  range : IntText.number 10 ipport.port ≤ 32767

/-- A piece that does not start with a colon, and whose port has no blanks, no sign and no mark of
base 16. -/
structure PlainPiece (p : Bytes) : Prop where
  ip : p.head? ≠ some colon
  port : ∀ ip port, p.splitOn colon = [ip, port] → IntText.Plain port

/-- The fields of the text of an address. -/
theorem splitOn_toString {ipport : IpPort} (hip : colon ∉ ipport.ip) (hport : colon ∉ ipport.port) :
    ipport.toString.splitOn colon = [ipport.ip, ipport.port] := by
  have hfields : ∀ w ∈ [ipport.ip, ipport.port], colon ∉ w := by simp [hip, hport]
  have hparse := (Codec.pieces colon).parse_unparse ⟨List.cons_ne_nil _ _, hfields⟩
  rw [← Option.some.inj hparse]
  simp [Codec.pieces, IpPort.toString]

/-- The text of an address starts with a colon if it has no ip. -/
theorem head?_toString_ne {ipport : IpPort} (hip : colon ∉ ipport.ip) :
    ipport.toString.head? ≠ some colon ↔ ipport.ip ≠ [] := by
  cases hfirst : ipport.ip with
  | nil => simp [IpPort.toString, hfirst]
  | cons c ip =>
      rw [hfirst] at hip
      simpa [IpPort.toString, hfirst] using (List.ne_of_not_mem_cons hip).symm

theorem plainPiece_toString_iff {ipport : IpPort} (hip : colon ∉ ipport.ip)
    (hport : colon ∉ ipport.port) :
    PlainPiece ipport.toString ↔ ipport.ip ≠ [] ∧ IntText.Plain ipport.port := by
  have hsplit := splitOn_toString hip hport
  constructor
  · intro h
    exact ⟨(head?_toString_ne hip).mp h.ip, h.port _ _ hsplit⟩
  · rintro ⟨hne, hplain⟩
    refine ⟨(head?_toString_ne hip).mpr hne, fun ip port h ↦ ?_⟩
    obtain ⟨-, rfl⟩ : ipport.ip = ip ∧ ipport.port = port := by simpa [hsplit] using h
    exact hplain

theorem plainPiece_nil : PlainPiece [] := ⟨by simp, by simp⟩

section

variable {int : IntFlag} (hint : ReadsInt int)
include hint

/-- An address whose port is accepted is well-formed exactly if its text is plain. -/
theorem IpPort.Valid.wellFormed_iff_plainPiece {ipport : IpPort} (h : ipport.Valid int) :
    ipport.WellFormed ↔ PlainPiece ipport.toString := by
  obtain ⟨v, hv, hmin, hmax⟩ := h.port
  rw [hint.parse_eq] at hv
  rw [plainPiece_toString_iff h.ip_colon h.port_colon]
  constructor
  · intro hwell
    exact ⟨hwell.ip, IntText.plain_of_digits hwell.digits⟩
  · rintro ⟨hip, hplain⟩
    obtain ⟨hne, hdigits, rfl⟩ := hplain.of_read hv
    exact ⟨hip, hne, hdigits, by omega⟩

/-- The addresses that an accepted text adds to the destination are well-formed, exactly if no piece
of the text starts with a colon and no port is spelled with blanks, a sign or in base 16. -/
theorem wellFormed_iff {text : Bytes} {dest : Destination}
    (h : (abslParseFlag int text dest).1 = true) :
    ∃ ipPorts, (abslParseFlag int text dest).2.ipPorts = dest.ipPorts ++ ipPorts ∧
      ((∀ ipport ∈ ipPorts, ipport.WellFormed) ↔ ∀ p ∈ text.splitOn comma, PlainPiece p) := by
  obtain ⟨ipPorts, hparse⟩ := (abslParseFlag_eq_true_iff int text dest).mp h
  have hvalid := (ipPortsCodec_valid int ipPorts).mp (Codec.valid_of_parse _ hparse)
  refine ⟨ipPorts, by rw [abslParseFlag_of_some int hparse], ?_⟩
  change (if text = [] then some [] else _) = _ at hparse
  split_ifs at hparse with htext
  · obtain rfl : [] = ipPorts := Option.some.inj hparse
    simp [htext, plainPiece_nil]
  · rw [← map_toString_of_parse int hparse, List.forall_mem_map]
    exact forall₂_congr fun ipport hmem ↦ (hvalid ipport hmem).wellFormed_iff_plainPiece hint

end

/-- A port with a blank. -/
def blankPort : Bytes := ascii "a: 80"

theorem abslParseFlag_blankPort : abslParseFlag abslInt blankPort ⟨[], []⟩ =
    (true, ⟨[⟨ascii "a", ascii " 80"⟩], []⟩) := by
  decide +kernel

theorem wellFormed_iff_blankPort :
    ∃ ipPorts, (abslParseFlag abslInt blankPort ⟨[], []⟩).2.ipPorts = [] ++ ipPorts ∧
      ((∀ ipport ∈ ipPorts, ipport.WellFormed) ↔ ∀ p ∈ blankPort.splitOn comma, PlainPiece p) :=
  wellFormed_iff readsInt_abslInt (by rw [abslParseFlag_blankPort])

/-- A port with a blank is accepted and kept with the blank. -/
theorem not_wellFormed_blankPort : ¬∀ (int : IntFlag), ReadsInt int → ∀ text dest,
    (abslParseFlag int text dest).1 = true →
      ∃ ipPorts, (abslParseFlag int text dest).2.ipPorts = dest.ipPorts ++ ipPorts ∧
        ∀ ipport ∈ ipPorts, ipport.WellFormed := by
  intro h
  obtain ⟨ipPorts, heq, hwell⟩ := h abslInt readsInt_abslInt blankPort ⟨[], []⟩
    (by rw [abslParseFlag_blankPort])
  rw [abslParseFlag_blankPort, List.nil_append] at heq
  obtain rfl : [⟨ascii "a", ascii " 80"⟩] = ipPorts := heq
  have hdigit := (hwell _ List.mem_cons_self).digits 32 List.mem_cons_self
  exact absurd hdigit (by decide)

end CppDemo.Common
