import Libjingle.Base.AddressText

/-!
# Which texts are read as socket addresses

A text is well formed when it is a host and a port behind a colon, the host in brackets if the text
starts with one. `FromString` reads these. It refuses a text without a colon in its place, but takes
whatever stands between the bracket and the colon and behind the colon, and a bracket that is not
closed.
-/

namespace Libjingle.AddressText

open Libjingle.Std

/-- A port as it is written: a decimal number that fits. -/
structure PortText (digits : List UInt8) : Prop where
  some_digits : digits ≠ []
  digit : ∀ ch ∈ digits, CString.isDigit 10 ch = true
  small : CString.digitsValue 10 digits ≤ 65535

/-- The host and the port that a text is made of. A text that starts with a bracket is of the first
form. -/
inductive Written : List UInt8 → List UInt8 → Nat → Prop
  | bracketed (host : List UInt8) {digits : List UInt8} (port : PortText digits) :
      Written (0x5B :: (host ++ 0x5D :: 0x3A :: digits)) host (CString.digitsValue 10 digits)
  | plain {host : List UInt8} (noColon : 0x3A ∉ host) (noBracket : host.head? ≠ some 0x5B)
      {digits : List UInt8} (port : PortText digits) :
      Written (host ++ 0x3A :: digits) host (CString.digitsValue 10 digits)

def WellFormed (str : List UInt8) : Prop :=
  ∃ host port, Written str host port

/-- There is no colon where the one before the port is looked for: behind the last closing bracket,
if the text starts with a bracket. -/
def NoPort (str : List UInt8) : Prop :=
  if str.head? = some 0x5B then
    ∃ front behind, str = front ++ 0x5D :: behind ∧ 0x5D ∉ behind ∧ 0x3A ∉ behind
  else 0x3A ∉ str

/-- `FromString` returns true exactly for well formed texts, of which it takes the host and the port,
and leaves the address as it was where it returns false. -/
structure ReadsExactly (inet : Inet) (bits : Nat) (before : SocketAddress) (str : List UInt8) :
    Prop where
  accepts : (∃ after, SocketAddress.fromString inet bits before str = some (true, after)) ↔
    WellFormed str
  takes : ∀ host port, Written str host port → SocketAddress.fromString inet bits before str =
    some (true, (before.setPort port).setHostname inet host)
  refuses : ∀ after, SocketAddress.fromString inet bits before str = some (false, after) →
    after = before

variable {inet : Inet} {bits : Nat} {before : SocketAddress} {str host digits : List UInt8}

theorem PortText.solid (port : PortText digits) : 0 ∉ digits ∧ 0x3A ∉ digits ∧ 0x5D ∉ digits := by
  have all : ∀ ch : UInt8, CString.isDigit 10 ch = true → ch ≠ 0 ∧ ch ≠ 0x3A ∧ ch ≠ 0x5D :=
    CString.forall_byte (by decide +kernel)
  exact ⟨fun mem => (all _ (port.digit _ mem)).1 rfl, fun mem => (all _ (port.digit _ mem)).2.1 rfl,
    fun mem => (all _ (port.digit _ mem)).2.2 rfl⟩

theorem PortText.read (long : 32 ≤ bits) (port : PortText digits) :
    (CString.strtoul bits 10 (CString.terminated digits)).1 = CString.digitsValue 10 digits := by
  have fits : CString.digitsValue 10 digits < 2 ^ bits := by
    have least : 2 ^ 32 ≤ 2 ^ bits := Nat.pow_le_pow_right (by decide) long
    have small := port.small
    omega
  have read := @CString.strtoul_digits [] bits digits port.some_digits port.digit fits
    fun _ _ none => by cases none
  rw [List.append_nil] at read
  rw [CString.terminated_of_solid port.solid.1, read]

/-! ## What the code does -/

/-- What is written is read. -/
theorem fromString_written (long : 32 ≤ bits) {port : Nat} (written : Written str host port) :
    SocketAddress.fromString inet bits before str =
      some (true, (before.setPort port).setHostname inet host) := by
  cases written with
  | bracketed host number =>
    obtain ⟨-, noColon, noBracket⟩ := number.solid
    have read := @SocketAddress.fromString_brackets inet bits host before [] _
      (by simpa using noBracket) List.not_mem_nil
    rw [number.read long] at read
    exact read
  | plain noColon noBracket number =>
    rw [SocketAddress.fromString_parts noColon noBracket, number.read long]

theorem find_none {ch : UInt8} {pos : Nat} (absent : ch ∉ str.drop pos) :
    Strings.find str ch pos = none := by
  rw [Strings.find, List.idxOf?_eq_none_iff.mpr absent]
  rfl

theorem last_of_mem {mark : UInt8} (mem : mark ∈ str) :
    ∃ front behind, str = front ++ mark :: behind ∧ mark ∉ behind := by
  obtain ⟨back, front, parts, absent⟩ := List.eq_append_cons_of_mem (List.mem_reverse.mpr mem)
  refine ⟨front.reverse, back.reverse, ?_, by rwa [List.mem_reverse]⟩
  rw [← List.reverse_reverse str, parts]
  simp

theorem fromString_noPort (some_text : str ≠ []) (noPort : NoPort str) :
    SocketAddress.fromString inet bits before str = some (false, before) := by
  obtain ⟨first, others, rfl⟩ := List.exists_cons_of_ne_nil some_text
  unfold NoPort at noPort
  split at noPort
  · next bracket =>
    obtain ⟨front, behind, parts, noBracket, noColon⟩ := noPort
    obtain rfl : first = 0x5B := Option.some.inj bracket
    have closebracket := SocketAddress.rfind_parts parts noBracket
    have colon : Strings.find (0x5B :: others) 0x3A front.length = none := by
      refine find_none ?_
      rw [parts, List.drop_left, List.mem_cons, not_or]
      exact ⟨by decide, noColon⟩
    simp [SocketAddress.fromString, closebracket, colon]
  · next plain =>
    have apart : first ≠ 0x5B := fun same => plain (by rw [same]; rfl)
    have colon : Strings.find (first :: others) 0x3A 0 = none := find_none noPort
    simp [SocketAddress.fromString, apart, colon]

theorem not_wellFormed_of_noPort (noPort : NoPort str) : ¬ WellFormed str := by
  rintro ⟨host, port, written⟩
  unfold NoPort at noPort
  cases written with
  | @bracketed _ digits number =>
    obtain ⟨-, -, noBracket⟩ := number.solid
    rw [if_pos (by rfl)] at noPort
    obtain ⟨front, behind, parts, noBracket', noColon⟩ := noPort
    -- The last bracket is the one before the port.
    have marked : 0x5D ∉ 0x3A :: digits := by simpa using noBracket
    have whole : (0x5B :: host) ++ 0x5D :: 0x3A :: digits = front ++ 0x5D :: behind := parts
    have last := SocketAddress.rfind_parts whole.symm marked
    rw [SocketAddress.rfind_parts rfl noBracket'] at last
    obtain ⟨-, same⟩ := List.append_inj whole (Option.some.inj last).symm
    obtain rfl := (List.cons.inj same).2
    exact noColon List.mem_cons_self
  | plain _ noBracket _ =>
    rw [if_neg] at noPort
    · exact noPort (by simp)
    · cases host with
      | nil => simp
      | cons first others => exact noBracket

/-- A text with a colon in its place, or with a bracket that is not closed, is taken. -/
theorem fromString_taken (some_text : str ≠ []) (some_port : ¬ NoPort str) :
    ∃ after, SocketAddress.fromString inet bits before str = some (true, after) := by
  obtain ⟨first, others, rfl⟩ := List.exists_cons_of_ne_nil some_text
  unfold NoPort at some_port
  split at some_port
  · next bracket =>
    obtain rfl : first = 0x5B := Option.some.inj bracket
    by_cases closed : 0x5D ∈ 0x5B :: others
    · obtain ⟨front, behind, parts, noBracket⟩ := last_of_mem closed
      have some_colon : 0x3A ∈ behind := by
        by_contra noColon
        exact some_port ⟨front, behind, parts, noBracket, noColon⟩
      obtain ⟨junk, rest, rfl, noColon⟩ := List.eq_append_cons_of_mem some_colon
      cases front with
      | nil => cases parts
      | cons _ text =>
        obtain ⟨rfl, rfl⟩ := List.cons.inj parts
        exact ⟨_, SocketAddress.fromString_brackets noBracket noColon⟩
    · refine ⟨before, ?_⟩
      have unclosed : SocketAddress.rfind (0x5B :: others) 0x5D = none := by
        rw [SocketAddress.rfind, List.idxOf?_eq_none_iff.mpr (by rwa [List.mem_reverse])]
        rfl
      simp [SocketAddress.fromString, unclosed]
  · next plain =>
    obtain ⟨name, rest, parts, noColon⟩ := List.eq_append_cons_of_mem (not_not.mp some_port)
    have noBracket : name.head? ≠ some 0x5B := by
      intro bracket
      refine plain ?_
      rw [parts, List.head?_append, bracket]
      rfl
    rw [parts]
    exact ⟨_, SocketAddress.fromString_parts noColon noBracket rest⟩

/-! ## Exactness -/

/-- `FromString` reads a text exactly if it is well formed, or has no colon in its place. -/
theorem readsExactly_iff (long : 32 ≤ bits) (some_text : str ≠ []) :
    ReadsExactly inet bits before str ↔ WellFormed str ∨ NoPort str := by
  constructor
  · intro exact'
    by_cases noPort : NoPort str
    · exact .inr noPort
    · exact .inl (exact'.accepts.mp (fromString_taken some_text noPort))
  · rintro (⟨host, port, written⟩ | noPort)
    · have taken := @fromString_written inet bits before _ _ long _ written
      refine ⟨⟨fun _ => ⟨host, port, written⟩, fun _ => ⟨_, taken⟩⟩,
        fun _ _ written' => fromString_written long written', fun after refused => ?_⟩
      rw [taken] at refused
      cases refused
    · have refused := @fromString_noPort inet bits before _ some_text noPort
      refine ⟨⟨?_, fun well => absurd well (not_wellFormed_of_noPort noPort)⟩,
        fun host port written => absurd ⟨host, port, written⟩ (not_wellFormed_of_noPort noPort),
        fun after again => ?_⟩
      · rintro ⟨after, taken⟩
        rw [refused] at taken
        cases taken
      · rw [refused] at again
        cases again
        rfl

/-- The text 1.2.3.4:80 is read exactly. -/
theorem readsExactly_quad :
    ReadsExactly plainInet 64 SocketAddress.nil (CString.ofString "1.2.3.4:80") :=
  (readsExactly_iff (by decide) (by decide +kernel)).mpr (.inl
    ⟨CString.ofString "1.2.3.4", 80, @Written.plain (CString.ofString "1.2.3.4") (by decide +kernel)
      (by decide +kernel) (CString.ofString "80")
      ⟨by decide +kernel, by decide +kernel, by decide +kernel⟩⟩)

/-- A bracket that is not closed is taken for an address, and nothing is read of it. -/
theorem open_bracket_taken :
    ¬ ∀ inet bits before str, 32 ≤ bits → str ≠ [] → ReadsExactly inet bits before str := by
  intro all
  have exact' := all plainInet 64 SocketAddress.nil (CString.ofString "[1.2.3.4") (by decide)
    (by decide +kernel)
  obtain ⟨host, port, written⟩ := exact'.accepts.mp ⟨SocketAddress.nil, by decide +kernel⟩
  have colon : 0x3A ∈ CString.ofString "[1.2.3.4" := by
    generalize CString.ofString "[1.2.3.4" = str at written
    cases written <;> simp
  exact absurd colon (by decide +kernel)

end Libjingle.AddressText
