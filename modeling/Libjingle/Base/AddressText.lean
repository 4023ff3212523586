import Libjingle.Base.SocketAddress
import Libjingle.Std.BigEndian
import Libjingle.Strings.Codecs
import Libjingle.Strings.Tokenize

/-!
# Texts of socket addresses

An address with its host name: it was given by an IP address, by a literal IP string, or by a name to
be resolved. The text shows the name of the last kind, and the IP address of the others. Read again,
an address has the shown text for its host name, which is compared where the IP address is the any
address.
-/

namespace Libjingle.AddressText

open Libjingle.Std

/-! ## The functions -/

/-- `inet_ntop` and `inet_pton` of the platform, for the two families. -/
structure Inet where
  ntop4 : BitVec 32 → List UInt8
  ntop6 : BitVec 128 → List UInt8
  pton4 : List UInt8 → Option (BitVec 32)
  pton6 : List UInt8 → Option (BitVec 128)

/-- `IPAddress::ToString`. -/
def ipToString (inet : Inet) : IPAddress → List UInt8
  | .unspec => []
  | .v4 addr => inet.ntop4 addr
  | .v6 addr => inet.ntop6 addr

/-- `IPFromString`. -/
def ipFromString (inet : Inet) (str : List UInt8) : Option IPAddress :=
  match inet.pton4 (CString.terminated str) with
  | some addr => some (.v4 addr)
  | none => (inet.pton6 (CString.terminated str)).map .v6

/-- `SocketAddress`, less its scope, which neither texts nor comparisons look at. -/
structure SocketAddress where
  hostname : List UInt8
  literal : Bool
  ip : IPAddress
  port : BitVec 16
  deriving DecidableEq, Repr

namespace SocketAddress

/-- `Clear`. -/
def nil : SocketAddress :=
  ⟨[], false, .v4 0, 0⟩

/-- `SetIP` of an address. -/
def setIP (addr : SocketAddress) (ip : IPAddress) : SocketAddress :=
  { addr with hostname := [], literal := false, ip := ip }

/-- `SetIP` of a host name or a literal IP string. -/
def setHostname (inet : Inet) (addr : SocketAddress) (hostname : List UInt8) : SocketAddress :=
  match ipFromString inet hostname with
  | some ip => { addr with hostname := hostname, literal := true, ip := ip }
  | none => { addr with hostname := hostname, literal := false, ip := .v4 0 }

/-- `SetPort`. -/
def setPort (addr : SocketAddress) (port : Nat) : SocketAddress :=
  { addr with port := BitVec.ofNat 16 port }

/-- `IsUnresolvedIP`. -/
def isUnresolved (addr : SocketAddress) : Bool :=
  addr.ip.isAny ∧ ¬ addr.literal ∧ addr.hostname ≠ []

/-- `EqualIPs`. -/
def equalIPs (a b : SocketAddress) : Bool :=
  a.ip = b.ip ∧ (¬ a.ip.isAny ∨ a.hostname = b.hostname)

/-- `operator==`. -/
def equal (a b : SocketAddress) : Bool :=
  equalIPs a b ∧ a.port = b.port

/-- `IPAsString`. -/
def ipAsString (inet : Inet) (addr : SocketAddress) : List UInt8 :=
  if ¬ addr.literal ∧ addr.hostname ≠ [] then addr.hostname
  else
    match addr.ip with
    | .v6 _ => 0x5B :: (ipToString inet addr.ip ++ [0x5D])
    | _ => ipToString inet addr.ip

/-- `ToString`. -/
def toString (inet : Inet) (addr : SocketAddress) : List UInt8 :=
  ipAsString inet addr ++ 0x3A :: CString.decimal addr.port.toNat

/-- `rfind`. -/
def rfind (str : List UInt8) (ch : UInt8) : Option Nat :=
  (str.reverse.idxOf? ch).map (str.length - 1 - ·)

/-- The port behind a position of a text; `bits` is the width of an `unsigned long`. -/
def portFrom (bits : Nat) (str : List UInt8) (pos : Nat) : Nat :=
  (CString.strtoul bits 10 (CString.terminated (str.drop pos))).1

/-- `FromString`: what it returns and the address it leaves; nothing for the empty text, on which it
throws. -/
def fromString (inet : Inet) (bits : Nat) (addr : SocketAddress) (str : List UInt8) :
    Option (Bool × SocketAddress) :=
  match str.head? with
  | none => none
  | some first =>
      if first = 0x5B then
        match rfind str 0x5D with
        | some closebracket =>
            match Strings.find str 0x3A closebracket with
            | some colon =>
                if closebracket < colon then
                  some (true, ((addr.setPort (portFrom bits str (colon + 1))).setHostname inet
                    ((str.drop 1).take (closebracket - 1))))
                else some (false, addr)
            | none => some (false, addr)
        | none => some (true, addr)
      else
        match Strings.find str 0x3A 0 with
        | none => some (false, addr)
        | some pos =>
            some (true, (addr.setPort (portFrom bits str (pos + 1))).setHostname inet (str.take pos))

end SocketAddress

/-! ## The platform -/

/-- What a text in dotted form is made of. -/
def Dotted (ch : UInt8) : Prop :=
  (0x30 ≤ ch ∧ ch ≤ 0x39) ∨ ch = 0x2E

/-- What a text of the second family is made of. -/
def Colons (ch : UInt8) : Prop :=
  Dotted ch ∨ (0x41 ≤ ch ∧ ch ≤ 0x46) ∨ (0x61 ≤ ch ∧ ch ≤ 0x66) ∨ ch = 0x3A

/-- What is relied on: an address is read back from its text, the texts are made of the characters of
their notations, and the notations are told apart by a colon. -/
structure Inet.Lawful (inet : Inet) : Prop where
  pton4_ntop4 : ∀ addr, inet.pton4 (inet.ntop4 addr) = some addr
  pton6_ntop6 : ∀ addr, inet.pton6 (inet.ntop6 addr) = some addr
  ntop4_ne_nil : ∀ addr, inet.ntop4 addr ≠ []
  ntop4_dotted : ∀ addr, ∀ ch ∈ inet.ntop4 addr, Dotted ch
  ntop6_colons : ∀ addr, ∀ ch ∈ inet.ntop6 addr, Colons ch
  colon_mem_ntop6 : ∀ addr, 0x3A ∈ inet.ntop6 addr
  pton4_dotted : ∀ {text addr}, inet.pton4 text = some addr → ∀ ch ∈ text, Dotted ch

variable {inet : Inet} {bits : Nat} {text name : List UInt8} {addr before : SocketAddress}

theorem Colons.solid {ch : UInt8} (colons : Colons ch) : ch ≠ 0 := by
  rintro rfl
  unfold Colons Dotted at colons
  exact absurd colons (by decide)

theorem Dotted.apart {ch : UInt8} (dotted : Dotted ch) : ch ≠ 0 ∧ ch ≠ 0x3A ∧ ch ≠ 0x5B := by
  unfold Dotted at dotted
  refine ⟨?_, ?_, ?_⟩ <;> rintro rfl <;> exact absurd dotted (by decide)

theorem ipFromString_ntop4 (lawful : inet.Lawful) (ip : BitVec 32) :
    ipFromString inet (inet.ntop4 ip) = some (.v4 ip) := by
  have solid : 0 ∉ inet.ntop4 ip := fun zero => (lawful.ntop4_dotted ip 0 zero).apart.1 rfl
  rw [ipFromString, CString.terminated_of_solid solid, lawful.pton4_ntop4]

theorem ipFromString_ntop6 (lawful : inet.Lawful) (ip : BitVec 128) :
    ipFromString inet (inet.ntop6 ip) = some (.v6 ip) := by
  have solid : 0 ∉ inet.ntop6 ip := fun zero => (lawful.ntop6_colons ip 0 zero).solid rfl
  have other : inet.pton4 (inet.ntop6 ip) = none := by
    cases found : inet.pton4 (inet.ntop6 ip) with
    | none => rfl
    | some addr =>
      exact absurd rfl (lawful.pton4_dotted found 0x3A (lawful.colon_mem_ntop6 ip)).apart.2.1
  rw [ipFromString, CString.terminated_of_solid solid, other, lawful.pton6_ntop6]
  rfl

/-! ## Texts of numbers

Dotted decimals, and groups of four hexadecimal digits. Of its own texts a platform is the inverse. -/

section

def dotted (addr : BitVec 32) : List UInt8 :=
  [0x2E].intercalate ((BigEndian.toBytes 4 addr.toNat).map fun byte => CString.decimal byte.toNat)

def undotted (text : List UInt8) : BitVec 32 :=
  let fields := text.splitOn 0x2E
  .ofNat 32 (BigEndian.ofBytes (fields.map fun field => UInt8.ofNat (CString.digitsValue 10 field)))

def hexDigits : Nat → Nat → List UInt8
  | 0, _ => []
  | count + 1, n => hexDigits count (n / 16) ++ [Strings.hexEncodeChar (UInt8.ofNat (n % 16))]

def grouped : List UInt8 → List UInt8
  | a :: b :: c :: d :: e :: rest => a :: b :: c :: d :: 0x3A :: grouped (e :: rest)
  | digits => digits

def groups (addr : BitVec 128) : List UInt8 :=
  grouped (hexDigits 32 addr.toNat)

def ungrouped (text : List UInt8) : BitVec 128 :=
  .ofNat 128 (CString.digitsValue 16 (text.filter (· ≠ 0x3A)))

/-- A platform that writes all eight groups of an address, and reads what it writes. -/
def plainInet : Inet where
  ntop4 := dotted
  ntop6 := groups
  pton4 text := if dotted (undotted text) = text then some (undotted text) else none
  pton6 text := if groups (ungrouped text) = text then some (ungrouped text) else none

theorem mem_dotted {addr : BitVec 32} {ch : UInt8} (mem : ch ∈ dotted addr) : Dotted ch := by
  have digit : ∀ {n : Nat}, ch ∈ CString.decimal n → Dotted ch :=
    fun digit => .inl (CString.decimal_range digit)
  simp only [dotted, BigEndian.toBytes, List.map_cons, List.map_nil, List.intercalate_cons_cons,
    List.intercalate_singleton, List.mem_append, List.mem_singleton] at mem
  rcases mem with (digits | dot) | (digits | dot) | (digits | dot) | digits
  · exact digit digits
  · exact .inr dot
  · exact digit digits
  · exact .inr dot
  · exact digit digits
  · exact .inr dot
  · exact digit digits

theorem dotted_ne_nil (addr : BitVec 32) : dotted addr ≠ [] := by
  simp [dotted, BigEndian.toBytes, List.intercalate_cons_cons]

theorem undotted_dotted (addr : BitVec 32) : undotted (dotted addr) = addr := by
  have apart : ∀ field ∈ (BigEndian.toBytes 4 addr.toNat).map fun byte => CString.decimal byte.toNat,
      0x2E ∉ field := by
    intro field field_mem dot
    obtain ⟨byte, -, rfl⟩ := List.mem_map.mp field_mem
    exact absurd (CString.decimal_range dot).1 (by decide)
  have fields : (dotted addr).splitOn 0x2E =
      (BigEndian.toBytes 4 addr.toNat).map fun byte => CString.decimal byte.toNat :=
    List.splitOn_intercalate _ apart (by simp [BigEndian.toBytes])
  have bytes : ((dotted addr).splitOn 0x2E).map
      (fun field => UInt8.ofNat (CString.digitsValue 10 field)) = BigEndian.toBytes 4 addr.toNat := by
    rw [fields, List.map_map]
    refine List.map_id'' (fun byte => ?_) _
    simp [CString.digitsValue_decimal]
  have fits : addr.toNat < 256 ^ 4 := addr.isLt
  simp only [undotted, bytes, BigEndian.ofBytes_toBytes_of_lt fits, BitVec.ofNat_toNat,
    BitVec.setWidth_eq]

theorem hexEncodeChar_digit {n : Nat} (small : n < 16) :
    CString.digitValue 16 (Strings.hexEncodeChar (UInt8.ofNat n)) = some n := by
  have all : ∀ n : Fin 16, CString.digitValue 16 (Strings.hexEncodeChar (UInt8.ofNat n)) =
      some n.val := by decide +kernel
  exact all ⟨n, small⟩

theorem digitsValue_hexDigits {count n : Nat} (fits : n < 16 ^ count) :
    CString.digitsValue 16 (hexDigits count n) = n := by
  induction count generalizing n with
  | zero =>
    rw [Nat.pow_zero, Nat.lt_one_iff] at fits
    rw [fits]
    rfl
  | succ count ih =>
    have before : CString.digitsValue 16 (hexDigits count (n / 16)) = n / 16 := by
      rw [Nat.pow_succ] at fits
      exact ih (Nat.div_lt_of_lt_mul (by omega))
    have last := hexEncodeChar_digit (Nat.mod_lt n (by decide : 0 < 16))
    rw [CString.digitsValue] at before
    rw [hexDigits, CString.digitsValue, List.foldl_append, before, List.foldl_cons, List.foldl_nil,
      last, Option.getD_some]
    omega

theorem mem_hexDigits {count n : Nat} {ch : UInt8} (mem : ch ∈ hexDigits count n) :
    ∃ digit < 16, ch = Strings.hexEncodeChar (UInt8.ofNat digit) := by
  induction count generalizing n with
  | zero => cases mem
  | succ count ih =>
    rw [hexDigits, List.mem_append, List.mem_singleton] at mem
    rcases mem with before | last
    · exact ih before
    · exact ⟨n % 16, Nat.mod_lt _ (by decide), last⟩

/-- Hexadecimal digits are no colons. -/
theorem hexDigits_colons {count n : Nat} {ch : UInt8} (mem : ch ∈ hexDigits count n) :
    Colons ch ∧ ch ≠ 0x3A := by
  obtain ⟨digit, small, rfl⟩ := mem_hexDigits mem
  have all : ∀ digit : Fin 16, let ch := Strings.hexEncodeChar (UInt8.ofNat digit)
      ((((0x30 ≤ ch ∧ ch ≤ 0x39) ∨ ch = 0x2E) ∨ (0x41 ≤ ch ∧ ch ≤ 0x46) ∨ (0x61 ≤ ch ∧ ch ≤ 0x66) ∨
        ch = 0x3A) ∧ ch ≠ 0x3A) := by decide +kernel
  exact all ⟨digit, small⟩

theorem mem_grouped {digits : List UInt8} {ch : UInt8} (mem : ch ∈ grouped digits) :
    ch ∈ digits ∨ ch = 0x3A := by
  fun_induction grouped digits with
  | case1 a b c d e rest ih => grind
  | case2 digits => exact .inl mem

theorem length_hexDigits (count n : Nat) : (hexDigits count n).length = count := by
  induction count generalizing n with
  | zero => rfl
  | succ count ih => rw [hexDigits, List.length_append, ih, List.length_singleton]

theorem colon_mem_grouped {digits : List UInt8} (several : 4 < digits.length) :
    0x3A ∈ grouped digits := by
  match digits, several with
  | a :: b :: c :: d :: e :: rest, _ => simp [grouped]

theorem filter_grouped (digits : List UInt8) :
    (grouped digits).filter (· ≠ 0x3A) = digits.filter (· ≠ 0x3A) := by
  fun_induction grouped digits with
  | case1 a b c d e rest ih => simp only [List.filter_cons, ih]; simp
  | case2 digits => rfl

theorem ungrouped_groups (addr : BitVec 128) : ungrouped (groups addr) = addr := by
  have digits : (hexDigits 32 addr.toNat).filter (· ≠ 0x3A) = hexDigits 32 addr.toNat :=
    List.filter_eq_self.mpr fun ch mem => decide_eq_true (hexDigits_colons mem).2
  have fits : addr.toNat < 16 ^ 32 := addr.isLt
  rw [ungrouped, groups, filter_grouped, digits, digitsValue_hexDigits fits, BitVec.ofNat_toNat,
    BitVec.setWidth_eq]

theorem mem_groups {addr : BitVec 128} {ch : UInt8} (mem : ch ∈ groups addr) : Colons ch := by
  rw [groups] at mem
  rcases mem_grouped mem with digit | colon
  · exact (hexDigits_colons digit).1
  · exact .inr (.inr (.inr colon))

theorem colon_mem_groups (addr : BitVec 128) : 0x3A ∈ groups addr := by
  rw [groups]
  exact colon_mem_grouped (by rw [length_hexDigits]; decide)

theorem plainInet_lawful : plainInet.Lawful where
  pton4_ntop4 addr := by
    simp only [plainInet, undotted_dotted, if_true]
  pton6_ntop6 addr := by
    simp only [plainInet, ungrouped_groups, if_true]
  ntop4_ne_nil := dotted_ne_nil
  ntop4_dotted _ _ mem := mem_dotted mem
  ntop6_colons addr ch mem := by
    simp only [plainInet] at mem
    exact mem_groups mem
  colon_mem_ntop6 addr := by
    simp only [plainInet]
    exact colon_mem_groups addr
  pton4_dotted := by
    intro text addr read ch mem
    simp only [plainInet] at read
    split at read
    · next written => exact mem_dotted (written ▸ mem)
    · cases read

end

/-! ## Reading -/

namespace SocketAddress

/-- A name without a colon, and the text of a port. -/
theorem fromString_parts (noColon : 0x3A ∉ name) (noBracket : name.head? ≠ some 0x5B)
    (rest : List UInt8) :
    fromString inet bits before (name ++ 0x3A :: rest) =
      some (true, (before.setPort (CString.strtoul bits 10 (CString.terminated rest)).1).setHostname
        inet name) := by
  have head : ∃ first, (name ++ 0x3A :: rest).head? = some first ∧ first ≠ 0x5B := by
    cases name with
    | nil => exact ⟨0x3A, rfl, by decide⟩
    | cons first others => exact ⟨first, rfl, fun same => noBracket (by rw [same]; rfl)⟩
  obtain ⟨first, head, apart⟩ := head
  have colon : Strings.find (name ++ 0x3A :: rest) 0x3A 0 = some name.length := by
    rw [Strings.find_eq_cut, List.drop_zero, Strings.cut_append _ noColon, Option.map_some,
      Nat.zero_add]
  rw [fromString, head]
  simp only [if_neg apart, colon, List.take_left, portFrom, Strings.drop_of_parts rfl]

/-- The last of a mark stands where the text behind it has none. -/
theorem rfind_parts {str front behind : List UInt8} {mark : UInt8}
    (parts : str = front ++ mark :: behind) (none : mark ∉ behind) :
    rfind str mark = some front.length := by
  have backwards : str.reverse = behind.reverse ++ mark :: front.reverse := by
    rw [parts]
    simp
  rw [rfind, Strings.idxOf?_eq_cut, backwards, Strings.cut_append _ (by rwa [List.mem_reverse]),
    Option.map_some, Option.map_some, parts]
  simp only [List.length_append, List.length_cons, List.length_reverse]
  congr 1
  omega

/-- A text in brackets, what is passed over, and the text of a port. -/
theorem fromString_brackets {junk rest : List UInt8} (noBracket : 0x5D ∉ junk ++ 0x3A :: rest)
    (noColon : 0x3A ∉ junk) :
    fromString inet bits before (0x5B :: (text ++ 0x5D :: (junk ++ 0x3A :: rest))) =
      some (true, (before.setPort (CString.strtoul bits 10 (CString.terminated rest)).1).setHostname
        inet text) := by
  generalize parts : 0x5B :: (text ++ 0x5D :: (junk ++ 0x3A :: rest)) = str
  have whole : str = (0x5B :: text) ++ 0x5D :: (junk ++ 0x3A :: rest) := parts.symm
  have closebracket : rfind str 0x5D = some (text.length + 1) := rfind_parts whole noBracket
  have behind : str.drop (text.length + 1) = 0x5D :: (junk ++ 0x3A :: rest) := by
    rw [whole]
    exact List.drop_left
  have passed : 0x3A ∉ 0x5D :: junk := by
    rw [List.mem_cons, not_or]
    exact ⟨by decide, noColon⟩
  have colon : Strings.find str 0x3A (text.length + 1) =
      some (text.length + 1 + (junk.length + 1)) := by
    have found := Strings.cut_append rest passed
    rw [List.cons_append] at found
    rw [Strings.find_eq_cut, behind, found]
    rfl
  have port_text : str.drop (text.length + 1 + (junk.length + 1) + 1) = rest := by
    have front : str = (0x5B :: (text ++ 0x5D :: junk)) ++ 0x3A :: rest := by
      rw [whole]
      simp
    have length : text.length + 1 + (junk.length + 1) + 1 =
        (0x5B :: (text ++ 0x5D :: junk)).length + 1 := by
      simp only [List.length_append, List.length_cons]
      omega
    rw [length]
    exact Strings.drop_of_parts front
  have inside : (str.drop 1).take (text.length + 1 - 1) = text := by
    rw [whole, Nat.add_sub_cancel]
    exact List.take_left
  have head : str.head? = some 0x5B := by
    rw [whole]
    rfl
  rw [fromString, head]
  simp only [if_true, closebracket, colon, inside, portFrom, port_text]
  rw [if_pos (by omega)]

theorem portText_decimal (long : 32 ≤ bits) (port : BitVec 16) :
    (CString.strtoul bits 10 (CString.terminated (CString.decimal port.toNat))).1 = port.toNat := by
  have solid : 0 ∉ CString.decimal port.toNat := fun zero =>
    absurd (CString.decimal_range zero).1 (by decide)
  have fits : port.toNat < 2 ^ bits := by
    have least : 2 ^ 32 ≤ 2 ^ bits := Nat.pow_le_pow_right (by decide) long
    have small := port.isLt
    omega
  have read := @CString.strtoul_decimal port.toNat [] bits fits fun _ _ none => by cases none
  rw [List.append_nil] at read
  rw [CString.terminated_of_solid solid, read]

/-- A name without a colon, and a port. -/
theorem fromString_plain (long : 32 ≤ bits) (noColon : 0x3A ∉ name)
    (noBracket : name.head? ≠ some 0x5B) (port : BitVec 16) :
    fromString inet bits before (name ++ 0x3A :: CString.decimal port.toNat) =
      some (true, (before.setPort port.toNat).setHostname inet name) := by
  rw [fromString_parts noColon noBracket, portText_decimal long]

/-- A text in brackets, and a port. -/
theorem fromString_bracketed (long : 32 ≤ bits) (text : List UInt8) (port : BitVec 16) :
    fromString inet bits before
        (0x5B :: (text ++ [0x5D]) ++ 0x3A :: CString.decimal port.toNat) =
      some (true, (before.setPort port.toNat).setHostname inet text) := by
  have noBracket : 0x5D ∉ [] ++ 0x3A :: CString.decimal port.toNat := by
    rw [List.nil_append, List.mem_cons, not_or]
    exact ⟨by decide, fun digit => absurd (CString.decimal_range digit) (by decide)⟩
  have whole : 0x5B :: (text ++ [0x5D]) ++ 0x3A :: CString.decimal port.toNat =
      0x5B :: (text ++ 0x5D :: ([] ++ 0x3A :: CString.decimal port.toNat)) := by simp
  rw [whole, fromString_brackets noBracket List.not_mem_nil, portText_decimal long]

/-! ## Round trips -/

/-- An address as callers make it: of an IP address, of a literal IP string, or of a host name. -/
inductive Made (inet : Inet) : SocketAddress → Prop
  | ip (ip : IPAddress) (known : ip ≠ .unspec) (port : BitVec 16) :
      Made inet ((nil.setIP ip).setPort port.toNat)
  | literal (text : List UInt8) (parsed : (ipFromString inet text).isSome) (port : BitVec 16) :
      Made inet ((nil.setHostname inet text).setPort port.toNat)
  | host (name : List UInt8) (unresolved : ipFromString inet name = none) (some_name : name ≠ [])
      (noColon : 0x3A ∉ name) (noBracket : name.head? ≠ some 0x5B) (port : BitVec 16) :
      Made inet ((nil.setHostname inet name).setPort port.toNat)

/-- The text is read with success, whatever the address was, and the address read equals the one
shown. -/
def RoundTrips (inet : Inet) (bits : Nat) (addr : SocketAddress) : Prop :=
  ∀ before, ∃ after, fromString inet bits before (toString inet addr) = some (true, after) ∧
    equal after addr = true

/-- The any address is known by the text that is shown of it. -/
def NamedAsShown (inet : Inet) (addr : SocketAddress) : Prop :=
  addr.ip.isAny → addr.isUnresolved ∨ addr.hostname = ipToString inet addr.ip

/-- The text of an address that is not shown by a name is read as a literal. -/
theorem roundTrips_shown (lawful : inet.Lawful) (long : 32 ≤ bits) (known : addr.ip ≠ .unspec)
    (shown : addr.literal = true ∨ addr.hostname = []) :
    RoundTrips inet bits addr ↔ (addr.ip.isAny → addr.hostname = ipToString inet addr.ip) := by
  have read : ∀ before, fromString inet bits before (toString inet addr) = some (true,
      { before with
        hostname := ipToString inet addr.ip, literal := true, ip := addr.ip, port := addr.port }) := by
    intro before
    have unnamed : ¬ (¬ addr.literal ∧ addr.hostname ≠ []) := by
      rintro ⟨numeric, named⟩
      rcases shown with literal | none
      · exact numeric literal
      · exact named none
    rw [toString, ipAsString, if_neg unnamed]
    cases ip : addr.ip with
    | unspec => exact absurd ip known
    | v4 quad =>
      simp only [ipToString]
      have noColon : 0x3A ∉ inet.ntop4 quad := fun colon =>
        (lawful.ntop4_dotted quad _ colon).apart.2.1 rfl
      have noBracket : (inet.ntop4 quad).head? ≠ some 0x5B := fun bracket =>
        (lawful.ntop4_dotted quad _ (List.mem_of_head? bracket)).apart.2.2 rfl
      rw [fromString_plain long noColon noBracket, setHostname,
        ipFromString_ntop4 lawful]
      simp [setPort]
    | v6 quad =>
      simp only [ipToString]
      rw [fromString_bracketed long, setHostname, ipFromString_ntop6 lawful]
      simp [setPort]
  constructor
  · intro roundTrips any
    obtain ⟨after, found, same⟩ := roundTrips nil
    rw [read] at found
    obtain ⟨-, rfl⟩ := Prod.mk.inj (Option.some.inj found)
    simp [equal, equalIPs, any] at same
    exact same.symm
  · intro named before
    refine ⟨_, read before, ?_⟩
    by_cases any : addr.ip.isAny
    · simp [equal, equalIPs, named any]
    · simp [equal, equalIPs, any]

/-- The text of a name is read as the name. -/
theorem roundTrips_host (long : 32 ≤ bits) (unresolved : ipFromString inet name = none)
    (some_name : name ≠ []) (noColon : 0x3A ∉ name) (noBracket : name.head? ≠ some 0x5B)
    (port : BitVec 16) :
    RoundTrips inet bits ((nil.setHostname inet name).setPort port.toNat) := by
  intro before
  have shown : toString inet ((nil.setHostname inet name).setPort port.toNat) =
      name ++ 0x3A :: CString.decimal port.toNat := by
    simp [toString, ipAsString, setHostname, unresolved, setPort, some_name]
  refine ⟨_, by rw [shown, fromString_plain long noColon noBracket], ?_⟩
  simp [equal, equalIPs, setHostname, unresolved, setPort]

/-- An address is read back from its text but for an any address that is not named by it. -/
theorem roundTrips_iff (lawful : inet.Lawful) (long : 32 ≤ bits) (made : Made inet addr) :
    RoundTrips inet bits addr ↔ NamedAsShown inet addr := by
  cases made with
  | ip ip known port =>
    have shown : ((nil.setIP ip).setPort port.toNat).literal = true ∨
        ((nil.setIP ip).setPort port.toNat).hostname = [] := .inr rfl
    rw [roundTrips_shown lawful long known shown]
    have resolved : ((nil.setIP ip).setPort port.toNat).isUnresolved = false := by
      simp [isUnresolved, setPort, setIP]
    simp [NamedAsShown, resolved]
  | literal text parsed port =>
    obtain ⟨ip, found⟩ := Option.isSome_iff_exists.mp parsed
    have known : ip ≠ .unspec := by
      rintro rfl
      unfold ipFromString at found
      split at found
      · cases found
      · obtain ⟨quad, -, same⟩ := Option.map_eq_some_iff.mp found
        cases same
    have literal : (nil.setHostname inet text).setPort port.toNat =
        ⟨text, true, ip, port⟩ := by
      simp [setHostname, found, setPort]
    rw [literal, roundTrips_shown lawful long known (.inl rfl)]
    simp [NamedAsShown, isUnresolved]
  | host name unresolved some_name noColon noBracket port =>
    have trips := roundTrips_host long unresolved some_name noColon noBracket port
    refine iff_of_true trips fun any => .inl ?_
    simp [isUnresolved, setHostname, unresolved, setPort, some_name, IPAddress.isAny]

/-- The text of 1.2.3.4 and the port 5678 is read as that address. -/
theorem roundTrips_plain :
    toString plainInet ((nil.setIP (.v4 0x01020304)).setPort 5678) =
        CString.ofString "1.2.3.4:5678" ∧
      RoundTrips plainInet 64 ((nil.setIP (.v4 0x01020304)).setPort 5678) :=
  ⟨by decide +kernel,
    (roundTrips_iff plainInet_lawful (by decide) (.ip (.v4 0x01020304) nofun 5678)).mpr fun any =>
      absurd any (by decide)⟩

/-- The any address, given as an IP address, is not read back: it has no host name, and what is read
has the text of the address. -/
theorem any_not_roundTrips :
    ¬ ∀ inet bits addr, Inet.Lawful inet → 32 ≤ bits → Made inet addr → RoundTrips inet bits addr := by
  intro all
  have trips := all plainInet 64 _ plainInet_lawful (by decide) (.ip (.v4 0) nofun 0)
  have named := (roundTrips_shown plainInet_lawful (by decide) (by decide) (.inr rfl)).mp trips rfl
  exact absurd named (by decide)

end SocketAddress

end Libjingle.AddressText
