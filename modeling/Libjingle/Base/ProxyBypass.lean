import Libjingle.Base.AddressText
import Libjingle.Strings.StringMatch

/-!
# Proxy bypass lists

`ProxyListMatch` of `talk/base/proxydetect.cc`. An item is cut at its first colon, in place. What is
left is an IPv4 network if enough numbers are scanned from it, the end of a host name, or a pattern.
The length of the item is the one it had with its port.
-/

namespace Libjingle.ProxyDetect

open Libjingle.Std CString Wildcard Strings AddressText

/-! ## The functions -/

/-- What a list is compared with. -/
structure Url where
  host : List UInt8
  port : BitVec 16
  deriving DecidableEq, Repr

/-- `atol`, where a `long` has `bits` bits. -/
def atol (bits : Nat) (text : List UInt8) : Int :=
  let (negative, digits, _) := takeNumber 10 text
  convertSigned bits negative (digitsValue 10 digits)

/-- The numbers that `sscanf` stores for conversions `%d` with these characters between them. -/
def scanInts (bits : Nat) : List UInt8 → List UInt8 → List Int
  | [], text => ((scanInt bits text).map Prod.fst).toList
  | between :: more, text =>
      match scanInt bits text with
      | none => []
      | some (number, rest) =>
          number ::
            match scanLiteral [between] rest with
            | none => []
            | some rest => scanInts bits more rest

def hostOrderInteger (a b c d : Int) : BitVec 32 :=
  let part (number : Int) : BitVec 32 := BitVec.ofInt 32 number &&& 0xFF
  part a <<< 24 ||| part b <<< 16 ||| part c <<< 8 ||| part d

/-- The bits of the mask, by the number behind the slash if there is one. -/
def maskBits : List Int → Nat
  | [] => 32
  | m :: _ => if 32 < m then 32 else if m < 0 then 0 else m.toNat

def mask (m : Nat) : BitVec 32 :=
  if m = 0 then 0 else BitVec.allOnes 32 <<< (32 - m)

/-- `A.B.C.D` or `A.B.C.D/24`. -/
def scanNetwork (bits : Nat) (item : List UInt8) : Option (BitVec 32 × Nat) :=
  match scanInts bits [0x2E, 0x2E, 0x2E, 0x2F] item with
  | a :: b :: c :: d :: more => some (hostOrderInteger a b c d, maskBits more)
  | _ => none

/-- `v4AddressAsHostOrderInteger`. -/
def v4AddressAsHostOrderInteger : IPAddress → BitVec 32
  | .v4 addr => addr
  | _ => 0

section

variable (inet : Inet) (bits : Nat)

/-- What `ProxyItemMatch` does behind the port; `len` is the length of the item with it. -/
def proxyHostMatch (host item : List UInt8) (len : Nat) : Bool :=
  match scanNetwork bits item with
  | some (ip, m) =>
      let addr := (SocketAddress.setHostname inet .nil host).setPort 0
      !addr.isUnresolved && v4AddressAsHostOrderInteger addr.ip &&& mask m == ip &&& mask m
  | none =>
      if item.head? = some 0x2E then
        len < host.length && sameNoCase (terminated (host.drop (host.length - len))) item
      else stringMatch (terminated host) item

def proxyItemMatch (url : Url) (item : List UInt8) : Bool :=
  match splitAtChar 0x3A item with
  | some (front, port) =>
      if url.port.toNat ≠ atol bits port then false
      else proxyHostMatch inet bits url.host front item.length
  | none => proxyHostMatch inet bits url.host item item.length

/-- The turns of the loop, each of which passes over a character at least. -/
def proxyListLoop (url : Url) (sep : UInt8) : Nat → List UInt8 → Bool
  | 0, _ => false
  | turns + 1, list =>
      match list with
      | [] => false
      | ch :: behind =>
          if isSpace ch then proxyListLoop url sep turns behind
          else
            let (start, rest) := (splitAtChar sep list).getD (list, [])
            let item := trimEnd start
            if 256 ≤ item.length then proxyListLoop url sep turns rest
            else if proxyItemMatch inet bits url item then true
            else proxyListLoop url sep turns rest

def proxyListMatch (url : Url) (list : List UInt8) (sep : UInt8) : Bool :=
  let list := terminated list
  proxyListLoop inet bits url sep list.length list

end

/-! ## What a list says -/

def trim (text : List UInt8) : List UInt8 :=
  trimEnd (skipSpace text)

/-- The items of a list, without the blanks around them. -/
def items (sep : UInt8) (list : List UInt8) : List (List UInt8) :=
  (list.splitOn sep).map trim

structure Numeral (digits : List UInt8) : Prop where
  nonempty : digits ≠ []
  digit : ∀ ch ∈ digits, isDigit 10 ch = true

structure Octet (part : List UInt8) : Prop where
  numeral : Numeral part
  small : digitsValue 10 part < 256

def quad (a b c d : List UInt8) : BitVec 32 :=
  .ofNat 32 (BigEndian.ofBytes ([a, b, c, d].map fun part => UInt8.ofNat (digitsValue 10 part)))

/-- The form `A.B.C.D[/m]`, which stands for an address and the bits of it that count. -/
inductive Network : List UInt8 → BitVec 32 → Nat → Prop
  | whole {a b c d : List UInt8} (octets : ∀ part ∈ [a, b, c, d], Octet part) :
      Network (a ++ 0x2E :: (b ++ 0x2E :: (c ++ 0x2E :: d))) (quad a b c d) 32
  | masked {a b c d m : List UInt8} (octets : ∀ part ∈ [a, b, c, d], Octet part)
      (numeral : Numeral m) (small : digitsValue 10 m < 2 ^ 31) :
      Network (a ++ 0x2E :: (b ++ 0x2E :: (c ++ 0x2E :: (d ++ 0x2F :: m)))) (quad a b c d)
        (min (digitsValue 10 m) 32)

/-- Two addresses with the same first bits. -/
def Agree (m : Nat) (a b : BitVec 32) : Prop :=
  ∀ i < m, a.getMsbD i = b.getMsbD i

/-- A longer text that ends with the suffix, ignoring case. -/
def EndsWith (host suffix : List UInt8) : Prop :=
  suffix.length < host.length ∧ ∃ front behind, host = front ++ behind ∧ sameNoCase behind suffix = true

/-- An item without a port names the host. -/
inductive HostMatches (inet : Inet) (host : List UInt8) : List UInt8 → Prop
  | network {item : List UInt8} {net ip : BitVec 32} {m : Nat} (form : Network item net m)
      (literal : inet.pton4 host = some ip) (agree : Agree m ip net) : HostMatches inet host item
  | suffix {item : List UInt8} (dot : item.head? = some 0x2E) (ends : EndsWith host item) :
      HostMatches inet host item
  | pattern {item : List UInt8} (other : ∀ net m, ¬ Network item net m)
      (noDot : item.head? ≠ some 0x2E) (expands : Expands Alike (wild item) host) :
      HostMatches inet host item

/-- An item names the host and the port, if it has one. -/
inductive ItemMatches (inet : Inet) (url : Url) : List UInt8 → Prop
  | port {item digits : List UInt8} (numeral : Numeral digits)
      (same : digitsValue 10 digits = url.port.toNat) (rest : ItemMatches inet url item) :
      ItemMatches inet url (item ++ 0x3A :: digits)
  | host {item : List UInt8} (noPort : ∀ front digits, Numeral digits → item ≠ front ++ 0x3A :: digits)
      (rest : HostMatches inet url.host item) : ItemMatches inet url item

/-! ## Networks -/

variable {inet : Inet} {bits m : Nat} {url : Url} {host item front digits behind : List UInt8}
  {net ip : BitVec 32}

theorem Numeral.head (numeral : Numeral digits) (ch : UInt8) (rest : List UInt8) :
    digits ++ rest = ch :: behind → isDigit 10 ch = true := by
  obtain ⟨first, others, whole⟩ := List.exists_cons_of_ne_nil numeral.nonempty
  intro same
  rw [whole, List.cons_append] at same
  exact (List.cons.inj same).1 ▸ numeral.digit first (whole ▸ List.mem_cons_self)

theorem Numeral.scanInt (numeral : Numeral digits) (long : 32 ≤ bits)
    (fits : digitsValue 10 digits < 2 ^ 31) (rest : List UInt8)
    (ends : ∀ c behind, rest = c :: behind → isDigit 10 c = false) :
    scanInt bits (digits ++ rest) = some (↑(digitsValue 10 digits), rest) :=
  scanInt_fits long (fun _ none => absurd none List.not_mem_nil) numeral.nonempty numeral.digit fits
    ends

theorem ofInt_and_byte {n : Nat} (small : n < 256) :
    BitVec.ofInt 32 n &&& 0xFF = BitVec.ofNat 32 n := by
  apply BitVec.eq_of_toNat_eq
  have low : (255 : Nat) = 2 ^ 8 - 1 := rfl
  have same : (BitVec.ofInt 32 (n : Int)).toNat = n := by
    rw [BitVec.toNat_ofInt]
    omega
  rw [BitVec.toNat_and, same, BitVec.toNat_ofNat]
  show n &&& 255 = _
  rw [low, Nat.and_two_pow_sub_one_eq_mod]
  omega

/-- The numbers of four bytes, shifted to their places. -/
theorem hostOrderInteger_octets {a b c d : List UInt8} (octets : ∀ part ∈ [a, b, c, d], Octet part) :
    hostOrderInteger (digitsValue 10 a) (digitsValue 10 b) (digitsValue 10 c) (digitsValue 10 d) =
      quad a b c d := by
  have a_small := (octets a (by simp)).small
  have b_small := (octets b (by simp)).small
  have c_small := (octets c (by simp)).small
  have d_small := (octets d (by simp)).small
  simp only [hostOrderInteger, quad, List.map]
  rw [ofInt_and_byte a_small, ofInt_and_byte b_small, ofInt_and_byte c_small, ofInt_and_byte d_small]
  generalize digitsValue 10 a = a, digitsValue 10 b = b, digitsValue 10 c = c,
    digitsValue 10 d = d at a_small b_small c_small d_small
  apply BitVec.eq_of_toNat_eq
  have shifted : ∀ {n place : Nat}, n < 256 → place ≤ 24 →
      (BitVec.ofNat 32 n <<< place).toNat = 2 ^ place * n := by
    intro n place n_small place_le
    have bound : 2 ^ place ≤ 2 ^ 24 := Nat.pow_le_pow_right (by decide) place_le
    have product : 2 ^ place * n ≤ 2 ^ 24 * 255 := Nat.mul_le_mul bound (by omega)
    have plain : n % 2 ^ 32 = n := Nat.mod_eq_of_lt (by omega)
    rw [BitVec.toNat_shiftLeft, BitVec.toNat_ofNat, plain, Nat.shiftLeft_eq, Nat.mul_comm]
    exact Nat.mod_eq_of_lt (by omega)
  have d_plain : (BitVec.ofNat 32 d).toNat = d := Nat.mod_eq_of_lt (by omega)
  have two : 2 ^ 8 * c ||| d = 2 ^ 8 * c + d := (Nat.two_pow_add_eq_or_of_lt d_small c).symm
  have three : 2 ^ 16 * b ||| (2 ^ 8 * c + d) = 2 ^ 16 * b + (2 ^ 8 * c + d) :=
    (Nat.two_pow_add_eq_or_of_lt (by omega) b).symm
  have four : 2 ^ 24 * a ||| (2 ^ 16 * b + (2 ^ 8 * c + d)) =
      2 ^ 24 * a + (2 ^ 16 * b + (2 ^ 8 * c + d)) :=
    (Nat.two_pow_add_eq_or_of_lt (by omega) a).symm
  have bytes : BigEndian.ofBytes [UInt8.ofNat a, UInt8.ofNat b, UInt8.ofNat c, UInt8.ofNat d] =
      2 ^ 24 * a + (2 ^ 16 * b + (2 ^ 8 * c + d)) := by
    simp only [BigEndian.ofBytes, List.length, UInt8.toNat_ofNat']
    omega
  rw [BitVec.toNat_or, BitVec.toNat_or, BitVec.toNat_or, shifted a_small (by decide),
    shifted b_small (by decide), shifted c_small (by decide), d_plain, Nat.or_assoc, Nat.or_assoc,
    two, three, four, bytes, BitVec.toNat_ofNat]
  exact (Nat.mod_eq_of_lt (by omega)).symm

theorem scanInts_between (numeral : Numeral digits) (long : 32 ≤ bits)
    (fits : digitsValue 10 digits < 2 ^ 31) {between : UInt8} (apart : isDigit 10 between = false)
    (more rest : List UInt8) :
    scanInts bits (between :: more) (digits ++ between :: rest) =
      ↑(digitsValue 10 digits) :: scanInts bits more rest := by
  have scanned := numeral.scanInt long fits (between :: rest) fun c behind same =>
    (List.cons.inj same).1 ▸ apart
  simp [scanInts, scanned, scanLiteral]

theorem scanInts_last (numeral : Numeral digits) (long : 32 ≤ bits)
    (fits : digitsValue 10 digits < 2 ^ 31) (betweens : List UInt8) :
    scanInts bits betweens digits = [↑(digitsValue 10 digits)] := by
  have scanned := numeral.scanInt long fits [] fun _ _ same => by cases same
  rw [List.append_nil] at scanned
  cases betweens <;> simp [scanInts, scanned, scanLiteral]

theorem Octet.fits {part : List UInt8} (octet : Octet part) : digitsValue 10 part < 2 ^ 31 :=
  Nat.lt_trans octet.small (by decide)

/-- A network is scanned as what it stands for. -/
theorem Network.scan (network : Network item net m) (long : 32 ≤ bits) :
    scanNetwork bits item = some (net, m) := by
  have dot : isDigit 10 0x2E = false := rfl
  have slash : isDigit 10 0x2F = false := rfl
  cases network with
  | @whole a b c d octets =>
    have a_octet := octets a (by simp)
    have b_octet := octets b (by simp)
    have c_octet := octets c (by simp)
    have d_octet := octets d (by simp)
    rw [scanNetwork, scanInts_between a_octet.numeral long a_octet.fits dot,
      scanInts_between b_octet.numeral long b_octet.fits dot,
      scanInts_between c_octet.numeral long c_octet.fits dot,
      scanInts_last d_octet.numeral long d_octet.fits]
    exact congrArg some (Prod.ext (hostOrderInteger_octets octets) rfl)
  | @masked a b c d m octets numeral small =>
    have a_octet := octets a (by simp)
    have b_octet := octets b (by simp)
    have c_octet := octets c (by simp)
    have d_octet := octets d (by simp)
    rw [scanNetwork, scanInts_between a_octet.numeral long a_octet.fits dot,
      scanInts_between b_octet.numeral long b_octet.fits dot,
      scanInts_between c_octet.numeral long c_octet.fits dot,
      scanInts_between d_octet.numeral long d_octet.fits slash,
      scanInts_last numeral long small]
    refine congrArg some (Prod.ext (hostOrderInteger_octets octets) ?_)
    simp only [maskBits]
    split
    · omega
    · split <;> omega

/-- A text that starts with a dot has no number in front. -/
theorem scanNetwork_dot (dot : item.head? = some 0x2E) : scanNetwork bits item = none := by
  obtain ⟨rest, rfl⟩ : ∃ rest, item = 0x2E :: rest := by
    cases item with
    | nil => cases dot
    | cons ch rest => exact ⟨rest, congrArg (· :: rest) (Option.some.inj dot)⟩
  have none : scanInt bits (0x2E :: rest) = none := rfl
  simp [scanNetwork, scanInts, none]

theorem Network.no_dot (network : Network item net m) : item.head? ≠ some 0x2E := by
  intro dot
  cases (network.scan (Nat.le_refl 32)).symm.trans (scanNetwork_dot dot)

theorem getMsbD_mask (m i : Nat) (inside : i < 32) : (mask m).getMsbD i = decide (i < m) := by
  unfold mask
  split
  · next zero => simp [zero]
  · rw [BitVec.getMsbD_shiftLeft, BitVec.getMsbD_allOnes]
    exact decide_eq_decide.mpr (by omega)

/-- The mask leaves the first bits. -/
theorem and_mask_eq_iff (m : Nat) (a b : BitVec 32) :
    a &&& mask m = b &&& mask m ↔ Agree m a b := by
  constructor
  · intro same i inside
    by_cases place : i < 32
    · have bit := congrArg (·.getMsbD i) same
      simpa [getMsbD_mask m i place, inside] using bit
    · rw [BitVec.getMsbD_of_ge _ _ (Nat.not_lt.mp place), BitVec.getMsbD_of_ge _ _ (Nat.not_lt.mp place)]
  · intro agree
    refine BitVec.eq_of_getMsbD_eq fun i place => ?_
    rw [BitVec.getMsbD_and, BitVec.getMsbD_and, getMsbD_mask m i place]
    by_cases inside : i < m
    · rw [agree i inside]
    · simp [inside]

/-! ## The host -/

/-- The host is the text of an address, one that is not IPv4 counting as zero. -/
def Covered (inet : Inet) (host : List UInt8) (net : BitVec 32) (m : Nat) : Prop :=
  ∃ ip, ipFromString inet host = some ip ∧ Agree m (v4AddressAsHostOrderInteger ip) net

theorem proxyHostMatch_scanned (some_host : host ≠ []) (scan : scanNetwork bits item = some (net, m))
    (len : Nat) : proxyHostMatch inet bits host item len = true ↔ Covered inet host net m := by
  have decided : proxyHostMatch inet bits host item len =
      (!(SocketAddress.setHostname inet .nil host).isUnresolved &&
        v4AddressAsHostOrderInteger (SocketAddress.setHostname inet .nil host).ip &&& mask m ==
          net &&& mask m) := by
    rw [proxyHostMatch, scan]
    rfl
  rw [decided, Covered, Bool.and_eq_true, beq_iff_eq, and_mask_eq_iff, SocketAddress.setHostname]
  cases found : ipFromString inet host with
  | none => simp [SocketAddress.isUnresolved, IPAddress.isAny, some_host]
  | some ip => simp [SocketAddress.isUnresolved]

theorem sameNoCase_length {a b : List UInt8} (same : sameNoCase a b = true) : a.length = b.length := by
  simpa using congrArg List.length (beq_iff_eq.mp same)

/-- With the length of the item itself its end is compared, with a greater one nothing is the same. -/
theorem proxyHostMatch_suffix (solid : 0 ∉ host) (dot : item.head? = some 0x2E) {len : Nat}
    (at_least : item.length ≤ len) :
    proxyHostMatch inet bits host item len = true ↔ len = item.length ∧ EndsWith host item := by
  have decided : proxyHostMatch inet bits host item len =
      (decide (len < host.length) && sameNoCase (host.drop (host.length - len)) item) := by
    rw [proxyHostMatch, scanNetwork_dot dot]
    simp only [dot, if_true]
    rw [terminated_of_solid fun zero => solid (List.mem_of_mem_drop zero)]
  rw [decided, Bool.and_eq_true, decide_eq_true_eq]
  constructor
  · rintro ⟨longer, same⟩
    have lengths := sameNoCase_length same
    rw [List.length_drop] at lengths
    exact ⟨by omega, by omega, _, _, (List.take_append_drop _ host).symm, same⟩
  · rintro ⟨rfl, longer, front, behind, rfl, same⟩
    have lengths := sameNoCase_length same
    refine ⟨longer, ?_⟩
    rwa [← lengths, List.length_append, Nat.add_sub_cancel, List.drop_left]

theorem proxyHostMatch_pattern (solid : 0 ∉ host) (scan : scanNetwork bits item = none)
    (noDot : item.head? ≠ some 0x2E) (len : Nat) :
    proxyHostMatch inet bits host item len = true ↔ Expands Alike (literalBehind item) host := by
  rw [proxyHostMatch, scan]
  simp only [if_neg noDot]
  rw [terminated_of_solid solid, stringMatch_iff]

/-! ## What is read wrongly -/

/-- Where an item without its port names one host and is taken to name another: `behind` says that
there was something behind a colon. -/
inductive HostMisread (inet : Inet) (bits : Nat) (host : List UInt8) (behind : Prop) : List UInt8 → Prop
  /-- The end of the host is compared with a text of another length. -/
  | suffix {item : List UInt8} (port : behind) (dot : item.head? = some 0x2E)
      (ends : EndsWith host item) : HostMisread inet bits host behind item
  /-- An IPv6 address counts as zero. -/
  | network {item : List UInt8} {net : BitVec 32} {m : Nat} {ip : BitVec 128}
      (form : Network item net m) (other : inet.pton4 host = none) (literal : inet.pton6 host = some ip)
      (agree : Agree m 0 net) : HostMisread inet bits host behind item
  /-- A pattern in which numbers are scanned. -/
  | scanned {item : List UInt8} {net : BitVec 32} {m : Nat} (scan : scanNetwork bits item = some (net, m))
      (other : ∀ net m, ¬ Network item net m)
      (differ : Covered inet host net m ↔ ¬ Expands Alike (wild item) host) :
      HostMisread inet bits host behind item
  /-- A star behind a star. -/
  | stars {item : List UInt8} (scan : scanNetwork bits item = none) (noDot : item.head? ≠ some 0x2E)
      (expands : Expands Alike (wild item) host) (literally : ¬ Expands Alike (literalBehind item) host) :
      HostMisread inet bits host behind item

variable {len : Nat} {behindColon : Prop}

theorem hostMatches_network (form : Network item net m) :
    HostMatches inet host item ↔ ∃ ip, inet.pton4 host = some ip ∧ Agree m ip net := by
  constructor
  · intro named
    cases named with
    | network other literal agree =>
      cases (form.scan (Nat.le_refl 32)).symm.trans (other.scan (Nat.le_refl 32))
      exact ⟨_, literal, agree⟩
    | suffix dot ends => exact absurd dot form.no_dot
    | pattern other noDot expands => exact absurd form (other _ _)
  · rintro ⟨ip, literal, agree⟩
    exact .network form literal agree

theorem hostMatches_suffix (dot : item.head? = some 0x2E) :
    HostMatches inet host item ↔ EndsWith host item := by
  constructor
  · intro named
    cases named with
    | network form literal agree => exact absurd dot form.no_dot
    | suffix dot ends => exact ends
    | pattern other noDot expands => exact absurd dot noDot
  · exact .suffix dot

theorem hostMatches_pattern (other : ∀ net m, ¬ Network item net m) (noDot : item.head? ≠ some 0x2E) :
    HostMatches inet host item ↔ Expands Alike (wild item) host := by
  constructor
  · intro named
    cases named with
    | network form literal agree => exact absurd form (other _ _)
    | suffix dot ends => exact absurd dot noDot
    | pattern other noDot expands => exact expands
  · exact .pattern other noDot

theorem covered_iff (solid : 0 ∉ host) : Covered inet host net m ↔
    (∃ ip, inet.pton4 host = some ip ∧ Agree m ip net) ∨
      ∃ ip, inet.pton4 host = none ∧ inet.pton6 host = some ip ∧ Agree m 0 net := by
  rw [Covered, ipFromString, terminated_of_solid solid]
  cases four : inet.pton4 host with
  | some ip => simp [v4AddressAsHostOrderInteger]
  | none =>
    cases six : inet.pton6 host with
    | none => simp
    | some ip => simp [v4AddressAsHostOrderInteger]

theorem hostMisread_network (long : 32 ≤ bits) (form : Network item net m) :
    HostMisread inet bits host behindColon item ↔
      ∃ ip, inet.pton4 host = none ∧ inet.pton6 host = some ip ∧ Agree m 0 net := by
  constructor
  · intro misread
    cases misread with
    | suffix port dot ends => exact absurd dot form.no_dot
    | network same other literal agree =>
      cases (form.scan long).symm.trans (same.scan long)
      exact ⟨_, other, literal, agree⟩
    | scanned scan other differ => exact absurd form (other _ _)
    | stars scan noDot expands literally => cases (form.scan long).symm.trans scan
  · rintro ⟨ip, other, literal, agree⟩
    exact .network form other literal agree

theorem hostMisread_scanned (scan : scanNetwork bits item = some (net, m))
    (other : ∀ net m, ¬ Network item net m) :
    HostMisread inet bits host behindColon item ↔
      (Covered inet host net m ↔ ¬ Expands Alike (wild item) host) := by
  constructor
  · intro misread
    cases misread with
    | suffix port dot ends => cases scan.symm.trans (scanNetwork_dot dot)
    | network form other' literal agree => exact absurd form (other _ _)
    | scanned same other' differ =>
      cases scan.symm.trans same
      exact differ
    | stars same noDot expands literally => cases scan.symm.trans same
  · exact .scanned scan other

theorem hostMisread_suffix (dot : item.head? = some 0x2E) :
    HostMisread inet bits host behindColon item ↔ behindColon ∧ EndsWith host item := by
  constructor
  · intro misread
    cases misread with
    | suffix port dot ends => exact ⟨port, ends⟩
    | network form other literal agree => exact absurd dot form.no_dot
    | scanned scan other differ => cases scan.symm.trans (scanNetwork_dot dot)
    | stars scan noDot expands literally => exact absurd dot noDot
  · rintro ⟨port, ends⟩
    exact .suffix port dot ends

theorem hostMisread_pattern (scan : scanNetwork bits item = none) (long : 32 ≤ bits)
    (noDot : item.head? ≠ some 0x2E) :
    HostMisread inet bits host behindColon item ↔
      Expands Alike (wild item) host ∧ ¬ Expands Alike (literalBehind item) host := by
  constructor
  · intro misread
    cases misread with
    | suffix port dot ends => exact absurd dot noDot
    | network form other literal agree => cases (form.scan long).symm.trans scan
    | scanned same other differ => cases scan.symm.trans same
    | stars scan noDot expands literally => exact ⟨expands, literally⟩
  · rintro ⟨expands, literally⟩
    exact .stars scan noDot expands literally

/-- Of an item without its port nothing else is misread. -/
theorem proxyHostMatch_iff (long : 32 ≤ bits) (some_host : host ≠ []) (solid : 0 ∉ host)
    (longer : behindColon → item.length < len) (whole : ¬ behindColon → len = item.length) :
    (proxyHostMatch inet bits host item len = true ↔ HostMatches inet host item) ↔
      ¬ HostMisread inet bits host behindColon item := by
  by_cases form : ∃ net m, Network item net m
  · obtain ⟨net, m, form⟩ := form
    rw [proxyHostMatch_scanned some_host (form.scan long), covered_iff solid, hostMatches_network form,
      hostMisread_network long form]
    have apart : (∃ ip, inet.pton4 host = some ip ∧ Agree m ip net) →
        ¬ ∃ ip, inet.pton4 host = none ∧ inet.pton6 host = some ip ∧ Agree m 0 net := by
      rintro ⟨ip, literal, -⟩ ⟨_, none, -⟩
      cases literal.symm.trans none
    rw [or_iff_left_iff_imp]
    exact ⟨fun only other => apart (only other) other, fun none other => absurd other none⟩
  have other : ∀ net m, ¬ Network item net m := fun net m here => form ⟨net, m, here⟩
  cases scan : scanNetwork bits item with
  | some network =>
    obtain ⟨net, m⟩ := network
    have noDot : item.head? ≠ some 0x2E := by
      intro dot
      cases scan.symm.trans (scanNetwork_dot dot)
    rw [proxyHostMatch_scanned some_host scan, hostMatches_pattern other noDot,
      hostMisread_scanned scan other]
    tauto
  | none =>
    by_cases dot : item.head? = some 0x2E
    · have at_least : item.length ≤ len := by
        by_cases port : behindColon
        · exact Nat.le_of_lt (longer port)
        · exact Nat.le_of_eq (whole port).symm
      have same : len = item.length ↔ ¬ behindColon :=
        ⟨fun same port => absurd (longer port) (same ▸ Nat.lt_irrefl _), whole⟩
      rw [proxyHostMatch_suffix solid dot at_least, hostMatches_suffix dot, hostMisread_suffix dot, same]
      tauto
    · have matched : Expands Alike (literalBehind item) host → Expands Alike (wild item) host :=
        fun literally => expands_of_stringMatch ((stringMatch_iff _ _).mpr literally)
      rw [proxyHostMatch_pattern solid scan dot, hostMatches_pattern other dot,
        hostMisread_pattern scan long dot]
      tauto

/-! ## The port -/

theorem splitAtChar_none {c : UInt8} {text : List UInt8} (solid : 0 ∉ text) :
    splitAtChar c text = none ↔ c ∉ text := by
  induction text with
  | nil => simp [splitAtChar]
  | cons d text ih =>
    have d_solid : d ≠ 0 := fun zero => solid (zero ▸ List.mem_cons_self)
    have rest := ih fun zero => solid (List.mem_cons_of_mem d zero)
    rw [splitAtChar, if_neg d_solid]
    by_cases here : d = c
    · simp [here]
    · simp [here, rest, Ne.symm here]

theorem splitAtChar_append {c : UInt8} {before after : List UInt8} (solid : 0 ∉ before)
    (apart : c ∉ before) (nonzero : c ≠ 0) :
    splitAtChar c (before ++ c :: after) = some (before, after) := by
  induction before with
  | nil => simp [splitAtChar, nonzero]
  | cons d before ih =>
    have d_solid : d ≠ 0 := fun zero => solid (zero ▸ List.mem_cons_self)
    have other : d ≠ c := fun same => apart (same ▸ List.mem_cons_self)
    rw [List.cons_append, splitAtChar, if_neg d_solid, if_neg other,
      ih (fun zero => solid (List.mem_cons_of_mem d zero))
        (fun mem => apart (List.mem_cons_of_mem d mem))]
    rfl

theorem Numeral.noColon (numeral : Numeral digits) : 0x3A ∉ digits := by
  intro colon
  have digit := numeral.digit _ colon
  exact absurd digit (by decide)

/-- A port is a `long` that holds more than all ports. -/
theorem atol_numeral (long : 32 ≤ bits) (numeral : Numeral digits) (port : BitVec 16) :
    (port.toNat : Int) = atol bits digits ↔ digitsValue 10 digits = port.toNat := by
  have taken : takeNumber 10 ([] ++ (digits ++ [])) = (false, digits, []) :=
    takeNumber_digits (fun _ none => absurd none List.not_mem_nil) numeral.nonempty numeral.digit
      fun _ _ same => by cases same
  rw [List.nil_append, List.append_nil] at taken
  have wide : (2 : Int) ^ 31 ≤ 2 ^ (bits - 1) := by
    exact_mod_cast Nat.pow_le_pow_right (by decide : 0 < 2) (by omega : 31 ≤ bits - 1)
  have port_lt := port.isLt
  rw [atol, taken]
  simp only [convertSigned, Bool.false_eq_true, if_false]
  omega

/-- What an item names by its text before a colon: an address, or a host, but not the end of one. -/
def Named (inet : Inet) (bits : Nat) (host item : List UInt8) : Prop :=
  (∃ net m, scanNetwork bits item = some (net, m) ∧ Covered inet host net m) ∨
    (scanNetwork bits item = none ∧ item.head? ≠ some 0x2E ∧
      Expands Alike (literalBehind item) host)

theorem proxyHostMatch_named (some_host : host ≠ []) (solid : 0 ∉ host) (longer : item.length < len) :
    proxyHostMatch inet bits host item len = true ↔ Named inet bits host item := by
  unfold Named
  cases scan : scanNetwork bits item with
  | some network =>
    rw [proxyHostMatch_scanned some_host scan]
    simp [Prod.ext_iff]
  | none =>
    by_cases dot : item.head? = some 0x2E
    · rw [proxyHostMatch_suffix solid dot (Nat.le_of_lt longer)]
      simp [dot, Nat.ne_of_gt longer]
    · rw [proxyHostMatch_pattern solid scan dot]
      simp [dot]

/-- The items on which the list goes wrong. -/
inductive Misread (inet : Inet) (bits : Nat) (url : Url) : List UInt8 → Prop
  | bare {item : List UInt8} (noColon : 0x3A ∉ item)
      (misread : HostMisread inet bits url.host False item) : Misread inet bits url item
  | port {item digits : List UInt8} (noColon : 0x3A ∉ item) (numeral : Numeral digits)
      (same : digitsValue 10 digits = url.port.toNat)
      (misread : HostMisread inet bits url.host True item) :
      Misread inet bits url (item ++ 0x3A :: digits)
  /-- A colon that no port stands behind. -/
  | colon {item rest : List UInt8} (noColon : 0x3A ∉ item) (other : ¬ Numeral rest)
      (differ : url.port.toNat = atol bits rest ∧ Named inet bits url.host item ↔
        ¬ ItemMatches inet url (item ++ 0x3A :: rest)) :
      Misread inet bits url (item ++ 0x3A :: rest)

theorem itemMatches_bare (noColon : 0x3A ∉ item) :
    ItemMatches inet url item ↔ HostMatches inet url.host item := by
  constructor
  · intro named
    cases named with
    | port numeral same rest => exact absurd (by simp) noColon
    | host noPort rest => exact rest
  · intro named
    refine .host (fun front digits _ whole => noColon ?_) named
    simp [whole]

theorem itemMatches_port (noColon : 0x3A ∉ item) (numeral : Numeral digits) :
    ItemMatches inet url (item ++ 0x3A :: digits) ↔
      digitsValue 10 digits = url.port.toNat ∧ HostMatches inet url.host item := by
  constructor
  · intro named
    generalize whole : item ++ 0x3A :: digits = text at named
    cases named with
    | port other same rest =>
      obtain ⟨rfl, -, rfl⟩ := (List.append_cons_inj_of_notMem noColon numeral.noColon).mp whole
      exact ⟨same, (itemMatches_bare noColon).mp rest⟩
    | host noPort rest => exact absurd whole.symm (noPort item digits numeral)
  · rintro ⟨same, named⟩
    exact .port numeral same ((itemMatches_bare noColon).mpr named)

theorem misread_bare (noColon : 0x3A ∉ item) :
    Misread inet bits url item ↔ HostMisread inet bits url.host False item := by
  constructor
  · intro misread
    cases misread with
    | bare _ misread => exact misread
    | port => exact absurd (by simp) noColon
    | colon => exact absurd (by simp) noColon
  · exact .bare noColon

theorem misread_port (noColon : 0x3A ∉ item) (numeral : Numeral digits) :
    Misread inet bits url (item ++ 0x3A :: digits) ↔
      digitsValue 10 digits = url.port.toNat ∧ HostMisread inet bits url.host True item := by
  constructor
  · intro misread
    generalize whole : item ++ 0x3A :: digits = text at misread
    cases misread with
    | bare none => exact absurd (whole ▸ by simp) none
    | port _ other same misread =>
      obtain ⟨rfl, -, rfl⟩ := (List.append_cons_inj_of_notMem noColon numeral.noColon).mp whole
      exact ⟨same, misread⟩
    | colon none other =>
      obtain ⟨-, -, rfl⟩ := (List.append_cons_inj_of_notMem noColon numeral.noColon).mp whole
      exact absurd numeral other
  · rintro ⟨same, misread⟩
    exact .port noColon numeral same misread

/-- Two texts that are the same up to their first colons. -/
theorem first_colon_inj {a b : List UInt8} (left : 0x3A ∉ a) (right : 0x3A ∉ b)
    (same : a ++ 0x3A :: front = b ++ 0x3A :: behind) : a = b ∧ front = behind := by
  rcases List.append_eq_append_iff.mp same with ⟨between, rfl, rest⟩ | ⟨between, rfl, rest⟩ <;>
    cases between with
    | nil => simp_all
    | cons ch between =>
      obtain ⟨rfl, -⟩ := List.cons.inj rest
      simp_all

theorem misread_colon {rest : List UInt8} (noColon : 0x3A ∉ item) (other : ¬ Numeral rest) :
    Misread inet bits url (item ++ 0x3A :: rest) ↔
      (url.port.toNat = atol bits rest ∧ Named inet bits url.host item ↔
        ¬ ItemMatches inet url (item ++ 0x3A :: rest)) := by
  constructor
  · intro misread
    generalize whole : item ++ 0x3A :: rest = text at misread ⊢
    cases misread with
    | bare none => exact absurd (whole ▸ by simp) none
    | port none numeral =>
      obtain ⟨-, -, rfl⟩ := (List.append_cons_inj_of_notMem none numeral.noColon).mp whole.symm
      exact absurd numeral other
    | colon none _ differ =>
      obtain ⟨rfl, rfl⟩ := first_colon_inj noColon none whole
      exact differ
  · exact .colon noColon other

/-- The items that are matched although they should not, or the other way round. -/
theorem proxyItemMatch_iff (long : 32 ≤ bits) (some_host : url.host ≠ []) (host_solid : 0 ∉ url.host)
    (solid : 0 ∉ item) :
    (proxyItemMatch inet bits url item = true ↔ ItemMatches inet url item) ↔
      ¬ Misread inet bits url item := by
  by_cases colon : 0x3A ∈ item
  · obtain ⟨front, rest, rfl, noColon⟩ := List.eq_append_cons_of_mem colon
    have front_solid : 0 ∉ front := fun zero => solid (List.mem_append_left _ zero)
    have decided : proxyItemMatch inet bits url (front ++ 0x3A :: rest) = true ↔
        url.port.toNat = atol bits rest ∧
          proxyHostMatch inet bits url.host front (front ++ 0x3A :: rest).length = true := by
      rw [proxyItemMatch, splitAtChar_append front_solid noColon (by decide)]
      by_cases port : url.port.toNat = atol bits rest <;> simp [port]
    have longer : front.length < (front ++ 0x3A :: rest).length := by simp
    rw [decided]
    by_cases numeral : Numeral rest
    · have read : (proxyHostMatch inet bits url.host front (front ++ 0x3A :: rest).length = true ↔
          HostMatches inet url.host front) ↔ ¬ HostMisread inet bits url.host True front :=
        proxyHostMatch_iff long some_host host_solid (fun _ => longer) fun no => absurd trivial no
      rw [atol_numeral long numeral, itemMatches_port noColon numeral, misread_port noColon numeral]
      tauto
    · rw [proxyHostMatch_named some_host host_solid longer, misread_colon noColon numeral]
      tauto
  · have read : (proxyHostMatch inet bits url.host item item.length = true ↔
        HostMatches inet url.host item) ↔ ¬ HostMisread inet bits url.host False item :=
      proxyHostMatch_iff long some_host host_solid False.elim fun _ => rfl
    rw [proxyItemMatch, (splitAtChar_none solid).mpr colon, itemMatches_bare colon,
      misread_bare colon]
    exact read

/-! ## The list -/

theorem proxyItemMatch_nil (some_host : url.host ≠ []) (host_solid : 0 ∉ url.host) :
    proxyItemMatch inet bits url [] = false := by
  have scan : scanNetwork bits [] = none := rfl
  have noDot : ([] : List UInt8).head? ≠ some 0x2E := fun dot => by cases dot
  rw [Bool.eq_false_iff]
  intro matched
  have matched : proxyHostMatch inet bits url.host [] 0 = true := matched
  have expands := (proxyHostMatch_pattern host_solid scan noDot 0).mp matched
  exact some_host (expands_nil_iff.mp expands)

theorem trim_cons_space {ch : UInt8} (space : isSpace ch = true) (text : List UInt8) :
    trim (ch :: text) = trim text := by
  rw [trim, trim, skipSpace, skipSpace, List.dropWhile_cons_of_pos space]

theorem trim_of_solid {ch : UInt8} (solid : isSpace ch = false) (text : List UInt8) :
    trim (ch :: text) = trimEnd (ch :: text) := by
  rw [trim, skipSpace, List.dropWhile_cons_of_neg (by simp [solid])]

/-- Passing over a blank loses at most an empty item. -/
theorem exists_items_cons {p : List UInt8 → Prop} (empty : ¬ p []) {sep ch : UInt8}
    (space : isSpace ch = true) (list : List UInt8) :
    (∃ item ∈ items sep (ch :: list), p item) ↔ ∃ item ∈ items sep list, p item := by
  unfold items
  rw [List.splitOn_cons_eq_if_modifyHead]
  split
  · have nothing : trim [] = [] := rfl
    simp [nothing, empty]
  · obtain ⟨first, rest, split⟩ := List.exists_cons_of_ne_nil (List.splitOn_ne_nil sep list)
    simp [split, trim_cons_space space]

/-- A turn of the loop, up to the next item. -/
theorem turn_iff {sep : UInt8} {turns : Nat} {rest : List UInt8} {Later : Prop}
    (later : proxyListLoop inet bits url sep turns rest = true ↔ Later) :
    (if 256 ≤ item.length then proxyListLoop inet bits url sep turns rest
      else if proxyItemMatch inet bits url item then true
      else proxyListLoop inet bits url sep turns rest) = true ↔
      item.length < 256 ∧ proxyItemMatch inet bits url item = true ∨ Later := by
  rw [← later]
  split
  · next oversized => simp [Nat.not_lt.mpr oversized]
  · next fits => split <;> simp [Nat.not_le.mp fits, *]

/-- The loop goes through the items. -/
theorem proxyListLoop_iff (some_host : url.host ≠ []) (host_solid : 0 ∉ url.host) {sep : UInt8}
    (sep_solid : sep ≠ 0) {turns : Nat} {list : List UInt8} (enough : list.length ≤ turns)
    (solid : 0 ∉ list) :
    proxyListLoop inet bits url sep turns list = true ↔
      ∃ item ∈ items sep list, item.length < 256 ∧ proxyItemMatch inet bits url item = true := by
  have empty : ¬ (([] : List UInt8).length < 256 ∧ proxyItemMatch inet bits url [] = true) := by
    simp [proxyItemMatch_nil some_host host_solid]
  have none : ¬ ∃ item ∈ items sep [],
      item.length < 256 ∧ proxyItemMatch inet bits url item = true := by
    simpa [items, show trim [] = [] from rfl] using empty
  induction turns generalizing list with
  | zero =>
    obtain rfl := List.eq_nil_of_length_eq_zero (Nat.le_zero.mp enough)
    simp only [proxyListLoop, none]
    exact ⟨fun no => (by cases no), False.elim⟩
  | succ turns ih =>
    cases list with
    | nil =>
      simp only [proxyListLoop, none]
      exact ⟨fun no => (by cases no), False.elim⟩
    | cons ch list =>
      by_cases space : isSpace ch = true
      · have later : proxyListLoop inet bits url sep turns list = true ↔ _ :=
          ih (Nat.le_of_succ_le_succ enough) fun zero =>
            solid (List.mem_cons_of_mem ch zero)
        rw [proxyListLoop, exists_items_cons empty space, ← later]
        dsimp only
        rw [if_pos space]
      rw [proxyListLoop]
      dsimp only
      rw [if_neg space]
      have start_trim : ∀ text, (ch :: list).head? = text.head? → trimEnd text = trim text := by
        intro text same
        cases text with
        | nil => rfl
        | cons first text =>
          cases same
          exact (trim_of_solid (Bool.eq_false_iff.mpr space) text).symm
      by_cases listed : sep ∈ ch :: list
      · obtain ⟨start, rest, whole, apart⟩ := List.eq_append_cons_of_mem listed
        have start_solid : 0 ∉ start := fun zero => solid (whole ▸ List.mem_append_left _ zero)
        have rest_solid : 0 ∉ rest := fun zero =>
          solid (whole ▸ List.mem_append_right _ (List.mem_cons_of_mem _ zero))
        have shorter : rest.length ≤ turns := by
          have lengths := congrArg List.length whole
          simp only [List.length_cons, List.length_append] at lengths enough
          omega
        have trimmed : trimEnd start = trim start := by
          cases start with
          | nil => rfl
          | cons first start =>
            have same : ch = first := (List.cons.inj whole).1
            exact start_trim _ (congrArg some same)
        have listing : items sep (ch :: list) = trim start :: items sep rest := by
          rw [items, whole, List.splitOn_append_cons_self, List.splitOn_eq_singleton apart]
          rfl
        rw [listing, whole, splitAtChar_append start_solid apart sep_solid, Option.getD_some,
          turn_iff (ih shorter rest_solid), trimmed]
        simp
      · have listing : items sep (ch :: list) = [trim (ch :: list)] := by
          rw [items, List.splitOn_eq_singleton listed]
          rfl
        have finished : proxyListLoop inet bits url sep turns [] = true ↔ _ :=
          ih (Nat.zero_le turns) List.not_mem_nil
        rw [(splitAtChar_none solid).mpr listed, Option.getD_none, turn_iff finished, listing,
          start_trim _ rfl]
        simp [none]

theorem mem_of_mem_splitOn {sep ch : UInt8} {list part : List UInt8} (listed : part ∈ list.splitOn sep)
    (mem : ch ∈ part) : ch ∈ list := by
  induction list generalizing part with
  | nil =>
    rw [List.splitOn_nil, List.mem_singleton] at listed
    exact listed ▸ mem
  | cons first list ih =>
    rw [List.splitOn_cons_eq_if_modifyHead] at listed
    split at listed
    · rcases List.mem_cons.mp listed with rfl | listed
      · cases mem
      · exact List.mem_cons_of_mem first (ih listed mem)
    · obtain ⟨head, rest, split⟩ := List.exists_cons_of_ne_nil (List.splitOn_ne_nil sep list)
      rw [split, List.modifyHead_cons] at listed
      rcases List.mem_cons.mp listed with rfl | listed
      · rcases List.mem_cons.mp mem with rfl | mem
        · exact List.mem_cons_self
        · exact List.mem_cons_of_mem first (ih (split ▸ List.mem_cons_self) mem)
      · exact List.mem_cons_of_mem first (ih (split ▸ List.mem_cons_of_mem head listed) mem)

theorem mem_of_mem_items {sep ch : UInt8} {list : List UInt8} (listed : item ∈ items sep list)
    (mem : ch ∈ item) : ch ∈ list := by
  obtain ⟨part, part_mem, rfl⟩ := List.mem_map.mp listed
  refine mem_of_mem_splitOn part_mem ?_
  exact (List.dropWhile_sublist _).mem ((List.rdropWhile_prefix _ _).mem mem)

theorem or_iff_or_iff {right passed taken : Prop} :
    (right ∨ taken ↔ right ∨ passed) ↔ right ∨ (passed ↔ taken) := by
  tauto

end Libjingle.ProxyDetect
