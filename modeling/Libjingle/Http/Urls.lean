import Libjingle.Std.CString
import Mathlib.Data.List.TakeWhile

/-!
# URLs

`Url` in `talk/base/httpcommon-inl.h`: a URL is cut at the first slash, and its path at the first
question mark; an attribute is looked for in the query as a text.
-/

namespace Libjingle.Http.Urls

open Libjingle.Std CString

/-! ## The code -/

structure Url where
  host : List UInt8
  port : BitVec 16
  secure : Bool
  path : List UInt8
  query : List UInt8
  deriving DecidableEq

def httpDefaultPort (secure : Bool) : BitVec 16 :=
  if secure then 443 else 80

namespace Url

/-- `clear`. -/
def cleared : Url :=
  { host := [], port := 80, secure := false, path := [0x2F], query := [] }

/-- `strchrn`: the place of a character, which a NUL hides. -/
def strchrn (text : List UInt8) (ch : UInt8) : Option Nat :=
  (terminated text).idxOf? ch

/-- `do_set_address` of the first `len` characters at a pointer. -/
def setAddress (bits : Nat) (url : Url) (val : List UInt8) (len : Nat) : Url :=
  match strchrn (val.take len) 0x3A with
  | some colon =>
      { url with
        host := val.take colon
        port := BitVec.ofNat 16 (strtoul bits 10 (terminated (val.drop (colon + 1)))).1 }
  | none => { url with host := val.take len, port := httpDefaultPort url.secure }

/-- `do_set_full_path`. -/
def setFullPath (url : Url) (val : List UInt8) : Url :=
  let pathLength := (strchrn val 0x3F).getD val.length
  { url with
    path := if pathLength = 0 then [0x2F] else val.take pathLength
    query := val.drop pathLength }

/-- What stands behind the protocol. -/
def setRest (bits : Nat) (url : Url) (val : List UInt8) : Url :=
  let addressLength := (strchrn val 0x2F).getD val.length
  (url.setAddress bits val addressLength).setFullPath (val.drop addressLength)

def http : List UInt8 := ofString "http://"
def https : List UInt8 := ofString "https://"

/-- The URL of a text, by `do_set_url`. -/
def ofText (bits : Nat) (val : List UInt8) : Url :=
  if sameNoCase (val.take 7) http then
    setRest bits { cleared with secure := false } (val.drop 7)
  else if sameNoCase (val.take 8) https then
    setRest bits { cleared with secure := true } (val.drop 8)
  else cleared

/-- `do_get_address`. -/
def address (url : Url) : List UInt8 :=
  url.host ++
    if url.port ≠ httpDefaultPort url.secure then 0x3A :: decimal url.port.toNat else []

/-- `do_get_url`. -/
def url (url : Url) : List UInt8 :=
  (if url.secure then https else http) ++ url.address ++ (url.path ++ url.query)

/-- `find` of a text: the first place where it stands. -/
def findText (text : List UInt8) : List UInt8 → Option Nat
  | [] => if text = [] then some 0 else none
  | ch :: source =>
      if text.isPrefixOf (ch :: source) then some 0 else (findText text source).map (· + 1)

/-- `get_attribute`: the value, if it returns true. -/
def getAttribute (url : Url) (name : List UInt8) : Option (List UInt8) :=
  if url.query = [] then none
  else
    match (findText name (url.query.drop 1)).map (· + 1) with
    | none => none
    | some pos =>
        let pos := pos + name.length + 1
        if url.query.length < pos ∨ url.query[pos - 1]? ≠ some 0x3D then none
        else some ((url.query.drop pos).take
          (((url.query.drop pos).idxOf? 0x26).getD (url.query.length - pos)))

end Url

/-! ## Texts of URLs -/

def itemText (item : List UInt8 × List UInt8) : List UInt8 :=
  item.1 ++ 0x3D :: item.2

def queryText (items : List (List UInt8 × List UInt8)) : List UInt8 :=
  [0x26].intercalate (items.map itemText)

/-- The parts of a URL as they are written: the port without the colon, the path without its first
slash, the items of the query. -/
structure UrlText where
  secure : Bool
  host : List UInt8
  port : Option (List UInt8)
  path : Option (List UInt8)
  query : Option (List (List UInt8 × List UInt8))

namespace UrlText

def address (parts : UrlText) : List UInt8 :=
  parts.host ++ (parts.port.map (0x3A :: ·)).getD []

def pathText (parts : UrlText) : List UInt8 :=
  (parts.path.map (0x2F :: ·)).getD []

def rest (parts : UrlText) : List UInt8 :=
  parts.address ++ (parts.pathText ++ (parts.query.map fun items => 0x3F :: queryText items).getD [])

def text (parts : UrlText) : List UInt8 :=
  (if parts.secure then Url.https else Url.http) ++ parts.rest

structure WellFormed (parts : UrlText) : Prop where
  host : ∀ ch ∈ parts.host, ch ≠ 0x3A ∧ ch ≠ 0x2F ∧ ch ≠ 0x3F
  port : ∀ digits ∈ parts.port, digits ≠ [] ∧ (∀ ch ∈ digits, isDigit 10 ch = true) ∧
    digitsValue 10 digits ≤ 65535
  path : ∀ path ∈ parts.path, 0x3F ∉ path
  names : ∀ items ∈ parts.query, ∀ item ∈ items, 0x3D ∉ item.1 ∧ 0x26 ∉ item.1
  values : ∀ items ∈ parts.query, ∀ item ∈ items, 0x26 ∉ item.2
  solid : 0 ∉ parts.rest

def items (parts : UrlText) : List (List UInt8 × List UInt8) :=
  parts.query.getD []

/-- The text in which attributes are looked for: the query, if there is a path before it. If not, the
first slash of the query is taken for the path. -/
def searched (parts : UrlText) : List UInt8 :=
  if parts.path.isSome then queryText parts.items
  else (((queryText parts.items).dropWhile (· ≠ 0x2F)).dropWhile (· ≠ 0x3F)).drop 1

/-- The value of the first item of a name. -/
def firstValue (parts : UrlText) (name : List UInt8) : Option (List UInt8) :=
  (parts.items.find? fun item => item.1 = name).map Prod.snd

end UrlText

/-- The URL that is parsed is parsed again from its own text, and gives the attribute. -/
structure AsWritten (bits : Nat) (parts : UrlText) (name : List UInt8) : Prop where
  again : Url.ofText bits (Url.ofText bits parts.text).url = Url.ofText bits parts.text
  lookup : (Url.ofText bits parts.text).getAttribute name = parts.firstValue name

/-- The first place where the name stands in the text that is searched begins an item of the name. -/
def Begins (parts : UrlText) (name : List UInt8) : Prop :=
  parts.path.isSome ∧ ∃ front item back, parts.items = front ++ item :: back ∧ item.1 = name ∧
    Url.findText name parts.searched = some (front.flatMap fun item => itemText item ++ [0x26]).length

/-- There is no item of the name, and no equal sign behind the first place where it stands. -/
def Absent (parts : UrlText) (name : List UInt8) : Prop :=
  (∀ item ∈ parts.items, item.1 ≠ name) ∧ ∀ pos, Url.findText name parts.searched = some pos →
    (parts.searched.drop (pos + name.length)).head? ≠ some 0x3D

/-- The first place where the name stands is followed by the value of the first item of the name. -/
def Accident (parts : UrlText) (name : List UInt8) : Prop :=
  ∃ value, parts.firstValue name = some value ∧ ∃ pos behind,
    Url.findText name parts.searched = some pos ∧
      parts.searched.drop (pos + name.length) = 0x3D :: behind ∧
      behind.takeWhile (· ≠ 0x26) = value

/-! ## Cutting at a character -/

section

variable {ch : UInt8} {text before behind : List UInt8}

theorem takeWhile_ne_append (none : ch ∉ before) (behind : List UInt8) :
    (before ++ ch :: behind).takeWhile (· ≠ ch) = before ∧
      (before ++ ch :: behind).dropWhile (· ≠ ch) = ch :: behind := by
  have apart : ∀ c ∈ before, decide (c ≠ ch) = true := fun c mem =>
    decide_eq_true fun same => none (same ▸ mem)
  rw [List.takeWhile_append_of_pos apart, List.dropWhile_append_of_pos apart]
  simp

theorem takeWhile_ne_self (none : ch ∉ text) :
    text.takeWhile (· ≠ ch) = text ∧ text.dropWhile (· ≠ ch) = [] := by
  have apart : ∀ c ∈ text, decide (c ≠ ch) = true := fun c mem =>
    decide_eq_true fun same => none (same ▸ mem)
  exact ⟨List.takeWhile_eq_self_iff.mpr apart, List.dropWhile_eq_nil_iff.mpr apart⟩

theorem not_mem_takeWhile_ne (text : List UInt8) (ch : UInt8) : ch ∉ text.takeWhile (· ≠ ch) :=
  fun mem => by simpa using List.mem_takeWhile_imp mem

theorem dropWhile_ne_cases (text : List UInt8) (ch : UInt8) :
    text.dropWhile (· ≠ ch) = [] ∨ ∃ behind, text.dropWhile (· ≠ ch) = ch :: behind := by
  by_cases mem : ch ∈ text
  · obtain ⟨before, behind, rfl, none⟩ := List.eq_append_cons_of_mem mem
    exact .inr ⟨behind, (takeWhile_ne_append none behind).2⟩
  · exact .inl (takeWhile_ne_self mem).2

theorem idxOf?_eq (text : List UInt8) (ch : UInt8) :
    text.idxOf? ch = if ch ∈ text then some (text.takeWhile (· ≠ ch)).length else none := by
  induction text with
  | nil => rfl
  | cons c text ih =>
    rw [List.idxOf?_cons, ih]
    by_cases same : c = ch
    · simp [same]
    · have apart : ¬ ch = c := fun same' => same same'.symm
      by_cases mem : ch ∈ text <;> simp [same, apart, mem]

theorem length_takeWhile_ne (text : List UInt8) (ch : UInt8) :
    (text.idxOf? ch).getD text.length = (text.takeWhile (· ≠ ch)).length := by
  rw [idxOf?_eq]
  split
  · rfl
  · next none => rw [(takeWhile_ne_self none).1]; rfl

theorem take_takeWhile (text : List UInt8) (p : UInt8 → Bool) :
    text.take (text.takeWhile p).length = text.takeWhile p ∧
      text.drop (text.takeWhile p).length = text.dropWhile p := by
  have whole := @List.takeWhile_append_dropWhile _ p text
  constructor
  · calc
      text.take (text.takeWhile p).length
          = (text.takeWhile p ++ text.dropWhile p).take (text.takeWhile p).length := by rw [whole]
      _ = text.takeWhile p := List.take_left
  · calc
      text.drop (text.takeWhile p).length
          = (text.takeWhile p ++ text.dropWhile p).drop (text.takeWhile p).length := by rw [whole]
      _ = text.dropWhile p := List.drop_left

end

namespace Url

variable {bits : Nat} {url : Url} {val front more : List UInt8}

theorem strchrn_eq (solid : 0 ∉ val) (ch : UInt8) :
    strchrn val ch = if ch ∈ val then some (val.takeWhile (· ≠ ch)).length else none := by
  rw [strchrn, terminated_of_solid solid, idxOf?_eq]

theorem setFullPath_eq (solid : 0 ∉ val) :
    url.setFullPath val = { url with
      path := if val.takeWhile (· ≠ 0x3F) = [] then [0x2F] else val.takeWhile (· ≠ 0x3F)
      query := val.dropWhile (· ≠ 0x3F) } := by
  have cut := take_takeWhile val fun c => decide (c ≠ 0x3F)
  simp only [setFullPath, strchrn, terminated_of_solid solid, length_takeWhile_ne, cut.1, cut.2,
    List.length_eq_zero_iff]

/-- An address, with what stands behind it in memory. -/
theorem setAddress_eq (solid : 0 ∉ front) (more : List UInt8) :
    url.setAddress bits (front ++ more) front.length = { url with
      host := front.takeWhile (· ≠ 0x3A)
      port := if 0x3A ∈ front then BitVec.ofNat 16 (strtoul bits 10
          (terminated ((front.dropWhile (· ≠ 0x3A)).drop 1 ++ more))).1
        else httpDefaultPort url.secure } := by
  have taken : (front ++ more).take front.length = front := List.take_left
  unfold setAddress
  rw [taken, strchrn_eq solid]
  split
  · next colon found =>
    split at found
    · next mem =>
      obtain rfl := Option.some.inj found
      obtain ⟨before, behind, rfl, none⟩ := List.eq_append_cons_of_mem mem
      have cut := takeWhile_ne_append none behind
      have reached : (before ++ 0x3A :: behind ++ more).drop (before.length + 1) = behind ++ more := by
        rw [List.append_assoc, ← List.drop_drop, List.drop_left]
        rfl
      rw [cut.1, cut.2, List.append_assoc, List.take_left, ← List.append_assoc, reached, if_pos mem]
      rfl
    · cases found
  · next found =>
    split at found
    · cases found
    · next none => rw [(takeWhile_ne_self none).1, if_neg none]

theorem setRest_eq (solid : 0 ∉ val) :
    url.setRest bits val =
      (url.setAddress bits (val.takeWhile (· ≠ 0x2F) ++ val.dropWhile (· ≠ 0x2F))
        (val.takeWhile (· ≠ 0x2F)).length).setFullPath (val.dropWhile (· ≠ 0x2F)) := by
  have cut := take_takeWhile val fun c => decide (c ≠ 0x2F)
  simp only [setRest, strchrn, terminated_of_solid solid, length_takeWhile_ne, cut.2,
    List.takeWhile_append_dropWhile]

theorem ofText_scheme (bits : Nat) (secure : Bool) (rest : List UInt8) :
    ofText bits ((if secure then https else http) ++ rest) =
      setRest bits { cleared with secure := secure } rest := by
  cases secure
  · rfl
  · rfl

/-- A URL as it is parsed. -/
structure Printable (url : Url) : Prop where
  host : 0x3A ∉ url.host ∧ 0x2F ∉ url.host
  path : ∃ path, url.path = 0x2F :: path ∧ 0x3F ∉ path
  query : url.query = [] ∨ ∃ query, url.query = 0x3F :: query
  solid : 0 ∉ url.host ∧ 0 ∉ url.path ++ url.query

theorem decimal_apart {n : Nat} {c : UInt8} (mem : c ∈ decimal n) :
    c ≠ 0 ∧ c ≠ 0x2F ∧ c ≠ 0x3A := by
  have range := decimal_range mem
  refine ⟨?_, ?_, ?_⟩ <;> rintro rfl <;> exact absurd range (by decide)

theorem Printable.address (printable : Printable url) :
    0 ∉ url.address ∧ 0x2F ∉ url.address := by
  unfold Url.address
  constructor
  · rw [List.mem_append, not_or]
    refine ⟨printable.solid.1, fun mem => ?_⟩
    split at mem
    · rcases List.mem_cons.mp mem with colon | digit
      · cases colon
      · exact (decimal_apart digit).1 rfl
    · cases mem
  · rw [List.mem_append, not_or]
    refine ⟨printable.host.2, fun mem => ?_⟩
    split at mem
    · rcases List.mem_cons.mp mem with colon | digit
      · cases colon
      · exact (decimal_apart digit).2.1 rfl
    · cases mem

/-- An address is read back, in front of a path. -/
theorem setAddress_address (long : 32 ≤ bits) (printable : Printable url) {before : Url}
    (secure : before.secure = url.secure) {more : List UInt8} (solid : 0 ∉ more)
    (slash : ∃ path, more = 0x2F :: path) :
    before.setAddress bits (url.address ++ more) url.address.length =
      { before with host := url.host, port := url.port } := by
  rw [setAddress_eq printable.address.1, secure]
  unfold Url.address
  split
  · next other =>
    have cut := takeWhile_ne_append printable.host.1 (decimal url.port.toNat)
    have mem : (0x3A : UInt8) ∈ url.host ++ 0x3A :: decimal url.port.toNat := by simp
    have fits : url.port.toNat < 2 ^ bits := by
      have least : 2 ^ 32 ≤ 2 ^ bits := Nat.pow_le_pow_right (by decide) long
      have small := url.port.isLt
      omega
    have text : 0 ∉ decimal url.port.toNat ++ more := by
      rw [List.mem_append, not_or]
      exact ⟨fun zero => (decimal_apart zero).1 rfl, solid⟩
    have read : (strtoul bits 10 (terminated (decimal url.port.toNat ++ more))).1 = url.port.toNat := by
      rw [terminated_of_solid text, strtoul_decimal fits]
      rintro c behind whole
      obtain ⟨path, rfl⟩ := slash
      obtain ⟨rfl, -⟩ := List.cons.inj whole
      rfl
    rw [cut.1, cut.2, if_pos mem, List.drop_one, List.tail_cons, read, BitVec.ofNat_toNat,
      BitVec.setWidth_eq]
  · next default =>
    rw [List.append_nil, (takeWhile_ne_self printable.host.1).1, if_neg printable.host.1,
      not_not.mp default]

/-- A URL is parsed from its own text. -/
theorem ofText_url (long : 32 ≤ bits) (printable : Printable url) : ofText bits url.url = url := by
  obtain ⟨path, path_eq, noQuestion⟩ := printable.path
  have more : url.path ++ url.query = 0x2F :: (path ++ url.query) := by rw [path_eq]; rfl
  have solid : 0 ∉ url.address ++ (url.path ++ url.query) := by
    rw [List.mem_append, not_or]
    exact ⟨printable.address.1, printable.solid.2⟩
  have cut := takeWhile_ne_append printable.address.2 (path ++ url.query)
  have full : (url.path ++ url.query).takeWhile (· ≠ 0x3F) = url.path ∧
      (url.path ++ url.query).dropWhile (· ≠ 0x3F) = url.query := by
    have bare : 0x3F ∉ url.path := by
      rw [path_eq, List.mem_cons, not_or]
      exact ⟨by decide, noQuestion⟩
    rcases printable.query with none | ⟨query, query_eq⟩
    · rw [none, List.append_nil]
      exact takeWhile_ne_self bare
    · rw [query_eq]
      exact takeWhile_ne_append bare query
  rw [Url.url, List.append_assoc, ofText_scheme, setRest_eq solid, more, cut.1, cut.2, ← more,
    setAddress_address long printable (by rfl) printable.solid.2 ⟨_, more⟩,
    setFullPath_eq printable.solid.2, full.1, full.2, if_neg (by rw [path_eq]; exact List.cons_ne_nil _ _)]

/-- What is parsed behind a protocol can be printed. -/
theorem printable_setRest (solid : 0 ∉ val) : Printable (setRest bits url val) := by
  have within : ∀ {text : List UInt8} (p : UInt8 → Bool), 0 ∉ text →
      0 ∉ text.takeWhile p ∧ 0 ∉ text.dropWhile p := fun p none =>
    ⟨fun zero => none ((List.takeWhile_prefix p).subset zero),
      fun zero => none ((List.dropWhile_suffix p).subset zero)⟩
  have address := within (fun c => decide (c ≠ 0x2F)) solid
  rw [setRest_eq solid, setAddress_eq address.1, setFullPath_eq address.2]
  refine ⟨⟨not_mem_takeWhile_ne _ _, fun slash => ?_⟩, ?_, dropWhile_ne_cases _ _, ?_⟩
  · exact not_mem_takeWhile_ne val 0x2F ((List.takeWhile_prefix _).subset slash)
  · have question := not_mem_takeWhile_ne (val.dropWhile (· ≠ 0x2F)) 0x3F
    rcases dropWhile_ne_cases val 0x2F with none | ⟨path, found⟩
    · refine ⟨[], ?_, List.not_mem_nil⟩
      dsimp only
      rw [none]
      rfl
    · rw [found] at question
      refine ⟨path.takeWhile (· ≠ 0x3F), ?_, fun mem => question (List.mem_cons_of_mem _ mem)⟩
      dsimp only
      rw [found]
      rfl
  · refine ⟨(within _ address.1).1, ?_⟩
    dsimp only
    split
    · rw [List.mem_append, not_or]
      exact ⟨by decide, (within _ address.2).2⟩
    · rw [List.takeWhile_append_dropWhile]
      exact address.2

end Url

/-! ## Looking an attribute up -/

/-- `get_attribute` in the text behind the question mark. -/
def lookup (searched name : List UInt8) : Option (List UInt8) :=
  (Url.findText name searched).bind fun pos =>
    match searched.drop (pos + name.length) with
    | [] => none
    | ch :: behind => if ch = 0x3D then some (behind.takeWhile (· ≠ 0x26)) else none

theorem take_idxOf? (text : List UInt8) (ch : UInt8) :
    text.take ((text.idxOf? ch).getD text.length) = text.takeWhile (· ≠ ch) := by
  rw [length_takeWhile_ne]
  exact (take_takeWhile text _).1

theorem getAttribute_cons {url : Url} {searched : List UInt8} (query : url.query = 0x3F :: searched)
    (name : List UInt8) : url.getAttribute name = lookup searched name := by
  rw [Url.getAttribute, query, if_neg (List.cons_ne_nil _ _), List.drop_one, List.tail_cons, lookup]
  cases Url.findText name searched with
  | none => rfl
  | some pos =>
    have after : pos + 1 + name.length + 1 = (pos + name.length) + 1 + 1 := by omega
    simp only [Option.map_some, Option.bind_some, List.length_cons, after, Nat.add_sub_cancel,
      List.getElem?_cons_succ, List.drop_succ_cons]
    cases rest : searched.drop (pos + name.length) with
    | nil =>
      have short := List.drop_eq_nil_iff.mp rest
      rw [if_pos (.inl (by omega))]
    | cons ch behind =>
      have long : pos + name.length < searched.length := by
        by_contra short
        rw [List.drop_eq_nil_iff.mpr (by omega)] at rest
        cases rest
      have found : searched[pos + name.length]? = some ch := by
        rw [← List.head?_drop, rest]
        rfl
      have left : searched.drop (pos + name.length + 1) = behind := by
        rw [← List.drop_drop, rest]
        rfl
      have length : searched.length + 1 - (pos + name.length + 1 + 1) = behind.length := by
        rw [← left, List.length_drop]
        omega
      rw [found, left, length, take_idxOf?]
      by_cases equal : ch = 0x3D
      · rw [if_neg (by simp [equal]; omega)]
        exact (if_pos equal).symm
      · rw [if_pos (.inr (by simpa using equal))]
        exact (if_neg equal).symm

theorem lookup_nil (name : List UInt8) : lookup [] name = none := by
  cases name <;> rfl

namespace UrlText

variable {bits : Nat} {parts : UrlText}

theorem WellFormed.address (wellFormed : parts.WellFormed) :
    0x2F ∉ parts.address := by
  unfold UrlText.address
  rw [List.mem_append, not_or]
  refine ⟨fun slash => (wellFormed.host _ slash).2.1 rfl, fun slash => ?_⟩
  cases port : parts.port with
  | none => simp [port] at slash
  | some digits =>
    simp only [port, Option.map_some, Option.getD_some, List.mem_cons] at slash
    rcases slash with colon | digit
    · cases colon
    · have isDigit := (wellFormed.port digits port).2.1 _ digit
      revert isDigit
      decide

/-- What is taken for the query. -/
theorem query_ofText (wellFormed : parts.WellFormed) :
    ((Url.ofText bits parts.text).query = [] ∧ parts.searched = []) ∨
      (Url.ofText bits parts.text).query = 0x3F :: parts.searched := by
  have query : (Url.ofText bits parts.text).query =
      (parts.rest.dropWhile (· ≠ 0x2F)).dropWhile (· ≠ 0x3F) := by
    have within : 0 ∉ parts.rest.takeWhile (· ≠ 0x2F) ∧ 0 ∉ parts.rest.dropWhile (· ≠ 0x2F) :=
      ⟨fun zero => wellFormed.solid ((List.takeWhile_prefix _).subset zero),
        fun zero => wellFormed.solid ((List.dropWhile_suffix _).subset zero)⟩
    rw [text, Url.ofText_scheme, Url.setRest_eq wellFormed.solid, Url.setAddress_eq within.1,
      Url.setFullPath_eq within.2]
  rw [query]
  unfold rest searched pathText items
  cases path : parts.path with
  | some path_text =>
    have cut := fun behind => takeWhile_ne_append wellFormed.address behind
    have bare : 0x3F ∉ 0x2F :: path_text := by
      rw [List.mem_cons, not_or]
      exact ⟨by decide, wellFormed.path _ path⟩
    simp only [Option.map_some, Option.getD_some, Option.isSome_some, if_true, List.cons_append, cut]
    cases query : parts.query with
    | none =>
      left
      simp only [Option.map_none, Option.getD_none, List.append_nil]
      exact ⟨(takeWhile_ne_self bare).2, rfl⟩
    | some items =>
      right
      simp only [Option.map_some, Option.getD_some]
      exact (takeWhile_ne_append bare _).2
  | none =>
    simp only [Option.map_none, Option.getD_none, List.nil_append, Option.isSome_none,
      Bool.false_eq_true, if_false]
    cases query : parts.query with
    | none =>
      left
      simp only [Option.map_none, Option.getD_none, List.append_nil,
        (takeWhile_ne_self wellFormed.address).2]
      exact ⟨rfl, rfl⟩
    | some items =>
      have bare : 0x2F ∉ parts.address ++ [0x3F] := by
        rw [List.mem_append, not_or]
        exact ⟨wellFormed.address, by decide⟩
      have apart : ∀ c ∈ parts.address ++ [0x3F], decide (c ≠ 0x2F) = true := fun c mem =>
        decide_eq_true fun same => bare (same ▸ mem)
      have left : (parts.address ++ 0x3F :: queryText items).dropWhile (· ≠ 0x2F) =
          (queryText items).dropWhile (· ≠ 0x2F) := by
        have on := @List.dropWhile_append_of_pos _ _ _ (queryText items) apart
        rwa [List.append_assoc, List.singleton_append] at on
      simp only [Option.map_some, Option.getD_some, left]
      rcases dropWhile_ne_cases ((queryText items).dropWhile (· ≠ 0x2F)) 0x3F with none | ⟨behind, found⟩
      · exact .inl ⟨none, by rw [none]; rfl⟩
      · exact .inr (by rw [found]; rfl)

theorem WellFormed.items (wellFormed : parts.WellFormed) :
    ∀ item ∈ parts.items, 0x3D ∉ item.1 ∧ 0x26 ∉ item.1 ∧ 0x26 ∉ item.2 := by
  intro item mem
  cases query : parts.query with
  | none => simp [UrlText.items, query] at mem
  | some items =>
    rw [UrlText.items, query] at mem
    obtain ⟨equal, ampersand⟩ := wellFormed.names items query item mem
    exact ⟨equal, ampersand, wellFormed.values items query item mem⟩

theorem getAttribute_eq (wellFormed : parts.WellFormed) (name : List UInt8) :
    (Url.ofText bits parts.text).getAttribute name = lookup parts.searched name := by
  rcases @query_ofText bits parts wellFormed with ⟨none, nothing⟩ | found
  · rw [nothing, lookup_nil, Url.getAttribute, if_pos none]
  · exact getAttribute_cons found name

end UrlText

/-! ## The first place -/

theorem findText_le {name text : List UInt8} {pos : Nat} (inside : pos ≤ text.length)
    (stands : name <+: text.drop pos) : ∃ first ≤ pos, Url.findText name text = some first := by
  induction text generalizing pos with
  | nil =>
    obtain rfl : pos = 0 := Nat.le_zero.mp inside
    have none : name = [] := List.prefix_nil.mp stands
    exact ⟨0, Nat.le_refl _, by rw [none]; rfl⟩
  | cons ch text ih =>
    unfold Url.findText
    split
    · exact ⟨0, Nat.zero_le _, rfl⟩
    · next absent =>
      cases pos with
      | zero => exact absurd (List.isPrefixOf_iff_prefix.mpr stands) absent
      | succ pos =>
        obtain ⟨first, early, found⟩ := ih (Nat.le_of_succ_le_succ inside) stands
        exact ⟨first + 1, Nat.succ_le_succ early, by rw [found]; rfl⟩

/-- The items up to one of them, that item, and the items behind it. -/
theorem queryText_append (front : List (List UInt8 × List UInt8)) (item : List UInt8 × List UInt8)
    (back : List (List UInt8 × List UInt8)) :
    queryText (front ++ item :: back) = (front.flatMap fun item => itemText item ++ [0x26]) ++
      (itemText item ++ back.flatMap fun item => 0x26 :: itemText item) := by
  have behind : ∀ item, queryText (item :: back) =
      itemText item ++ back.flatMap fun item => 0x26 :: itemText item := by
    induction back with
    | nil => intro item; simp [queryText]
    | cons next back ih =>
      intro item
      have step : queryText (item :: next :: back) = itemText item ++ [0x26] ++ queryText (next :: back) :=
        List.intercalate_cons_cons
      rw [step, ih]
      simp
  induction front with
  | nil => exact behind item
  | cons first front ih =>
    have step : queryText (first :: (front ++ item :: back)) =
        itemText first ++ [0x26] ++ queryText (front ++ item :: back) := by
      cases front <;> exact List.intercalate_cons_cons
    rw [List.cons_append, step, ih]
    simp

/-- Where the first place begins an item, it is the first item of the name. -/
theorem lookup_of_begins {parts : UrlText} {name : List UInt8} (wellFormed : parts.WellFormed)
    (begins : Begins parts name) : lookup parts.searched name = parts.firstValue name := by
  obtain ⟨some_path, front, item, back, whole, rfl, found⟩ := begins
  have text : parts.searched = (front.flatMap fun item => itemText item ++ [0x26]) ++
      (itemText item ++ back.flatMap fun item => 0x26 :: itemText item) := by
    rw [UrlText.searched, if_pos some_path, whole, queryText_append]
  have none_before : ∀ other ∈ front, other.1 ≠ item.1 := by
    intro other mem same
    obtain ⟨first, second, parted⟩ := List.append_of_mem mem
    have stands : item.1 <+: parts.searched.drop (first.flatMap fun item => itemText item ++ [0x26]).length := by
      rw [text, parted, List.flatMap_append, List.append_assoc, List.drop_left, List.flatMap_cons,
        itemText, ← same]
      simp
    have inside : (first.flatMap fun item => itemText item ++ [0x26]).length ≤ parts.searched.length := by
      rw [text, parted, List.flatMap_append]
      simp only [List.length_append]
      omega
    obtain ⟨pos, early, found'⟩ := findText_le inside stands
    obtain rfl := Option.some.inj (found.symm.trans found')
    rw [parted, List.flatMap_append, List.flatMap_cons, List.length_append, List.length_append,
      List.length_append, List.length_singleton] at early
    omega
  have value : parts.firstValue item.1 = some item.2 := by
    have front_none : front.find? (fun other => decide (other.1 = item.1)) = none :=
      List.find?_eq_none.mpr fun other mem => by simpa using none_before other mem
    rw [UrlText.firstValue, whole, List.find?_append, front_none, Option.none_or,
      List.find?_cons_of_pos (by simp)]
    rfl
  have behind : parts.searched.drop ((front.flatMap fun item => itemText item ++ [0x26]).length +
      item.1.length) = 0x3D :: (item.2 ++ back.flatMap fun item => 0x26 :: itemText item) := by
    rw [text, ← List.drop_drop, List.drop_left, itemText, List.append_assoc, List.drop_left]
    rfl
  have ends : (item.2 ++ back.flatMap fun item => 0x26 :: itemText item).takeWhile (· ≠ 0x26) =
      item.2 := by
    have bare := (wellFormed.items item (by rw [whole]; simp)).2.2
    cases back with
    | nil => simpa using (takeWhile_ne_self bare).1
    | cons next back => exact (takeWhile_ne_append bare _).1
  rw [lookup, found, Option.bind_some, behind]
  dsimp only
  rw [if_pos rfl, ends, value]

theorem lookup_eq_some {searched name value : List UInt8} : lookup searched name = some value ↔
    ∃ pos behind, Url.findText name searched = some pos ∧
      searched.drop (pos + name.length) = 0x3D :: behind ∧ behind.takeWhile (· ≠ 0x26) = value := by
  unfold lookup
  constructor
  · intro known
    obtain ⟨pos, found, known⟩ := Option.bind_eq_some_iff.mp known
    split at known
    · cases known
    · next ch behind rest =>
      split at known
      · next equal => exact ⟨pos, behind, found, equal ▸ rest, Option.some.inj known⟩
      · cases known
  · rintro ⟨pos, behind, found, rest, ends⟩
    rw [found, Option.bind_some, rest]
    dsimp only
    rw [if_pos rfl, ends]

/-- What the lookup gives is right exactly if the first place is that of an item, or there is no item
and no equal sign, or the same value stands there by accident. -/
theorem lookup_iff {parts : UrlText} {name : List UInt8} (wellFormed : parts.WellFormed) :
    lookup parts.searched name = parts.firstValue name ↔
      Begins parts name ∨ Absent parts name ∨ Accident parts name := by
  have no_item : parts.firstValue name = none ↔ ∀ item ∈ parts.items, item.1 ≠ name := by
    rw [UrlText.firstValue, Option.map_eq_none_iff, List.find?_eq_none]
    simp
  constructor
  · intro right
    right
    cases value : parts.firstValue name with
    | none =>
      refine .inl ⟨no_item.mp value, fun pos found equal => ?_⟩
      obtain ⟨behind, rest⟩ := List.head?_eq_some_iff.mp equal
      rw [value, lookup_eq_some.mpr ⟨pos, behind, found, rest, rfl⟩] at right
      cases right
    | some value' =>
      rw [value] at right
      exact .inr ⟨value', value, lookup_eq_some.mp right⟩
  · rintro (begins | ⟨none, unequal⟩ | ⟨value, known, place⟩)
    · exact lookup_of_begins wellFormed begins
    · rw [no_item.mpr none, Option.eq_none_iff_forall_ne_some]
      intro value known
      obtain ⟨pos, behind, found, rest, -⟩ := lookup_eq_some.mp known
      exact unequal pos found (by rw [rest]; rfl)
    · rw [known, lookup_eq_some.mpr place]

/-- `http://host:8080/path?ab=1&b=2`. -/
def abQuery : UrlText :=
  { secure := false, host := ofString "host", port := some (ofString "8080"),
    path := some (ofString "path"),
    query := some [(ofString "ab", ofString "1"), (ofString "b", ofString "2")] }

theorem abQuery_wellFormed : abQuery.WellFormed where
  host ch mem := by
    have all : abQuery.host.all (fun ch => ch ≠ 0x3A ∧ ch ≠ 0x2F ∧ ch ≠ 0x3F) = true := by
      decide +kernel
    exact of_decide_eq_true (List.all_eq_true.mp all ch mem)
  port := by
    rintro digits ⟨⟩
    exact ⟨by decide +kernel, List.all_eq_true.mp (by decide +kernel), by decide +kernel⟩
  path := by
    rintro path ⟨⟩
    decide +kernel
  names := by
    rintro items ⟨⟩ item mem
    simp only [List.mem_cons, List.not_mem_nil, or_false] at mem
    rcases mem with rfl | rfl <;> exact ⟨by decide +kernel, by decide +kernel⟩
  values := by
    rintro items ⟨⟩ item mem
    simp only [List.mem_cons, List.not_mem_nil, or_false] at mem
    rcases mem with rfl | rfl <;> decide +kernel
  solid := by decide +kernel

end Libjingle.Http.Urls
