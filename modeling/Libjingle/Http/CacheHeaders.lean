import Libjingle.Http.Headers
import Mathlib.Data.List.TakeWhile

/-!
# Headers in the cache

`HttpWriteCacheHeaders` and `HttpReadCacheHeaders` in `talk/base/httpclient.cc`, and
`HttpData::changeHeader`. The headers of a response are given in the order of its map.
-/

namespace Libjingle.Http.CacheHeaders

open Libjingle.Std CString

/-! ## Known headers -/

inductive HttpHeader
  | age | cacheControl | connection | contentDisposition | contentLength | contentRange | contentType
  | cookie | date | etag | expires | host | ifModifiedSince | ifNoneMatch | keepAlive | lastModified
  | location | proxyAuthenticate | proxyAuthorization | proxyConnection | range | setCookie | te
  | trailers | transferEncoding | upgrade | userAgent | wwwAuthenticate

def kHttpHeaders : List (HttpHeader × List UInt8) :=
  [(.age, "Age"), (.cacheControl, "Cache-Control"), (.connection, "Connection"),
    (.contentDisposition, "Content-Disposition"), (.contentLength, "Content-Length"),
    (.contentRange, "Content-Range"), (.contentType, "Content-Type"), (.cookie, "Cookie"),
    (.date, "Date"), (.etag, "ETag"), (.expires, "Expires"), (.host, "Host"),
    (.ifModifiedSince, "If-Modified-Since"), (.ifNoneMatch, "If-None-Match"),
    (.keepAlive, "Keep-Alive"), (.lastModified, "Last-Modified"), (.location, "Location"),
    (.proxyAuthenticate, "Proxy-Authenticate"), (.proxyAuthorization, "Proxy-Authorization"),
    (.proxyConnection, "Proxy-Connection"), (.range, "Range"), (.setCookie, "Set-Cookie"),
    (.te, "TE"), (.trailers, "Trailers"), (.transferEncoding, "Transfer-Encoding"),
    (.upgrade, "Upgrade"), (.userAgent, "User-Agent"), (.wwwAuthenticate, "WWW-Authenticate")].map
      fun (header, name) => (header, ofString name)

/-- `FromString`. -/
def HttpHeader.fromString (str : List UInt8) : Option HttpHeader :=
  (kHttpHeaders.find? fun entry => sameNoCase (terminated str) entry.2).map Prod.fst

/-- `HttpHeaderIsEndToEnd`. -/
def HttpHeader.isEndToEnd : HttpHeader → Bool
  | connection | keepAlive | proxyAuthenticate | proxyAuthorization | proxyConnection | te | trailers
  | transferEncoding | upgrade => false
  | _ => true

/-- `HttpHeaderIsCollapsible`. -/
def HttpHeader.isCollapsible : HttpHeader → Bool
  | setCookie | proxyAuthenticate | wwwAuthenticate => false
  | _ => true

/-! ## The map -/

inductive HeaderCombine
  | yes | no | auto | replace | new

/-- Names that the map does not tell apart. -/
def sameName (a b : List UInt8) : Bool :=
  sameNoCase (terminated a) (terminated b)

/-- `erase` of a name. -/
def erase (headers : HeaderMap) (name : List UInt8) : HeaderMap :=
  headers.filter fun entry => !sameName entry.1 name

/-- The first header of a name is changed. -/
def modifyFirst (name : List UInt8) (change : List UInt8 → List UInt8) : HeaderMap → HeaderMap
  | [] => []
  | entry :: headers =>
      if sameName entry.1 name then (entry.1, change entry.2) :: headers
      else entry :: modifyFirst name change headers

/-- `changeHeader`. -/
def changeHeader (headers : HeaderMap) (name value : List UInt8) (combine : HeaderCombine) :
    HeaderMap :=
  let combineOrAdd := fun combine : HeaderCombine =>
    if headers.any fun entry => sameName entry.1 name then
      match combine with
      | .yes => modifyFirst name (· ++ 0x2C :: value) headers
      | _ => headers
    else headers ++ [(name, value)]
  match combine with
  | .auto =>
      match HttpHeader.fromString name with
      | some header =>
          if header.isCollapsible then combineOrAdd .yes else headers ++ [(name, value)]
      | none => combineOrAdd .yes
  | .replace => erase headers name ++ [(name, value)]
  | .no => headers ++ [(name, value)]
  | combine => combineOrAdd combine

/-! ## Writing and reading -/

/-- The header goes to the cache: it is unknown, or meant for the other end. -/
def isCached (entry : List UInt8 × List UInt8) : Bool :=
  match HttpHeader.fromString entry.1 with
  | some header => header.isEndToEnd
  | none => true

def crlf : List UInt8 := [0x0D, 0x0A]

def formattedHeader (entry : List UInt8 × List UInt8) : List UInt8 :=
  entry.1 ++ [0x3A, 0x20] ++ entry.2 ++ crlf

/-- `HttpWriteCacheHeaders`: what is written, and the size that is reported. -/
def httpWriteCacheHeaders (response : HeaderMap) : List UInt8 × Nat :=
  let kept := response.filter isCached
  (kept.flatMap formattedHeader ++ crlf,
    (kept.map fun entry => entry.1.length + 2 + entry.2.length + 2).sum + 2)

/-- `ReadLine`: a line and what is behind it, unless the stream is at its end. -/
def readLine (input : List UInt8) : Option (List UInt8 × List UInt8) :=
  if input = [] then none
  else some (input.takeWhile (· ≠ 0x0A), (input.dropWhile (· ≠ 0x0A)).drop 1)

theorem length_readLine {input line rest : List UInt8} (read : readLine input = some (line, rest)) :
    rest.length < input.length := by
  unfold readLine at read
  split at read
  · cases read
  · next some_input =>
    obtain ⟨-, rfl⟩ := Prod.mk.inj (Option.some.inj read)
    have shorter := (List.dropWhile_suffix (l := input) (· ≠ 0x0A)).length_le
    have some_bytes := List.length_pos_of_ne_nil some_input
    by_cases ends : input.dropWhile (· ≠ 0x0A) = []
    · rw [ends]
      simpa using some_bytes
    · have positive := List.length_pos_of_ne_nil ends
      rw [List.length_drop]
      omega

/-- `HttpReadCacheHeaders`: the headers of the response, and what is left in the stream. -/
def httpReadCacheHeaders (combine : HeaderCombine) (response : HeaderMap) (input : List UInt8) :
    HeaderMap × List UInt8 :=
  match _read : readLine input with
  | none => (response, input)
  | some (formatted, rest) =>
      if formatted.length = 1 then (response, rest)
      else
        match formatted.idxOf? 0x3A with
        | none => httpReadCacheHeaders combine response rest
        | some endOfName =>
            let value := trimEnd (skipSpace (formatted.drop (endOfName + 1)))
            httpReadCacheHeaders combine
              (changeHeader response (formatted.take endOfName) value combine) rest
termination_by input.length
decreasing_by
  all_goals exact length_readLine _read

/-! ## A header's line -/

/-- Names and values that a line tells apart again. -/
structure Storable (entry : List UInt8 × List UInt8) : Prop where
  name_colon : 0x3A ∉ entry.1
  name_newline : 0x0A ∉ entry.1
  value_newline : 0x0A ∉ entry.2
  value_start : entry.2.head?.any isSpace = false
  value_end : entry.2.getLast?.any isSpace = false

instance (entry : List UInt8 × List UInt8) : Decidable (Storable entry) :=
  decidable_of_iff (0x3A ∉ entry.1 ∧ 0x0A ∉ entry.1 ∧ 0x0A ∉ entry.2 ∧
      entry.2.head?.any isSpace = false ∧ entry.2.getLast?.any isSpace = false)
    ⟨fun ⟨colon, newline, value, starts, ends⟩ => ⟨colon, newline, value, starts, ends⟩,
      fun ⟨colon, newline, value, starts, ends⟩ => ⟨colon, newline, value, starts, ends⟩⟩

/-- A line ends at its newline. -/
theorem readLine_line {line : List UInt8} (more : List UInt8) (one : 0x0A ∉ line) :
    readLine (line ++ 0x0A :: more) = some (line, more) := by
  have taken : ∀ b ∈ line, decide (b ≠ 0x0A) = true := by
    intro b b_mem
    exact decide_eq_true fun newline => one (newline ▸ b_mem)
  rw [readLine, if_neg (by simp), List.takeWhile_append_of_pos taken,
    List.dropWhile_append_of_pos taken]
  simp

/-- The first colon is the one behind the name. -/
theorem idxOf?_colon {name : List UInt8} (behind : List UInt8) (no_colon : 0x3A ∉ name) :
    (name ++ 0x3A :: behind).idxOf? 0x3A = some name.length := by
  induction name with
  | nil => simp [List.idxOf?_cons]
  | cons c name ih =>
    obtain ⟨other, no_colon⟩ := List.ne_and_not_mem_of_not_mem_cons no_colon
    rw [List.cons_append, List.idxOf?_cons, if_neg (by simpa using Ne.symm other), ih no_colon]
    simp

/-- The blank in front of a value and the carriage return behind it are taken off. -/
theorem trim_value {entry : List UInt8 × List UInt8} (storable : Storable entry) :
    trimEnd (skipSpace (0x20 :: (entry.2 ++ [0x0D]))) = entry.2 := by
  obtain ⟨name, value⟩ := entry
  have value_start := storable.value_start
  have value_end := storable.value_end
  dsimp only at value_start value_end ⊢
  cases value with
  | nil => decide
  | cons c value =>
    have passed : skipSpace ([0x20] ++ (c :: value ++ [0x0D])) = c :: value ++ [0x0D] := by
      apply skipSpace_blanks (List.forall_mem_singleton.mpr (by decide))
      intro d behind starts
      cases starts
      simpa using value_start
    rw [← List.singleton_append, passed, trimEnd, List.rdropWhile_concat_pos _ _ _ (by decide),
      List.rdropWhile_eq_self_iff]
    intro some_bytes
    rw [List.getLast?_eq_some_getLast some_bytes, Option.any_some] at value_end
    simp [value_end]

/-- The line of a header changes that header. -/
theorem read_formattedHeader (combine : HeaderCombine) (response : HeaderMap)
    {entry : List UInt8 × List UInt8} (more : List UInt8) (storable : Storable entry) :
    httpReadCacheHeaders combine response (formattedHeader entry ++ more) =
      httpReadCacheHeaders combine (changeHeader response entry.1 entry.2 combine) more := by
  have line : readLine (formattedHeader entry ++ more) =
      some (entry.1 ++ 0x3A :: 0x20 :: (entry.2 ++ [0x0D]), more) := by
    have one : 0x0A ∉ entry.1 ++ 0x3A :: 0x20 :: (entry.2 ++ [0x0D]) := by
      simp [storable.name_newline, storable.value_newline]
    simpa [formattedHeader, crlf] using readLine_line more one
  rw [httpReadCacheHeaders]
  split
  · next nothing => rw [line] at nothing; cases nothing
  · next formatted rest read =>
    rw [line] at read
    cases read
    have name_end : entry.1 ++ 0x3A :: 0x20 :: (entry.2 ++ [0x0D]) =
        entry.1 ++ [0x3A] ++ 0x20 :: (entry.2 ++ [0x0D]) := by simp
    have value : (entry.1 ++ 0x3A :: 0x20 :: (entry.2 ++ [0x0D])).drop (entry.1.length + 1) =
        0x20 :: (entry.2 ++ [0x0D]) := by
      rw [name_end, List.drop_left' (by simp)]
    rw [if_neg (by simp; omega), idxOf?_colon _ storable.name_colon]
    dsimp only
    rw [value, trim_value storable, List.take_left]

/-- The blank line ends the headers. -/
theorem read_crlf (combine : HeaderCombine) (response : HeaderMap) (rest : List UInt8) :
    httpReadCacheHeaders combine response (crlf ++ rest) = (response, rest) := by
  have one : 0x0A ∉ ([0x0D] : List UInt8) := by decide
  have line : readLine (crlf ++ rest) = some ([0x0D], rest) := readLine_line rest one
  rw [httpReadCacheHeaders]
  split
  · next nothing => rw [line] at nothing; cases nothing
  · next formatted behind read =>
    rw [line] at read
    cases read
    rfl

/-! ## All lines -/

/-- The headers change the response one after another. -/
def changeHeaders (combine : HeaderCombine) (response headers : HeaderMap) : HeaderMap :=
  headers.foldl (fun response entry => changeHeader response entry.1 entry.2 combine) response

/-- What was written is read header by header, and nothing behind the blank line. -/
theorem read_lines (combine : HeaderCombine) (response : HeaderMap) {headers : HeaderMap}
    (rest : List UInt8) (storable : ∀ entry ∈ headers, Storable entry) :
    httpReadCacheHeaders combine response
      (headers.flatMap formattedHeader ++ (crlf ++ rest)) =
      (changeHeaders combine response headers, rest) := by
  induction headers generalizing response with
  | nil => exact read_crlf combine response rest
  | cons entry headers ih =>
    rw [List.flatMap_cons, List.append_assoc,
      read_formattedHeader combine response _ (storable entry List.mem_cons_self),
      ih _ fun other other_mem => storable other (List.mem_cons_of_mem _ other_mem)]
    rfl

/-- The size is that of the bytes written. -/
theorem httpWriteCacheHeaders_size (headers : HeaderMap) :
    (httpWriteCacheHeaders headers).2 = (httpWriteCacheHeaders headers).1.length := by
  unfold httpWriteCacheHeaders
  induction headers.filter isCached with
  | nil => rfl
  | cons entry kept ih =>
    simp only [List.map_cons, List.sum_cons, List.flatMap_cons, List.length_append] at ih ⊢
    simp only [formattedHeader, List.length_append, List.length_cons, List.length_nil, crlf] at ih ⊢
    omega

/-! ## Replacing -/

/-- Headers of names that the map tells apart. -/
def Apart (a b : List UInt8 × List UInt8) : Prop :=
  sameName a.1 b.1 = false

instance (a b : List UInt8 × List UInt8) : Decidable (Apart a b) :=
  inferInstanceAs (Decidable (_ = false))

theorem Apart.symm {a b : List UInt8 × List UInt8} (apart : Apart a b) : Apart b a := by
  unfold Apart sameName sameNoCase at *
  rw [beq_eq_false_iff_ne] at *
  exact apart.symm

/-- A header that replaces is apart from those that stay. -/
theorem changeHeader_apart {response : HeaderMap} (name value : List UInt8)
    (apart : response.Pairwise Apart) :
    (changeHeader response name value .replace).Pairwise Apart := by
  refine List.pairwise_append.mpr ⟨apart.filter _, List.pairwise_singleton _ _, ?_⟩
  intro kept kept_mem added added_mem
  obtain ⟨-, stays⟩ := List.mem_filter.mp kept_mem
  cases List.mem_singleton.mp added_mem
  simpa [Apart] using stays

theorem changeHeaders_apart {response : HeaderMap} (headers : HeaderMap)
    (apart : response.Pairwise Apart) :
    (changeHeaders .replace response headers).Pairwise Apart := by
  induction headers generalizing response with
  | nil => exact apart
  | cons entry headers ih => exact ih (changeHeader_apart entry.1 entry.2 apart)

/-- Headers that are apart replace nothing. -/
theorem changeHeaders_of_apart {response headers : HeaderMap}
    (apart : (response ++ headers).Pairwise Apart) :
    changeHeaders .replace response headers = response ++ headers := by
  induction headers generalizing response with
  | nil => exact (List.append_nil response).symm
  | cons entry headers ih =>
    have stays : erase response entry.1 = response := by
      rw [erase, List.filter_eq_self]
      intro kept kept_mem
      have different : Apart kept entry :=
        (List.pairwise_append.mp apart).2.2 kept kept_mem entry List.mem_cons_self
      simpa [Apart] using different
    have step : changeHeader response entry.1 entry.2 .replace = response ++ [entry] :=
      congrArg (· ++ [entry]) stays
    have apart_step : (response ++ [entry] ++ headers).Pairwise Apart := by
      rwa [List.append_assoc]
    have onward := ih apart_step
    calc changeHeaders .replace response (entry :: headers)
        = changeHeaders .replace (response ++ [entry]) headers := by
          rw [← step]
          rfl
      _ = response ++ entry :: headers := by rw [onward, List.append_assoc, List.singleton_append]

/-! ## The cache -/

/-- What comes back from the cache is what went there, the size is right, and the reader stops in
front of what is behind. -/
def Survives (headers : HeaderMap) (rest : List UInt8) : Prop :=
  let written := httpWriteCacheHeaders headers
  let read := httpReadCacheHeaders .replace [] (written.1 ++ rest)
  read.1.Perm (headers.filter isCached) ∧ written.2 = written.1.length ∧ read.2 = rest

theorem read_written {headers : HeaderMap} (rest : List UInt8)
    (storable : ∀ entry ∈ headers, Storable entry) :
    httpReadCacheHeaders .replace [] ((httpWriteCacheHeaders headers).1 ++ rest) =
      (changeHeaders .replace [] (headers.filter isCached), rest) := by
  have kept_storable : ∀ entry ∈ headers.filter isCached, Storable entry :=
    fun entry kept => storable entry (List.mem_of_mem_filter kept)
  rw [← read_lines .replace [] rest kept_storable, httpWriteCacheHeaders, List.append_assoc]

/-- Headers come back from the cache exactly when no two of those that go there share a name. -/
theorem survives_iff (headers : HeaderMap) (rest : List UInt8)
    (storable : ∀ entry ∈ headers, Storable entry) :
    Survives headers rest ↔ (headers.filter isCached).Pairwise Apart := by
  unfold Survives
  dsimp only
  rw [read_written rest storable]
  constructor
  · rintro ⟨same, -, -⟩
    exact (same.pairwise_iff Apart.symm).mp (changeHeaders_apart _ List.Pairwise.nil)
  · intro apart
    refine ⟨?_, httpWriteCacheHeaders_size headers, rfl⟩
    rw [changeHeaders_of_apart apart]
    exact List.Perm.refl _

/-- A validator and a type come back, and the connection's own header does not go there. -/
theorem etag_survives :
    Survives [(ofString "Connection", ofString "close"), (ofString "Content-Type", ofString "text/html"),
      (ofString "ETag", ofString "\"x\"")] [0x21] :=
  (survives_iff _ _ (by decide)).mpr (by decide)

/-- Of two cookies the first is lost. -/
theorem cookie_lost :
    ¬ ∀ (headers : HeaderMap) (rest : List UInt8), (∀ entry ∈ headers, Storable entry) →
      Survives headers rest := by
  intro survives
  have storable : ∀ entry ∈ [(ofString "Set-Cookie", ofString "a=1"),
      (ofString "Set-Cookie", ofString "b=2")], Storable entry := by decide
  have same := (survives _ [] storable).1
  rw [read_written [] storable] at same
  exact absurd same.length_eq (by decide)

end Libjingle.Http.CacheHeaders
