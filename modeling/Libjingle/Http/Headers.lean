import Libjingle.Http.Leader

/-!
# Headers

The headers of an HTTP message, `HttpData::HeaderMap` in `talk/base/httpcommon.h`: a multimap
whose names are compared without case. Entries of one name stand in the order in which they
came; the order of different names is not kept.
-/

namespace Libjingle.Http

open Libjingle.Std CString

abbrev HeaderMap := List (List UInt8 × List UInt8)

def hhConnection : List UInt8 := ofString "Connection"
def hhContentLength : List UInt8 := ofString "Content-Length"
def hhProxyConnection : List UInt8 := ofString "Proxy-Connection"

/-- `hasHeader`: the value of the first header of a name. -/
def HeaderMap.header (headers : HeaderMap) (name : List UInt8) : Option (List UInt8) :=
  (headers.find? fun entry => sameNoCase entry.1 name).map Prod.snd

/-- `setHeader` that does not overwrite. -/
def HeaderMap.setNewHeader (headers : HeaderMap) (name value : List UInt8) : HeaderMap :=
  if (headers.header name).isSome then headers else headers ++ [(name, value)]

def httpShouldKeepAlive (version : HttpVersion) (headers : HeaderMap) : Bool :=
  match (headers.header hhProxyConnection).or (headers.header hhConnection) with
  | some connection => sameNoCase connection (ofString "Keep-Alive")
  | none => version ≠ .v10

end Libjingle.Http
