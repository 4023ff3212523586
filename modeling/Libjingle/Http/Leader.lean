import Libjingle.Std.CString

/-!
# Requests and responses

The data of `HttpRequestData` and `HttpResponseData` in `talk/base/httpcommon.h`, apart from the
headers and the document.
-/

namespace Libjingle.Http

inductive HttpError
  | none | protocol | disconnected | overflow | connectFailed | socketError | shutdown
  | operationCancelled | auth | certificateExpired | stream | cache | default
  deriving Repr, DecidableEq

inductive HttpVersion
  | v10 | v11 | unknown
  deriving Repr, DecidableEq

inductive HttpVerb
  | get | post | put | delete | connect | head
  deriving Repr, DecidableEq

structure HttpRequestData where
  version : HttpVersion
  verb : HttpVerb
  path : List UInt8
  deriving Repr, DecidableEq

structure HttpResponseData where
  version : HttpVersion
  scode : Nat
  message : List UInt8
  deriving Repr, DecidableEq

end Libjingle.Http
