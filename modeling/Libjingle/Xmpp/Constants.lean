import Libjingle.Xml.Element

/-!
# Names of XMPP

Those names of `talk/xmpp/constants.cc` that the engine reads and writes, and the stanza
errors that it can send.
-/

namespace Libjingle.Xmpp

open Libjingle.Xml

def nsClient : String := "jabber:client"
def nsStream : String := "http://etherx.jabber.org/streams"
def nsTls : String := "urn:ietf:params:xml:ns:xmpp-tls"
def nsSasl : String := "urn:ietf:params:xml:ns:xmpp-sasl"
def nsBind : String := "urn:ietf:params:xml:ns:xmpp-bind"
def nsSession : String := "urn:ietf:params:xml:ns:xmpp-session"
def nsStanza : String := "urn:ietf:params:xml:ns:xmpp-stanzas"
def nsGoogleAuthProtocol : String := "http://www.google.com/talk/protocol/auth"

def qnStreamStream : QName := ⟨nsStream, "stream"⟩
def qnStreamFeatures : QName := ⟨nsStream, "features"⟩
def qnStreamError : QName := ⟨nsStream, "error"⟩

def qnTlsStarttls : QName := ⟨nsTls, "starttls"⟩
def qnTlsProceed : QName := ⟨nsTls, "proceed"⟩

def qnSaslMechanisms : QName := ⟨nsSasl, "mechanisms"⟩
def qnSaslMechanism : QName := ⟨nsSasl, "mechanism"⟩
def qnSaslChallenge : QName := ⟨nsSasl, "challenge"⟩
def qnSaslSuccess : QName := ⟨nsSasl, "success"⟩

def qnGoogleAuthClientUsesFullBindResult : QName :=
  ⟨nsGoogleAuthProtocol, "client-uses-full-bind-result"⟩
def qnGoogleAllowNonGoogleIdXmppLogin : QName :=
  ⟨nsGoogleAuthProtocol, "allow-non-google-login"⟩

def qnBindBind : QName := ⟨nsBind, "bind"⟩
def qnBindResource : QName := ⟨nsBind, "resource"⟩
def qnBindJid : QName := ⟨nsBind, "jid"⟩
def qnSessionSession : QName := ⟨nsSession, "session"⟩

def qnIq : QName := ⟨nsClient, "iq"⟩
def qnError : QName := ⟨nsClient, "error"⟩
def qnStanzaText : QName := ⟨nsStanza, "text"⟩

def qnVersion : QName := ⟨"", "version"⟩
def qnTo : QName := ⟨"", "to"⟩
def qnFrom : QName := ⟨"", "from"⟩
def qnType : QName := ⟨"", "type"⟩
def qnId : QName := ⟨"", "id"⟩
def qnCode : QName := ⟨"", "code"⟩

inductive XmppStanzaError where
  | badRequest
  | conflict
  | featureNotImplemented
  | forbidden
  | gone
  | internalServerError
  | itemNotFound
  | jidMalformed
  | notAcceptable
  | notAllowed
  | paymentRequired
  | recipientUnavailable
  | redirect
  | registrationRequired
  | serverNotFound
  | serverTimeout
  | resourceConstraint
  | serviceUnavailable
  | subscriptionRequired
  | undefinedCondition
  | unexpectedRequest
  deriving DecidableEq, Repr

/-- The element of an error, its type and its code. -/
def XmppStanzaError.parts : XmppStanzaError → String × String × String
  | .badRequest => ("bad-request", "modify", "400")
  | .conflict => ("conflict", "cancel", "409")
  | .featureNotImplemented => ("feature-not-implemented", "cancel", "501")
  | .forbidden => ("forbidden", "auth", "403")
  | .gone => ("gone", "modify", "302")
  | .internalServerError => ("internal-server-error", "wait", "500")
  | .itemNotFound => ("item-not-found", "cancel", "404")
  | .jidMalformed => ("jid-malformed", "modify", "400")
  | .notAcceptable => ("not-acceptable", "cancel", "406")
  | .notAllowed => ("not-allowed", "cancel", "405")
  | .paymentRequired => ("payment-required", "auth", "402")
  | .recipientUnavailable => ("recipient-unavailable", "wait", "404")
  | .redirect => ("redirect", "modify", "302")
  | .registrationRequired => ("registration-required", "auth", "407")
  | .serverNotFound => ("remote-server-not-found", "cancel", "404")
  | .serverTimeout => ("remote-server-timeout", "wait", "502")
  | .resourceConstraint => ("resource-constraint", "wait", "500")
  | .serviceUnavailable => ("service-unavailable", "cancel", "503")
  | .subscriptionRequired => ("subscription-required", "auth", "407")
  | .undefinedCondition => ("undefined-condition", "wait", "500")
  | .unexpectedRequest => ("unexpected-request", "wait", "400")

/-- `AddErrorCode`. -/
def addErrorCode (e : XmlElement) (code : XmppStanzaError) : XmlElement :=
  let (name, type, number) := code.parts
  e.addElement ((((XmlElement.new qnError).addAttr qnCode number).addAttr qnType type).addElement
    (.newDefaultNs ⟨nsStanza, name⟩))

/-- The attributes of a reply, which goes back where the stanza is from. -/
def replyAttrs (attrs : List XmlAttr) : List XmlAttr :=
  attrs.filterMap fun attr =>
    if attr.name = qnTo then none
    else if attr.name = qnFrom then some ⟨qnTo, attr.value⟩
    else if attr.name = qnType then none
    else some attr

/-- What `SendStanzaError` sends. -/
def stanzaError (original : XmlElement) (code : XmppStanzaError) (text : String) : XmlElement :=
  let e := (replyAttrs original.attrs).foldl (fun e attr => e.addAttr attr.name attr.value)
    ((XmlElement.new original.name).addAttr qnType "error")
  let e := original.children.foldl (fun e child =>
    match child with
    | .text text => e.addText text
    | .element child => e.addElement child) e
  let e := addErrorCode e code
  if text ≠ "" then e.addElement ((XmlElement.newDefaultNs qnStanzaText).addText text) else e

end Libjingle.Xmpp
