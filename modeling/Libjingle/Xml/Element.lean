import Mathlib.Algebra.Order.Ring.Nat

/-!
# XML elements

`QName` and `XmlElement` of `talk/xmllite`, with the functions that read an element and
those that add to it.
-/

namespace Libjingle.Xml

structure QName where
  ns : String
  localPart : String
  deriving DecidableEq, Repr

/-- `IsEmpty`. -/
def QName.isEmpty (name : QName) : Bool :=
  name.ns = "" ∧ name.localPart = ""

def nsXml : String := "http://www.w3.org/XML/1998/namespace"

def nsXmlns : String := "http://www.w3.org/2000/xmlns/"

/-- `QN_XMLNS`. -/
def qnXmlns : QName := ⟨"", "xmlns"⟩

structure XmlAttr where
  name : QName
  value : String
  deriving DecidableEq, Repr

mutual

inductive XmlElement where
  /-- The flag tells whether texts are printed as CDATA. -/
  | mk (name : QName) (attrs : List XmlAttr) (cdata : Bool) (children : List XmlChild)

inductive XmlChild where
  | text (text : String)
  | element (element : XmlElement)

end

def XmlChild.asElement : XmlChild → Option XmlElement
  | .text _ => none
  | .element e => some e

namespace XmlElement

def name : XmlElement → QName
  | .mk name _ _ _ => name

def attrs : XmlElement → List XmlAttr
  | .mk _ attrs _ _ => attrs

def cdata : XmlElement → Bool
  | .mk _ _ cdata _ => cdata

def children : XmlElement → List XmlChild
  | .mk _ _ _ children => children

def new (name : QName) : XmlElement := .mk name [] false []

/-- An element that declares its namespace as the default. -/
def newDefaultNs (name : QName) : XmlElement := .mk name [⟨qnXmlns, name.ns⟩] false []

/-- The value of an attribute, or an empty string. -/
def attr (e : XmlElement) (name : QName) : String :=
  ((e.attrs.find? (·.name = name)).map (·.value)).getD ""

def hasAttr (e : XmlElement) (name : QName) : Bool :=
  e.attrs.any (·.name = name)

def addAttr (e : XmlElement) (name : QName) (value : String) : XmlElement :=
  .mk e.name (e.attrs ++ [⟨name, value⟩]) e.cdata e.children

/-- The first attribute of a name changes its value, or a new one is added. -/
def setAttr (e : XmlElement) (name : QName) (value : String) : XmlElement :=
  let rec set : List XmlAttr → List XmlAttr
    | [] => [⟨name, value⟩]
    | attr :: rest => if attr.name = name then ⟨name, value⟩ :: rest else attr :: set rest
  .mk e.name (set e.attrs) e.cdata e.children

def elements (e : XmlElement) : List XmlElement :=
  e.children.filterMap XmlChild.asElement

def firstElement (e : XmlElement) : Option XmlElement :=
  e.elements.head?

def firstNamed (e : XmlElement) (name : QName) : Option XmlElement :=
  e.elements.find? (·.name = name)

/-- The elements that `FirstNamed` and `NextNamed` go through. -/
def allNamed (e : XmlElement) (name : QName) : List XmlElement :=
  e.elements.filter (·.name = name)

/-- The text of an element that has nothing else. -/
def bodyText (e : XmlElement) : String :=
  match e.children with
  | [.text text] => text
  | _ => ""

def textNamed (e : XmlElement) (name : QName) : String :=
  ((e.firstNamed name).map bodyText).getD ""

def addElement (e child : XmlElement) : XmlElement :=
  .mk e.name e.attrs e.cdata (e.children ++ [.element child])

/-- Texts that follow each other are one. -/
def addTextTo (text : String) : List XmlChild → List XmlChild
  | [] => [.text text]
  | [.text last] => [.text (last ++ text)]
  | child :: rest => child :: addTextTo text rest

def addText (e : XmlElement) (text : String) : XmlElement :=
  if text = "" then e else .mk e.name e.attrs e.cdata (addTextTo text e.children)

end XmlElement

end Libjingle.Xml
