import SceneMarkup.Filters.Octets

namespace SceneMarkup.Filters

/-!
# Classes of octets

A class is a set of octets that patterns and sets of characters call by a name.
-/

/-- A named set of octets. -/
structure OctetClass where
  name : String
  contains : Char → Bool

namespace OctetClass

/-- All classes. -/
def all : List OctetClass := [
  ⟨"alnum", Char.isAlphanum⟩,
  ⟨"alpha", Char.isAlpha⟩,
  ⟨"blank", fun octet => octet == ' ' || octet == '\t'⟩,
  ⟨"cntrl", fun octet => octet < ' ' || octet == '\x7f'⟩,
  ⟨"digit", Char.isDigit⟩,
  ⟨"graph", fun octet => Octets.isShown octet && octet != ' '⟩,
  ⟨"lower", Char.isLower⟩,
  ⟨"print", Octets.isShown⟩,
  ⟨"punct", fun octet => Octets.isShown octet && octet != ' ' && !octet.isAlphanum⟩,
  ⟨"space", Octets.isBlankOctet⟩,
  ⟨"upper", Char.isUpper⟩,
  ⟨"xdigit", fun octet =>
    octet.isDigit || ('a' ≤ octet && octet ≤ 'f') || ('A' ≤ octet && octet ≤ 'F')⟩]

/-- The class with a name. -/
def byName? (name : Octets) : Option OctetClass :=
  all.find? fun octetClass => octetClass.name.toList == name

/-- Every octet, in rising order. -/
def everyOctet : List Char :=
  (List.range 256).map Char.ofNat

/-- The octets of a class, in rising order. -/
def members (octetClass : OctetClass) : List Char :=
  everyOctet.filter octetClass.contains

end OctetClass

end SceneMarkup.Filters
