/-!
# Letter case within ASCII

Keywords and parameter names are compared without regard to the case of ASCII
letters.  Letters outside ASCII are left as they are.
-/

namespace RuleBacktest
namespace Text

def upperAscii (s : String) : String :=
  s.map Char.toUpper

def lowerAscii (s : String) : String :=
  s.map Char.toLower

def sameIgnoringAsciiCase (s t : String) : Bool :=
  lowerAscii s == lowerAscii t

end Text
end RuleBacktest
