/-!
# Blank characters

Blanks are the characters with the Unicode property White_Space.  Trimming
removes them at both ends of a text, and names of indicators lose them
everywhere.
-/

namespace RuleBacktest
namespace Text

def isBlank (c : Char) : Bool :=
  let n := c.toNat
  (9 ≤ n && n ≤ 13) || n == 0x20 || n == 0x85 || n == 0xA0 || n == 0x1680 ||
    (0x2000 ≤ n && n ≤ 0x200A) || n == 0x2028 || n == 0x2029 || n == 0x202F ||
    n == 0x205F || n == 0x3000

def trimChars (cs : List Char) : List Char :=
  ((cs.dropWhile isBlank).reverse.dropWhile isBlank).reverse

def trim (s : String) : String :=
  String.ofList (trimChars s.toList)

/-- The trimmed text, unless nothing is left of it. -/
def nonBlank? (s : String) : Option String :=
  let t := trim s
  if t.isEmpty then none else some t

def removeBlanks (s : String) : String :=
  String.ofList (s.toList.filter fun c => !isBlank c)

end Text
end RuleBacktest
