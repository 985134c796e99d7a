import RuleBacktest.Text.LetterTables

/-!
# Lower case

Every character goes to its lower-case form.  A capital sigma becomes the final
sigma at the end of a word: when a cased letter comes before it and none after
it, letters that are passed over aside.
-/

namespace RuleBacktest
namespace Text

def lowerChar (c : Char) : List Char :=
  if c.toNat < 128 then [c.toLower]
  else if c = 'İ' then ['i', Char.ofNat 0x307]
  else
    match lowerRuns.find? fun r => r.contains c.toNat with
    | some r => [Char.ofNat ((c.toNat : Int) + r.offset).toNat]
    | none => [c]

/-- Whether the nearest character that counts is a cased letter. -/
def leadsToCased (cs : List Char) : Bool :=
  ((cs.dropWhile isCaseIgnorable).head?.map isCased).getD false

/-- The lower case of what follows `before`, which is given last character
first. -/
def lowerAfter (before : List Char) : List Char → List Char
  | [] => []
  | c :: cs =>
      let lower :=
        if c = 'Σ' then
          if leadsToCased before && !leadsToCased cs then ['ς'] else ['σ']
        else lowerChar c
      lower ++ lowerAfter (c :: before) cs

def lower (s : String) : String :=
  String.ofList (lowerAfter [] s.toList)

end Text
end RuleBacktest
