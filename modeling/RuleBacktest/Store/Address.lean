import RuleBacktest.Text.Count

/-!
# Addresses of stores

An address is `file:` with a path and options:
`file:path?name=value&name=value`.  A host may stand before the path,
`file://host/path`, but only the machine itself is known, under the name
`localhost` or none.  What follows a `#` is no part of the address.  A percent
sign with two hexadecimal digits stands for an octet, and a zero octet ends the
part that it stands in.
-/

namespace RuleBacktest

structure StoreAddress where
  path : String
  options : List (String × String)
  deriving DecidableEq, Repr

namespace StoreAddress

/-- The octets of a text, each as the character with its number. -/
def octets (s : String) : List Char :=
  s.toUTF8.toList.map fun b => Char.ofNat b.toNat

/-- The text of octets.  Octets of no text are taken for characters. -/
def ofOctets (cs : List Char) : String :=
  let bytes := (cs.map fun c => UInt8.ofNat c.toNat).toByteArray
  (String.fromUTF8? bytes).getD (String.ofList cs)

/-- Reads what percent signs stand for.  One without two hexadecimal digits
stands for itself. -/
def decode : List Char → List Char
  | [] => []
  | '%' :: a :: b :: cs =>
      match Text.hexValue? a, Text.hexValue? b with
      | some high, some low =>
          if 16 * high + low = 0 then []
          else Char.ofNat (16 * high + low) :: decode cs
      | _, _ => '%' :: decode (a :: b :: cs)
  | c :: cs => c :: decode cs

/-- An option with its value, which is empty when none is given.  An option
without name is none. -/
def option? (cs : List Char) : Option (String × String) :=
  let name := decode (cs.takeWhile fun c => c != '=')
  let value := decode ((cs.dropWhile fun c => c != '=').drop 1)
  if name.isEmpty then none else some (ofOctets name, ofOctets value)

/-- The address that stands after its host. -/
def ofLocal (cs : List Char) : StoreAddress :=
  let body := cs.takeWhile fun c => c != '#'
  let path := decode (body.takeWhile fun c => c != '?')
  let query := (body.dropWhile fun c => c != '?').drop 1
  ⟨ofOctets path, (query.splitOn '&').filterMap option?⟩

/-- Reads what follows `file:`, or gives the host that is not known. -/
def ofChars (cs : List Char) : Except String StoreAddress :=
  match cs with
  | '/' :: '/' :: rest =>
      let host := rest.takeWhile fun c => c != '/'
      if host.isEmpty || host == "localhost".toList then
        .ok (ofLocal (rest.dropWhile fun c => c != '/'))
      else .error (ofOctets host)
  | _ => .ok (ofLocal cs)

end StoreAddress
end RuleBacktest
