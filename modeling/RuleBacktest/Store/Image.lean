import RuleBacktest.Store.Place

/-!
# Images of stores

What the file of a store begins with: a header of a hundred octets and, in the
first of the pages that the file is divided into, the list of tables.  A text
can be such an image.  It is taken for an empty store if it is in order and its
list of tables is empty; octets beyond its end count as zero.
-/

namespace RuleBacktest

structure StoreImage where
  octets : List Nat
  deriving DecidableEq, Repr

namespace StoreImage

def ofText (content : String) : StoreImage :=
  ⟨content.toUTF8.toList.map UInt8.toNat⟩

def octet (i : StoreImage) (place : Nat) : Nat :=
  i.octets.getD place 0

/-- The number in two octets, the high one first. -/
def half (i : StoreImage) (place : Nat) : Nat :=
  256 * i.octet place + i.octet (place + 1)

/-- The number in four octets, the highest one first. -/
def word (i : StoreImage) (place : Nat) : Nat :=
  65536 * i.half place + i.half (place + 2)

/-- The octets that every image begins with. -/
def mark : List Nat :=
  "SQLite format 3\x00".toList.map Char.toNat

/-- The latest version of the format that may be written, or read. -/
def latestVersion : Nat := 2

/-- The latest version of the format of tables. -/
def latestTables : Nat := 4

/-- The size of the pages.  The largest is given by its upper half. -/
def pageSize (i : StoreImage) : Nat :=
  256 * i.octet 16 + 65536 * i.octet 17

/-- The part of a page that is in use. -/
def usableSize (i : StoreImage) : Nat :=
  i.pageSize - i.octet 20

def pageSizes : List Nat := [512, 1024, 2048, 4096, 8192, 16384, 32768, 65536]

def pagesInFile (i : StoreImage) : Nat :=
  (i.octets.length + i.pageSize - 1) / i.pageSize

/-- The count of pages in the header, which holds only if the header was written
by the last change.
-/
def countedPages (i : StoreImage) : Nat :=
  if i.word 28 = 0 ∨ i.word 24 ≠ i.word 92 then i.pagesInFile else i.word 28

/-- Whether the header is one of a store. -/
def hasHeader (i : StoreImage) : Bool :=
  i.octets.take 16 == mark && decide (i.octet 19 ≤ latestVersion) &&
    (i.octets.drop 21).take 3 == [64, 32, 32] && pageSizes.contains i.pageSize

/-- Whether the list of tables is in one page and empty. -/
def hasNoTables (i : StoreImage) : Bool :=
  i.octet 100 == 13 && i.half 103 == 0

/-- Whether the page of the list of tables is free as a whole, no other page is
free, and none is said to hold a table. -/
def isUnused (i : StoreImage) : Bool :=
  i.half 101 == 0 && i.half 105 == i.usableSize % 65536 && i.octet 107 == 0 &&
    i.word 36 == 0 && decide (i.word 52 ≤ 1)

end StoreImage

namespace Store

def malformed : Failure := .databaseQuery "database disk image is malformed"

def unsupported : Failure := .databaseQuery "unsupported file format"

end Store

/-- Whether an empty store can be made of an image at a place. -/
def StorePlace.checkImage (p : StorePlace) (i : StoreImage) :
    Except Failure Unit :=
  if !i.hasHeader then .error Store.unreadable
  else if i.pagesInFile < i.countedPages then .error Store.malformed
  else if i.usableSize < 480 then .error Store.unreadable
  else if StoreImage.latestTables < i.octet 47 then .error Store.unsupported
  else if !i.hasNoTables then .error Store.malformed
  else if !p.mayWrite || decide (StoreImage.latestVersion < i.octet 18) then
    .error Store.cannotKeep
  else if !i.isUnused then .error Store.malformed
  else .ok ()

end RuleBacktest
