import StaticStorage.Word

/-!
# Documents

A document is what a self-describing text format can express: plain values, lists and records. Readers ask
a document for one shape and get nothing when it has another.

* `Document.word?_word` — a word is read back from its document.
-/

namespace StaticStorage

/-- A value of a self-describing format. -/
inductive Document where
  | null
  | flag (value : Bool)
  /-- A number in decimal notation, as all of its digits and how many of them follow the point. -/
  | decimal (digits : Int) (places : Nat)
  | text (value : String)
  | list (items : List Document)
  | record (members : List (String × Document))
deriving Inhabited

namespace Document

/-- A word as a number. -/
def word (value : UInt32) : Document := .decimal value.toNat 0

/-- The word that a number without a fractional part stands for. -/
def word? : Document → Option UInt32
  | .decimal (.ofNat n) 0 => Word.ofNat? n
  | _ => none

/-- The items of a list. -/
def items? : Document → Option (List Document)
  | .list items => some items
  | _ => none

/-- The members of a record, whatever their names. -/
def entries? : Document → Option (List (String × Document))
  | .record members => some members
  | _ => none

/-- The members of a record with the given names, in the order of the names; other members are passed
over. A list of just as many items counts as the record of these names. -/
def members? (names : List String) : Document → Option (List Document)
  | .record members => names.mapM fun name => members.lookup name
  | .list items => if items.length = names.length then some items else none
  | _ => none

/-- A name that stands for itself: its text, or the record of nothing under that name. -/
def name? : Document → Option String
  | .text value => some value
  | .record [(name, .null)] => some name
  | _ => none

/-- A word is read back from its document. -/
theorem word?_word (value : UInt32) : (word value).word? = some value := Word.ofNat?_toNat value

end Document

end StaticStorage
