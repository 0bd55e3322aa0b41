import ResponseModel.Document.Basic

/-!
# The library of fragments

The fragments that operations can spread.  Of several definitions of one name the last one in the
user's documents counts; a name that only accompanying documents define is taken from the first
of them.
-/

namespace ResponseModel

/-- A definition of a fragment in the library. -/
structure Library.Entry where
  fragment : Fragment
  filePath : String
  /-- Whether the definition comes from the user's own documents. -/
  own : Bool
  deriving Inhabited

/-- The fragments by name, in the order in which the names first appear. -/
structure Library where
  entries : List (Name × Library.Entry)
  deriving Inhabited

namespace Library

/-- The entries of the fragments of a document. -/
def entriesOf (own : Bool) (document : Document) : List Entry :=
  document.fragments.map fun fragment => ⟨fragment, document.filePath, own⟩

/-- The library of the user's documents and the documents that accompany them. -/
def ofDocuments (documents accompanying : List Document) : Library :=
  let users := (documents.flatMap (entriesOf true)).foldl
    (fun entries entry => put entry.fragment.name entry entries) []
  ⟨(accompanying.flatMap (entriesOf false)).foldl
    (fun entries entry => putNew entry.fragment.name entry entries) users⟩

/-- The entry of a name. -/
def entry? (library : Library) (name : Name) : Option Entry := library.entries.lookup name

/-- The number of fragments. -/
def size (library : Library) : Nat := library.entries.length

end Library

end ResponseModel
