import Skvs.Externals
import Skvs.Lib.Text
import Mathlib.Data.Finset.Basic

/-!
# Full-text indexes
-/

namespace Skvs

structure FtsIndex where
  inverted : IndexMap String (Finset RowId)
  docLengths : IndexMap RowId Nat
  totalDocs : UInt64
  deriving DecidableEq

def stopwords : List String :=
  ["a", "an", "the", "is", "are", "was", "were", "in", "on", "at", "to", "for", "of", "with",
    "without", "and", "or", "but", "so", "for", "yet"]

/-- The words of a text: runs of ASCII letters and digits, longer than two and no stopwords. -/
def tokenize [Externals] (text : String) : List String :=
  ((Text.runs Char.isAlphanum (toLowercase text).toList).map String.ofList).filter fun s =>
    2 < s.length && !stopwords.contains s

namespace FtsIndex

def new : FtsIndex := ⟨∅, ∅, 0⟩

def addToken (rowid : RowId) (m : IndexMap String (Finset RowId)) (token : String) :
    IndexMap String (Finset RowId) :=
  m.insert token (insert rowid (m.getD token ∅))

/-- Take a row out of a token's list, and the token out of the index with its last row. -/
def removeToken (rowid : RowId) (m : IndexMap String (Finset RowId)) (token : String) :
    IndexMap String (Finset RowId) :=
  match m.get token with
  | none => m
  | some docs =>
    if docs.erase rowid = ∅ then m.erase token else m.insert token (docs.erase rowid)

variable [Externals]

def addDocument (idx : FtsIndex) (rowid : RowId) (content : String) : FtsIndex :=
  let tokens := tokenize content
  { inverted := tokens.foldl (addToken rowid) idx.inverted
    docLengths := idx.docLengths.insert rowid tokens.length
    totalDocs := idx.totalDocs + 1 }

def removeDocument (idx : FtsIndex) (rowid : RowId) (content : String) : FtsIndex :=
  { inverted := (tokenize content).foldl (removeToken rowid) idx.inverted
    docLengths := idx.docLengths.erase rowid
    totalDocs := idx.totalDocs - 1 }

/-- The rows that hold every word of the query; none for a query without words. -/
def search (idx : FtsIndex) (query : String) : Finset RowId :=
  match tokenize query with
  | [] => ∅
  | token :: tokens =>
    tokens.foldl (fun results t => results ∩ idx.inverted.getD t ∅) (idx.inverted.getD token ∅)

end FtsIndex

structure FtsVirtualTable where
  name : String
  index : FtsIndex
  contentColumn : String
  deriving DecidableEq

def FtsVirtualTable.new (name contentColumn : String) : FtsVirtualTable :=
  ⟨name, .new, contentColumn⟩

end Skvs
