import MismatchReport.Text.Basic

/-!
# Files

What a command can read: files by their paths, and its standard input.  Only texts in UTF-8 can be
read.
-/

namespace MismatchReport.Command

def decodeUtf8? (bytes : ByteArray) : Option Text := (String.fromUTF8? bytes).map String.toList

abbrev Files := Text → Option ByteArray

def Files.readText? (files : Files) (path : Text) : Option Text := (files path).bind decodeUtf8?

def pathPieces (path : Text) : List Text := path.splitOn '/'

def isSilentPiece (piece : Text) : Bool := piece.isEmpty || piece == ['.']

/-- A path that stands for the standard input: a hyphen, and nothing but silent pieces behind. -/
def isStandardInput (path : Text) : Bool :=
  match pathPieces path with
  | ['-'] :: rest => rest.all isSilentPiece
  | _ => false

/-- The pieces that lead to a file; a path from the root, or one that ends in a directory, leads to
none. -/
def relativePieces? (path : Text) : Option (List Text) :=
  let pieces := pathPieces path
  if path.head? = some '/' || (pieces.getLast?.any isSilentPiece) then none
  else some (pieces.filter (!isSilentPiece ·))

def Files.ofEntries (entries : List (Text × ByteArray)) : Files := fun path => do
  let pieces ← relativePieces? path
  let entry ← entries.find? fun (name, _) => relativePieces? name == some pieces
  return entry.2

end MismatchReport.Command
