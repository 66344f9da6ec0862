import CallBridge.Host.Files

/-!
# Open files

A file that is open for writing holds text back until it has enough of it, and then hands it over in
pieces, each for its place in the file.
-/

namespace CallBridge

/-- A piece of text for a place in a file. -/
structure Piece where
  place : Nat
  text : String
  deriving DecidableEq, Repr, Inhabited

/-- A file opened for writing: the place reached in it, and the text not yet handed to it. -/
structure OpenFile where
  target : Files.Target
  place : Nat := 0
  pending : String := ""
  deriving Repr, Inhabited

namespace OpenFile

/-- The number of bytes that are held back at most. -/
def capacity : Nat := 8192

/-- Hand over the text held back. -/
def flush (o : OpenFile) : List Piece × OpenFile :=
  if o.pending = "" then ([], o)
  else
    ([⟨o.place, o.pending⟩],
      { o with place := o.place + o.pending.utf8ByteSize, pending := "" })

/-- Write a text. It is held back while there is room; a text without room first hands over what is
held back, and one that would fill the room alone is not held back. -/
def write (o : OpenFile) (text : String) : List Piece × OpenFile :=
  let size := text.utf8ByteSize
  if o.pending.utf8ByteSize + size ≤ capacity ∧ size < capacity then
    ([], { o with pending := o.pending ++ text })
  else
    let (pieces, o) := o.flush
    if size < capacity then (pieces, { o with pending := o.pending ++ text })
    else (pieces ++ [⟨o.place, text⟩], { o with place := o.place + size })

end OpenFile
end CallBridge
