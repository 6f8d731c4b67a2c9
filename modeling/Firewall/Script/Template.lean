import Firewall.Script

/-!
Templates that take the place of the packaged script. What a template makes of a script is up to
the renderer that reads it, and nothing here depends on that. The plain templates are one kind of
them: a name between two pairs of braces stands for the value of a variable, and all other text for
itself, every line end as a line feed.
-/

namespace Firewall

/-- Why a renderer gives up on a template. -/
structure Template.Fault where
  message : String
deriving DecidableEq, Repr

/-- A template, as its renderer applies it. -/
structure Template where
  render : Script → Except Template.Fault String

namespace Template

inductive Piece
  | text (c : Char)
  | reference (name : String)
deriving DecidableEq, Repr

/-- The text with a line feed for every line end. -/
def lineFeeds : List Char → List Char
  | [] => []
  | '\r' :: '\n' :: rest => '\n' :: lineFeeds rest
  | '\r' :: rest => '\n' :: lineFeeds rest
  | c :: rest => c :: lineFeeds rest

def isNameChar (c : Char) : Bool :=
  c.isAlphanum || c = '_' || (0x7f < c.toNat && !Text.isBlank c)

/-- The variable at the front of a text that follows two opening braces, and the rest. -/
def reference? (cs : List Char) : Option (String × List Char) :=
  let cs := cs.dropWhile Text.isBlank
  let name := cs.takeWhile isNameChar
  match (cs.dropWhile isNameChar).dropWhile Text.isBlank with
  | '\x7d' :: '\x7d' :: rest => if name.isEmpty then none else some (String.ofList name, rest)
  | _ => none

/-- The pieces of a template, by at most `fuel` steps. -/
def piecesWithin : Nat → List Char → List Piece
  | 0, _ => []
  | _, [] => []
  | fuel + 1, c :: rest =>
    match c, rest with
    | '\x7b', '\x7b' :: inner =>
      match reference? inner with
      | some (name, rest) => .reference name :: piecesWithin fuel rest
      | none => .text c :: piecesWithin fuel rest
    | _, _ => .text c :: piecesWithin fuel rest

def pieces (source : String) : List Piece :=
  let cs := lineFeeds source.toList
  piecesWithin cs.length cs

def Piece.render (s : Script) : Piece → Except Fault String
  | .text c => .ok (String.singleton c)
  | .reference name => match s.valueOf? name with
    | some value => .ok value
    | none => .error ⟨Text.Quoted.quote name ++ " is undefined"⟩

def plain (source : String) : Template where
  render s := do
    let parts ← (pieces source).mapM (Piece.render s)
    return String.join parts

end Template
end Firewall
