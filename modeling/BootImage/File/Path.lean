/-!
# Paths

A path is kept as the pieces between its slashes, so that its text can be given back as it was
(`text_ofText`).  Empty pieces and single dots name nothing, except for a dot at the very beginning.  The name
of a path is its last piece that names something; the parent is what stands before it, without the pieces at
its end that name nothing.
-/

namespace BootImage

/-- How a path begins: with a slash, with a piece that is a dot, or with any other piece. -/
inductive Anchor
  | root
  | here
  | bare
  deriving DecidableEq, Repr

structure Path where
  anchor : Anchor
  /-- The pieces between slashes, behind the beginning. -/
  pieces : List String
  deriving DecidableEq, Repr

namespace Path

def splitSlashes (text : List Char) : List String := (text.splitOn '/').map String.ofList

def joinSlashes (pieces : List String) : List Char := ['/'].intercalate (pieces.map String.toList)

def ofText (text : String) : Path :=
  match splitSlashes text.toList with
  | "" :: piece :: pieces => ⟨.root, piece :: pieces⟩
  | "." :: pieces => ⟨.here, pieces⟩
  | pieces => ⟨.bare, pieces⟩

def text (p : Path) : String :=
  String.ofList <|
    match p.anchor with
    | .root => '/' :: joinSlashes p.pieces
    | .here => joinSlashes ("." :: p.pieces)
    | .bare => joinSlashes p.pieces

def isVoid (piece : String) : Bool := piece = "" || piece = "."

/-- The last piece that names something, and the pieces before it up to the one before that names
something. -/
def splitLast? (pieces : List String) : Option (List String × String) :=
  match pieces.reverse.dropWhile isVoid with
  | [] => none
  | last :: before => some ((before.dropWhile isVoid).reverse, last)

def parent? (p : Path) : Option Path :=
  match splitLast? p.pieces, p.anchor with
  | some (before, _), anchor => some ⟨anchor, before⟩
  | none, .here => some ⟨.bare, []⟩
  | none, _ => none

/-- The path's last component, unless that is the root, a dot or two dots. -/
def fileName? (p : Path) : Option String := ((splitLast? p.pieces).map Prod.snd).filter (· ≠ "..")

def withFileName? (p : Path) (name : String) : Option Path :=
  match splitLast? p.pieces with
  | some (before, last) => if last = ".." then none else some ⟨p.anchor, before ++ [name]⟩
  | none => none

def above (anchor : Anchor) : List String → List Path
  | [] => if anchor = .here then [⟨.here, []⟩, ⟨.bare, []⟩] else [⟨anchor, []⟩]
  | piece :: before =>
    if isVoid piece then above anchor before else ⟨anchor, (piece :: before).reverse⟩ :: above anchor before

def ancestors (p : Path) : List Path := above p.anchor p.pieces.reverse

theorem joinSlashes_splitSlashes (text : List Char) : joinSlashes (splitSlashes text) = text := by
  simp [joinSlashes, splitSlashes, Function.comp_def, List.intercalate_splitOn]

theorem text_ofText (text : String) : (ofText text).text = text := by
  have h := joinSlashes_splitSlashes text.toList
  unfold ofText
  split
  · rename_i piece pieces e
    rw [e] at h
    have h' : '/' :: joinSlashes (piece :: pieces) = text.toList := by
      rw [← h]; simp [joinSlashes, List.intercalate]
    simp [Path.text, h']
  · rename_i pieces e
    rw [e] at h
    simp [Path.text, h]
  · simp [Path.text, h]

end Path

end BootImage
