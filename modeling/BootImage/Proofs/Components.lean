import BootImage.Proofs.Lines
import BootImage.Proofs.Presentation
import BootImage.Proofs.Sibling

/-!
# The components of a path

A path's text says the same with more slashes or dots in it: what counts are its components.

* (texts) A path read from a text has this text's components, and writing a path that was read and reading it
  again changes nothing: `Path.components_ofText`, `Path.ofText_text`.
* (last components) There is a temporary sibling if the last component is a name:
  `Path.temporary?_eq_none_iff`.
-/

namespace BootImage

/-- What a path leads through: the root, the working directory, one directory up, or a name. -/
inductive Component
  | root
  | current
  | parent
  | normal (name : String)
  deriving DecidableEq, Repr

namespace Component

def ofPiece? (piece : String) : Option Component :=
  if piece = "" ∨ piece = "." then none else if piece = ".." then some .parent else some (.normal piece)

private theorem ofPiece?_of_isVoid {piece : String} (h : Path.isVoid piece) : ofPiece? piece = none := by
  rw [ofPiece?, if_pos (by simpa [Path.isVoid] using h)]

private theorem ofPiece?_of_not {piece : String} (h : Path.isVoid piece = false) :
    ofPiece? piece = some (if piece = ".." then .parent else .normal piece) := by
  rw [ofPiece?, if_neg (by simpa [Path.isVoid] using h)]
  split <;> rfl

/-- What the beginning of a text means: a slash is the root, and here a dot is the working directory. -/
def start? (text : String) : Option Component :=
  if text.toList.head? = some '/' then some .root
  else if (Path.splitSlashes text.toList).head? = some "." then some .current
  else none

end Component

/-- The components of a text: its beginning, then the pieces between slashes. -/
def componentsOf (text : String) : List Component :=
  (Component.start? text).toList ++ (Path.splitSlashes text.toList).filterMap Component.ofPiece?

def Anchor.component? : Anchor → Option Component
  | .root => some .root
  | .here => some .current
  | .bare => none

namespace Path

def components (p : Path) : List Component :=
  p.anchor.component?.toList ++ p.pieces.filterMap Component.ofPiece?

/-- The path is one that a text is read as. -/
structure Proper (p : Path) : Prop where
  slashless : ∀ piece ∈ p.pieces, '/' ∉ piece.toList
  nonempty : p.anchor ≠ .here → p.pieces ≠ []
  /-- A path that begins with neither a slash nor a dot begins with a name, or has no text. -/
  first : p.anchor = .bare → p.pieces ≠ [""] → ∀ piece ∈ p.pieces.head?, isVoid piece = false

/-! ### Texts -/

section

variable {p : Path} {pieces : List String}

private theorem splitSlashes_ne_nil (text : List Char) : splitSlashes text ≠ [] := by
  rw [splitSlashes, ne_eq, List.map_eq_nil_iff]
  exact List.splitOn_ne_nil _ _

private theorem splitSlashes_cons_slash (text : List Char) :
    splitSlashes ('/' :: text) = "" :: splitSlashes text := by
  rw [splitSlashes, List.splitOn_cons_eq_if_modifyHead, if_pos (by simp)]
  rfl

private theorem not_mem_of_mem_splitSlashes {text : List Char} {piece : String}
    (h : piece ∈ splitSlashes text) :
    '/' ∉ piece.toList := by
  obtain ⟨characters, hmem, rfl⟩ := List.mem_map.1 h
  rw [String.toList_ofList]
  exact not_mem_of_mem_splitOn hmem

private theorem splitSlashes_joinSlashes (hne : pieces ≠ []) (h : ∀ piece ∈ pieces, '/' ∉ piece.toList) :
    splitSlashes (joinSlashes pieces) = pieces := by
  have hclean : ∀ characters ∈ pieces.map String.toList, '/' ∉ characters := by
    simpa using h
  rw [splitSlashes, joinSlashes, List.splitOn_intercalate _ hclean (by simpa using hne), List.map_map]
  simp [Function.comp_def]

private theorem head?_eq_slash_iff (text : List Char) :
    text.head? = some '/' ↔ ∃ piece rest, splitSlashes text = "" :: piece :: rest := by
  constructor
  · intro h
    obtain ⟨rest, rfl⟩ := List.head?_eq_some_iff.1 h
    obtain ⟨piece, pieces, hrest⟩ := List.exists_cons_of_ne_nil (splitSlashes_ne_nil rest)
    exact ⟨piece, pieces, by rw [splitSlashes_cons_slash, hrest]⟩
  · rintro ⟨piece, rest, h⟩
    rw [← joinSlashes_splitSlashes text, h, joinSlashes_cons_cons]
    rfl

/-- The three ways in which a text can begin. -/
private theorem ofText_cases (text : String) :
    (∃ piece pieces, splitSlashes text.toList = "" :: piece :: pieces ∧
        ofText text = ⟨.root, piece :: pieces⟩) ∨
      (∃ pieces, splitSlashes text.toList = "." :: pieces ∧ ofText text = ⟨.here, pieces⟩) ∨
      ((splitSlashes text.toList ≠ [""] → ∀ piece ∈ (splitSlashes text.toList).head?, isVoid piece = false) ∧
        ofText text = ⟨.bare, splitSlashes text.toList⟩) := by
  unfold ofText
  split
  · rename_i piece pieces h
    exact .inl ⟨piece, pieces, h, rfl⟩
  · rename_i pieces h
    exact .inr (.inl ⟨pieces, h, rfl⟩)
  · rename_i hroot hhere
    refine .inr (.inr ⟨?_, rfl⟩)
    intro hne piece hpiece
    obtain ⟨rest, hrest⟩ := List.head?_eq_some_iff.1 hpiece
    have hempty : piece ≠ "" := by
      rintro rfl
      cases rest with
      | nil => exact hne hrest
      | cons next rest => exact hroot next rest hrest
    have hdot : piece ≠ "." := by
      rintro rfl
      exact hhere rest hrest
    simp [isVoid, hempty, hdot]

theorem proper_ofText (text : String) : (ofText text).Proper := by
  have hclean {pieces : List String} (h : pieces <:+ splitSlashes text.toList) : ∀ piece ∈ pieces,
    '/' ∉ piece.toList :=
    fun _ hpiece => not_mem_of_mem_splitSlashes (h.mem hpiece)
  rcases ofText_cases text with ⟨piece, pieces, hsplit, h⟩ | ⟨pieces, hsplit, h⟩ | ⟨hfirst, h⟩
  · rw [h]
    exact ⟨hclean ⟨[""], hsplit.symm⟩, fun _ => List.cons_ne_nil _ _, nofun⟩
  · rw [h]
    exact ⟨hclean ⟨["."], hsplit.symm⟩, nofun, nofun⟩
  · rw [h]
    exact ⟨hclean List.suffix_rfl, fun _ => splitSlashes_ne_nil _, fun _ => hfirst⟩

/-- Writing a path and reading it again gives the path back. -/
theorem ofText_text (h : p.Proper) : ofText p.text = p := by
  obtain ⟨anchor, pieces⟩ := p
  obtain ⟨hclean, hne, hfirst⟩ := h
  have hcases := ofText_cases (⟨anchor, pieces⟩ : Path).text
  cases anchor with
  | root =>
    have hpieces : pieces ≠ [] := hne (by simp)
    have hsplit : splitSlashes (⟨.root, pieces⟩ : Path).text.toList = "" :: pieces := by
      simp only [text, String.toList_ofList, splitSlashes_cons_slash, splitSlashes_joinSlashes hpieces hclean]
    rw [hsplit] at hcases
    rcases hcases with ⟨piece, rest, hcons, h⟩ | ⟨rest, hcons, -⟩ | ⟨hnamed, -⟩
    · rw [h, (List.cons.inj hcons).2]
    · exact absurd (List.cons.inj hcons).1 (by decide)
    · cases hnamed (by simpa using hpieces) "" rfl
  | here =>
    have hsplit : splitSlashes (⟨.here, pieces⟩ : Path).text.toList = "." :: pieces := by
      simp only [text, String.toList_ofList]
      refine splitSlashes_joinSlashes (List.cons_ne_nil _ _) ?_
      intro piece hpiece
      rcases List.mem_cons.1 hpiece with rfl | hpiece
      · decide
      · exact hclean piece hpiece
    rw [hsplit] at hcases
    rcases hcases with ⟨piece, rest, hcons, -⟩ | ⟨rest, hcons, h⟩ | ⟨hnamed, -⟩
    · exact absurd (List.cons.inj hcons).1 (by decide)
    · rw [h, (List.cons.inj hcons).2]
    · cases hnamed (by simp) "." rfl
  | bare =>
    have hpieces : pieces ≠ [] := hne (by simp)
    -- neither anchor is read, since the first piece is neither empty nor a dot
    have hsplit : splitSlashes (⟨.bare, pieces⟩ : Path).text.toList = pieces := by
      simp only [text, String.toList_ofList, splitSlashes_joinSlashes hpieces hclean]
    rw [hsplit] at hcases
    rcases hcases with ⟨piece, rest, hcons, -⟩ | ⟨rest, hcons, -⟩ | ⟨-, h⟩
    · cases hfirst rfl (by simp [hcons]) "" (by simp [hcons])
    · cases hfirst rfl (by simp [hcons]) "." (by simp [hcons])
    · exact h

private theorem component?_ofText (text : String) :
    (ofText text).anchor.component? = Component.start? text := by
  have hslash := head?_eq_slash_iff text.toList
  rcases ofText_cases text with ⟨piece, pieces, hsplit, h⟩ | ⟨pieces, hsplit, h⟩ | ⟨hfirst, h⟩
  · rw [h, Component.start?, if_pos (hslash.2 ⟨piece, pieces, hsplit⟩)]
    rfl
  · have hhead : text.toList.head? ≠ some '/' := by
      intro hhead
      obtain ⟨piece, rest, hroot⟩ := hslash.1 hhead
      rw [hsplit] at hroot
      exact absurd (List.cons.inj hroot).1 (by decide)
    rw [h, Component.start?, if_neg hhead, hsplit]
    rfl
  · have hhead : text.toList.head? ≠ some '/' := by
      intro hhead
      obtain ⟨piece, rest, hroot⟩ := hslash.1 hhead
      rw [hroot] at hfirst
      exact absurd (hfirst (by simp) "" rfl) (by decide)
    have hdot : (splitSlashes text.toList).head? ≠ some "." := by
      intro hdot
      have hne : splitSlashes text.toList ≠ [""] := by
        intro hempty
        rw [hempty] at hdot
        exact absurd (Option.some.inj hdot) (by decide)
      exact absurd (hfirst hne "." hdot) (by decide)
    rw [h, Component.start?, if_neg hhead, if_neg hdot]
    rfl

/-- A path that a text is read as has the components of the text. -/
theorem components_ofText (text : String) : (ofText text).components = componentsOf text := by
  rw [components, component?_ofText, componentsOf]
  -- what is taken off the front of the pieces means nothing among them
  rcases ofText_cases text with ⟨piece, pieces, hsplit, h⟩ | ⟨pieces, hsplit, h⟩ | ⟨-, h⟩
  · rw [h, hsplit]
    rfl
  · rw [h, hsplit]
    rfl
  · rw [h]

theorem componentsOf_text (h : p.Proper) : componentsOf p.text = p.components := by
  rw [← components_ofText, ofText_text h]

end

/-! ### The last component -/

section

variable {p temporary : Path} {tag name : String} {pieces before : List String}

private theorem splitLast?_eq_none_iff : splitLast? pieces = none ↔ ∀ piece ∈ pieces, isVoid piece := by
  have hvoid : pieces.reverse.dropWhile isVoid = [] ↔ ∀ piece ∈ pieces, isVoid piece := by
    simp [List.dropWhile_eq_nil_iff]
  rw [← hvoid, splitLast?]
  cases pieces.reverse.dropWhile isVoid <;> simp

private theorem filterMap_of_isVoid (h : ∀ piece ∈ pieces, isVoid piece) :
    pieces.filterMap Component.ofPiece? = [] := by
  rw [List.filterMap_eq_nil_iff]
  intro piece hpiece
  exact Component.ofPiece?_of_isVoid (h piece hpiece)

private theorem components_of_splitLast?_eq_none (h : splitLast? p.pieces = none) :
    p.components = p.anchor.component?.toList := by
  rw [components, filterMap_of_isVoid (splitLast?_eq_none_iff.1 h), List.append_nil]

private theorem components_of_splitLast? (h : splitLast? p.pieces = some (before, name)) :
    p.components =
      (⟨p.anchor, before⟩ : Path).components ++ [if name = ".." then .parent else .normal name] := by
  obtain ⟨hname, -, inner, tail, hinner, htail, hpieces⟩ := splitLast?_eq_some h
  rw [components, hpieces, List.filterMap_append, List.filterMap_append, filterMap_of_isVoid hinner,
    List.filterMap_cons_some (Component.ofPiece?_of_not hname), filterMap_of_isVoid htail, List.append_nil,
    ← List.append_assoc]
  rfl

theorem components_of_ne_parent (h : splitLast? p.pieces = some (before, name)) (hname : name ≠ "..") :
    p.components = (⟨p.anchor, before⟩ : Path).components ++ [.normal name] := by
  rw [components_of_splitLast? h, if_neg hname]

/-- A path has a temporary sibling exactly if its last component is a name. -/
theorem temporary?_eq_none_iff :
    p.temporary? tag = none ↔ ¬∃ directory name, p.components = directory ++ [.normal name] := by
  rw [← not_iff_not, not_not, ← ne_eq, Option.ne_none_iff_exists']
  constructor
  · rintro ⟨temporary, h⟩
    obtain ⟨before, name, hsplit, hname, -⟩ := temporary?_eq_some_iff.1 h
    exact ⟨_, name, components_of_ne_parent hsplit hname⟩
  · rintro ⟨directory, name, h⟩
    cases hsplit : splitLast? p.pieces with
    | none =>
      rw [components_of_splitLast?_eq_none hsplit] at h
      have hlast := congrArg List.getLast? h
      rw [List.getLast?_concat] at hlast
      cases hanchor : p.anchor <;> simp [hanchor, Anchor.component?] at hlast
    | some split =>
      obtain ⟨before, last⟩ := split
      refine ⟨_, temporary?_eq_some_iff.2 ⟨before, last, hsplit, ?_, rfl⟩⟩
      rintro rfl
      rw [components_of_splitLast? hsplit, if_pos rfl] at h
      cases List.append_inj_right' h rfl

/-- There is none for the empty path, the root, the working directory, and where the last component is a step
back. -/
theorem last_component_cases (p : Path) :
    (¬∃ directory name, p.components = directory ++ [.normal name]) ↔
      p.components ∈ [[], [.root], [.current]] ∨ p.components.getLast? = some .parent := by
  cases hsplit : splitLast? p.pieces with
  | none =>
    rw [components_of_splitLast?_eq_none hsplit]
    cases p.anchor <;> simp [Anchor.component?, List.singleton_eq_append_iff]
  | some split =>
    obtain ⟨before, last⟩ := split
    rw [components_of_splitLast? hsplit]
    by_cases hlast : last = ".."
    · simp [hlast]
    · simp [hlast, List.append_eq_singleton_iff]

end

end Path

end BootImage
