import BootImage.Proofs.Components

/-!
# Temporary siblings

* (the sibling) The temporary sibling of a path has the path's components but for the last one:
  `Path.siblings_temporary`.
* (no collisions) Only one path has a given temporary sibling, and only in one process:
  `Path.temporaryName_inj`, `Path.Siblings.components_eq_iff`, `Path.Siblings.destination_eq_iff`.
-/

namespace BootImage

namespace Path

/-- The paths have these names in one directory. -/
structure Siblings (p sibling : Path) (name other : String) : Prop where
  components : ∃ directory, componentsOf p.text = directory ++ [.normal name] ∧
    componentsOf sibling.text = directory ++ [.normal other]
  parent : sibling.parent? = p.parent?
  fileName : p.fileName? = some name ∧ sibling.fileName? = some other
  destination : ∀ t : FileTree, ∃ directory, t.destination p = name :: directory ∧
    t.destination sibling = other :: directory

section

variable {p temporary : Path} {tag name name' : String} {pid pid' : Nat}

/-- The sibling of a path that a text is read as is such a path too. -/
private theorem Proper.of_temporary? (hp : p.Proper) (htag : '/' ∉ tag.toList)
    (h : p.temporary? tag = some temporary) :
    temporary.Proper := by
  obtain ⟨before, name, hsplit, -, rfl⟩ := temporary?_eq_some_iff.1 h
  obtain ⟨hname, -, inner, tail, -, -, hpieces⟩ := splitLast?_eq_some hsplit
  refine ⟨?_, fun _ => by simp, ?_⟩
  · intro piece hpiece
    rcases List.mem_append.1 hpiece with hpiece | hpiece
    · exact hp.slashless piece (by simp [hpieces, hpiece])
    · have hclean := hp.slashless name (by simp [hpieces])
      rw [List.mem_singleton.1 hpiece, temporaryName]
      simp [hclean, htag]
  · intro hanchor _ piece hpiece
    cases before with
    | nil =>
      rw [Option.mem_def] at hpiece
      rw [← Option.some.inj hpiece]
      exact isVoid_temporaryName name tag
    | cons first before =>
      -- the path has another piece, so it is not the one without a text
      have hne : p.pieces ≠ [""] := by
        intro hempty
        rw [hempty] at hsplit
        contradiction
      refine hp.first hanchor hne piece ?_
      rw [hpieces]
      exact hpiece

theorem siblings_temporary (hp : p.Proper) (htag : '/' ∉ tag.toList) (h : p.temporary? tag = some temporary) :
    ∃ name, Siblings p temporary name (temporaryName name tag) := by
  have hproper := hp.of_temporary? htag h
  obtain ⟨before, name, hsplit, hname, rfl⟩ := temporary?_eq_some_iff.1 h
  have hbefore := (splitLast?_eq_some hsplit).2.1
  have hsibling := splitLast?_append (isVoid_temporaryName name tag) hbefore
  have hending : temporaryName name tag ≠ ".." := temporaryName_ne (by decide)
  refine ⟨name, ⟨?_, ?_, ?_, ?_⟩⟩
  · rw [componentsOf_text hp, componentsOf_text hproper]
    exact ⟨_, components_of_ne_parent hsplit hname, components_of_ne_parent hsibling hending⟩
  · rw [parent?, parent?, hsplit, hsibling]
  · simp [fileName?, hsplit, hsibling, hname, hending, Option.filter]
  · intro t
    exact ⟨_, FileTree.destination_of_splitLast? hsplit hname,
      FileTree.destination_of_splitLast? hsibling hending⟩

private theorem eq_nil_of_dot {between as bs : List Char} (ha : '.' ∉ as)
    (h : '.' :: as = between ++ '.' :: bs) :
    between = [] := by
  cases between with
  | nil => rfl
  | cons c between =>
    rw [(List.cons.inj h).2] at ha
    simp at ha

/-- What stands behind the last dot tells where it is. -/
private theorem append_dot_inj {xs ys as bs : List Char} (ha : '.' ∉ as) (hb : '.' ∉ bs)
    (h : xs ++ '.' :: as = ys ++ '.' :: bs) : xs = ys ∧ as = bs := by
  rcases List.append_eq_append_iff.1 h with ⟨between, rfl, hbetween⟩ | ⟨between, rfl, hbetween⟩
  · obtain rfl := eq_nil_of_dot ha hbetween
    exact ⟨(List.append_nil _).symm, (List.cons.inj hbetween).2⟩
  · obtain rfl := eq_nil_of_dot hb hbetween
    exact ⟨List.append_nil _, (List.cons.inj hbetween).2.symm⟩

/-- The name tells the process too. -/
theorem temporaryName_inj :
    temporaryName name (toString pid) = temporaryName name' (toString pid') ↔ name = name' ∧ pid = pid' := by
  constructor
  · intro h
    have hdot (pid : Nat) : '.' ∉ (toString pid).toList :=
      not_mem_repr (fun _ => Nat.digitChar_ne '.' (by decide)) pid
    have htext : (name.toList ++ '.' :: (toString pid).toList) ++ ".tmp".toList =
        (name'.toList ++ '.' :: (toString pid').toList) ++ ".tmp".toList := by
      have hlist := congrArg String.toList h
      have hone : ".".toList = ['.'] := rfl
      simpa only [temporaryName, String.toList_append, hone, List.append_assoc, List.cons_append,
        List.nil_append]
        using hlist
    obtain ⟨hname, hpid⟩ := append_dot_inj (hdot pid) (hdot pid') (List.append_cancel_right htext)
    exact ⟨String.toList_inj.1 hname, Nat.repr_injective (String.toList_inj.1 hpid)⟩
  · rintro ⟨rfl, rfl⟩
    rfl

variable {q sibling : Path} {other other' : String}

/-- Siblings are told apart as the paths themselves are, if their names are. -/
theorem Siblings.components_eq_iff {P : Prop} (h : Siblings p temporary name other)
    (h' : Siblings q sibling name' other') (hnames : other' = other ↔ name' = name ∧ P) :
    componentsOf sibling.text = componentsOf temporary.text ↔
      componentsOf q.text = componentsOf p.text ∧ P := by
  obtain ⟨directory, hpath, hsibling⟩ := h.components
  obtain ⟨directory', hpath', hsibling'⟩ := h'.components
  rw [hpath, hsibling, hpath', hsibling', List.append_singleton_inj, List.append_singleton_inj,
    Component.normal.injEq, Component.normal.injEq, hnames, and_assoc]

theorem Siblings.destination_eq_iff {P : Prop} (h : Siblings p temporary name other)
    (h' : Siblings q sibling name' other') (hnames : other' = other ↔ name' = name ∧ P) (t : FileTree) :
    t.destination sibling = t.destination temporary ↔ t.destination q = t.destination p ∧ P := by
  obtain ⟨directory, hpath, hsibling⟩ := h.destination t
  obtain ⟨directory', hpath', hsibling'⟩ := h'.destination t
  rw [hpath, hsibling, hpath', hsibling', List.cons.injEq, List.cons.injEq, hnames, and_right_comm]

private theorem Siblings.fileName_eq (h : Siblings p temporary name other)
    (h' : Siblings q sibling name' other') (heq : componentsOf q.text = componentsOf p.text) :
    q.fileName? = p.fileName? := by
  obtain ⟨directory, hpath, -⟩ := h.components
  obtain ⟨directory', hpath', -⟩ := h'.components
  rw [hpath, hpath', List.append_singleton_inj, Component.normal.injEq] at heq
  rw [h.fileName.1, h'.fileName.1, heq.2]

end

/-- There is a temporary sibling of a path, however it is written, unless its last component is no name.  The
sibling can be written and read again; it has the process and the ending behind the path's own name, in the
same directory, and so leads to another entry in every file tree.  Two temporary siblings are one, as paths or
as entries, exactly if the paths are one and the processes are; so the paths then have one name. -/
theorem temporary_names_sibling (text : String) (pid : Nat) :
    ((ofText text).temporary? (toString pid) = none ↔
        ¬∃ directory name, componentsOf text = directory ++ [.normal name]) ∧
      ((ofText text).temporary? (toString pid) = none ↔
        componentsOf text ∈ [[], [.root], [.current]] ∨ (componentsOf text).getLast? = some .parent) ∧
      ∀ temporary, (ofText text).temporary? (toString pid) = some temporary →
        ofText temporary.text = temporary ∧
          (∃ name, Siblings (ofText text) temporary name (name ++ "." ++ toString pid ++ ".tmp")) ∧
          (∀ t : FileTree, t.destination temporary ≠ t.destination (ofText text)) ∧
          ∀ other pid' sibling, (ofText other).temporary? (toString pid') = some sibling →
            (componentsOf sibling.text = componentsOf temporary.text ↔
              componentsOf other = componentsOf text ∧ pid' = pid) ∧
            (componentsOf sibling.text = componentsOf temporary.text →
              (ofText other).fileName? = (ofText text).fileName?) ∧
            ∀ t : FileTree, t.destination sibling = t.destination temporary ↔
              t.destination (ofText other) = t.destination (ofText text) ∧ pid' = pid := by
  have hslash (pid : Nat) : '/' ∉ (toString pid).toList :=
    not_mem_repr (fun _ => Nat.digitChar_ne '/' (by decide)) pid
  refine ⟨?_, ?_, ?_⟩
  · rw [temporary?_eq_none_iff, components_ofText]
  · rw [temporary?_eq_none_iff, last_component_cases, components_ofText]
  · intro temporary h
    have hproper := (proper_ofText text).of_temporary? (hslash pid) h
    obtain ⟨name, hsiblings⟩ := siblings_temporary (proper_ofText text) (hslash pid) h
    refine ⟨ofText_text hproper, ⟨name, hsiblings⟩, fun _ => FileTree.destination_temporary_ne h, ?_⟩
    intro other pid' sibling h'
    obtain ⟨name', hsiblings'⟩ := siblings_temporary (proper_ofText other) (hslash pid') h'
    have heq := hsiblings.components_eq_iff hsiblings' temporaryName_inj
    rw [text_ofText, text_ofText] at heq
    refine ⟨heq, ?_, hsiblings.destination_eq_iff hsiblings' temporaryName_inj⟩
    intro hsame
    refine hsiblings.fileName_eq hsiblings' ?_
    rw [text_ofText, text_ofText]
    exact (heq.1 hsame).1

/-- Two ways to write one path, with one sibling. -/
theorem temporary_names_sibling_flash :
    (ofText "out//./flash.bin/").temporary? (toString 7) = some ⟨.bare, ["out", "flash.bin.7.tmp"]⟩ ∧
      (ofText "out/flash.bin").temporary? (toString 7) = some ⟨.bare, ["out", "flash.bin.7.tmp"]⟩ ∧
      componentsOf "out/flash.bin.7.tmp" = [.normal "out", .normal "flash.bin.7.tmp"] ∧
      componentsOf "out/flash.bin" = componentsOf "out//./flash.bin/" ∧
      (∃ name, Siblings (ofText "out//./flash.bin/") ⟨.bare, ["out", "flash.bin.7.tmp"]⟩ name
        (name ++ "." ++ toString 7 ++ ".tmp")) := by
  have htext : (ofText "out//./flash.bin/").temporary? (toString 7) =
      some ⟨.bare, ["out", "flash.bin.7.tmp"]⟩ := by
    decide +kernel
  have hother : (ofText "out/flash.bin").temporary? (toString 7) =
      some ⟨.bare, ["out", "flash.bin.7.tmp"]⟩ := by
    decide +kernel
  obtain ⟨-, hsiblings, -, hcollision⟩ := (temporary_names_sibling "out//./flash.bin/" 7).2.2 _ htext
  have hsame := (hcollision "out/flash.bin" 7 _ hother).1.1 rfl
  exact ⟨htext, hother, by decide +kernel, hsame.1, hsiblings⟩

end Path

end BootImage
