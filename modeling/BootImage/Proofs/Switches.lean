import BootImage.Proofs.FrontOptions

/-!
# Reading as nothing but version switches

The first reading of a command line accepts version switches only, and at the end a `--` or a request for
help: `scan_versionUsage`, `exists_front_of_scan`.
-/

namespace BootImage

def IsSwitch (a : String) : Prop :=
  a = "--version" ∨ ∃ n, a = String.ofList ('-' :: List.replicate (n + 1) 'V')

/-- The arguments that are no switches and yet accepted as the version switch is: requests for help and the
end of the options. -/
def asides : List String := ["--help", "-h", "help", "--"]

theorem Usage.takeDashed_of_isSwitch {σ : Type} {u : Usage σ} {set : σ → σ}
    (hlong : u.option? "--version" = some (versionOption set))
    (hshort : u.option? "-V" = some (versionOption set)) {a : String} (ha : IsSwitch a) (s : Scan σ) :
    ∃ n, u.takeDashed a s = .ok { s with values := set^[n + 1] s.values } := by
  rcases ha with rfl | ⟨n, rfl⟩
  · exact ⟨0, takeDashed_of_option hlong s⟩
  · exact ⟨n, takeDashed_versions hshort n s⟩

private theorem of_option?_versionUsage {a : String} {o : OptionUsage Bool}
    (h : versionUsage.option? a = some o) :
    (a = "--version" ∨ a = "-V") ∧ o = versionOption fun _ => true := by
  have hspelled := List.find?_some h
  obtain rfl := List.mem_singleton.1 (List.mem_of_find?_eq_some h)
  rw [Bool.or_eq_true] at hspelled
  exact ⟨hspelled.imp of_decide_eq_true of_decide_eq_true, rfl⟩

private theorem takeLetters_versionUsage {letters : List Char} {s s' : Scan Bool}
    (h : versionUsage.takeLetters letters s = .ok s') : ∃ n, letters = List.replicate n 'V' := by
  induction letters generalizing s with
  | nil => exact ⟨0, rfl⟩
  | cons c letters ih =>
    rw [Usage.takeLetters] at h
    cases hoption : versionUsage.option? (String.ofList ['-', c]) with
    | none =>
      simp only [hoption] at h
      contradiction
    | some o =>
      obtain ⟨hspelling, rfl⟩ := of_option?_versionUsage hoption
      have hc : c = 'V' := by simpa [String.ext_iff] using hspelling
      simp only [hoption, Usage.takeOption] at h
      obtain ⟨n, rfl⟩ := ih h
      exact ⟨n + 1, by rw [hc, List.replicate_succ]⟩

private theorem isSwitch_of_takeDashed {a : String} {s s' : Scan Bool}
    (h : versionUsage.takeDashed a s = .ok s') :
    IsSwitch a := by
  rw [Usage.takeDashed] at h
  cases hoption : versionUsage.option? a with
  | some o =>
    obtain ⟨hspelling | hspelling, -⟩ := of_option?_versionUsage hoption
    · exact .inl hspelling
    · exact .inr ⟨0, hspelling⟩
  | none =>
    simp only [hoption] at h
    split at h
    · rename_i c letters ha
      split at h
      · contradiction
      · obtain ⟨n, hletters⟩ := takeLetters_versionUsage h
        refine .inr ⟨letters.length, ?_⟩
        have hlength := congrArg List.length hletters
        rw [List.length_cons, List.length_replicate] at hlength
        rw [hlength, ← hletters, ← ha, String.ofList_toList]
    · contradiction

private theorem takeDashed_versionUsage_of_isSwitch {a : String} (ha : IsSwitch a) (s : Scan Bool) :
    versionUsage.takeDashed a s = .ok { s with values := true } := by
  have hshort : versionUsage.option? "-V" = some (versionOption fun _ => true) := rfl
  obtain ⟨n, h⟩ := Usage.takeDashed_of_isSwitch rfl hshort ha s
  rw [h, Function.iterate_succ_apply']

/-- What becomes of an argument where none is positional, unless it is refused. -/
theorem Usage.takeArgument_cases {σ : Type} {u : Usage σ} (hpositionals : u.positionals = []) {a : String}
    {s s' : Scan σ} (h : u.takeArgument a s = .ok s') :
    s.optionsOver = false ∧
      (a ∈ asides ∧ (∃ request, s' = { s with help := some request }) ∨
        a = "--" ∧ s' = { s with optionsOver := true } ∨
        a ∉ asides ∧ u.takeDashed a s = .ok s') := by
  rw [takeArgument, hpositionals] at h
  cases hover : s.optionsOver with
  | true => simp [hover] at h
  | false =>
    refine ⟨rfl, ?_⟩
    simp only [hover, Bool.not_false, Bool.true_and, decide_eq_true_eq, Bool.or_eq_true] at h
    split at h
    · rename_i ha
      cases h
      exact .inl ⟨by rcases ha with rfl | rfl <;> decide, _, rfl⟩
    rename_i hswitch
    split at h
    · rename_i ha
      cases h
      exact .inl ⟨by rw [ha]; decide, _, rfl⟩
    rename_i hword
    split at h
    · rename_i ha
      cases h
      exact .inr (.inl ⟨ha, rfl⟩)
    rename_i hend
    split at h
    · split at h
      · contradiction
      · exact .inr (.inr ⟨by simp [asides, hword, hend, not_or.1 hswitch], h⟩)
    · contradiction

private theorem takeArgument_versionUsage {a : String} {s s' : Scan Bool}
    (h : versionUsage.takeArgument a s = .ok s') :
    s.optionsOver = false ∧
      (IsSwitch a ∧ s' = { s with values := true } ∨ a = "--" ∧ s' = { s with optionsOver := true } ∨
        a ∈ asides ∧ ∃ request, s' = { s with help := some request }) := by
  obtain ⟨hover, ⟨ha, hhelp⟩ | hend | ⟨-, hdashed⟩⟩ := Usage.takeArgument_cases rfl h
  · exact ⟨hover, .inr (.inr ⟨ha, hhelp⟩)⟩
  · exact ⟨hover, .inr (.inl hend)⟩
  · have ha := isSwitch_of_takeDashed hdashed
    rw [takeDashed_versionUsage_of_isSwitch ha] at hdashed
    exact ⟨hover, .inl ⟨ha, (Except.ok.inj hdashed).symm⟩⟩

/-- What the first reading keeps. -/
theorem scan_versionUsage {arguments : List String} {s s' : Scan Bool} (hs : s.pending = none)
    (h : versionUsage.scan arguments s = .ok s') :
    s'.command = s.command ∧ (s'.help = none → s.help = none) ∧ ∀ a ∈ arguments, IsSwitch a ∨ a ∈ asides := by
  induction arguments generalizing s with
  | nil =>
    rw [Usage.scan, hs] at h
    cases h
    exact ⟨rfl, id, by simp⟩
  | cons a rest ih =>
    obtain ⟨next, hnext, hrest⟩ := Usage.exists_of_scan_cons hs rfl h
    rw [List.forall_mem_cons]
    obtain ⟨-, ⟨ha, rfl⟩ | ⟨rfl, rfl⟩ | ⟨ha, request, rfl⟩⟩ := takeArgument_versionUsage hnext
    · obtain ⟨hcommand, hhelp, hmem⟩ := ih (by exact hs) hrest
      exact ⟨hcommand, hhelp, .inl ha, hmem⟩
    · obtain ⟨hcommand, hhelp, hmem⟩ := ih (by exact hs) hrest
      exact ⟨hcommand, hhelp, .inr (by decide), hmem⟩
    · obtain ⟨hcommand, hhelp, hmem⟩ := ih (by exact hs) hrest
      exact ⟨hcommand, fun hnone => Option.some_ne_none _ (hhelp hnone) |>.elim, .inr ha, hmem⟩

/-- An argument that is neither a switch nor beside the options ends the first reading. -/
private theorem scan_versionUsage_fails {a : String} (ha : ¬IsSwitch a) (hother : a ∉ asides) (value : Bool)
    (rest : List String) : ∃ e, versionUsage.scan (a :: rest) { values := value } = .error e := by
  cases h : versionUsage.scan (a :: rest) { values := value } with
  | error e => exact ⟨e, rfl⟩
  | ok s =>
    obtain ⟨-, -, hmem⟩ := scan_versionUsage rfl h
    rcases hmem a List.mem_cons_self with h | h
    · exact absurd h ha
    · exact absurd h hother

theorem IsSwitch.dashed {a : String} (ha : IsSwitch a) :
    (∃ letters, a.toList = '-' :: letters) ∧ a ∉ asides := by
  rcases ha with rfl | ⟨n, rfl⟩
  · exact ⟨⟨_, rfl⟩, by decide⟩
  · exact ⟨⟨_, String.toList_ofList⟩, by simp [asides, String.ext_iff, List.replicate_succ]⟩

private theorem IsSwitch.exists_words {a : String} (ha : IsSwitch a) :
    ∃ o : FrontOption, o.IsVersion ∧ o.words = [a] := by
  rcases ha with rfl | ⟨n, rfl⟩
  · exact ⟨.version, trivial, rfl⟩
  · exact ⟨.versionLetters n, trivial, rfl⟩

private theorem FrontOption.IsVersion.exists_switch {o : FrontOption} (ho : o.IsVersion) :
    ∃ a, o.words = [a] ∧ IsSwitch a := by
  cases o with
  | version => exact ⟨_, rfl, .inl rfl⟩
  | versionLetters more => exact ⟨_, rfl, .inr ⟨more, rfl⟩⟩
  | noColour | level _ | levelLetter _ _ => exact ho.elim

private theorem FrontOption.exists_refused {o : FrontOption} (ho : ¬o.IsVersion) :
    ∃ a more, o.words = a :: more ∧ ¬IsSwitch a ∧ a ∉ asides := by
  cases o with
  | version | versionLetters _ => exact absurd trivial ho
  | noColour => exact ⟨_, _, rfl, by simp [IsSwitch, String.ext_iff, List.replicate_succ], by decide⟩
  | level value => exact ⟨_, _, rfl, by simp [IsSwitch, String.ext_iff, List.replicate_succ], by decide⟩
  | levelLetter versions value =>
    refine ⟨_, _, rfl, ?_, ?_⟩
    · rintro (h | ⟨n, h⟩)
      · cases versions <;> simp [String.ext_iff, List.replicate_succ] at h
      · simp only [String.ext_iff, String.toList_ofList, List.cons.injEq, true_and,
          List.eq_replicate_iff] at h
        exact absurd (h.2 'L' (by simp)) (by decide)
    · cases versions <;> simp [asides, String.ext_iff, List.replicate_succ]

private theorem scan_versionUsage_switch {a : String} (ha : IsSwitch a) (value : Bool) (rest : List String) :
    versionUsage.scan (a :: rest) { values := value } = versionUsage.scan rest { values := true } := by
  obtain ⟨⟨letters, hletters⟩, hother⟩ := ha.dashed
  rw [Usage.scan_dashed hletters rfl hother, takeDashed_versionUsage_of_isSwitch ha]
  rfl

/-- Version switches in front only tell that the version is asked for. -/
theorem scan_versionUsage_front {front : List FrontOption} (hfront : ∀ o ∈ front, o.IsVersion) (value : Bool)
    (rest : List String) :
    versionUsage.scan (frontWords front ++ rest) { values := value } =
      versionUsage.scan rest { values := value || !front.isEmpty } := by
  induction front generalizing value with
  | nil => rw [List.isEmpty_nil, Bool.not_true, Bool.or_false]; rfl
  | cons o front ih =>
    rw [List.forall_mem_cons] at hfront
    obtain ⟨a, hwords, ha⟩ := hfront.1.exists_switch
    rw [frontWords, List.flatMap_cons, hwords, List.singleton_append, List.cons_append,
      scan_versionUsage_switch ha]
    exact (ih hfront.2 true).trans (by simp)

/-- Any other option in front ends the first reading. -/
theorem scan_versionUsage_refused {front : List FrontOption} (hfront : ∃ o ∈ front, ¬o.IsVersion)
    (value : Bool) :
    ∃ e, versionUsage.scan (frontWords front) { values := value } = .error e := by
  induction front generalizing value with
  | nil => simp at hfront
  | cons o front ih =>
    rw [frontWords, List.flatMap_cons]
    by_cases ho : o.IsVersion
    · obtain ⟨a, hwords, ha⟩ := ho.exists_switch
      rw [List.exists_mem_cons_iff] at hfront
      have hrest := hfront.resolve_left (not_not_intro ho)
      rw [hwords, List.singleton_append, scan_versionUsage_switch ha]
      exact ih hrest true
    · obtain ⟨a, more, hwords, hswitch, hother⟩ := FrontOption.exists_refused ho
      rw [hwords]
      exact scan_versionUsage_fails hswitch hother value _

/-- The first reading accepts version switches only, and at the end a `--`. -/
theorem exists_front_of_scan {arguments : List String} {value : Bool} {s : Scan Bool}
    (h : versionUsage.scan arguments { values := value } = .ok s) (hhelp : s.help = none) :
    ∃ front : List FrontOption, (∀ o ∈ front, o.IsVersion) ∧
      (arguments = frontWords front ∨ arguments = frontWords front ++ ["--"]) ∧
      s.values = (value || !front.isEmpty) := by
  induction arguments generalizing value with
  | nil =>
    cases h
    exact ⟨[], by simp, .inl rfl, by simp⟩
  | cons a rest ih =>
    obtain ⟨next, hnext, hrest⟩ := Usage.exists_of_scan_cons rfl rfl h
    obtain ⟨-, ⟨ha, rfl⟩ | ⟨rfl, rfl⟩ | ⟨ha, request, rfl⟩⟩ := takeArgument_versionUsage hnext
    · obtain ⟨front, hfront, hwords, hvalues⟩ := ih hrest
      obtain ⟨o, ho, hword⟩ := ha.exists_words
      refine ⟨o :: front, List.forall_mem_cons.2 ⟨ho, hfront⟩, ?_, by rw [hvalues]; simp⟩
      rw [frontWords, List.flatMap_cons, hword]
      rcases hwords with rfl | rfl
      · exact .inl rfl
      · exact .inr rfl
    · -- behind the end of the options nothing is accepted
      cases rest with
      | nil =>
        cases hrest
        exact ⟨[], by simp, .inr rfl, by simp⟩
      | cons b rest =>
        obtain ⟨_, hb, -⟩ := Usage.exists_of_scan_cons rfl rfl hrest
        have hover := (takeArgument_versionUsage hb).1
        contradiction
    · have hnone := (scan_versionUsage rfl hrest).2.1 hhelp
      contradiction

end BootImage
