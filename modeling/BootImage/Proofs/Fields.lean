import BootImage.Proofs.Digits
import BootImage.Symbol.Record

/-!
# The form of a record's line

A line is a record's if it is made of an address, a single letter and a name, with white space between them
and possibly around them.

* (words) A text is white space, its first word, and a rest that does not go on with the word:
  `words_eq_cons_iff`.
* (parts) So a line has the three words of a record exactly if it is made of these parts:
  `Record.Parts.Makes.words_eq`, `Record.exists_parts`.  The parts are found in one way only:
  `Record.Parts.Makes.unique`.
* (records) `Record.ofLine_reads_parts` says what a line of this form gives, and that any other is skipped.
-/

namespace BootImage

def IsGap (cs : List Char) : Prop := ∀ c ∈ cs, isBlank c

instance (cs : List Char) : Decidable (IsGap cs) := decidable_of_iff (cs.all isBlank) List.all_eq_true

def IsWord (cs : List Char) : Prop := cs ≠ [] ∧ ∀ c ∈ cs, ¬isBlank c

instance (cs : List Char) : Decidable (IsWord cs) :=
  decidable_of_iff (cs ≠ [] ∧ cs.all fun c => !isBlank c) (by simp [IsWord])

def EndsWord (cs : List Char) : Prop := ∀ c ∈ cs.head?, isBlank c

/-! ### Words -/

private theorem words_gap_append {gap : List Char} (h : IsGap gap) (cs : List Char) :
    words (gap ++ cs) = words cs := by
  induction gap with
  | nil => rfl
  | cons c gap ih =>
    obtain ⟨hc, hgap⟩ := List.forall_mem_cons.1 h
    rw [List.cons_append, words, List.splitOnP_cons_eq_if_modifyHead, if_pos hc, ← ih hgap, words]
    rfl

private theorem words_of_isGap {gap : List Char} (h : IsGap gap) : words gap = [] := by
  have hwords := words_gap_append h []
  rw [List.append_nil] at hwords
  rw [hwords]
  rfl

private theorem words_word_append {w rest : List Char} (hw : IsWord w) (hrest : EndsWord rest) :
    words (w ++ rest) = w :: words rest := by
  have hsplit : w.splitOnP isBlank = [w] :=
    List.splitOnP_eq_singleton fun c hc => Bool.eq_false_iff.2 (hw.2 c hc)
  have hfilter : [w].filter (fun w => !w.isEmpty) = [w] := by
    rw [List.filter_eq_self]
    intro w' hw'
    rw [List.mem_singleton.1 hw']
    simpa using hw.1
  cases rest with
  | nil =>
    rw [List.append_nil, words, hsplit, hfilter]
    rfl
  | cons c rest =>
    have hc : isBlank c := hrest c rfl
    have hgap : IsGap [c] := List.forall_mem_singleton.2 hc
    rw [← List.singleton_append, words_gap_append hgap, words, List.singleton_append,
      List.splitOnP_append_cons _ _ hc, List.filter_append, hsplit, hfilter]
    rfl

/-- A text is white space, or begins with white space and a word. -/
private theorem isGap_or_exists_word (cs : List Char) :
    IsGap cs ∨ ∃ gap w rest, cs = gap ++ w ++ rest ∧ IsGap gap ∧ IsWord w ∧ EndsWord rest := by
  have hgap : IsGap (cs.takeWhile isBlank) := fun c hc => List.mem_takeWhile_imp hc
  cases hbehind : cs.dropWhile isBlank with
  | nil =>
    left
    rw [← List.takeWhile_append_dropWhile (p := isBlank) (l := cs), hbehind, List.append_nil]
    exact hgap
  | cons c behind =>
    right
    have hc : isBlank c = false := by
      have hhead := List.head?_dropWhile_not isBlank cs
      rwa [hbehind] at hhead
    refine ⟨_, (c :: behind).takeWhile fun c => !isBlank c, (c :: behind).dropWhile fun c => !isBlank c,
      ?_, hgap, ⟨?_, ?_⟩, ?_⟩
    · rw [List.append_assoc, List.takeWhile_append_dropWhile, ← hbehind, List.takeWhile_append_dropWhile]
    · rw [List.takeWhile_cons, hc]
      exact List.cons_ne_nil _ _
    · intro c' hc'
      simpa using List.mem_takeWhile_imp hc'
    · intro c' hc'
      have hhead := List.head?_dropWhile_not (fun c => !isBlank c) (c :: behind)
      rw [Option.mem_def.1 hc'] at hhead
      simpa using hhead

theorem words_eq_cons_iff {cs w : List Char} {ws : List (List Char)} :
    words cs = w :: ws ↔
      ∃ gap rest, cs = gap ++ w ++ rest ∧ IsGap gap ∧ IsWord w ∧ EndsWord rest ∧ words rest = ws := by
  constructor
  · intro h
    rcases isGap_or_exists_word cs with hgap | ⟨gap, w', rest, rfl, hgap, hw, hrest⟩
    · rw [words_of_isGap hgap] at h
      contradiction
    · rw [List.append_assoc, words_gap_append hgap, words_word_append hw hrest, List.cons.injEq] at h
      obtain ⟨rfl, hws⟩ := h
      exact ⟨gap, rest, rfl, hgap, hw, hrest, hws⟩
  · rintro ⟨gap, rest, rfl, hgap, hw, hrest, rfl⟩
    rw [List.append_assoc, words_gap_append hgap, words_word_append hw hrest]

private theorem words_eq_nil_iff {cs : List Char} : words cs = [] ↔ IsGap cs := by
  constructor
  · intro h
    rcases isGap_or_exists_word cs with hgap | ⟨gap, w, rest, rfl, hgap, hw, hrest⟩
    · exact hgap
    · rw [List.append_assoc, words_gap_append hgap, words_word_append hw hrest] at h
      contradiction
  · exact words_of_isGap

/-- White space in front of a word is told from it. -/
private theorem gap_eq_of_append_eq {gap gap' w w' rest rest' : List Char} (hgap : IsGap gap)
    (hgap' : IsGap gap') (hw : IsWord w) (hw' : IsWord w') (h : gap ++ (w ++ rest) = gap' ++ (w' ++ rest')) :
    gap = gap' ∧ w ++ rest = w' ++ rest' := by
  have hfirst {gap w : List Char} (hgap : IsGap gap) (hw : IsWord w) (rest : List Char) :
      (gap ++ (w ++ rest)).takeWhile isBlank = gap := by
    obtain ⟨c, w, rfl⟩ := List.exists_cons_of_ne_nil hw.1
    have hc := hw.2 c List.mem_cons_self
    rw [List.takeWhile_append_of_pos hgap, List.cons_append, List.takeWhile_cons_of_neg hc, List.append_nil]
  have hsame : gap = gap' := by rw [← hfirst hgap hw rest, h, hfirst hgap' hw' rest']
  rw [hsame] at h
  exact ⟨hsame, List.append_cancel_left h⟩

namespace Record

/-- The parts that a record's line is made of, in their order. -/
@[ext]
structure Parts where
  lead : List Char
  address : List Char
  gap₁ : List Char
  letter : Char
  gap₂ : List Char
  name : List Char
  trail : List Char

namespace Parts

/-- The line is made of the parts: words that are divided by white space. -/
structure Makes (p : Parts) (line : List Char) : Prop where
  lead : IsGap p.lead
  address : IsWord p.address
  gap₁ : p.gap₁ ≠ [] ∧ IsGap p.gap₁
  letter : ¬isBlank p.letter
  gap₂ : p.gap₂ ≠ [] ∧ IsGap p.gap₂
  name : IsWord p.name
  trail : IsGap p.trail
  line : line = p.lead ++ p.address ++ p.gap₁ ++ [p.letter] ++ p.gap₂ ++ p.name ++ p.trail

variable {p q : Parts} {line : List Char}

theorem Makes.words_eq (h : p.Makes line) : words line = [p.address, [p.letter], p.name] := by
  have hletter : IsWord [p.letter] := ⟨List.cons_ne_nil _ _, List.forall_mem_singleton.2 h.letter⟩
  have hends {gap rest : List Char} (hgap : gap ≠ [] ∧ IsGap gap) : EndsWord (gap ++ rest) := by
    obtain ⟨c, gap, rfl⟩ := List.exists_cons_of_ne_nil hgap.1
    intro c' hc'
    obtain rfl : c = c' := Option.some.inj hc'
    exact hgap.2 c List.mem_cons_self
  have htrail : EndsWord p.trail := fun c hc => h.trail c (List.mem_of_mem_head? hc)
  rw [h.line]
  simp only [List.append_assoc]
  rw [words_gap_append h.lead, words_word_append h.address (hends h.gap₁), words_gap_append h.gap₁.2,
    words_word_append hletter (hends h.gap₂), words_gap_append h.gap₂.2, words_word_append h.name htrail,
    words_of_isGap h.trail]

/-- A line is made of parts in one way only. -/
theorem Makes.unique (hp : p.Makes line) (hq : q.Makes line) : p = q := by
  have hwords := hp.words_eq.symm.trans hq.words_eq
  simp only [List.cons.injEq, and_true] at hwords
  obtain ⟨haddress, hletter, hname⟩ := hwords
  have hword : IsWord [q.letter] := ⟨List.cons_ne_nil _ _, List.forall_mem_singleton.2 hq.letter⟩
  have hline := hp.line.symm.trans hq.line
  simp only [List.append_assoc, haddress, hletter, hname] at hline
  obtain ⟨hlead, h₁⟩ := gap_eq_of_append_eq hp.lead hq.lead hq.address hq.address hline
  obtain ⟨hgap₁, h₂⟩ := gap_eq_of_append_eq hp.gap₁.2 hq.gap₁.2 hword hword (List.append_cancel_left h₁)
  obtain ⟨hgap₂, h₃⟩ := gap_eq_of_append_eq hp.gap₂.2 hq.gap₂.2 hq.name hq.name (List.append_cancel_left h₂)
  exact Parts.ext hlead haddress hgap₁ hletter hgap₂ hname (List.append_cancel_left h₃)

end Parts

/-- White space divides two words. -/
private theorem ne_nil_of_endsWord {gap w rest : List Char} (hw : IsWord w)
    (h : EndsWord (gap ++ w ++ rest)) : gap ≠ [] := by
  rintro rfl
  obtain ⟨c, w, rfl⟩ := List.exists_cons_of_ne_nil hw.1
  exact hw.2 c List.mem_cons_self (h c rfl)

theorem exists_parts {line address name : List Char} {letter : Char}
    (h : words line = [address, [letter], name]) : ∃ p : Parts, p.Makes line := by
  obtain ⟨lead, rest₁, rfl, hlead, haddress, hends₁, h⟩ := words_eq_cons_iff.1 h
  obtain ⟨gap₁, rest₂, rfl, hgap₁, hletter, hends₂, h⟩ := words_eq_cons_iff.1 h
  obtain ⟨gap₂, trail, rfl, hgap₂, hname, -, h⟩ := words_eq_cons_iff.1 h
  exact ⟨⟨lead, address, gap₁, letter, gap₂, name, trail⟩, {
    lead := hlead
    address := haddress
    gap₁ := ⟨ne_nil_of_endsWord hletter hends₁, hgap₁⟩
    letter := hletter.2 letter List.mem_cons_self
    gap₂ := ⟨ne_nil_of_endsWord hname hends₂, hgap₂⟩
    name := hname
    trail := words_eq_nil_iff.1 h
    line := by simp only [List.append_assoc] }⟩

/-! ### Records -/

section Makes

variable {p : Parts} {line : String} (h : p.Makes line.toList)

include h

private theorem ofLine_of_read_eq_ok {a : UInt32} (ha : Numeral.read 16 p.address = .ok a) :
    ofLine line = .ok (some ⟨String.ofList p.name, .ofLetter p.letter, a⟩) := by
  simp only [ofLine, h.words_eq, ha]

private theorem ofLine_of_read_eq_error {fault : Numeral.Fault}
    (hfault : Numeral.read 16 p.address = .error fault) :
    ofLine line = .error ⟨String.ofList p.address, fault⟩ := by
  simp only [ofLine, h.words_eq, hfault]

end Makes

private theorem ofLine_eq_ok_none_iff {line : String} :
    ofLine line = .ok none ↔ ¬∃ p : Parts, p.Makes line.toList := by
  constructor
  · rintro h ⟨p, hp⟩
    cases hread : Numeral.read 16 p.address with
    | ok a => simp [ofLine_of_read_eq_ok hp hread] at h
    | error fault => simp [ofLine_of_read_eq_error hp hread] at h
  · intro h
    rw [ofLine]
    split
    · rename_i hwords
      exact absurd (exists_parts hwords) h
    · rfl

/-- A line is skipped unless it is made of the parts of a record, which are then found in one way only. An
address that is the hexadecimal numeral of a word gives a record, any other an error. -/
theorem ofLine_reads_parts (line : String) :
    (ofLine line = .ok none ↔ ¬∃ p : Parts, p.Makes line.toList) ∧
      ∀ p : Parts, p.Makes line.toList →
        (∀ q : Parts, q.Makes line.toList → q = p) ∧
        (∀ a : UInt32, Numeral.Denotes 16 p.address a.toNat →
          ofLine line = .ok (some ⟨String.ofList p.name,
            if p.letter = 'T' then .text else if p.letter = 'A' then .absolute else .other p.letter, a⟩)) ∧
        ((¬∃ n < 2 ^ 32, Numeral.Denotes 16 p.address n) →
          ∃ fault, ofLine line = .error ⟨String.ofList p.address, fault⟩) := by
  refine ⟨ofLine_eq_ok_none_iff, ?_⟩
  intro p hp
  refine ⟨fun q hq => hq.unique hp, ?_, ?_⟩
  · intro a ha
    exact ofLine_of_read_eq_ok hp (Numeral.read_eq_ok_iff.2 ha)
  · intro hnone
    cases hread : Numeral.read 16 p.address with
    | ok a => exact absurd ⟨a.toNat, a.toNat_lt, Numeral.read_eq_ok_iff.1 hread⟩ hnone
    | error fault => exact ⟨fault, ofLine_of_read_eq_error hp hread⟩

/-- A record with white space of several kinds, and a line whose address has a radix. -/
theorem ofLine_reads_parts_flashchip :
    let p : Parts := ⟨[' '], "3fffc714".toList, [' ', '\t'], 'D', [' '], "flashchip".toList, ['\u3000']⟩
    let q : Parts := ⟨[], "0x100".toList, [' '], 'T', [' '], "main".toList, []⟩
    (p.Makes " 3fffc714 \tD flashchip\u3000".toList ∧ Numeral.Denotes 16 p.address 0x3FFFC714 ∧
      ofLine " 3fffc714 \tD flashchip\u3000" = .ok (some ⟨"flashchip", .other 'D', 0x3FFFC714⟩)) ∧
    q.Makes "0x100 T main".toList ∧ (¬∃ n < 2 ^ 32, Numeral.Denotes 16 q.address n) ∧
      ∃ fault, ofLine "0x100 T main" = .error ⟨"0x100", fault⟩ := by
  intro p q
  have hp : p.Makes " 3fffc714 \tD flashchip\u3000".toList :=
    ⟨by decide, by decide, by decide, by decide, by decide, by decide, by decide, rfl⟩
  have hq : q.Makes "0x100 T main".toList :=
    ⟨by decide, by decide, by decide, by decide, by decide, by decide, by decide, rfl⟩
  have haddress : Numeral.Denotes 16 p.address (0x3FFFC714 : UInt32).toNat := Numeral.read_eq_ok_iff.1 rfl
  have hnone : ¬∃ n < 2 ^ 32, Numeral.Denotes 16 q.address n := by
    rintro ⟨n, hn, hdenotes⟩
    rw [← UInt32.toNat_ofNat_of_lt' hn, ← Numeral.read_eq_ok_iff] at hdenotes
    have hread : Numeral.read 16 q.address = .error .invalidDigit := rfl
    rw [hread] at hdenotes
    contradiction
  exact ⟨⟨hp, haddress, ((ofLine_reads_parts _).2 p hp).2.1 _ haddress⟩, hq, hnone,
    ((ofLine_reads_parts _).2 q hq).2.2 hnone⟩

end Record

end BootImage
