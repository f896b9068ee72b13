/-!
# Styled text

Text for a terminal is a list of spans, some with a colour.  It is rendered plainly or with escape sequences
around the coloured spans; these sequences are all that rendering in colour adds:
`Styled.EscapeFree.dropRenditions_render`.
-/

namespace BootImage

inductive Colour
  | red
  | green
  | yellow
  deriving DecidableEq, Repr

def Colour.code : Colour → String
  | .red => "31"
  | .green => "32"
  | .yellow => "33"

def selectRendition (code : String) : String := "\x1b[" ++ code ++ "m"

structure Span where
  text : String
  colour : Option Colour := none
  deriving DecidableEq, Repr

def Span.plain (text : String) : Span := { text }

abbrev Styled := List Span

def Span.render (coloured : Bool) (s : Span) : String :=
  match s.colour, coloured with
  | some c, true => selectRendition c.code ++ s.text ++ selectRendition "39"
  | _, _ => s.text

def Styled.render (coloured : Bool) (t : Styled) : String := String.join (t.map (·.render coloured))

def isParameter (c : Char) : Bool := c.isDigit || c = ';' || c = ':'

/-- What follows the escape sequence that a text starts with, if it selects a graphic rendition. -/
def afterRendition? : List Char → Option (List Char)
  | '\x1b' :: '[' :: cs =>
    match cs.dropWhile isParameter with
    | 'm' :: rest => some rest
    | _ => none
  | _ => none

theorem length_afterRendition? {cs rest : List Char} (h : afterRendition? cs = some rest) :
    rest.length < cs.length := by
  unfold afterRendition? at h
  split at h
  · rename_i params
    split at h
    · rename_i after hm
      cases h
      have hle := (List.dropWhile_sublist isParameter (l := params)).length_le
      rw [hm] at hle
      simp only [List.length_cons] at hle ⊢
      omega
    · cases h
  · cases h

/-- Drops the escape sequences that select graphic renditions, and keeps everything else. -/
def dropRenditions : List Char → List Char
  | [] => []
  | c :: cs =>
    match _h : afterRendition? (c :: cs) with
    | some rest => dropRenditions rest
    | none => c :: dropRenditions cs
termination_by cs => cs.length
decreasing_by
  · exact length_afterRendition? _h
  · exact Nat.lt_succ_self _

@[simp] theorem dropRenditions_nil : dropRenditions [] = [] := by rw [dropRenditions]

theorem dropRenditions_of_rendition {cs rest : List Char} (h : afterRendition? cs = some rest) :
    dropRenditions cs = dropRenditions rest := by
  cases cs with
  | nil => cases h
  | cons c cs =>
    rw [dropRenditions]
    split
    · rename_i found hfound
      rw [h] at hfound
      cases hfound
      rfl
    · rename_i hnone
      rw [h] at hnone
      cases hnone

theorem dropRenditions_cons_of_ne {c : Char} (h : c ≠ '\x1b') (cs : List Char) :
    dropRenditions (c :: cs) = c :: dropRenditions cs := by
  have hnone : afterRendition? (c :: cs) = none := by
    unfold afterRendition?
    split
    · rename_i heq
      cases heq
      exact absurd rfl h
    · rfl
  rw [dropRenditions]
  split
  · rename_i hsome
    rw [hnone] at hsome
    cases hsome
  · rfl

theorem dropRenditions_append {cs : List Char} (h : '\x1b' ∉ cs) (rest : List Char) :
    dropRenditions (cs ++ rest) = cs ++ dropRenditions rest := by
  induction cs with
  | nil => rfl
  | cons c cs ih =>
    simp only [List.mem_cons, not_or] at h
    rw [List.cons_append, dropRenditions_cons_of_ne (Ne.symm h.1), ih h.2, List.cons_append]

theorem dropRenditions_select {code : String} (h : code.toList.all isParameter) (rest : List Char) :
    dropRenditions ((selectRendition code).toList ++ rest) = dropRenditions rest := by
  have hopen : ("\x1b[" : String).toList = ['\x1b', '['] := by decide
  have hclose : ("m" : String).toList = ['m'] := by decide
  apply dropRenditions_of_rendition
  rw [selectRendition, String.toList_append, String.toList_append, hopen, hclose]
  have hparameters : (code.toList ++ 'm' :: rest).dropWhile isParameter = 'm' :: rest := by
    rw [List.dropWhile_append_of_pos (List.all_eq_true.1 h)]
    rfl
  simp [afterRendition?, hparameters]

theorem Colour.all_isParameter (c : Colour) : c.code.toList.all isParameter := by
  cases c <;> rfl

def EscapeFree (text : String) : Prop := '\x1b' ∉ text.toList

instance (text : String) : Decidable (EscapeFree text) := inferInstanceAs (Decidable ('\x1b' ∉ text.toList))

def Styled.EscapeFree (t : Styled) : Prop := ∀ s ∈ t, BootImage.EscapeFree s.text

theorem dropRenditions_span {s : Span} (h : EscapeFree s.text) (coloured : Bool) (rest : List Char) :
    dropRenditions ((s.render coloured).toList ++ rest) = s.text.toList ++ dropRenditions rest := by
  cases hc : s.colour with
  | none => simp only [Span.render, hc, dropRenditions_append h]
  | some c =>
    cases coloured with
    | false => simp only [Span.render, hc, dropRenditions_append h]
    | true =>
      simp only [Span.render, hc, String.toList_append, List.append_assoc]
      rw [dropRenditions_select c.all_isParameter, dropRenditions_append h, dropRenditions_select rfl]

/-- What rendering in colour adds to a text without escapes is escapes. -/
theorem Styled.EscapeFree.dropRenditions_render {t : Styled} (h : t.EscapeFree) (coloured : Bool) :
    dropRenditions (t.render coloured).toList = (t.render false).toList := by
  induction t with
  | nil => exact dropRenditions_nil
  | cons s t ih =>
    have plain : s.render false = s.text := by cases hc : s.colour <;> simp [Span.render, hc]
    simp only [Styled.render, List.map_cons, String.join_cons, String.toList_append] at ih ⊢
    rw [dropRenditions_span (h s List.mem_cons_self), ih fun s hs => h s (List.mem_cons_of_mem _ hs), plain]

end BootImage
