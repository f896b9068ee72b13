import Mathlib
import BootImage.Text.Hex

/-!
# Texts

What a text has, and what it lacks.

* (characters) A numeral has digits only, so any other character that a text has comes from elsewhere:
  `not_mem_repr`, `not_mem_hexNumber`.
* (starts) Texts are found by how they start.  If no label starts with another one, the texts with a label are
  those it was put before: `starting_filterMap`.
* (brackets) An entry without brackets of its own is read back from the text it stands in: `brackets_entry`.
* (minus signs) A minus sign in front of no digit makes no negative number: `noNegative_append`,
  `noNegative_rule`.
-/

namespace BootImage

/-! ### Characters that a text lacks -/

theorem ne_of_not_mem {c : Char} {a b : String} (ha : c ∈ a.toList) (hb : c ∉ b.toList) : a ≠ b := by
  rintro rfl
  exact hb ha

theorem not_mem_append {c : Char} {a b : String} (ha : c ∉ a.toList) (hb : c ∉ b.toList) :
    c ∉ (a ++ b).toList := by
  rw [String.toList_append, List.mem_append, not_or]
  exact ⟨ha, hb⟩

theorem not_mem_of_subset {c : Char} {phrase words : String} (hphrase : phrase.toList ⊆ words.toList)
    (h : c ∉ words.toList) :
    c ∉ phrase.toList := fun hc => h (hphrase hc)

/-- Only digits stand in a numeral. -/
private theorem not_mem_toDigits {c : Char} (hc : ∀ d, Nat.digitChar d ≠ c) {base : Nat} (hbase : 1 < base)
    (n : Nat) :
    c ∉ Nat.toDigits base n := by
  have hdigit (d : Nat) : c ∉ [Nat.digitChar d] := by
    rw [List.mem_singleton]
    exact (hc d).symm
  induction n using Nat.strong_induction_on with
  | _ n ih =>
    rw [Nat.toDigits_eq_if hbase]
    split
    · exact hdigit n
    · rename_i hn
      rw [List.mem_append, not_or]
      exact ⟨ih _ (Nat.div_lt_self (by omega) hbase), hdigit _⟩

theorem not_mem_repr {c : Char} (hc : ∀ d, Nat.digitChar d ≠ c) (n : Nat) : c ∉ n.repr.toList := by
  rw [Nat.repr_eq_ofList_toDigits, String.toList_ofList]
  exact not_mem_toDigits hc (by decide) n

theorem not_mem_hexDigits {c : Char} (hc : ∀ d, Nat.digitChar d ≠ c) (width n : Nat) :
    c ∉ hexDigits width n := by
  rw [hexDigits, List.mem_append, not_or]
  refine ⟨?_, not_mem_toDigits hc (by decide) n⟩
  intro h
  exact hc 0 (List.eq_of_mem_replicate h).symm

/-- A character that is no capital letter is the upper case of no other character. -/
private theorem eq_of_toUpper {c d : Char} (h : c.toUpper = d) (hd : d.isUpper = false) : c = d := by
  rw [Char.toUpper] at h
  split at h
  · rename_i hletter
    have hlow : 97 ≤ c.val.toNat := hletter.1
    have hhigh : c.val.toNat ≤ 122 := hletter.2
    have hshift : ('A'.val - 'a'.val).toNat = 2 ^ 32 - 32 := by decide
    have hval := congrArg UInt32.toNat (Char.ext_iff.1 h)
    rw [UInt32.toNat_add, hshift] at hval
    have hcapital : d.isUpper = true := by
      simp only [Char.isUpper, ge_iff_le, UInt32.le_iff_toNat_le, decide_eq_true_eq]
      have hfirst : 'A'.val.toNat = 65 := by decide
      have hlast : 'Z'.val.toNat = 90 := by decide
      omega
    rw [hcapital] at hd
    contradiction
  · exact h

theorem not_mem_hexNumber {c : Char} (hc : ∀ d, Nat.digitChar d ≠ c) (hupper : c.isUpper = false)
    (hx : c ≠ 'x') (width n : Nat) : c ∉ (hexNumber width n).toList := by
  have hmark : ("0x" : String).toList = [Nat.digitChar 0, 'x'] := by decide
  rw [hexNumber, String.toList_append, hmark, List.mem_append, not_or]
  constructor
  · rw [List.mem_cons, List.mem_singleton, not_or]
    exact ⟨(hc 0).symm, hx⟩
  · rw [String.toList_ofList, List.mem_map]
    rintro ⟨d, hd, hd'⟩
    rw [eq_of_toUpper hd' hupper] at hd
    exact not_mem_hexDigits hc width n hd

/-! ### Finding texts by their starts -/

def starting (front : String) (texts : List String) : List String :=
  texts.filter fun text => front.toList.isPrefixOf text.toList

/-- There is one text with the label, and it goes on with the words. -/
def Says (texts : List String) (label words : String) : Prop := starting label texts = [label ++ words]

def PrefixFree (texts : List String) : Prop :=
  texts.Pairwise fun a b => ¬a.toList <+: b.toList ∧ ¬b.toList <+: a.toList

instance (texts : List String) : Decidable (PrefixFree texts) :=
  inferInstanceAs (Decidable (texts.Pairwise fun a b => ¬a.toList <+: b.toList ∧ ¬b.toList <+: a.toList))

theorem isPrefix_append (front behind : String) : front.toList <+: (front ++ behind).toList :=
  ⟨behind.toList, String.toList_append.symm⟩

private theorem starting_append (front : String) (a b : List String) :
    starting front (a ++ b) = starting front a ++ starting front b := List.filter_append ..

private theorem starting_eq_self {front : String} {texts : List String}
    (h : ∀ text ∈ texts, front.toList <+: text.toList) :
    starting front texts = texts :=
  List.filter_eq_self.2 fun text htext => List.isPrefixOf_iff_prefix.2 (h text htext)

private theorem starting_eq_nil {front : String} {texts : List String}
    (h : ∀ text ∈ texts, ¬front.toList <+: text.toList) :
    starting front texts = [] :=
  List.filter_eq_nil_iff.2 fun text htext hfront => h text htext (List.isPrefixOf_iff_prefix.1 hfront)

theorem Says.iff_eq {texts : List String} {label words words' : String} (h : Says texts label words) :
    Says texts label words' ↔ words = words' := by
  rw [Says] at h
  rw [Says, h, List.singleton_inj, String.append_right_inj]

/-- A text has its own label only. -/
theorem starting_filterMap {slots : List (String × Option String)} (hfree : PrefixFree (slots.map Prod.fst))
    (hlabel : ∀ slot ∈ slots, ∀ text ∈ slot.2, slot.1.toList <+: text.toList) {slot : String × Option String}
    (h : slot ∈ slots) : starting slot.1 (slots.filterMap Prod.snd) = slot.2.toList := by
  have hother {a b text : String} (hfree : ¬a.toList <+: b.toList ∧ ¬b.toList <+: a.toList)
      (hb : b.toList <+: text.toList) : ¬a.toList <+: text.toList := fun ha =>
    (List.prefix_or_prefix_of_prefix ha hb).elim hfree.1 hfree.2
  -- a text of another label cannot start with this one: one of the two labels would start with the other
  induction slots with
  | nil => contradiction
  | cons first rest ih =>
    have hsplit : (first :: rest).filterMap Prod.snd = first.2.toList ++ rest.filterMap Prod.snd := by
      cases hfirst : first.2 <;> simp [hfirst]
    rw [PrefixFree, List.map_cons, List.pairwise_cons] at hfree
    obtain ⟨hfirst, hothers⟩ := List.forall_mem_cons.1 hlabel
    rw [hsplit, starting_append]
    rcases List.mem_cons.1 h with rfl | h
    · have hrest : starting slot.1 (rest.filterMap Prod.snd) = [] := by
        refine starting_eq_nil fun text htext => ?_
        obtain ⟨found, hfound, hsome⟩ := List.mem_filterMap.1 htext
        exact hother (hfree.1 _ (List.mem_map_of_mem hfound)) (hothers found hfound text hsome)
      rw [hrest, List.append_nil]
      exact starting_eq_self fun text htext => hfirst text (Option.mem_toList.1 htext)
    · have hnone : starting slot.1 first.2.toList = [] :=
        starting_eq_nil fun text htext =>
          hother (hfree.1 _ (List.mem_map_of_mem h)).symm (hfirst text (Option.mem_toList.1 htext))
      rw [hnone, List.nil_append]
      exact ih hfree.2 hothers h

/-! ### Entries in brackets -/

def brackets (text : List Char) : List String :=
  (text.splitOn '[').tail.map fun piece => String.ofList (piece.takeWhile (· ≠ ']'))

private theorem splitOn_append_of_not_mem {α : Type} [BEq α] [LawfulBEq α] {a : α} {front : List α}
    (h : a ∉ front) (rest : List α) :
    (front ++ rest).splitOn a = (rest.splitOn a).modifyHead (front ++ ·) := by
  induction front with
  | nil => exact (congrFun List.modifyHead_id (rest.splitOn a)).symm
  | cons x front ih =>
    rw [List.mem_cons, not_or] at h
    rw [List.cons_append, List.splitOn_cons_eq_if_modifyHead, if_neg (by simpa using Ne.symm h.1), ih h.2,
      List.modifyHead_modifyHead]
    rfl

theorem brackets_append {front : List Char} (h : '[' ∉ front) (rest : List Char) :
    brackets (front ++ rest) = brackets rest := by
  rw [brackets, splitOn_append_of_not_mem h, List.tail_modifyHead, brackets]

theorem brackets_entry {entry : String} (hopen : '[' ∉ entry.toList) (hclose : ']' ∉ entry.toList)
    (rest : List Char) : brackets ('[' :: (entry.toList ++ ']' :: rest)) = entry :: brackets rest := by
  have hfront : '[' ∉ entry.toList ++ [']'] := by simp [hopen]
  have hrest : entry.toList ++ ']' :: rest = (entry.toList ++ [']']) ++ rest := by simp
  obtain ⟨first, others, hsplit⟩ := List.exists_cons_of_ne_nil (List.splitOn_ne_nil '[' rest)
  have hentry : ((entry.toList ++ [']']) ++ first).takeWhile (· ≠ ']') = entry.toList := by
    have hinside : ∀ c ∈ entry.toList, decide (c ≠ ']') = true := by
      intro c hc
      exact decide_eq_true (ne_of_mem_of_not_mem hc hclose)
    rw [List.append_assoc, List.takeWhile_append_of_pos hinside]
    exact List.append_nil _
  rw [brackets, List.splitOn_cons_eq_if_modifyHead, if_pos (by simp), List.tail_cons, hrest,
    splitOn_append_of_not_mem hfront, hsplit, List.modifyHead_cons, List.map_cons, hentry,
    String.ofList_toList, brackets, hsplit, List.tail_cons]

def mentions (words text : String) : Bool := decide (words.toList <:+: text.toList)

theorem mentions_eq_false {words text : String} {c : Char} (hc : c ∈ words.toList) (h : c ∉ text.toList) :
    mentions words text = false := decide_eq_false fun hwords => h (hwords.subset hc)

theorem mentions_append_middle (front words behind : String) :
    mentions words (front ++ (words ++ behind)) := by
  refine decide_eq_true ⟨front.toList, behind.toList, ?_⟩
  rw [String.toList_append, String.toList_append, List.append_assoc]

/-! ### Negative numbers -/

/-- No digit of the text follows directly on a minus sign. -/
def NoNegative (text : List Char) : Prop := text.IsChain fun a b => ¬(a = '-' ∧ b.isDigit)

theorem noNegative_append {front rest : List Char} (hfront : '-' ∉ front) (hrest : NoNegative rest) :
    NoNegative (front ++ rest) := by
  induction front with
  | nil => exact hrest
  | cons c front ih =>
    rw [List.mem_cons, not_or] at hfront
    exact List.isChain_cons.2 ⟨fun _ _ hminus => hfront.1 hminus.1.symm, ih hfront.2⟩

theorem noNegative_of_not_mem {text : List Char} (h : '-' ∉ text) : NoNegative text := by
  rw [← List.append_nil text]
  exact noNegative_append h .nil

theorem noNegative_lineFeed {rest : List Char} (hrest : NoNegative rest) : NoNegative ('\n' :: rest) := by
  have hfeed : '-' ∉ ['\n'] := by decide
  exact noNegative_append hfeed hrest

theorem noNegative_rule {rest : List Char} (n : Nat) (hrest : NoNegative rest) :
    NoNegative (List.replicate n '-' ++ '\n' :: rest) := by
  induction n with
  | zero => exact noNegative_lineFeed hrest
  | succ n ih =>
    refine List.isChain_cons.2 ⟨?_, ih⟩
    intro c hc hminus
    -- the next character of the line is another minus sign, or the line feed
    cases n <;> cases hc <;> exact absurd hminus.2 (by decide)

end BootImage
