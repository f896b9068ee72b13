import Mathlib
import BootImage.Symbol.Listing

/-!
# The lines of a listing as lines of its text

A listing is split into lines as bytes, and each line is decoded on its own.  A listing that can be read is a
text as a whole, and its lines say the same as the pieces of this text between line feeds.

* (decoding) A text is decoded from the bytes that its characters encode to: `decodeText?_eq_some_iff`.  So
  joining bytes by line feeds joins their texts: `decodeText?_intercalate`.
* (ends of lines) White space at the end of a line says nothing, so it does not matter whether a carriage
  return is dropped: `Record.ofLine_append_return`.
* (pieces) `Listing.exists_text_of_entries` puts this together.
-/

namespace BootImage

/-! ### Results -/

theorem mapM_eq_ok_iff {ε α β : Type} {f : α → Except ε β} {xs : List α} {ys : List β} :
    xs.mapM f = .ok ys ↔ List.Forall₂ (fun x y => f x = .ok y) xs ys := by
  induction xs generalizing ys with
  | nil => cases ys <;> simp [pure, Except.pure]
  | cons x xs ih =>
    rw [List.mapM_cons, List.forall₂_cons_left_iff]
    cases hx : f x with
    | error e => simp [bind, Except.bind]
    | ok y =>
      cases hxs : xs.mapM f with
      | error e => simp [bind, Except.bind, ← ih, hxs]
      | ok found => simp [bind, Except.bind, pure, Except.pure, ← ih, hxs, eq_comm]

/-- The first element that fails decides. -/
theorem mapM_eq_error_iff {ε α β : Type} {f : α → Except ε β} {xs : List α} {e : ε} :
    xs.mapM f = .error e ↔ ∃ before x after, xs = before ++ x :: after ∧ (∀ y ∈ before, ∃ b, f y = .ok b) ∧
      f x = .error e := by
  constructor
  · intro h
    induction xs with
    | nil => contradiction
    | cons x xs ih =>
      rw [List.mapM_cons] at h
      cases hx : f x with
      | error e' =>
        rw [hx] at h
        exact ⟨[], x, xs, rfl, by simp, hx.trans (congrArg _ (Except.error.inj h))⟩
      | ok b =>
        cases hxs : xs.mapM f with
        | error e' =>
          rw [hx, hxs] at h
          obtain ⟨before, y, after, hsplit, hbefore, hy⟩ := ih (hxs.trans (congrArg _ (Except.error.inj h)))
          exact ⟨x :: before, y, after, by rw [hsplit, List.cons_append],
            List.forall_mem_cons.2 ⟨⟨b, hx⟩, hbefore⟩, hy⟩
        | ok found =>
          rw [hx, hxs] at h
          contradiction
  · rintro ⟨before, x, after, rfl, hbefore, hx⟩
    induction before with
    | nil =>
      rw [List.nil_append, List.mapM_cons, hx]
      rfl
    | cons y before ih =>
      obtain ⟨⟨b, hy⟩, hbefore⟩ := List.forall_mem_cons.1 hbefore
      rw [List.cons_append, List.mapM_cons, hy, ih hbefore]
      rfl

theorem mapError_eq_ok_iff {ε ε' α : Type} {x : Except ε α} {f : ε → ε'} {a : α} :
    x.mapError f = .ok a ↔ x = .ok a := by
  cases x <;> simp [Except.mapError]

/-! ### Pieces of lists -/

theorem not_mem_of_mem_splitOn {α : Type} [BEq α] [LawfulBEq α] {a : α} {xs piece : List α}
    (h : piece ∈ xs.splitOn a) : a ∉ piece := by
  induction xs generalizing piece with
  | nil =>
    rw [List.splitOn_eq_singleton List.not_mem_nil, List.mem_singleton] at h
    rw [h]
    exact List.not_mem_nil
  | cons x xs ih =>
    rw [List.splitOn_cons_eq_if_modifyHead] at h
    split at h
    · rcases List.mem_cons.1 h with rfl | h
      · exact List.not_mem_nil
      · exact ih h
    · rename_i hx
      obtain ⟨first, rest, hsplit⟩ := List.exists_cons_of_ne_nil (List.splitOn_ne_nil a xs)
      rw [hsplit] at h ih
      rcases List.mem_cons.1 h with rfl | h
      · intro ha
        rcases List.mem_cons.1 ha with rfl | ha
        · exact hx (beq_self_eq_true a)
        · exact ih List.mem_cons_self ha
      · exact ih (List.mem_cons_of_mem _ h)

/-! ### Decoding -/

def encodeText (text : List Char) : Bytes := text.flatMap String.utf8EncodeChar

theorem decodeText?_eq_some_iff {bytes : Bytes} {text : String} :
    decodeText? bytes = some text ↔ encodeText text.toList = bytes := by
  have hencode : text.toByteArray = (encodeText text.toList).toByteArray := String.utf8Encode_toList.symm
  have hinj {a b : Bytes} : a.toByteArray = b.toByteArray ↔ a = b := by
    constructor
    · intro h
      rw [← List.toList_data_toByteArray (l := a), h, List.toList_data_toByteArray]
    · exact congrArg _
  rw [decodeText?, String.fromUTF8?, ← hinj, ← hencode]
  split
  · rw [Option.some.injEq, ← String.toByteArray_inj, String.fromUTF8, eq_comm]
  · rename_i hinvalid
    simp only [reduceCtorEq, false_iff]
    intro h
    rw [← h] at hinvalid
    exact hinvalid text.isValidUTF8

theorem decodeText?_append {a b : Bytes} {s t : String} (hs : decodeText? a = some s)
    (ht : decodeText? b = some t) :
    decodeText? (a ++ b) = some (s ++ t) := by
  rw [decodeText?_eq_some_iff] at hs ht ⊢
  rw [String.toList_append, encodeText, List.flatMap_append, ← hs, ← ht]
  rfl

private theorem decodeText?_lineFeed :
    decodeText? [lineFeed] = some "\n" := decodeText?_eq_some_iff.2 (by decide)

theorem decodeText?_carriageReturn : decodeText? [carriageReturn] = some "\r" :=
  decodeText?_eq_some_iff.2 (by decide)

/-- A text has no line feed if its bytes have none. -/
private theorem lineFeed_not_mem {bytes : Bytes} (hbytes : lineFeed ∉ bytes) {text : String}
    (h : decodeText? bytes = some text) : '\n' ∉ text.toList := by
  intro hmem
  rw [decodeText?_eq_some_iff] at h
  have hencode : String.utf8EncodeChar '\n' = [lineFeed] := by decide
  apply hbytes
  rw [← h, encodeText, List.mem_flatMap]
  exact ⟨'\n', hmem, by rw [hencode]; exact List.mem_singleton_self _⟩

/-- Joining bytes by line feeds joins their texts. -/
theorem decodeText?_intercalate {pieces : List Bytes} {texts : List String}
    (h : List.Forall₂ (fun piece text => decodeText? piece = some text) pieces texts) :
    decodeText? ([lineFeed].intercalate pieces) = some ("\n".intercalate texts) := by
  induction h with
  | nil => exact decodeText?_eq_some_iff.2 rfl
  | @cons piece text pieces texts hpiece hpieces ih =>
    cases hpieces with
    | nil => simpa [List.intercalate] using hpiece
    | cons hnext hrest =>
      rw [List.intercalate_cons_of_ne_nil (List.cons_ne_nil _ _),
        String.intercalate_cons_of_ne_nil (List.cons_ne_nil _ _)]
      exact decodeText?_append (decodeText?_append hpiece decodeText?_lineFeed) ih

/-! ### Ends of lines -/

private theorem words_append_blank (cs : List Char) {c : Char} (h : isBlank c) :
    words (cs ++ [c]) = words cs := by
  have hnil : List.splitOnP isBlank [] = [[]] := rfl
  rw [words, List.splitOnP_append_cons _ _ h, List.filter_append, hnil, words]
  exact List.append_nil _

theorem Record.ofLine_append_return (line : String) : Record.ofLine (line ++ "\r") = Record.ofLine line := by
  have hreturn : ("\r" : String).toList = ['\r'] := by decide
  rw [Record.ofLine, String.toList_append, hreturn, words_append_blank _ (by decide), Record.ofLine]

namespace Listing

def Holds (line : Bytes) (found : Option Record) : Prop :=
  ∃ text, decodeText? line = some text ∧ Record.ofLine text = .ok found

private theorem readLine_eq_ok_iff {number : Nat} {line : Bytes} {found : Option Record} :
    readLine number line = .ok found ↔ Holds line found := by
  rw [readLine, Holds]
  cases decodeText? line with
  | none => simp
  | some text => simp [mapError_eq_ok_iff]

private theorem Holds.of_dropReturn {piece : Bytes} {found : Option Record}
    (h : Holds (dropReturn piece) found) :
    Holds piece found := by
  rw [dropReturn] at h
  split at h
  · rename_i hlast
    obtain ⟨text, htext, hrecord⟩ := h
    obtain ⟨line, rfl⟩ := List.getLast?_eq_some_iff.1 hlast
    rw [List.dropLast_concat] at htext
    exact ⟨text ++ "\r", decodeText?_append htext decodeText?_carriageReturn,
      by rw [Record.ofLine_append_return, hrecord]⟩
  · exact h

private theorem entries_eq_ok_iff {bytes : Bytes} {found : List (Option Record)} :
    entries bytes = .ok found ↔ List.Forall₂ Holds (lines bytes) found := by
  have hlines : (numbered bytes).map Prod.fst = lines bytes := List.zipIdx_map_fst 1 _
  rw [entries, mapM_eq_ok_iff, ← hlines, List.forall₂_map_left_iff]
  simp only [readLine_eq_ok_iff]

/-- Each piece between line feeds holds what its line holds; an empty piece at the end is no line and holds
nothing. -/
private theorem exists_holds_pieces {bytes : Bytes} {found : List (Option Record)}
    (h : List.Forall₂ Holds (lines bytes) found) :
    ∃ all, List.Forall₂ Holds (bytes.splitOn lineFeed) all ∧ all.reduceOption = found.reduceOption := by
  obtain hnil | ⟨front, last, hsplit⟩ := List.eq_nil_or_concat (bytes.splitOn lineFeed)
  · exact absurd hnil (List.splitOn_ne_nil _ _)
  rw [List.concat_eq_append] at hsplit
  have hlines : lines bytes = front.map dropReturn ++ [last].filter fun piece => !piece.isEmpty := by
    rw [lines, hsplit, List.dropLast_concat, List.getLast?_concat]
    rfl
  rw [hlines] at h
  obtain ⟨before, after, rfl, hfront, hlast⟩ : ∃ before after, found = before ++ after ∧
      List.Forall₂ Holds (front.map dropReturn) before ∧
      List.Forall₂ Holds ([last].filter fun piece => !piece.isEmpty) after :=
    ⟨_, _, (List.take_append_drop _ _).symm, (List.forall₂_take_append _ _ _ h.flip).flip,
      (List.forall₂_drop_append _ _ _ h.flip).flip⟩
  rw [List.forall₂_map_left_iff] at hfront
  replace hfront := hfront.imp fun _ _ => Holds.of_dropReturn
  rw [hsplit]
  cases last with
  | nil =>
    have hnone : after = [] := List.forall₂_nil_left_iff.1 hlast
    have hempty : Holds [] none := ⟨"", rfl, rfl⟩
    refine ⟨before ++ [none], List.rel_append hfront (.cons hempty .nil), ?_⟩
    rw [hnone, List.append_nil, List.reduceOption_append]
    exact List.append_nil _
  | cons b bs => exact ⟨before ++ after, List.rel_append hfront hlast, rfl⟩

private theorem exists_texts {pieces : List Bytes} {all : List (Option Record)}
    (h : List.Forall₂ Holds pieces all) (hfree : ∀ piece ∈ pieces, lineFeed ∉ piece) :
    ∃ texts, List.Forall₂ (fun piece text => decodeText? piece = some text) pieces texts ∧
      List.Forall₂ (fun text found => Record.ofLine text = .ok found) texts all ∧
      ∀ line ∈ texts.map String.toList, '\n' ∉ line := by
  induction h with
  | nil => exact ⟨[], .nil, .nil, fun _ hline => absurd hline List.not_mem_nil⟩
  | cons hholds _ ih =>
    obtain ⟨text, htext, hrecord⟩ := hholds
    obtain ⟨hpiece, hpieces⟩ := List.forall_mem_cons.1 hfree
    obtain ⟨texts, htexts, hrecords, hclean⟩ := ih hpieces
    refine ⟨text :: texts, .cons htext htexts, .cons hrecord hrecords, ?_⟩
    rw [List.map_cons, List.forall_mem_cons]
    exact ⟨lineFeed_not_mem hpiece htext, hclean⟩

/-- A listing that can be read is a text, and its records are those of the lines of this text. -/
theorem exists_text_of_entries {bytes : Bytes} {found : List (Option Record)}
    (h : entries bytes = .ok found) :
    ∃ text all, decodeText? bytes = some text ∧
      (text.toList.splitOn '\n').mapM (fun line => Record.ofLine (String.ofList line)) = .ok all ∧
      all.reduceOption = found.reduceOption := by
  obtain ⟨all, hall, hreduce⟩ := exists_holds_pieces (entries_eq_ok_iff.1 h)
  obtain ⟨texts, hdecode, hrecords, hclean⟩ := exists_texts hall fun _ => not_mem_of_mem_splitOn
  have hbytes : [lineFeed].intercalate (bytes.splitOn lineFeed) = bytes := List.intercalate_splitOn _
  have hfeed : "\n".toList = ['\n'] := by decide
  have hpieces : texts.map String.toList ≠ [] := by
    intro hnil
    rw [List.map_eq_nil_iff] at hnil
    rw [hnil, List.forall₂_nil_right_iff] at hdecode
    exact List.splitOn_ne_nil _ _ hdecode
  refine ⟨"\n".intercalate texts, all, ?_, ?_, hreduce⟩
  · rw [← hbytes]
    exact decodeText?_intercalate hdecode
  · rw [String.toList_intercalate, hfeed, List.splitOn_intercalate _ hclean hpieces, mapM_eq_ok_iff,
      List.forall₂_map_left_iff]
    simpa only [String.ofList_toList] using hrecords

end Listing

end BootImage
