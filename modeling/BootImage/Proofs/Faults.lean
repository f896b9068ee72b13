import BootImage.Proofs.Lines

/-!
# The first faulty line of a listing

* (lines) `LinesOf` is the grammar of lines; every file has the lines that it says, and no others:
  `linesOf_iff`.  What stands in front of a line feed and what stands behind it have their lines each for
  itself: `LinesOf.split`, `LinesOf.append`.
* (faults) Reading a listing fails exactly with the error of its first faulty line, under the number that this
  line has among all lines: `Listing.table_eq_error_iff`.
* (the rest) So nothing behind this line matters: `Listing.table_fails_first`.
-/

namespace BootImage

/-- The lines of a file. A line ends at a line feed, or a carriage return and a line feed; what is left behind
the last line feed is a line if it is not empty. -/
inductive LinesOf : Bytes → List Bytes → Prop
  | done : LinesOf [] []
  | last {line : Bytes} : line ≠ [] → lineFeed ∉ line → LinesOf line [line]
  | feed {line behind : Bytes} {rest : List Bytes} : lineFeed ∉ line → line.getLast? ≠ some carriageReturn →
      LinesOf behind rest → LinesOf (line ++ lineFeed :: behind) (line :: rest)
  | returnFeed {line behind : Bytes} {rest : List Bytes} : lineFeed ∉ line → LinesOf behind rest →
      LinesOf (line ++ carriageReturn :: lineFeed :: behind) (line :: rest)

def EndsLine (bytes : Bytes) : Prop := ∀ last ∈ bytes.getLast?, last = lineFeed

/-! ### Lines -/

private theorem lines_append_lineFeed {piece : Bytes} (h : lineFeed ∉ piece) (behind : Bytes) :
    lines (piece ++ lineFeed :: behind) = dropReturn piece :: lines behind := by
  obtain ⟨first, rest, hsplit⟩ := List.exists_cons_of_ne_nil (List.splitOn_ne_nil lineFeed behind)
  rw [lines, List.splitOn_append_cons_self_of_not_mem h, lines, hsplit]
  rfl

private theorem lines_of_not_mem {piece : Bytes} (h : lineFeed ∉ piece) :
    lines piece = [piece].filter fun piece => !piece.isEmpty := by
  rw [lines, List.splitOn_eq_singleton h]
  rfl

theorem linesOf_lines (bytes : Bytes) : LinesOf bytes (lines bytes) := by
  by_cases hfeed : lineFeed ∈ bytes
  · obtain ⟨piece, behind, hbytes, hpiece⟩ := List.eq_append_cons_of_mem hfeed
    have hless : behind.length < bytes.length := by
      rw [hbytes, List.length_append, List.length_cons]
      omega
    have hbehind := linesOf_lines behind
    rw [hbytes, lines_append_lineFeed hpiece, dropReturn]
    split
    · rename_i hreturn
      obtain ⟨line, rfl⟩ := List.getLast?_eq_some_iff.1 hreturn
      rw [List.dropLast_concat, List.append_assoc]
      exact .returnFeed (fun h => hpiece (List.mem_append_left _ h)) hbehind
    · rename_i hreturn
      exact .feed hpiece hreturn hbehind
  · rw [lines_of_not_mem hfeed]
    cases bytes with
    | nil => exact .done
    | cons b bytes => exact .last (List.cons_ne_nil _ _) hfeed
termination_by bytes.length

theorem linesOf_iff {bytes : Bytes} {ls : List Bytes} : LinesOf bytes ls ↔ ls = lines bytes := by
  constructor
  · intro h
    induction h with
    | done => rfl
    | @last line hne hfeed =>
      rw [lines_of_not_mem hfeed, List.filter_cons_of_pos (by simpa using hne)]
      rfl
    | feed hfeed hreturn _ ih => rw [lines_append_lineFeed hfeed, ← ih, dropReturn, if_neg hreturn]
    | @returnFeed line behind rest hfeed _ ih =>
      have hfeed' : lineFeed ∉ line ++ [carriageReturn] := by
        rw [List.mem_append, not_or]
        exact ⟨hfeed, by decide⟩
      have hsplit : line ++ carriageReturn :: lineFeed :: behind = (line ++ [carriageReturn]) ++ lineFeed ::
          behind := by
        simp
      rw [hsplit, lines_append_lineFeed hfeed', ← ih, dropReturn, if_pos List.getLast?_concat,
        List.dropLast_concat]
  · rintro rfl
    exact linesOf_lines bytes

private theorem endsLine_append_lineFeed (front behind : Bytes) :
    EndsLine (front ++ lineFeed :: behind) ↔ EndsLine behind := by
  rw [EndsLine, EndsLine, List.getLast?_append, List.getLast?_cons]
  cases behind.getLast? <;> simp

private theorem endsLine_append_return (front behind : Bytes) :
    EndsLine (front ++ carriageReturn :: lineFeed :: behind) ↔ EndsLine behind := by
  have h := endsLine_append_lineFeed (front ++ [carriageReturn]) behind
  rwa [List.append_assoc] at h

/-- The lines up to one of them and those behind it are lines of two parts of the file. -/
theorem LinesOf.split {bytes : Bytes} {a b : List Bytes} (h : LinesOf bytes (a ++ b)) :
    ∃ front behind, bytes = front ++ behind ∧ LinesOf front a ∧ LinesOf behind b ∧
      (behind = [] ∨ EndsLine front) := by
  induction a generalizing bytes with
  | nil => exact ⟨[], bytes, rfl, .done, h, .inr (by simp [EndsLine])⟩
  | cons line a ih =>
    generalize hls : line :: a ++ b = ls at h
    cases h with
    | done => contradiction
    | last hne hfeed =>
      obtain ⟨rfl, hnil⟩ := List.cons.inj hls
      obtain ⟨rfl, rfl⟩ := List.append_eq_nil_iff.1 hnil
      exact ⟨line, [], (List.append_nil _).symm, .last hne hfeed, .done, .inl rfl⟩
    | feed hfeed hreturn hbehind =>
      obtain ⟨rfl, rfl⟩ := List.cons.inj hls
      obtain ⟨front, behind, rfl, hfront, hb, hends⟩ := ih hbehind
      exact ⟨line ++ lineFeed :: front, behind, by simp, .feed hfeed hreturn hfront, hb,
        hends.imp_right (endsLine_append_lineFeed _ _).2⟩
    | returnFeed hfeed hbehind =>
      obtain ⟨rfl, rfl⟩ := List.cons.inj hls
      obtain ⟨front, behind, rfl, hfront, hb, hends⟩ := ih hbehind
      exact ⟨line ++ carriageReturn :: lineFeed :: front, behind, by simp, .returnFeed hfeed hfront, hb,
        hends.imp_right (endsLine_append_return _ _).2⟩

/-- Behind the end of a line the lines begin anew. -/
theorem LinesOf.append {front behind : Bytes} {a b : List Bytes} (ha : LinesOf front a)
    (hfront : EndsLine front) (hb : LinesOf behind b) : LinesOf (front ++ behind) (a ++ b) := by
  induction ha with
  | done => exact hb
  | @last line hne hfeed =>
    exfalso
    apply hfeed
    rw [← hfront _ (List.getLast?_eq_some_getLast hne)]
    exact List.getLast_mem hne
  | feed hfeed hreturn _ ih =>
    rw [List.append_assoc]
    exact .feed hfeed hreturn (ih ((endsLine_append_lineFeed _ _).1 hfront))
  | returnFeed hfeed _ ih =>
    rw [List.append_assoc]
    exact .returnFeed hfeed (ih ((endsLine_append_return _ _).1 hfront))

namespace Listing

/-- The line is no text in UTF-8, or a record's line with a malformed address. -/
def Faulty (line : Bytes) : Prop :=
  (¬∃ text, encodeText text = line) ∨
    ∃ text error, encodeText text.toList = line ∧ Record.ofLine text = .error error

/-- The error of a faulty line with this number: that it cannot be read, or what is wrong with its address,
with the number in front. -/
def Fails (number : Nat) (line : Bytes) (e : ListingError) : Prop :=
  (¬∃ text, encodeText text = line) ∧ e = .unreadable .invalidText ∨
    ∃ text error, encodeText text.toList = line ∧ Record.ofLine text = .error error ∧
      e = .badAddress number error ∧ e.messages = [s!"Line {number}", error.message]

/-! ### Faults -/

theorem decodeText?_eq_none_iff {line : Bytes} :
    decodeText? line = none ↔ ¬∃ text, encodeText text = line := by
  constructor
  · rintro h ⟨text, htext⟩
    rw [← String.toList_ofList (l := text), ← decodeText?_eq_some_iff, h] at htext
    contradiction
  · intro h
    cases hdecode : decodeText? line with
    | none => rfl
    | some text => exact absurd ⟨text.toList, decodeText?_eq_some_iff.1 hdecode⟩ h

private theorem readLine_eq_error_iff {number : Nat} {line : Bytes} {e : ListingError} :
    readLine number line = .error e ↔ Fails number line e := by
  rw [readLine, Fails, ← decodeText?_eq_none_iff]
  simp only [← decodeText?_eq_some_iff]
  cases decodeText? line with
  | none => simp [eq_comm]
  | some text =>
    cases hrecord : Record.ofLine text with
    | ok found => simp [Except.mapError, hrecord]
    | error error =>
      simp only [Except.mapError, hrecord, Except.error.injEq, reduceCtorEq, false_and, false_or,
        Option.some.injEq]
      constructor
      · rintro rfl
        exact ⟨text, error, rfl, hrecord, rfl, rfl⟩
      · rintro ⟨_, error', rfl, hrecord', rfl, -⟩
        rw [hrecord, Except.error.injEq] at hrecord'
        rw [hrecord']

private theorem faulty_iff {line : Bytes} (number : Nat) : Faulty line ↔ ∃ e, Fails number line e := by
  constructor
  · rintro (hline | ⟨text, error, htext, hrecord⟩)
    · exact ⟨_, .inl ⟨hline, rfl⟩⟩
    · exact ⟨_, .inr ⟨text, error, htext, hrecord, rfl, rfl⟩⟩
  · rintro ⟨e, ⟨hline, -⟩ | ⟨text, error, htext, hrecord, -⟩⟩
    · exact .inl hline
    · exact .inr ⟨text, error, htext, hrecord⟩

private theorem not_faulty_iff {line : Bytes} (number : Nat) :
    ¬Faulty line ↔ ∃ found, readLine number line = .ok found := by
  rw [faulty_iff number]
  simp only [← readLine_eq_error_iff]
  cases readLine number line <;> simp

/-- The error of a listing is that of its first faulty line, under the number that the line has among all
lines. -/
theorem table_eq_error_iff {bytes : Bytes} {e : ListingError} :
    table bytes = .error e ↔ ∃ before line after, LinesOf bytes (before ++ line :: after) ∧
      (∀ l ∈ before, ¬Faulty l) ∧ Fails (before.length + 1) line e := by
  have htable : table bytes = .error e ↔ entries bytes = .error e := by
    rw [table, records]
    cases entries bytes <;> simp [Except.map]
  rw [htable, entries, mapM_eq_error_iff]
  simp only [linesOf_iff]
  constructor
  · rintro ⟨_, ⟨line, number⟩, _, hsplit, hbefore, hline⟩
    obtain ⟨before, rest, hlines, rfl, hrest⟩ := List.zipIdx_eq_append_iff.1 hsplit
    obtain ⟨_, after, rfl, hfirst, rfl⟩ := List.zipIdx_eq_cons_iff.1 hrest.symm
    obtain ⟨rfl, rfl⟩ := Prod.mk.inj hfirst
    -- the number of a line is one more than there are lines in front of it
    refine ⟨before, line, after, hlines.symm, ?_, ?_⟩
    · intro l hl
      rw [← List.zipIdx_map_fst 1 before] at hl
      obtain ⟨⟨l, number⟩, hnumbered, rfl⟩ := List.mem_map.1 hl
      exact (not_faulty_iff number).2 (hbefore _ hnumbered)
    · rw [Nat.add_comm]
      exact readLine_eq_error_iff.1 hline
  · rintro ⟨before, line, after, hlines, hbefore, hline⟩
    refine ⟨before.zipIdx 1, (line, 1 + before.length), after.zipIdx (1 + before.length + 1), ?_, ?_, ?_⟩
    · rw [numbered, ← hlines, List.zipIdx_append, List.zipIdx_cons]
    · rintro ⟨l, number⟩ hnumbered
      apply (not_faulty_iff number).1
      apply hbefore
      rw [← List.zipIdx_map_fst 1 before]
      exact List.mem_map_of_mem hnumbered
    · rw [Nat.add_comm] at hline
      exact readLine_eq_error_iff.2 hline

private theorem exists_first_faulty {ls : List Bytes} (h : ∃ line ∈ ls, Faulty line) :
    ∃ before line after, ls = before ++ line :: after ∧ (∀ l ∈ before, ¬Faulty l) ∧ Faulty line := by
  classical
  have hfind : (ls.find? fun l => Faulty l).isSome := by
    rw [List.find?_isSome]
    simpa using h
  obtain ⟨line, hline⟩ := Option.isSome_iff_exists.1 hfind
  obtain ⟨hfaulty, before, after, hls, hbefore⟩ := List.find?_eq_some_iff_append.1 hline
  exact ⟨before, line, after, hls, by simpa using hbefore, of_decide_eq_true hfaulty⟩

private theorem exists_table_eq_error_iff {bytes : Bytes} :
    (∃ e, table bytes = .error e) ↔ ∃ line ∈ lines bytes, Faulty line := by
  constructor
  · rintro ⟨e, he⟩
    obtain ⟨before, line, after, hlines, -, hline⟩ := table_eq_error_iff.1 he
    rw [← linesOf_iff.1 hlines]
    exact ⟨line, by simp, (faulty_iff _).2 ⟨e, hline⟩⟩
  · intro h
    obtain ⟨before, line, after, hlines, hbefore, hline⟩ := exists_first_faulty h
    obtain ⟨e, he⟩ := (faulty_iff (before.length + 1)).1 hline
    exact ⟨e, table_eq_error_iff.2 ⟨before, line, after, linesOf_iff.2 hlines.symm, hbefore, he⟩⟩

/-- A listing cannot be read exactly if one of its lines is faulty, and the first of them decides: the error
is that of this line, and stays the same whatever stands behind it. -/
theorem table_fails_first (bytes : Bytes) :
    ∃ ls, (∀ ls', LinesOf bytes ls' ↔ ls' = ls) ∧ ((∃ e, table bytes = .error e) ↔ ∃ line ∈ ls, Faulty line) ∧
      ∀ before line after, ls = before ++ line :: after → (∀ l ∈ before, ¬Faulty l) → Faulty line →
        ∃ e, table bytes = .error e ∧ Fails (before.length + 1) line e ∧
          ∃ front behind, bytes = front ++ behind ∧ LinesOf front (before ++ [line]) ∧ LinesOf behind after ∧
            (behind = [] ∨ EndsLine front) ∧
              (EndsLine front → ∀ other, table (front ++ other) = .error e) := by
  refine ⟨lines bytes, fun ls' => linesOf_iff, exists_table_eq_error_iff, ?_⟩
  intro before line after hlines hbefore hline
  obtain ⟨e, he⟩ := (faulty_iff (before.length + 1)).1 hline
  have hsplit : LinesOf bytes (before ++ line :: after) := linesOf_iff.2 hlines.symm
  refine ⟨e, table_eq_error_iff.2 ⟨before, line, after, hsplit, hbefore, he⟩, he, ?_⟩
  rw [← List.singleton_append, ← List.append_assoc] at hsplit
  obtain ⟨front, behind, hbytes, hfront, hbehind, hends⟩ := hsplit.split
  refine ⟨front, behind, hbytes, hfront, hbehind, hends, ?_⟩
  intro hend other
  have hother := hfront.append hend (linesOf_lines other)
  rw [List.append_assoc, List.singleton_append] at hother
  exact table_eq_error_iff.2 ⟨before, line, lines other, hother, hbefore, he⟩

/-- A skipped line counts, and a line that is no text comes too late. -/
theorem table_fails_first_three :
    let bytes := encodeText "100 T main\r\n\nzz A end\n".toList ++ [0xFF]
    (∀ l ∈ [encodeText "100 T main".toList, []], ¬Faulty l) ∧ Faulty (encodeText "zz A end".toList) ∧
      ∃ e, table bytes = .error e ∧ Fails 3 (encodeText "zz A end".toList) e := by
  intro bytes
  have hlines : lines bytes = [encodeText "100 T main".toList, []] ++ encodeText "zz A end".toList ::
    [[0xFF]] := rfl
  have hrecord : Record.ofLine "zz A end" = .error ⟨"zz", .invalidDigit⟩ := rfl
  have hfaulty : Faulty (encodeText "zz A end".toList) := .inr ⟨"zz A end", _, rfl, hrecord⟩
  have hbefore : ∀ l ∈ [encodeText "100 T main".toList, []], ¬Faulty l := by
    rw [List.forall_mem_cons, List.forall_mem_singleton, not_faulty_iff 1, not_faulty_iff 2]
    exact ⟨⟨some ⟨"main", .text, 0x100⟩, rfl⟩, ⟨none, rfl⟩⟩
  obtain ⟨ls, hls, -, hfirst⟩ := table_fails_first bytes
  obtain rfl := (hls _).1 (linesOf_iff.2 hlines.symm)
  obtain ⟨e, htable, he, -⟩ := hfirst _ _ _ rfl hbefore hfaulty
  exact ⟨hbefore, hfaulty, e, htable, he⟩

end Listing

end BootImage
