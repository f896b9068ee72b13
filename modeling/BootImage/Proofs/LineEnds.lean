import BootImage.Command.Assemble
import BootImage.Proofs.Faults

/-!
# Line feeds with and without carriage returns

A listing says the same when a carriage return is put in front of every line feed, also where one is there
already.

* (lines) A carriage return in front of a line feed goes with the line feed.  So every line stays as it is,
  but for those that ended with a carriage return before: they get it back, `LinesOf.withReturns`.
* (texts) A carriage return at the end of a line is a character of its own: the line is a text exactly if it
  is one without the carriage return, `decodeText?_append_return`.  And it is white space, so the line says
  the same, `Listing.readLine_append_return`.
* (listings) Hence the table or the error, and what is assembled from it: `Listing.table_withReturns`.
-/

namespace BootImage

/-- The bytes with a carriage return put in front of every line feed. -/
def withReturns (bytes : Bytes) : Bytes :=
  bytes.flatMap fun b => if b = lineFeed then [carriageReturn, lineFeed] else [b]

/-! ### Lines -/

private theorem withReturns_of_not_mem {line : Bytes} (h : lineFeed ∉ line) : withReturns line = line := by
  induction line with
  | nil => rfl
  | cons b line ih =>
    rw [List.mem_cons, not_or] at h
    rw [withReturns, List.flatMap_cons, if_neg (Ne.symm h.1), ← withReturns, ih h.2, List.singleton_append]

private theorem withReturns_append_lineFeed {line : Bytes} (h : lineFeed ∉ line) (behind : Bytes) :
    withReturns (line ++ lineFeed :: behind) = line ++ carriageReturn :: lineFeed :: withReturns behind := by
  rw [withReturns, List.flatMap_append, ← withReturns, withReturns_of_not_mem h, List.flatMap_cons,
    if_pos rfl, ← withReturns]
  rfl

private theorem lineFeed_not_mem_append_return {line : Bytes} (h : lineFeed ∉ line) :
    lineFeed ∉ line ++ [carriageReturn] := by
  rw [List.mem_append, not_or]
  exact ⟨h, by decide⟩

/-- The lines stay as they are, but for a carriage return that some of them get at their end. -/
theorem LinesOf.withReturns {bytes : Bytes} {ls : List Bytes} (h : LinesOf bytes ls) :
    ∃ ls', LinesOf (withReturns bytes) ls' ∧
      List.Forall₂ (fun line' line => line' = line ∨ line' = line ++ [carriageReturn]) ls' ls := by
  induction h with
  | done => exact ⟨[], .done, .nil⟩
  | @last line hne hfeed =>
    rw [withReturns_of_not_mem hfeed]
    exact ⟨[line], .last hne hfeed, .cons (.inl rfl) .nil⟩
  | @feed line behind rest hfeed _ _ ih =>
    obtain ⟨rest', hrest', hsame⟩ := ih
    rw [withReturns_append_lineFeed hfeed]
    exact ⟨line :: rest', .returnFeed hfeed hrest', .cons (.inl rfl) hsame⟩
  | @returnFeed line behind rest hfeed _ ih =>
    obtain ⟨rest', hrest', hsame⟩ := ih
    have hfeed' := lineFeed_not_mem_append_return hfeed
    have hsplit : line ++ carriageReturn :: lineFeed :: behind = (line ++ [carriageReturn]) ++ lineFeed ::
        behind := by
      simp
    rw [hsplit, withReturns_append_lineFeed hfeed']
    exact ⟨(line ++ [carriageReturn]) :: rest', .returnFeed hfeed' hrest', .cons (.inr rfl) hsame⟩

/-! ### Texts -/

/-- The byte of a carriage return is the end of no other character's encoding. -/
private theorem eq_return_of_getLast? {c : Char}
    (h : (String.utf8EncodeChar c).getLast? = some carriageReturn) : c = '\r' := by
  have hpos : 0 < (String.utf8EncodeChar c).length := List.length_pos_of_ne_nil String.utf8EncodeChar_ne_nil
  have hplace : (String.utf8EncodeChar c).length - 1 < (String.utf8EncodeChar c).length :=
    Nat.sub_lt hpos Nat.one_pos
  rw [List.getLast?_eq_getElem?, List.getElem?_eq_getElem hplace, Option.some.injEq] at h
  -- only the first byte of an encoding looks like that of a carriage return
  have hfirst : ((String.utf8EncodeChar c)[(String.utf8EncodeChar c).length - 1]).IsUTF8FirstByte := by
    rw [h]
    decide
  have hlength : (String.utf8EncodeChar c).length = 1 := by
    have hzero := UInt8.isUTF8FirstByte_getElem_utf8EncodeChar.1 hfirst
    omega
  obtain ⟨b, hb⟩ := List.length_eq_one_iff.1 hlength
  have hchar : encodeText (String.ofList [c]).toList = [carriageReturn] := by
    simp only [hb, List.length_singleton, Nat.sub_self, List.getElem_cons_zero] at h
    rw [String.toList_ofList, encodeText, List.flatMap_singleton, hb, h]
  have hreturn := (decodeText?_eq_some_iff.2 hchar).symm.trans decodeText?_carriageReturn
  have hlist := congrArg String.toList (Option.some.inj hreturn)
  rw [String.toList_ofList] at hlist
  exact List.head_eq_of_cons_eq hlist

namespace Listing

theorem decodeText?_append_return (line : Bytes) :
    decodeText? (line ++ [carriageReturn]) = (decodeText? line).map (· ++ "\r") := by
  cases hline : decodeText? line with
  | some text => exact decodeText?_append hline decodeText?_carriageReturn
  | none =>
    rw [decodeText?_eq_none_iff] at hline
    rw [Option.map_none, decodeText?_eq_none_iff]
    rintro ⟨text, htext⟩
    obtain rfl | ⟨front, c, rfl⟩ := List.eq_nil_or_concat text
    · simp [encodeText] at htext
    · rw [List.concat_eq_append, encodeText, List.flatMap_append, List.flatMap_singleton] at htext
      have hlast : (String.utf8EncodeChar c).getLast? = some carriageReturn := by
        have h := congrArg List.getLast? htext
        rwa [List.getLast?_append_of_ne_nil _ String.utf8EncodeChar_ne_nil, List.getLast?_concat] at h
      obtain rfl := eq_return_of_getLast? hlast
      exact hline ⟨front, List.append_inj_left' htext rfl⟩

theorem readLine_append_return (number : Nat) (line : Bytes) :
    readLine number (line ++ [carriageReturn]) = readLine number line := by
  rw [readLine, readLine, decodeText?_append_return]
  cases decodeText? line with
  | none => rfl
  | some text => simp only [Option.map_some, Record.ofLine_append_return]

/-! ### Listings -/

/-- Lines that say the same one by one hold the same together. -/
private theorem mapM_readLine_congr {ls ls' : List Bytes}
    (h : List.Forall₂ (fun line' line => ∀ number, readLine number line' = readLine number line) ls' ls)
    (first : Nat) :
    ((ls'.zipIdx first).mapM fun (line, number) => readLine number line) =
      (ls.zipIdx first).mapM fun (line, number) => readLine number line := by
  induction h generalizing first with
  | nil => rfl
  | cons hline _ ih =>
    simp only [List.zipIdx_cons, List.mapM_cons, hline, ih]

private theorem entries_withReturns (bytes : Bytes) : entries (withReturns bytes) = entries bytes := by
  obtain ⟨ls', hls', hsame⟩ := (linesOf_lines bytes).withReturns
  rw [entries, entries, numbered, numbered, ← linesOf_iff.1 hls']
  apply mapM_readLine_congr
  refine hsame.imp ?_
  rintro line' line (rfl | rfl) number
  · rfl
  · exact readLine_append_return number line

end Listing

/-- Of a listing, only its table or error has an influence on the layout and the image. -/
private theorem AssembleArguments.result_plan_congr (a : AssembleArguments) {listing listing' : Bytes}
    (h : Listing.table listing' = Listing.table listing) (text rodata : Except ReadFailure Bytes) :
    (a.plan (.ok listing') text rodata).result = (a.plan (.ok listing) text rodata).result := by
  have hlayout : (a.readLayout (.ok listing')).result = (a.readLayout (.ok listing)).result := by
    simp only [readLayout, Logged.result_bind, Logged.result_ofResult, Logged.result_emit]
    show (Listing.table listing').mapError _ >>= _ = (Listing.table listing).mapError _ >>= _
    rw [h]
  simp only [plan, Logged.result_bind, Logged.result_during, hlayout]

/-- A listing gives the same table, or the same error at the same line, when a carriage return is put in front
of every line feed, and so the same layout and image. -/
theorem Listing.table_withReturns (bytes : Bytes) :
    table (withReturns bytes) = table bytes ∧
      ∀ (a : AssembleArguments) (text rodata : Except ReadFailure Bytes),
        (a.plan (.ok (withReturns bytes)) text rodata).result = (a.plan (.ok bytes) text rodata).result := by
  have htable : table (withReturns bytes) = table bytes := by
    rw [table, table, records, records, entries_withReturns]
  exact ⟨htable, fun a text rodata => a.result_plan_congr htable text rodata⟩

/-- The line with the malformed address keeps its number. -/
example : Listing.records (withReturns (encodeText "100 T main\r\n\nzz A end".toList)) =
    .error (.badAddress 3 ⟨"zz", .invalidDigit⟩) := rfl

end BootImage
