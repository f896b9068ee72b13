import Mathlib
import BootImage.Datum

/-!
# Writing data into a buffer of limited room

* (fields) A field that does not fit uses up the room.  So fields that are written up to the first that does
  not fit leave the buffer as it would be had they been written as one, and the answer is the same:
  `BoundedBuffer.putFields_eq_put`.  Together the fields of a datum are its encoding (`Datum.flatten_fields`).
* (lists) The same holds of data, which are all tried: what they leave is the beginning of their encodings, as
  far as the room goes (`filledBy_eq`), and a datum is refused exactly if it is longer than the room that is
  left.  `writeAll_fills` puts this together.
-/

namespace BootImage

def filledBy (data : List Datum) (buffer : BoundedBuffer) : BoundedBuffer :=
  ((writeAll data buffer).map Prod.snd).getLastD buffer

/-! ### Fields -/

namespace BoundedBuffer

variable (buffer : BoundedBuffer)

private theorem fst_put (bytes : Bytes) :
    (buffer.put bytes).1 = if bytes.length ≤ buffer.room then .ok () else .error .bufferFull := by
  unfold put
  split <;> rfl

private theorem snd_put (bytes : Bytes) :
    (buffer.put bytes).2 = ⟨buffer.contents ++ bytes.take buffer.room, buffer.room - bytes.length⟩ := by
  unfold put
  split <;> rfl

private theorem put_nil : buffer.put [] = (.ok (), buffer) := by
  simp [put]

/-- Behind bytes that do not fit there is no room, so it does not matter whether further ones are tried. -/
private theorem snd_put_append (a b : Bytes) : (buffer.put (a ++ b)).2 = ((buffer.put a).2.put b).2 := by
  simp only [snd_put, mk.injEq, List.take_append, List.length_append, List.append_assoc, true_and]
  omega

private theorem put_of_fits {bytes : Bytes} (h : bytes.length ≤ buffer.room) :
    buffer.put bytes = (.ok (), (buffer.put bytes).2) := by
  rw [Prod.ext_iff, fst_put, if_pos h]
  exact ⟨rfl, rfl⟩

private theorem put_of_not_fits {bytes : Bytes} (h : ¬bytes.length ≤ buffer.room) :
    buffer.put bytes = (.error .bufferFull, (buffer.put bytes).2) := by
  rw [Prod.ext_iff, fst_put, if_neg h]
  exact ⟨rfl, rfl⟩

/-- Bytes that do not fit leave no room, so bytes behind them change nothing. -/
private theorem snd_put_append_of_not_fits {a : Bytes} (h : ¬a.length ≤ buffer.room) (b : Bytes) :
    (buffer.put (a ++ b)).2 = (buffer.put a).2 := by
  have hfull : (buffer.put a).2.room = 0 := by
    rw [snd_put]
    exact Nat.sub_eq_zero_of_le (Nat.le_of_not_le h)
  rw [snd_put_append, snd_put _ b, hfull, List.take_zero, List.append_nil, Nat.zero_sub]
  exact congrArg (mk _) hfull.symm

theorem putFields_eq_put (fields : List Bytes) : buffer.putFields fields = buffer.put fields.flatten := by
  induction fields generalizing buffer with
  | nil => rw [putFields, List.flatten_nil, put_nil]
  | cons field fields ih =>
    rw [putFields, List.flatten_cons]
    by_cases hfits : field.length ≤ buffer.room
    · have hroom : (buffer.put field).2.room = buffer.room - field.length := by rw [snd_put]
      rw [buffer.put_of_fits hfits]
      show (buffer.put field).2.putFields fields = _
      rw [ih, Prod.ext_iff, snd_put_append, fst_put, fst_put, hroom, List.length_append]
      refine ⟨?_, rfl⟩
      congr 1
      rw [eq_iff_iff]
      omega
    -- the other fields are not tried, and would find no room
    · have hlonger : ¬(field ++ fields.flatten).length ≤ buffer.room := by
        rw [List.length_append]
        omega
      rw [buffer.put_of_not_fits hfits, buffer.put_of_not_fits hlonger,
        buffer.snd_put_append_of_not_fits hfits]

end BoundedBuffer

/-! ### Lists -/

private theorem Datum.write_eq_put (d : Datum) (buffer : BoundedBuffer) :
    d.write buffer = buffer.put d.encode := by
  rw [Datum.write, BoundedBuffer.putFields_eq_put, Datum.flatten_fields]

private theorem filledBy_cons (d : Datum) (data : List Datum) (buffer : BoundedBuffer) :
    filledBy (d :: data) buffer = filledBy data (d.write buffer).2 := by
  rw [filledBy, writeAll, List.map_cons, List.getLastD_cons, filledBy]

/-- Data leave what their encodings leave, written as one. -/
theorem filledBy_eq (data : List Datum) (buffer : BoundedBuffer) :
    filledBy data buffer = (buffer.put (data.flatMap Datum.encode)).2 := by
  induction data generalizing buffer with
  | nil => rw [List.flatMap_nil, BoundedBuffer.put_nil, filledBy, writeAll, List.map_nil, List.getLastD_nil]
  | cons d data ih =>
    rw [filledBy_cons, ih, List.flatMap_cons, BoundedBuffer.snd_put_append, Datum.write_eq_put]

/-- The datum behind others is tried on what they have left. -/
private theorem getElem?_writeAll (before : List Datum) (d : Datum) (after : List Datum)
    (buffer : BoundedBuffer) :
    (writeAll (before ++ d :: after) buffer)[before.length]? = some (d.write (filledBy before buffer)) := by
  induction before generalizing buffer with
  | nil => rfl
  | cons first before ih =>
    rw [List.cons_append, writeAll, List.length_cons, List.getElem?_cons_succ, ih, filledBy_cons]

/-- The encodings behind one another, cut off where the room ends. -/
private theorem filledBy_empty (data : List Datum) (capacity : Nat) :
    filledBy data { room := capacity } =
      ⟨(data.flatMap Datum.encode).take capacity, capacity - (data.flatMap Datum.encode).length⟩ := by
  rw [filledBy_eq, BoundedBuffer.snd_put, List.nil_append]

private theorem filledBy_concat (data : List Datum) (d : Datum) (buffer : BoundedBuffer) :
    filledBy (data ++ [d]) buffer = (d.write (filledBy data buffer)).2 := by
  rw [filledBy_eq, filledBy_eq, List.flatMap_append, List.flatMap_singleton, BoundedBuffer.snd_put_append,
    Datum.write_eq_put]

/-- However many data are tried and whether they fit or not, the buffer holds the beginning of their
encodings, as much of it as the buffer takes.  A datum is written in full exactly if its encoding is no longer
than the room that the encodings in front of it leave. -/
theorem writeAll_fills (capacity : Nat) (before : List Datum) (d : Datum) (after : List Datum) :
    d.encode.length = d.size ∧ ∃ answer buffer,
      (writeAll (before ++ d :: after) { room := capacity })[before.length]? = some (answer, buffer) ∧
      buffer.contents = ((before ++ [d]).flatMap Datum.encode).take
        (min capacity ((before ++ [d]).flatMap Datum.encode).length) ∧
      buffer.room = capacity - ((before ++ [d]).flatMap Datum.encode).length ∧
      (answer = .ok () ↔ d.size ≤ capacity - min capacity (before.flatMap Datum.encode).length) ∧
      (answer = .ok () ∨ answer = .error .bufferFull) := by
  have hroom : capacity - min capacity (before.flatMap Datum.encode).length =
      (filledBy before { room := capacity }).room := by
    rw [filledBy_empty]
    show _ = capacity - _
    omega
  have hwritten : d.write (filledBy before { room := capacity }) =
      (if d.size ≤ (filledBy before { room := capacity }).room then .ok () else .error .bufferFull,
        filledBy (before ++ [d]) { room := capacity }) := by
    rw [Prod.ext_iff, filledBy_concat, Datum.write_eq_put, BoundedBuffer.fst_put, d.length_encode]
    exact ⟨rfl, rfl⟩
  have hplace := getElem?_writeAll before d after { room := capacity }
  rw [hwritten, filledBy_empty (before ++ [d])] at hplace
  refine ⟨d.length_encode, _, _, hplace, ?_, rfl, ?_, ?_⟩
  · exact List.take_eq_take_min
  · rw [hroom]
    split
    · exact iff_of_true rfl ‹_›
    · exact iff_of_false nofun ‹_›
  · split
    · exact .inl rfl
    · exact .inr rfl

end BootImage
