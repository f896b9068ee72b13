import Mathlib
import BootImage.Datum

/-!
# Reading data off a stream

* (fields) A reader takes a fixed number of bytes and gives the value that is written as these bytes, or uses
  up a stream with fewer bytes: `Reader.Takes`.  This holds of one field, and of two readers one after the
  other if it holds of both (`Reader.Takes.bind`), so it holds of data of every shape: `Shape.takes_reader`.
* (data) So what a datum is written as is read as this datum (`Shape.read_encode`), and nothing else is
  (`Shape.read_of_le`, `Shape.read_of_lt`).
* (lists) However many data are read and whether they are there or not, as many bytes are gone as they would
  take: `leftBy_eq`.  `readAll_reads` puts this together.
-/

namespace BootImage

def totalSize (shapes : List Shape) : Nat := (shapes.map Shape.size).sum

def leftBy (shapes : List Shape) (stream : Bytes) : Bytes :=
  ((readAll shapes stream).map Prod.snd).getLastD stream

/-! ### Fields -/

namespace Reader

variable {α β : Type} {m n : Nat}

/-- The reader takes so many bytes and gives a value that is written as these bytes; a stream with fewer bytes
is used up. -/
structure Takes (r : Reader α) (size : Nat) (Written : α → Bytes → Prop) : Prop where
  full : ∀ taken rest, taken.length = size → ∃ a, r (taken ++ rest) = .ok a rest ∧ Written a taken
  short : ∀ stream, stream.length < size → r stream = .error .streamEnded []

private theorem bind_of_ok {r : Reader α} {f : α → Reader β} {a : α} {stream rest : Bytes}
    (h : r stream = .ok a rest) :
    (r >>= f) stream = f a rest := by
  show EStateM.bind r f stream = f a rest
  rw [EStateM.bind, h]

private theorem bind_of_error {r : Reader α} {f : α → Reader β} {e : TransferError} {stream rest : Bytes}
    (h : r stream = .error e rest) : (r >>= f) stream = .error e rest := by
  show EStateM.bind r f stream = .error e rest
  rw [EStateM.bind, h]

private theorem takes_pure {a : α} {Written : α → Bytes → Prop} (h : Written a []) :
    Takes (pure a) 0 Written where
  full taken rest htaken := by
    rw [List.length_eq_zero_iff.1 htaken]
    exact ⟨a, rfl, h⟩
  short _ hshort := absurd hshort (Nat.not_lt_zero _)

/-- A reader goes on where the reader in front of it has stopped. -/
theorem Takes.bind {r : Reader α} {f : α → Reader β} {Written₁ : α → Bytes → Prop}
    {Written : β → Bytes → Prop} (hr : r.Takes m Written₁)
    (hf : ∀ a taken₁, Written₁ a taken₁ → (f a).Takes n fun b taken₂ => Written b (taken₁ ++ taken₂)) :
    (r >>= f).Takes (m + n) Written where
  full taken rest htaken := by
    have hsplit : taken ++ rest = taken.take m ++ (taken.drop m ++ rest) := by
      rw [← List.append_assoc, List.take_append_drop]
    obtain ⟨a, ha, hwritten₁⟩ := hr.full (taken.take m) (taken.drop m ++ rest) (by simp; omega)
    obtain ⟨b, hb, hwritten⟩ := (hf a _ hwritten₁).full (taken.drop m) rest (by simp; omega)
    rw [List.take_append_drop] at hwritten
    rw [hsplit, bind_of_ok ha]
    exact ⟨b, hb, hwritten⟩
  short stream hshort := by
    -- the stream ends in the first reader, or in what comes behind it
    rcases Nat.lt_or_ge stream.length m with hlt | hge
    · exact bind_of_error (hr.short stream hlt)
    · obtain ⟨a, ha, hwritten₁⟩ := hr.full (stream.take m) (stream.drop m) (by simp; omega)
      rw [List.take_append_drop] at ha
      rw [bind_of_ok ha]
      exact (hf a _ hwritten₁).short _ (by simp; omega)

theorem Takes.map {r : Reader α} {g : α → β} {Written : α → Bytes → Prop} {Written' : β → Bytes → Prop}
    (hr : r.Takes n Written) (hg : ∀ a taken, Written a taken → Written' (g a) taken) :
    (g <$> r).Takes n Written' := by
  rw [map_eq_pure_bind]
  refine hr.bind (n := 0) fun a taken hwritten => takes_pure ?_
  rw [List.append_nil]
  exact hg a taken hwritten

private theorem takes_byte : byte.Takes 1 fun b taken => [b] = taken where
  full taken rest htaken := by
    obtain ⟨b, rfl⟩ := List.length_eq_one_iff.1 htaken
    exact ⟨b, rfl, rfl⟩
  short stream hshort := by
    rw [List.length_eq_zero_iff.1 (Nat.lt_one_iff.1 hshort)]
    rfl

private theorem takes_pair : pair.Takes 2 fun p taken => [p.1, p.2] = taken where
  full taken rest htaken := by
    obtain ⟨b₀, b₁, rfl⟩ := List.length_eq_two.1 htaken
    exact ⟨(b₀, b₁), rfl, rfl⟩
  short stream hshort := by
    match stream, hshort with
    | [], _ => rfl
    | [_], _ => rfl

private theorem takes_word : word.Takes 4 fun w taken => wordBytes w = taken where
  full taken rest htaken := by
    match taken, htaken with
    | [b₀, b₁, b₂, b₃], _ => exact ⟨BootImage.word b₀ b₁ b₂ b₃, rfl, wordBytes_word b₀ b₁ b₂ b₃⟩
  short stream hshort := by
    match stream, hshort with
    | [], _ => rfl
    | [_], _ => rfl
    | [_, _], _ => rfl
    | [_, _, _], _ => rfl

private theorem takes_block (size : Nat) :
    (block size).Takes size fun bytes taken => bytes.length = size ∧ bytes = taken where
  full taken rest htaken := by
    refine ⟨taken, ?_, htaken, rfl⟩
    rw [block, if_pos (by simp [htaken]), List.take_left' htaken, List.drop_left' htaken]
  short stream hshort := by rw [block, if_neg (Nat.not_le.2 hshort)]

private theorem takes_imageHeader : imageHeader.Takes Header.size fun h taken => h.encode = taken := by
  -- one number for each field, and none for the value put together
  show imageHeader.Takes (1 + (1 + (2 + (4 + 0)))) _
  refine takes_byte.bind fun magic _ hmagic => takes_byte.bind fun format _ hformat => takes_pair.bind
    fun reserved _ hreserved => takes_word.bind fun entry _ hentry => takes_pure ?_
  rw [← hmagic, ← hformat, ← hreserved, ← hentry, List.append_nil]
  rfl

private theorem takes_segmentHeader :
    segmentHeader.Takes SegmentHeader.size fun h taken => h.encode = taken := by
  show segmentHeader.Takes (4 + (4 + 0)) _
  refine takes_word.bind fun loadAddress _ haddress => takes_word.bind fun length _ hlength => takes_pure ?_
  rw [← haddress, ← hlength, List.append_nil]
  rfl

end Reader

/-! ### Data -/

private theorem wordBytes_injective : Function.Injective wordBytes := by
  intro v w h
  simp only [wordBytes, List.cons.injEq, and_true] at h
  obtain ⟨h₀, h₁, h₂, h₃⟩ := h
  rw [← word_wordBytes v, h₀, h₁, h₂, h₃, word_wordBytes]

private theorem Header.encode_injective : Function.Injective encode := by
  intro h h' heq
  have hdecode := decode?_encode h []
  rw [heq, decode?_encode] at hdecode
  simpa using hdecode.symm

private theorem SegmentHeader.encode_injective : Function.Injective encode := by
  intro h h' heq
  have hdecode := decode?_encode h []
  rw [heq, decode?_encode] at hdecode
  simpa using hdecode.symm

namespace Datum

/-- Data of one shape are told apart by what they are written as. -/
private theorem eq_of_encode_eq {d d' : Datum} (hshape : d'.shape = d.shape) (h : d'.encode = d.encode) :
    d' = d := by
  cases d with
  | byte b =>
    cases d' <;> cases hshape
    exact congrArg byte (List.head_eq_of_cons_eq h)
  | word w =>
    cases d' <;> cases hshape
    exact congrArg word (wordBytes_injective h)
  | block bytes =>
    cases d' with
    | block bytes' => exact congrArg block h
    | _ => cases hshape
  | imageHeader header =>
    cases d' <;> cases hshape
    exact congrArg imageHeader (Header.encode_injective h)
  | segmentHeader header =>
    cases d' <;> cases hshape
    exact congrArg segmentHeader (SegmentHeader.encode_injective h)

end Datum

namespace Shape

theorem takes_reader (shape : Shape) :
    shape.reader.Takes shape.size fun d taken => d.shape = shape ∧ d.encode = taken := by
  cases shape with
  | byte => exact Reader.takes_byte.map fun b taken hb => ⟨rfl, hb⟩
  | word => exact Reader.takes_word.map fun w taken hw => ⟨rfl, hw⟩
  | block size =>
    refine (Reader.takes_block size).map ?_
    rintro bytes _ ⟨rfl, rfl⟩
    exact ⟨rfl, rfl⟩
  | imageHeader => exact Reader.takes_imageHeader.map fun h taken hh => ⟨rfl, hh⟩
  | segmentHeader => exact Reader.takes_segmentHeader.map fun h taken hh => ⟨rfl, hh⟩

theorem read_of_le {shape : Shape} {stream : Bytes} (h : shape.size ≤ stream.length) :
    ∃ d : Datum, shape.read stream = (.ok d, stream.drop shape.size) ∧ d.shape = shape ∧
      d.encode ++ stream.drop shape.size = stream := by
  obtain ⟨d, hd, hshape, hencode⟩ :=
    shape.takes_reader.full (stream.take shape.size) (stream.drop shape.size) (List.length_take_of_le h)
  rw [List.take_append_drop] at hd
  refine ⟨d, by rw [read, hd], hshape, ?_⟩
  rw [hencode, List.take_append_drop]

theorem read_of_lt {shape : Shape} {stream : Bytes} (h : stream.length < shape.size) :
    shape.read stream = (.error .streamEnded, []) := by
  rw [read, shape.takes_reader.short stream h]

/-- What a datum is written as is read as this datum. -/
theorem read_encode (d : Datum) (rest : Bytes) : d.shape.read (d.encode ++ rest) = (.ok d, rest) := by
  obtain ⟨d', hd', hshape, hencode⟩ := d.shape.takes_reader.full d.encode rest d.length_encode
  obtain rfl := Datum.eq_of_encode_eq hshape hencode
  rw [read, hd']

/-- A read takes as many bytes as the datum would have, if there are so many. -/
private theorem snd_read (shape : Shape) (stream : Bytes) :
    (shape.read stream).2 = stream.drop shape.size := by
  rcases Nat.lt_or_ge stream.length shape.size with hlt | hge
  · rw [read_of_lt hlt, List.drop_eq_nil_of_le hlt.le]
  · obtain ⟨d, hd, -⟩ := read_of_le hge
    rw [hd]

end Shape

/-! ### Lists -/

private theorem totalSize_cons (shape : Shape) (shapes : List Shape) :
    totalSize (shape :: shapes) = shape.size + totalSize shapes := by
  rw [totalSize, List.map_cons, List.sum_cons, totalSize]

private theorem leftBy_cons (shape : Shape) (shapes : List Shape) (stream : Bytes) :
    leftBy (shape :: shapes) stream = leftBy shapes (shape.read stream).2 := by
  rw [leftBy, readAll, List.map_cons, List.getLastD_cons, leftBy]

/-- What is read or not there is gone either way. -/
theorem leftBy_eq (shapes : List Shape) (stream : Bytes) :
    leftBy shapes stream = stream.drop (totalSize shapes) := by
  induction shapes generalizing stream with
  | nil => rfl
  | cons shape shapes ih => rw [leftBy_cons, ih, Shape.snd_read, List.drop_drop, totalSize_cons]

/-- The read behind others goes on with what they have left. -/
private theorem getElem?_readAll (before : List Shape) (shape : Shape) (after : List Shape) (stream : Bytes) :
    (readAll (before ++ shape :: after) stream)[before.length]? =
      some (shape.read (leftBy before stream)) := by
  induction before generalizing stream with
  | nil => rfl
  | cons first before ih =>
    rw [List.cons_append, readAll, List.length_cons, List.getElem?_cons_succ, ih, leftBy_cons]

private theorem readAll_encode (data : List Datum) (rest : Bytes) :
    (readAll (data.map Datum.shape) (data.flatMap Datum.encode ++ rest)).map Prod.fst = data.map .ok ∧
      leftBy (data.map Datum.shape) (data.flatMap Datum.encode ++ rest) = rest := by
  induction data with
  | nil => exact ⟨rfl, rfl⟩
  | cons d data ih =>
    obtain ⟨hvalues, hleft⟩ := ih
    rw [List.map_cons, List.flatMap_cons, List.append_assoc]
    constructor
    · rw [readAll, Shape.read_encode, List.map_cons, hvalues, List.map_cons]
    · rw [leftBy_cons, Shape.read_encode, hleft]

/-- Data are read back from the bytes that they are written as, and what stands behind them is left.
Conversely, a read whose datum is there gives the datum that the bytes taken are written as; from the first on
that is not there, the stream is used up, and only data of no bytes are read. -/
theorem readAll_reads :
    (∀ (data : List Datum) (rest : Bytes),
      (readAll (data.map Datum.shape) (data.flatMap Datum.encode ++ rest)).map Prod.fst = data.map .ok ∧
        leftBy (data.map Datum.shape) (data.flatMap Datum.encode ++ rest) = rest) ∧
    (∀ d : Datum, d.encode.length = d.size) ∧
    ∀ (before : List Shape) (shape : Shape) (after : List Shape) (stream : Bytes), ∃ answer left,
      (readAll (before ++ shape :: after) stream)[before.length]? = some (answer, left) ∧
        (totalSize before + shape.size ≤ stream.length → ∃ d : Datum, answer = .ok d ∧ d.shape = shape ∧
          leftBy before stream = d.encode ++ left ∧ left = stream.drop (totalSize before + shape.size)) ∧
        (stream.length < totalSize before + shape.size → left = [] ∧
          (shape.size ≠ 0 → answer = .error .streamEnded) ∧
          (shape.size = 0 → ∃ d : Datum, answer = .ok d ∧ d.shape = shape)) := by
  refine ⟨readAll_encode, Datum.length_encode, ?_⟩
  intro before shape after stream
  refine ⟨(shape.read (leftBy before stream)).1, (shape.read (leftBy before stream)).2,
    getElem?_readAll before shape after stream, ?_, ?_⟩
  · intro hfits
    have hthere : shape.size ≤ (leftBy before stream).length := by
      rw [leftBy_eq, List.length_drop]
      omega
    obtain ⟨d, hd, hshape, hencode⟩ := Shape.read_of_le hthere
    rw [hd]
    refine ⟨d, rfl, hshape, hencode.symm, ?_⟩
    rw [leftBy_eq, List.drop_drop]
  · intro hshort
    refine ⟨?_, ?_, ?_⟩
    · rw [Shape.snd_read, leftBy_eq, List.drop_drop, List.drop_eq_nil_of_le hshort.le]
    · intro hsize
      have hmissing : (leftBy before stream).length < shape.size := by
        rw [leftBy_eq, List.length_drop]
        omega
      rw [Shape.read_of_lt hmissing]
    -- no bytes are there even on a stream that has ended
    · intro hsize
      have hthere : shape.size ≤ (leftBy before stream).length := by omega
      obtain ⟨d, hd, hshape, -⟩ := Shape.read_of_le hthere
      exact ⟨d, by rw [hd], hshape⟩

/-- A header that is not there in full, with data of no bytes and of some bytes behind it. -/
theorem readAll_reads_short :
    let shapes : List Shape := [.byte, .segmentHeader, .block 0, .word]
    let stream : Bytes := [1, 2, 3, 4, 5]
    (∃ d left, (readAll shapes stream)[0]? = some (.ok d, left) ∧ d.shape = .byte ∧
        stream = d.encode ++ left) ∧
      (readAll shapes stream)[1]? = some (.error .streamEnded, []) ∧
      (∃ d, (readAll shapes stream)[2]? = some (.ok d, []) ∧ d.shape = .block 0) ∧
      (readAll shapes stream)[3]? = some (.error .streamEnded, []) := by
  intro shapes stream
  obtain ⟨-, -, hread⟩ := readAll_reads
  refine ⟨?_, ?_, ?_, ?_⟩
  · obtain ⟨_, left, hplace, hfits, -⟩ := hread [] .byte [.segmentHeader, .block 0, .word] stream
    obtain ⟨d, rfl, hshape, hencode, -⟩ := hfits (by decide)
    exact ⟨d, left, hplace, hshape, hencode⟩
  · obtain ⟨_, _, hplace, -, hshort⟩ := hread [.byte] .segmentHeader [.block 0, .word] stream
    obtain ⟨rfl, hfails, -⟩ := hshort (by decide)
    rw [← hfails (by decide)]
    exact hplace
  · obtain ⟨_, _, hplace, -, hshort⟩ := hread [.byte, .segmentHeader] (.block 0) [.word] stream
    obtain ⟨rfl, -, hempty⟩ := hshort (by decide)
    obtain ⟨d, rfl, hshape⟩ := hempty rfl
    exact ⟨d, hplace, hshape⟩
  · obtain ⟨_, _, hplace, -, hshort⟩ := hread [.byte, .segmentHeader, .block 0] .word [] stream
    obtain ⟨rfl, hfails, -⟩ := hshort (by decide)
    rw [← hfails (by decide)]
    exact hplace

end BootImage
