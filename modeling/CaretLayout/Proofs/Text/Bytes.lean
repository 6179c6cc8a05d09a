import CaretLayout.Proofs.Text.Occurrence
import CaretLayout.Proofs.Text.Utf8
import Mathlib.Data.Nat.Find

/-!
# Markers among the bytes of a text

A marker can be searched for among the characters of a text or among the bytes that the text is
stored as.  A character stands at an offset in bytes, which is the length of what stands before it.
These offsets are the boundaries at which bytes can be cut (`isBoundary_encode_iff`), since the byte
that opens a character continues none.  So the bytes of a marker stand just where the marker does and
never across two characters (`standsAt_encode_iff`), and all searches come to the same results
(`contains_encode`, `occurrences_encode`, `lastIndex?_encode`, `isAfter_lastIndex?_encode`).

A column is turned into an offset by walking over the characters (`starts`).  The cut at this offset
is at a boundary and leaves the characters before the column (`upTo?_encode`).
-/

namespace CaretLayout.Text.Utf8

variable {m text : List Char}

/-! ### The bytes of a text -/

theorem byteLength_cons (c : Char) (text : List Char) :
    byteLength (c :: text) = c.utf8Size + byteLength text := rfl

theorem length_encode : ∀ text : List Char, (encode text).length = byteLength text
  | [] => rfl
  | c :: text => by
    rw [encode_cons, List.length_append, String.length_utf8EncodeChar, length_encode text,
      byteLength_cons]

theorem byteLength_append (front rest : List Char) :
    byteLength (front ++ rest) = byteLength front + byteLength rest := by
  rw [← length_encode, encode_append, List.length_append, length_encode, length_encode]

theorem encode_inj {a b : List Char} : encode a = encode b ↔ a = b := by
  refine ⟨fun h => ?_, congrArg encode⟩
  rw [← decodeLossy_encode a, h, decodeLossy_encode]

/-- The bytes of a marker begin with one that opens a character. -/
theorem exists_encode_eq_cons (hm : m ≠ []) :
    ∃ b more, encode m = b :: more ∧ b.IsUTF8FirstByte := by
  obtain ⟨c, rest, rfl⟩ := List.exists_cons_of_ne_nil hm
  have hpos : 0 < (String.utf8EncodeChar c).length :=
    List.length_pos_iff.mpr String.utf8EncodeChar_ne_nil
  have hfirst : (String.utf8EncodeChar c)[0].IsUTF8FirstByte :=
    UInt8.isUTF8FirstByte_getElem_utf8EncodeChar.mpr rfl
  obtain ⟨b, more, hc⟩ := List.exists_cons_of_length_pos hpos
  simp only [hc, List.getElem_cons_zero] at hfirst
  exact ⟨b, more ++ encode rest, by rw [encode_cons, hc, List.cons_append], hfirst⟩

theorem encode_ne_nil (hm : m ≠ []) : encode m ≠ [] := by
  obtain ⟨b, more, h, -⟩ := exists_encode_eq_cons hm
  rw [h]
  exact List.cons_ne_nil b more

theorem isEmpty_encode (m : List Char) : (encode m).isEmpty = m.isEmpty := by
  rcases m with _ | ⟨c, m⟩
  · rfl
  · rw [List.isEmpty_cons, List.isEmpty_eq_false_iff]
    exact encode_ne_nil (List.cons_ne_nil c m)

theorem items_encode_append : ∀ (text : List Char) (bytes : List UInt8),
    items (encode text ++ bytes) = text.map some ++ items bytes
  | [], bytes => rfl
  | c :: text, bytes => by
    rw [encode_cons, List.append_assoc, items, itemsFrom_encodeChar, List.map_cons,
      List.cons_append, ← items_encode_append text bytes]
    rfl

/-- Read from its start, a text begins with a marker exactly when its bytes do. -/
theorem encode_prefix_iff : encode m <+: encode text ↔ m <+: text := by
  constructor
  · rintro ⟨bytes, h⟩
    have hitems := items_encode_append m bytes
    rw [h, items_encode, List.map_eq_append_iff] at hitems
    obtain ⟨front, rest, rfl, hfront, -⟩ := hitems
    rw [(List.map_inj_right fun _ _ => Option.some.inj).mp hfront]
    exact List.prefix_append m rest
  · rintro ⟨rest, rfl⟩
    rw [encode_append]
    exact List.prefix_append (encode m) (encode rest)

/-! ### Offsets and boundaries -/

/-- Whether bytes can be cut at an offset: a character opens there, or the bytes end. -/
def isBoundary (bytes : List UInt8) (i : Nat) : Bool :=
  match bytes[i]? with
  | some b => decide b.IsUTF8FirstByte
  | none => i == bytes.length

theorem encode_take_append_drop (text : List Char) (k : Nat) :
    encode (text.take k) ++ encode (text.drop k) = encode text := by
  rw [← encode_append, List.take_append_drop]

theorem take_encode (text : List Char) (k : Nat) :
    (encode text).take (byteLength (text.take k)) = encode (text.take k) := by
  rw [← encode_take_append_drop text k, List.take_left' (length_encode _)]

theorem drop_encode (text : List Char) (k : Nat) :
    (encode text).drop (byteLength (text.take k)) = encode (text.drop k) := by
  rw [← encode_take_append_drop text k, List.drop_left' (length_encode _)]

theorem byteLength_take_le {j k : Nat} (hjk : j ≤ k) :
    byteLength (text.take j) ≤ byteLength (text.take k) := by
  rw [← length_encode, ← length_encode]
  exact (encode_prefix_iff.mpr (List.take_prefix_take_left hjk)).length_le

/-- A later character has a greater offset. -/
theorem byteLength_take_lt_iff {j k : Nat} (hk : k ≤ text.length) :
    byteLength (text.take j) < byteLength (text.take k) ↔ j < k := by
  constructor
  · intro h
    exact Nat.lt_of_not_le fun hkj => Nat.not_lt.mpr (byteLength_take_le hkj) h
  · intro h
    have hj : j < text.length := Nat.lt_of_lt_of_le h hk
    have hpos := text[j].utf8Size_pos
    have hnext : byteLength (text.take (j + 1)) = byteLength (text.take j) + text[j].utf8Size := by
      rw [List.take_succ_eq_append_getElem hj, byteLength_append, byteLength_cons]
      rfl
    have hle : byteLength (text.take (j + 1)) ≤ byteLength (text.take k) := byteLength_take_le h
    omega

/-- The offset of a character is a boundary, as is the end. -/
theorem isBoundary_byteLength_take (text : List Char) (k : Nat) :
    isBoundary (encode text) (byteLength (text.take k)) = true := by
  have hget : (encode text)[byteLength (text.take k)]? = (encode (text.drop k))[0]? := by
    rw [← drop_encode, List.getElem?_drop, Nat.add_zero]
  rw [isBoundary, hget]
  by_cases hend : text.drop k = []
  · rw [hend, length_encode, List.take_of_length_le (List.drop_eq_nil_iff.mp hend)]
    exact beq_self_eq_true _
  · obtain ⟨b, more, hb, hfirst⟩ := exists_encode_eq_cons hend
    rw [hb]
    exact decide_eq_true hfirst

theorem isBoundary_append (front rest : List UInt8) (i : Nat) :
    isBoundary (front ++ rest) (front.length + i) = isBoundary rest i := by
  rw [isBoundary, isBoundary, List.getElem?_append_right (Nat.le_add_right _ i),
    Nat.add_sub_cancel_left, List.length_append]
  rcases rest[i]? with _ | b
  · rw [Bool.eq_iff_iff, beq_iff_eq, beq_iff_eq, Nat.add_left_cancel_iff]
  · rfl

/-- Between the bytes of a character there is no boundary. -/
theorem exists_of_isBoundary : ∀ {text : List Char} {i : Nat},
    isBoundary (encode text) i = true → ∃ k ≤ text.length, i = byteLength (text.take k)
  | [], i, h => ⟨0, Nat.le_refl 0, eq_of_beq h⟩
  | c :: text, i, h => by
    rw [encode_cons] at h
    rcases Nat.lt_or_ge i (String.utf8EncodeChar c).length with hi | hi
    · rw [isBoundary, List.getElem?_append_left hi, List.getElem?_eq_getElem hi] at h
      have hzero := UInt8.isUTF8FirstByte_getElem_utf8EncodeChar.mp (of_decide_eq_true h)
      exact ⟨0, Nat.zero_le _, hzero⟩
    · obtain ⟨j, rfl⟩ := Nat.exists_eq_add_of_le hi
      rw [isBoundary_append] at h
      obtain ⟨k, hk, rfl⟩ := exists_of_isBoundary h
      refine ⟨k + 1, Nat.succ_le_succ hk, ?_⟩
      rw [List.take_succ_cons, byteLength_cons, String.length_utf8EncodeChar]

/-- **Boundaries** are the offsets of the characters, and the end. -/
theorem isBoundary_encode_iff {i : Nat} : isBoundary (encode text) i = true ↔
    ∃ k ≤ text.length, i = byteLength (text.take k) :=
  ⟨exists_of_isBoundary, fun ⟨k, _, hi⟩ => hi ▸ isBoundary_byteLength_take text k⟩

/-! ### Searches -/

/-- **Bytes of a marker** stand where the marker stands, at the offset of its first character. -/
theorem standsAt_encode_iff (hm : m ≠ []) {i : Nat} : StandsAt (encode m) (encode text) i ↔
    ∃ k, i = byteLength (text.take k) ∧ StandsAt m text k := by
  constructor
  · intro h
    obtain ⟨b, more, hmarker, hfirst⟩ := exists_encode_eq_cons hm
    obtain ⟨rest, hrest⟩ := h
    -- the byte at the offset opens the marker, so it opens a character of the text
    have hget : (encode text)[i]? = some b := by
      rw [← Nat.add_zero i, ← List.getElem?_drop, ← hrest, hmarker]
      rfl
    have hboundary : isBoundary (encode text) i = true := by
      rw [isBoundary, hget]
      exact decide_eq_true hfirst
    obtain ⟨k, -, rfl⟩ := isBoundary_encode_iff.mp hboundary
    refine ⟨k, rfl, encode_prefix_iff.mp ?_⟩
    rw [← drop_encode]
    exact ⟨rest, hrest⟩
  · rintro ⟨k, rfl, h⟩
    rw [StandsAt, drop_encode, encode_prefix_iff]
    exact h

theorem contains_encode (hm : m ≠ []) (text : List Char) :
    contains (encode m) (encode text) = contains m text := by
  rw [Bool.eq_iff_iff, contains_iff_infix, contains_iff_infix, infix_iff_exists_standsAt,
    infix_iff_exists_standsAt]
  constructor
  · rintro ⟨i, hi⟩
    obtain ⟨k, -, hk⟩ := (standsAt_encode_iff hm).mp hi
    exact ⟨k, hk⟩
  · rintro ⟨k, hk⟩
    exact ⟨_, (standsAt_encode_iff hm).mpr ⟨k, rfl, hk⟩⟩

/-- The last occurrence among the bytes is at the offset of the last one among the characters. -/
theorem lastIndex?_encode (hm : m ≠ []) (text : List Char) :
    lastIndex? (encode m) (encode text) =
      (lastIndex? m text).map fun k => byteLength (text.take k) := by
  rcases hl : lastIndex? m text with _ | k
  · rw [Option.map_none, lastIndex?_eq_none_iff (encode_ne_nil hm)]
    intro i hi
    obtain ⟨k, -, hk⟩ := (standsAt_encode_iff hm).mp hi
    exact (lastIndex?_eq_none_iff hm).mp hl k hk
  · obtain ⟨hk, hmax⟩ := (lastIndex?_eq_some_iff hm).mp hl
    rw [Option.map_some, lastIndex?_eq_some_iff (encode_ne_nil hm)]
    refine ⟨(standsAt_encode_iff hm).mpr ⟨k, rfl, hk⟩, fun i hi => ?_⟩
    obtain ⟨j, rfl, hj⟩ := (standsAt_encode_iff hm).mp hi
    exact byteLength_take_le (hmax j hj)

/-- The last occurrences of two markers compare in bytes as they do in characters. -/
theorem isAfter_lastIndex?_encode {a b : List Char} (ha : a ≠ []) (hb : b ≠ [])
    (text : List Char) :
    isAfter (lastIndex? (encode a) (encode text)) (lastIndex? (encode b) (encode text)) =
      isAfter (lastIndex? a text) (lastIndex? b text) := by
  rw [lastIndex?_encode ha, lastIndex?_encode hb]
  rcases hla : lastIndex? a text with _ | i
  · rw [Option.map_none, isAfter_none_left, isAfter_none_left]
  · rcases hlb : lastIndex? b text with _ | j
    · rfl
    · have hi := ((lastIndex?_eq_some_iff ha).mp hla).1.le_length ha
      simp only [Option.map_some, isAfter_some]
      rw [decide_eq_decide, byteLength_take_lt_iff (by omega)]

/-- The bytes behind an occurrence are those of the text behind it. -/
theorem drop_encode_of_standsAt {k : Nat} (h : StandsAt m text k) :
    (encode text).drop (byteLength (text.take k) + (encode m).length) =
      encode (text.drop (k + m.length)) := by
  have hlength : (encode m).length = byteLength ((text.drop k).take m.length) := by
    rw [← List.prefix_iff_eq_take.mp h, length_encode]
  rw [← List.drop_drop, drop_encode, hlength, drop_encode, List.drop_drop]

/-- The count takes the same first occurrence in the bytes, and goes on behind it in both. -/
theorem occurrences_encode (hm : m ≠ []) (text : List Char) :
    occurrences (encode m) (encode text) = occurrences m text := by
  by_cases hex : ∃ k, StandsAt m text k
  · obtain ⟨k, hk, hfirst⟩ : ∃ k, StandsAt m text k ∧ ∀ j, StandsAt m text j → k ≤ j :=
      ⟨Nat.find hex, Nat.find_spec hex, fun j hj => Nat.find_min' hex hj⟩
    have hbytes : StandsAt (encode m) (encode text) (byteLength (text.take k)) :=
      (standsAt_encode_iff hm).mpr ⟨k, rfl, hk⟩
    have hbytesFirst : ∀ i, StandsAt (encode m) (encode text) i →
        byteLength (text.take k) ≤ i := by
      intro i hi
      obtain ⟨j, rfl, hj⟩ := (standsAt_encode_iff hm).mp hi
      exact byteLength_take_le (hfirst j hj)
    have hshorter : text.length - (k + m.length) < text.length := by
      have hle := hk.le_length hm
      have hpos := List.length_pos_iff.mpr hm
      omega
    rw [occurrences_of_first hm hk hfirst,
      occurrences_of_first (encode_ne_nil hm) hbytes hbytesFirst, drop_encode_of_standsAt hk,
      occurrences_encode hm (text.drop (k + m.length))]
  · have hno : ∀ k, ¬ StandsAt m text k := not_exists.mp hex
    rw [occurrences_of_none hno, occurrences_of_none]
    intro i hi
    obtain ⟨k, -, hk⟩ := (standsAt_encode_iff hm).mp hi
    exact hno k hk
termination_by text.length

/-! ### Columns -/

/-- The number of bytes of a character, read off the byte that opens it. -/
def width (b : UInt8) : Nat :=
  if b.toNat < 0x80 then 1
  else if b.toNat < 0xE0 then 2
  else if b.toNat < 0xF0 then 3
  else 4

/-- The offsets of the characters among bytes that begin at `offset`, of which the first `owed`
belong to a character that has been passed. -/
def startsFrom : Nat → Nat → List UInt8 → List Nat
  | _, _, [] => []
  | offset, owed + 1, _ :: rest => startsFrom (offset + 1) owed rest
  | offset, 0, b :: rest => offset :: startsFrom (offset + 1) (width b - 1) rest

/-- The offsets of the characters, in order. -/
def starts (bytes : List UInt8) : List Nat :=
  startsFrom 0 0 bytes

/-- The bytes before an offset, if they can be cut there. -/
def cut? (bytes : List UInt8) (i : Nat) : Option (List UInt8) :=
  if isBoundary bytes i then some (bytes.take i) else none

/-- The bytes before the character of a column, or all bytes if there is no such character. -/
def upTo? (bytes : List UInt8) (column : Nat) : Option (List UInt8) :=
  match (starts bytes)[column]? with
  | some i => cut? bytes i
  | none => some bytes

theorem width_of_encodeChar {c : Char} {b : UInt8} {more : List UInt8}
    (h : String.utf8EncodeChar c = b :: more) : width b = more.length + 1 := by
  have hscalar : c.toNat < 0xD800 ∨ 0xDFFF < c.toNat ∧ c.toNat < 0x110000 := c.valid
  unfold String.utf8EncodeChar at h
  rw [show c.val.toNat = c.toNat from rfl] at h
  dsimp only at h
  unfold width
  split_ifs at h with h1 h2 h3
  · obtain ⟨rfl, rfl⟩ := List.cons.inj h
    rw [toNat_ofNat_of_lt (by omega), if_pos (by omega)]
    rfl
  · obtain ⟨rfl, rfl⟩ := List.cons.inj h
    rw [toNat_ofNat_of_lt (by omega), if_neg (by omega), if_pos (by omega)]
    rfl
  · obtain ⟨rfl, rfl⟩ := List.cons.inj h
    rw [toNat_ofNat_of_lt (by omega), if_neg (by omega), if_neg (by omega), if_pos (by omega)]
    rfl
  · obtain ⟨rfl, rfl⟩ := List.cons.inj h
    rw [toNat_ofNat_of_lt (by omega), if_neg (by omega), if_neg (by omega), if_neg (by omega)]
    rfl

theorem startsFrom_length_append : ∀ (front rest : List UInt8) (offset : Nat),
    startsFrom offset front.length (front ++ rest) = startsFrom (offset + front.length) 0 rest
  | [], rest, offset => rfl
  | b :: front, rest, offset => by
    rw [List.length_cons, List.cons_append, startsFrom, startsFrom_length_append front rest,
      Nat.add_right_comm, Nat.add_assoc]

theorem startsFrom_encode_cons (c : Char) (text : List Char) (offset : Nat) :
    startsFrom offset 0 (encode (c :: text)) =
      offset :: startsFrom (offset + c.utf8Size) 0 (encode text) := by
  obtain ⟨b, more, hc⟩ := List.exists_cons_of_ne_nil (String.utf8EncodeChar_ne_nil (c := c))
  rw [encode_cons, ← String.length_utf8EncodeChar, hc, List.cons_append, startsFrom,
    width_of_encodeChar hc, Nat.add_sub_cancel, startsFrom_length_append, List.length_cons,
    Nat.add_right_comm, Nat.add_assoc]

theorem getElem?_startsFrom_encode : ∀ (text : List Char) (offset k : Nat),
    (startsFrom offset 0 (encode text))[k]? =
      if k < text.length then some (offset + byteLength (text.take k)) else none
  | [], offset, k => rfl
  | c :: text, offset, 0 => by
    rw [startsFrom_encode_cons]
    rfl
  | c :: text, offset, k + 1 => by
    rw [startsFrom_encode_cons, List.getElem?_cons_succ, getElem?_startsFrom_encode text,
      List.length_cons, List.take_succ_cons, byteLength_cons, Nat.add_assoc]
    simp only [Nat.add_lt_add_iff_right]

/-- Walking over the bytes finds the offset of each character. -/
theorem getElem?_starts_encode (text : List Char) (k : Nat) :
    (starts (encode text))[k]? =
      if k < text.length then some (byteLength (text.take k)) else none := by
  rw [starts, getElem?_startsFrom_encode, Nat.zero_add]

/-- A column is found at a boundary. -/
theorem isBoundary_of_getElem?_starts {column i : Nat}
    (h : (starts (encode text))[column]? = some i) : isBoundary (encode text) i = true := by
  rw [getElem?_starts_encode] at h
  split at h
  · rw [← Option.some.inj h]
    exact isBoundary_byteLength_take text column
  · cases h

/-- **The cut at a column** succeeds and leaves the characters before the column. -/
theorem upTo?_encode (text : List Char) (column : Nat) :
    upTo? (encode text) column = some (encode (text.take column)) := by
  rw [upTo?, getElem?_starts_encode]
  by_cases h : column < text.length
  · rw [if_pos h]
    dsimp only
    rw [cut?, isBoundary_byteLength_take, if_pos rfl, take_encode]
  · rw [if_neg h, List.take_of_length_le (Nat.not_lt.mp h)]

end CaretLayout.Text.Utf8
