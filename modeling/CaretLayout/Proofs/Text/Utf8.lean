import CaretLayout.Disk.Tree
import CaretLayout.Proofs.Text.Segment
import Mathlib.Tactic.SplitIfs

/-!
# Written text is read back

Reading the bytes of a text gives the text, strictly (`decode_encode`) and with replacement
(`decodeLossy_encode`).  It is enough to see one character: reading its bytes ends where it began,
between characters (`itemsFrom_encodeChar`).

The bytes of two texts compare as the texts do (`encode_lt_encode`).  A byte below 0x80 stands for
itself and is part of no other character, so bytes can be cut at line feeds before they are read as
text (`segments_encode_lines`).
-/

namespace CaretLayout.Text.Utf8

/-! ### One character -/

/-- A byte that may continue a character and is not its last one. -/
theorem itemsFrom_inside_succ {owed bits low high : Nat} {b : UInt8} (hlow : low ≤ b.toNat)
    (hhigh : b.toNat ≤ high) (rest : List UInt8) :
    itemsFrom (.inside (owed + 1) bits low high) (b :: rest) =
      itemsFrom (.inside owed (bits * 64 + (b.toNat - 0x80)) 0x80 0xBF) rest := by
  rw [itemsFrom, step, if_pos ⟨hlow, hhigh⟩]
  rfl

/-- The byte that completes a character. -/
theorem itemsFrom_inside_zero {bits low high : Nat} {b : UInt8} (hlow : low ≤ b.toNat)
    (hhigh : b.toNat ≤ high) (rest : List UInt8) :
    itemsFrom (.inside 0 bits low high) (b :: rest) =
      some (Char.ofNat (bits * 64 + (b.toNat - 0x80))) :: itemsFrom .start rest := by
  rw [itemsFrom, step, if_pos ⟨hlow, hhigh⟩]
  rfl

theorem itemsFrom_start_cons (b : UInt8) (rest : List UInt8) :
    itemsFrom .start (b :: rest) = (begin b.toNat).2 ++ itemsFrom (begin b.toNat).1 rest := by
  rw [itemsFrom]
  rfl

theorem toNat_ofNat_of_lt {n : Nat} (h : n < 256) : (UInt8.ofNat n).toNat = n := by
  rw [UInt8.toNat_ofNat']
  exact Nat.mod_eq_of_lt h

/-- A character of two bytes. -/
theorem itemsFrom_two {v : Nat} (hlow : 0x80 ≤ v) (hhigh : v ≤ 0x7FF) (rest : List UInt8) :
    itemsFrom .start (UInt8.ofNat (v / 64 % 32 + 192) :: UInt8.ofNat (v % 64 + 128) :: rest) =
      some (Char.ofNat v) :: itemsFrom .start rest := by
  have hlead : (UInt8.ofNat (v / 64 % 32 + 192)).toNat = v / 64 + 192 := by
    rw [toNat_ofNat_of_lt (by omega)]
    omega
  have hlast : (UInt8.ofNat (v % 64 + 128)).toNat = v % 64 + 128 := toNat_ofNat_of_lt (by omega)
  have hbegin : begin (v / 64 + 192) = (.inside 0 (v / 64) 0x80 0xBF, []) := by
    unfold begin
    rw [if_neg (by omega), if_neg (by omega), if_pos (by omega)]
    simp
  rw [itemsFrom_start_cons, hlead, hbegin, List.nil_append,
    itemsFrom_inside_zero (by omega) (by omega), hlast,
    show v / 64 * 64 + (v % 64 + 128 - 0x80) = v by omega]

/-- The bounds on the second byte of a character of three bytes let in just those that belong to
scalar values. -/
theorem begin_three {v : Nat} (hlow : 0x800 ≤ v) (hhigh : v ≤ 0xFFFF)
    (hscalar : v < 0xD800 ∨ 0xDFFF < v) :
    ∃ low high, begin (v / 4096 + 224) = (.inside 1 (v / 4096) low high, []) ∧
      low ≤ v / 64 % 64 + 128 ∧ v / 64 % 64 + 128 ≤ high := by
  unfold begin
  rw [if_neg (by omega), if_neg (by omega), if_neg (by omega)]
  by_cases h0 : v / 4096 + 224 = 0xE0
  · rw [if_pos h0]
    refine ⟨0xA0, 0xBF, ?_, by omega, by omega⟩
    rw [show v / 4096 = 0 by omega]
  · rw [if_neg h0]
    by_cases hD : v / 4096 + 224 = 0xED
    · rw [if_pos hD]
      exact ⟨0x80, 0x9F, by simp, by omega, by omega⟩
    · rw [if_neg hD, if_pos (by omega)]
      exact ⟨0x80, 0xBF, by simp, by omega, by omega⟩

/-- A character of three bytes. -/
theorem itemsFrom_three {v : Nat} (hlow : 0x800 ≤ v) (hhigh : v ≤ 0xFFFF)
    (hscalar : v < 0xD800 ∨ 0xDFFF < v) (rest : List UInt8) :
    itemsFrom .start (UInt8.ofNat (v / 4096 % 16 + 224) :: UInt8.ofNat (v / 64 % 64 + 128) ::
        UInt8.ofNat (v % 64 + 128) :: rest) =
      some (Char.ofNat v) :: itemsFrom .start rest := by
  have hlead : (UInt8.ofNat (v / 4096 % 16 + 224)).toNat = v / 4096 + 224 := by
    rw [toNat_ofNat_of_lt (by omega)]
    omega
  have hsecond : (UInt8.ofNat (v / 64 % 64 + 128)).toNat = v / 64 % 64 + 128 :=
    toNat_ofNat_of_lt (by omega)
  have hlast : (UInt8.ofNat (v % 64 + 128)).toNat = v % 64 + 128 := toNat_ofNat_of_lt (by omega)
  obtain ⟨low, high, hbegin, hl, hh⟩ := begin_three hlow hhigh hscalar
  rw [itemsFrom_start_cons, hlead, hbegin, List.nil_append,
    itemsFrom_inside_succ (by omega) (by omega), itemsFrom_inside_zero (by omega) (by omega),
    hsecond, hlast,
    show (v / 4096 * 64 + (v / 64 % 64 + 128 - 0x80)) * 64 + (v % 64 + 128 - 0x80) = v by omega]

/-- The bounds on the second byte of a character of four bytes let in just those of the values from
U+10000 to U+10FFFF. -/
theorem begin_four {v : Nat} (hlow : 0x10000 ≤ v) (hhigh : v ≤ 0x10FFFF) :
    ∃ low high, begin (v / 262144 + 240) = (.inside 2 (v / 262144) low high, []) ∧
      low ≤ v / 4096 % 64 + 128 ∧ v / 4096 % 64 + 128 ≤ high := by
  unfold begin
  rw [if_neg (by omega), if_neg (by omega), if_neg (by omega), if_neg (by omega),
    if_neg (by omega), if_neg (by omega)]
  by_cases h0 : v / 262144 + 240 = 0xF0
  · rw [if_pos h0]
    refine ⟨0x90, 0xBF, ?_, by omega, by omega⟩
    rw [show v / 262144 = 0 by omega]
  · rw [if_neg h0]
    by_cases h4 : v / 262144 + 240 < 0xF4
    · rw [if_pos h4]
      exact ⟨0x80, 0xBF, by simp, by omega, by omega⟩
    · rw [if_neg h4, if_pos (by omega)]
      exact ⟨0x80, 0x8F, by simp, by omega, by omega⟩

/-- A character of four bytes. -/
theorem itemsFrom_four {v : Nat} (hlow : 0x10000 ≤ v) (hhigh : v ≤ 0x10FFFF)
    (rest : List UInt8) :
    itemsFrom .start (UInt8.ofNat (v / 262144 % 8 + 240) :: UInt8.ofNat (v / 4096 % 64 + 128) ::
        UInt8.ofNat (v / 64 % 64 + 128) :: UInt8.ofNat (v % 64 + 128) :: rest) =
      some (Char.ofNat v) :: itemsFrom .start rest := by
  have hlead : (UInt8.ofNat (v / 262144 % 8 + 240)).toNat = v / 262144 + 240 := by
    rw [toNat_ofNat_of_lt (by omega)]
    omega
  have hsecond : (UInt8.ofNat (v / 4096 % 64 + 128)).toNat = v / 4096 % 64 + 128 :=
    toNat_ofNat_of_lt (by omega)
  have hthird : (UInt8.ofNat (v / 64 % 64 + 128)).toNat = v / 64 % 64 + 128 :=
    toNat_ofNat_of_lt (by omega)
  have hlast : (UInt8.ofNat (v % 64 + 128)).toNat = v % 64 + 128 := toNat_ofNat_of_lt (by omega)
  obtain ⟨low, high, hbegin, hl, hh⟩ := begin_four hlow hhigh
  rw [itemsFrom_start_cons, hlead, hbegin, List.nil_append,
    itemsFrom_inside_succ (by omega) (by omega), itemsFrom_inside_succ (by omega) (by omega),
    itemsFrom_inside_zero (by omega) (by omega), hsecond, hthird, hlast,
    show ((v / 262144 * 64 + (v / 4096 % 64 + 128 - 0x80)) * 64 + (v / 64 % 64 + 128 - 0x80)) * 64 +
      (v % 64 + 128 - 0x80) = v by omega]

/-- The bytes of a character give the character, and reading goes on behind them. -/
theorem itemsFrom_encodeChar (c : Char) (rest : List UInt8) :
    itemsFrom .start (String.utf8EncodeChar c ++ rest) = some c :: itemsFrom .start rest := by
  have hscalar : c.toNat < 0xD800 ∨ 0xDFFF < c.toNat ∧ c.toNat < 0x110000 := c.valid
  have hc : Char.ofNat c.toNat = c := Char.ofNat_toNat c
  unfold String.utf8EncodeChar
  rw [show c.val.toNat = c.toNat from rfl]
  dsimp only
  split_ifs with h1 h2 h3
  · have hb : (UInt8.ofNat c.toNat).toNat = c.toNat := toNat_ofNat_of_lt (by omega)
    have hbegin : begin c.toNat = (.start, [some (Char.ofNat c.toNat)]) := if_pos (by omega)
    rw [List.singleton_append, itemsFrom_start_cons, hb, hbegin, hc, List.singleton_append]
  · have h := itemsFrom_two (v := c.toNat) (by omega) h2 rest
    rwa [hc] at h
  · have h := itemsFrom_three (v := c.toNat) (by omega) h3 (by omega) rest
    rwa [hc] at h
  · have h := itemsFrom_four (v := c.toNat) (by omega) (by omega) rest
    rwa [hc] at h

/-! ### Whole texts -/

theorem encode_cons (c : Char) (text : List Char) :
    encode (c :: text) = String.utf8EncodeChar c ++ encode text := List.flatMap_cons

theorem encode_append (front rest : List Char) : encode (front ++ rest) = encode front ++ encode rest :=
  List.flatMap_append

/-- The bytes of a text give its characters and no break. -/
theorem items_encode : ∀ text : List Char, items (encode text) = text.map some
  | [] => rfl
  | c :: text => by
    rw [encode_cons, items, itemsFrom_encodeChar, List.map_cons, ← items_encode text]
    rfl

theorem untilBreak_map_some : ∀ text : List Char, untilBreak (text.map some) = (text, false)
  | [] => rfl
  | c :: text => by
    rw [List.map_cons, untilBreak, untilBreak_map_some text]

/-- **Strict reading gives a written text back.** -/
theorem decode_encode (text : List Char) : decode (encode text) = .ok text := by
  rw [decode, items_encode, untilBreak_map_some]

/-- **Lossy reading gives a written text back.** -/
theorem decodeLossy_encode (text : List Char) : decodeLossy (encode text) = text := by
  rw [decodeLossy, items_encode, List.map_map]
  exact List.map_id text

/-! ### Order -/

theorem ofNat_cons_lt {m n : Nat} {as bs : List UInt8} (hm : m < 256) (hn : n < 256) (hle : m ≤ n)
    (h : m = n → as < bs) : UInt8.ofNat m :: as < UInt8.ofNat n :: bs := by
  refine List.cons_lt_cons_iff.mpr ?_
  rcases Nat.lt_or_eq_of_le hle with hlt | heq
  · left
    rwa [UInt8.lt_iff_toNat_lt, toNat_ofNat_of_lt hm, toNat_ofNat_of_lt hn]
  · exact Or.inr ⟨by rw [heq], h heq⟩

theorem ofNat_cons_lt_of_lt {m n : Nat} (hlt : m < n) (hn : n < 256) (as bs : List UInt8) :
    UInt8.ofNat m :: as < UInt8.ofNat n :: bs :=
  ofNat_cons_lt (Nat.lt_trans hlt hn) hn (Nat.le_of_lt hlt) fun h => absurd h (Nat.ne_of_lt hlt)

/-- The bytes of a smaller character come first, whatever follows. -/
theorem encodeChar_append_lt {c d : Char} (h : c < d) (as bs : List UInt8) :
    String.utf8EncodeChar c ++ as < String.utf8EncodeChar d ++ bs := by
  have hlt : c.toNat < d.toNat := h
  have hscalar : d.toNat < 0xD800 ∨ 0xDFFF < d.toNat ∧ d.toNat < 0x110000 := d.valid
  unfold String.utf8EncodeChar
  rw [show c.val.toNat = c.toNat from rfl, show d.val.toNat = d.toNat from rfl]
  dsimp only
  -- of two numbers of bytes the greater has the greater first byte; bytes of equal number are digits
  split_ifs with c1 d1 d2 d3 c2 d1 d2 d3 c3 d1 d2 d3 d1 d2 d3
  · exact ofNat_cons_lt_of_lt hlt (by omega) as bs
  · exact ofNat_cons_lt_of_lt (by omega) (by omega) _ _
  · exact ofNat_cons_lt_of_lt (by omega) (by omega) _ _
  · exact ofNat_cons_lt_of_lt (by omega) (by omega) _ _
  · omega
  · refine ofNat_cons_lt (by omega) (by omega) (by omega) fun _ => ?_
    exact ofNat_cons_lt_of_lt (by omega) (by omega) as bs
  · exact ofNat_cons_lt_of_lt (by omega) (by omega) _ _
  · exact ofNat_cons_lt_of_lt (by omega) (by omega) _ _
  · omega
  · omega
  · refine ofNat_cons_lt (by omega) (by omega) (by omega) fun _ => ?_
    refine ofNat_cons_lt (by omega) (by omega) (by omega) fun _ => ?_
    exact ofNat_cons_lt_of_lt (by omega) (by omega) as bs
  · exact ofNat_cons_lt_of_lt (by omega) (by omega) _ _
  · omega
  · omega
  · omega
  · refine ofNat_cons_lt (by omega) (by omega) (by omega) fun _ => ?_
    refine ofNat_cons_lt (by omega) (by omega) (by omega) fun _ => ?_
    refine ofNat_cons_lt (by omega) (by omega) (by omega) fun _ => ?_
    exact ofNat_cons_lt_of_lt (by omega) (by omega) as bs

/-- **The order of texts is that of their bytes.** -/
theorem encode_lt_encode : ∀ {a b : List Char}, a < b → encode a < encode b
  | [], [], h => absurd h (List.lt_irrefl [])
  | [], d :: b, _ => by
    have hne : encode (d :: b) ≠ [] := by
      rw [encode_cons]
      exact List.append_ne_nil_of_left_ne_nil (List.ne_nil_of_length_pos
        (by rw [String.length_utf8EncodeChar]; exact d.utf8Size_pos)) _
    obtain ⟨x, bytes, hbytes⟩ := List.exists_cons_of_ne_nil hne
    rw [hbytes]
    exact List.Lex.nil
  | c :: a, [], h => absurd h (List.not_lt_nil _)
  | c :: a, d :: b, h => by
    rw [encode_cons, encode_cons]
    rcases List.cons_lt_cons_iff.mp h with hlt | ⟨rfl, hlt⟩
    · exact encodeChar_append_lt hlt _ _
    · exact List.append_left_lt (encode_lt_encode hlt)

/-! ### Line feeds -/

/-- A byte of a character is the character itself or lies above all such bytes. -/
theorem toNat_of_mem_encodeChar {c : Char} {b : UInt8} (h : b ∈ String.utf8EncodeChar c) :
    b.toNat = c.toNat ∧ c.toNat < 0x80 ∨ 0x80 ≤ b.toNat := by
  have hscalar : c.toNat < 0xD800 ∨ 0xDFFF < c.toNat ∧ c.toNat < 0x110000 := c.valid
  unfold String.utf8EncodeChar at h
  rw [show c.val.toNat = c.toNat from rfl] at h
  dsimp only at h
  split_ifs at h with h1 h2 h3
  · rw [List.mem_singleton] at h
    refine Or.inl ⟨?_, by omega⟩
    rw [h, toNat_ofNat_of_lt (by omega)]
  · simp only [List.mem_cons, List.not_mem_nil, or_false] at h
    rcases h with rfl | rfl <;> exact Or.inr (by rw [toNat_ofNat_of_lt (by omega)]; omega)
  · simp only [List.mem_cons, List.not_mem_nil, or_false] at h
    rcases h with rfl | rfl | rfl <;>
      exact Or.inr (by rw [toNat_ofNat_of_lt (by omega)]; omega)
  · simp only [List.mem_cons, List.not_mem_nil, or_false] at h
    rcases h with rfl | rfl | rfl | rfl <;>
      exact Or.inr (by rw [toNat_ofNat_of_lt (by omega)]; omega)

/-- A text without a line feed has no byte of one. -/
theorem lineFeed_notMem_encode {text : List Char} (h : '\n' ∉ text) : lineFeed ∉ encode text := by
  intro hmem
  obtain ⟨c, hc, hb⟩ := List.mem_flatMap.mp hmem
  rcases toNat_of_mem_encodeChar hb with ⟨heq, -⟩ | hge
  · have hn : c = '\n' := Char.toNat_inj.mp heq.symm
    exact h (hn ▸ hc)
  · exact absurd hge (by decide)

/-- **The bytes of lines are cut into the lines**: each line that holds no line feed and ends with
one is a segment of its own. -/
theorem segments_encode_lines : ∀ {ls : List (List Char)}, (∀ l ∈ ls, '\n' ∉ l) →
    segments lineFeed (encode (ls.flatMap (· ++ ['\n']))) = ls.map fun l => ⟨encode l, true⟩
  | [], _ => rfl
  | l :: ls, h => by
    have hl := lineFeed_notMem_encode (h l List.mem_cons_self)
    have ih := segments_encode_lines fun m hm => h m (List.mem_cons_of_mem l hm)
    have hbytes : encode ((l :: ls).flatMap (· ++ ['\n'])) =
        encode l ++ lineFeed :: encode (ls.flatMap (· ++ ['\n'])) := by
      rw [List.flatMap_cons, encode_append, encode_append, List.append_assoc]
      rfl
    rw [hbytes, segments_append_cons hl, ih, List.map_cons]

end CaretLayout.Text.Utf8

namespace CaretLayout

/-- A file that holds the bytes of a text holds the text. -/
theorem DiskFault.textOf_encode (text : List Char) :
    DiskFault.textOf (Text.Utf8.encode text) = .ok text := by
  rw [DiskFault.textOf, Text.Utf8.decode_encode]

end CaretLayout
