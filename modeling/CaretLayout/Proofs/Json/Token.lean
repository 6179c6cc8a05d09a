import CaretLayout.Proofs.Json.Grammar
import Mathlib.Data.List.TakeWhile
import Mathlib.Tactic.SplitIfs

/-!
# Reading tokens

The reader of each token takes what the grammar allows and nothing else.  A reader returns what is
left of the text, so each statement has two halves: a text that starts with a token is read
(`readChars_of_chars`, `readNumeral_of_unsigned`), and what was read stands at the front of the text
(`chars_of_readChars`, `unsigned_of_readNumeral`).  Only a number does not tell where it ends; it is
read as far as it goes, and what follows must not carry it on (`Ends`).
-/

namespace CaretLayout.Json

open Grammar

theorem bind_eq_ok_iff {ε α β : Type} {x : Except ε α} {f : α → Except ε β} {r : β} :
    (x >>= f) = .ok r ↔ ∃ a, x = .ok a ∧ f a = .ok r := by
  rcases x with e | a
  · refine ⟨fun h => ?_, fun ⟨_, h, _⟩ => ?_⟩
    · cases h
    · cases h
  · refine ⟨fun h => ⟨a, rfl, h⟩, fun ⟨_, h, hf⟩ => ?_⟩
    cases h
    exact hf

theorem map_eq_ok_iff {ε α β : Type} {x : Except ε α} {f : α → β} {b : β} :
    x.map f = .ok b ↔ ∃ a, x = .ok a ∧ f a = b := by
  rcases x with e | a
  · simp [Except.map]
  · simp [Except.map]

/-! ### White space -/

theorem Grammar.Blank.append {b b' : List Char} (h : Blank b) (h' : Blank b') : Blank (b ++ b') := by
  intro c hc
  rcases List.mem_append.mp hc with hc | hc
  · exact h c hc
  · exact h' c hc

theorem Grammar.blank_nil : Blank [] := fun _ h => absurd h List.not_mem_nil

theorem skipBlank_append {b : List Char} (h : Blank b) (rest : List Char) :
    skipBlank (b ++ rest) = skipBlank rest :=
  List.dropWhile_append_of_pos h

theorem skipBlank_cons {c : Char} (h : isBlank c = false) (rest : List Char) :
    skipBlank (c :: rest) = c :: rest :=
  List.dropWhile_cons_of_neg (by simp [h])

theorem skipBlank_blank_cons {b : List Char} (hb : Blank b) {c : Char} (h : isBlank c = false)
    (rest : List Char) : skipBlank (b ++ c :: rest) = c :: rest := by
  rw [skipBlank_append hb, skipBlank_cons h]

/-- What white space is skipped. -/
theorem exists_blank (text : List Char) : ∃ b, Blank b ∧ text = b ++ skipBlank text :=
  ⟨text.takeWhile isBlank, fun _ hc => List.mem_takeWhile_imp hc,
    List.takeWhile_append_dropWhile.symm⟩

/-! ### Escapes -/

theorem four_le_byteLength (a b c d : Char) : ¬ Text.Utf8.byteLength [a, b, c, d] < 4 := by
  have ha := a.utf8Size_pos
  have hb := b.utf8Size_pos
  have hc := c.utf8Size_pos
  have hd := d.utf8Size_pos
  simp only [Text.Utf8.byteLength, List.foldr]
  omega

theorem readHex4_cons (a b c d : Char) (rest : List Char) :
    readHex4 (a :: b :: c :: d :: rest) =
      match hexValue a, hexValue b, hexValue c, hexValue d with
      | some a, some b, some c, some d => .ok (a * 4096 + b * 256 + c * 16 + d)
      | _, _, _, _ => .error .malformed := by
  exact if_neg (four_le_byteLength a b c d)

theorem readHex4_of_hex4 {n : Nat} {ds : List Char} (h : Hex4 n ds) (rest : List Char) :
    readHex4 (ds ++ rest) = .ok n := by
  obtain ⟨ha, hb, hc, hd⟩ := h
  simp only [List.cons_append, List.nil_append, readHex4_cons, ha, hb, hc, hd]

theorem hex4_of_readHex4 {text : List Char} {n : Nat} (h : readHex4 text = .ok n) :
    ∃ ds rest, text = ds ++ rest ∧ Hex4 n ds := by
  match text with
  | a :: b :: c :: d :: rest =>
    rw [readHex4_cons] at h
    split at h
    · next i j k l hi hj hk hl =>
      cases h
      exact ⟨[a, b, c, d], rest, rfl, .mk hi hj hk hl⟩
    · cases h
  | [] | [_] | [_, _] | [_, _, _] =>
    unfold readHex4 at h
    split at h
    · cases h
    · cases h

theorem Grammar.Hex4.length_eq {n : Nat} {ds : List Char} (h : Hex4 n ds) : ds.length = 4 := by
  cases h
  rfl

theorem drop_hex4 {n : Nat} {ds : List Char} (h : Hex4 n ds) (rest : List Char) :
    (ds ++ rest).drop 4 = rest := by
  rw [← h.length_eq, List.drop_left]

theorem readLowSurrogate_of_hex4 (high : Nat) {low : Nat} {ds : List Char} (h : Hex4 low ds)
    (hlow : 0xDC00 ≤ low ∧ low ≤ 0xDFFF) (rest : List Char) :
    readLowSurrogate high ('\\' :: 'u' :: (ds ++ rest)) =
      .ok (Char.ofNat ((high - 0xD800) * 1024 + (low - 0xDC00) + 0x10000)) := by
  rw [readLowSurrogate, readHex4_of_hex4 h]
  exact if_pos hlow

theorem hex4_of_readLowSurrogate {high : Nat} {text : List Char} {c : Char}
    (h : readLowSurrogate high text = .ok c) :
    ∃ low ds rest, text = '\\' :: 'u' :: (ds ++ rest) ∧ Hex4 low ds ∧
      (0xDC00 ≤ low ∧ low ≤ 0xDFFF) ∧
      c = Char.ofNat ((high - 0xD800) * 1024 + (low - 0xDC00) + 0x10000) := by
  unfold readLowSurrogate at h
  split at h
  · cases h
  · cases h
  · next text =>
    obtain ⟨low, hread, hlow⟩ := bind_eq_ok_iff.mp h
    obtain ⟨ds, rest, rfl, hds⟩ := hex4_of_readHex4 hread
    split at hlow
    · next hrange =>
      exact ⟨low, ds, rest, rfl, hds, hrange, (Except.ok.inj hlow).symm⟩
    · cases hlow
  · cases h

theorem readEscape_unicode (care : Care) (text : List Char) :
    readEscape care ('u' :: text) =
      (readUnicode care text >>= fun r => .ok (r.1, r.2 + 1)) := rfl

theorem readEscape_of_readUnicode {care : Care} {text : List Char} {c : Char} {width : Nat}
    (h : readUnicode care text = .ok (c, width)) :
    readEscape care ('u' :: text) = .ok (c, width + 1) := by
  rw [readEscape_unicode, h]
  rfl

/-- An escape is read, with its width. -/
theorem readEscape_of_escape {c : Char} {e : List Char} (h : Escape c e) (rest : List Char) :
    readEscape .strict (e ++ rest) = .ok (c, e.length) := by
  cases h with
  | short hmem =>
    simp only [shortEscapes, List.mem_cons, List.not_mem_nil, or_false, Prod.mk.injEq] at hmem
    rcases hmem with ⟨rfl, rfl⟩ | ⟨rfl, rfl⟩ | ⟨rfl, rfl⟩ | ⟨rfl, rfl⟩ | ⟨rfl, rfl⟩ | ⟨rfl, rfl⟩ |
      ⟨rfl, rfl⟩ | ⟨rfl, rfl⟩ <;> rfl
  | @unit n ds hds hn =>
    have hread : readUnicode .strict (ds ++ rest) = .ok (Char.ofNat n, 4) := by
      rw [readUnicode, readHex4_of_hex4 hds]
      show (if 0xDC00 ≤ n ∧ n ≤ 0xDFFF then _ else _) = _
      rw [if_neg (by omega), if_pos (by omega)]
      rfl
    rw [List.cons_append, readEscape_of_readUnicode hread, List.length_cons, hds.length_eq]
  | @pair high low ds ds' hds hds' hhigh hlow =>
    have hread : readUnicode .strict (ds ++ '\\' :: 'u' :: (ds' ++ rest)) =
        .ok (Char.ofNat ((high - 0xD800) * 1024 + (low - 0xDC00) + 0x10000), 10) := by
      rw [readUnicode, readHex4_of_hex4 hds]
      show (if 0xDC00 ≤ high ∧ high ≤ 0xDFFF then _ else _) = _
      rw [if_neg (by omega), if_neg (by omega), drop_hex4 hds,
        readLowSurrogate_of_hex4 high hds' hlow]
      rfl
    have hwidth : ('u' :: (ds ++ '\\' :: 'u' :: ds')).length = 11 := by
      simp only [List.length_cons, List.length_append, hds.length_eq, hds'.length_eq]
    rw [hwidth, List.cons_append, List.append_assoc, List.cons_append, List.cons_append,
      readEscape_of_readUnicode hread]

/-- What is read as an escape is one. -/
theorem escape_of_readEscape {text : List Char} {c : Char} {width : Nat}
    (h : readEscape .strict text = .ok (c, width)) :
    ∃ e rest, text = e ++ rest ∧ e.length = width ∧ Escape c e := by
  match text with
  | [] => cases h
  | x :: rest =>
    by_cases hu : x = 'u'
    · subst hu
      rw [readEscape_unicode] at h
      obtain ⟨⟨c', width'⟩, hread, h⟩ := bind_eq_ok_iff.mp h
      cases h
      obtain ⟨n, hn, h⟩ := bind_eq_ok_iff.mp hread
      obtain ⟨ds, rest, rfl, hds⟩ := hex4_of_readHex4 hn
      dsimp only at h
      split at h
      · cases h
      · next hlow =>
        split at h
        · next hhigh =>
          cases h
          exact ⟨'u' :: ds, rest, rfl, by rw [List.length_cons, hds.length_eq],
            .unit hds (by omega)⟩
        · next hhigh =>
          obtain ⟨c'', hpair, hpure⟩ := bind_eq_ok_iff.mp h
          rw [drop_hex4 hds] at hpair
          obtain ⟨low, ds', rest', rfl, hds', hlow', hc⟩ := hex4_of_readLowSurrogate hpair
          cases hpure
          refine ⟨'u' :: (ds ++ '\\' :: 'u' :: ds'), rest', ?_, ?_, ?_⟩
          · simp only [List.cons_append, List.append_assoc]
          · simp only [List.length_cons, List.length_append, hds.length_eq, hds'.length_eq]
          · have hwritten := Escape.pair hds hds' (by omega) hlow'
            rwa [← hc] at hwritten
    · have hshort : (c, x) ∈ shortEscapes ∧ width = 1 := by
        unfold readEscape at h
        simp only [if_neg hu] at h
        split_ifs at h with h1 h2 h3 h4 h5 h6
        · cases h
          rcases h1 with rfl | rfl | rfl <;> exact ⟨by decide, rfl⟩
        all_goals
          cases h
          subst_vars
          exact ⟨by decide, rfl⟩
      obtain ⟨hmem, rfl⟩ := hshort
      exact ⟨[x], rest, rfl, rfl, .short hmem⟩

/-! ### Strings -/

theorem readChars_append (care : Care) (rest : List Char) : ∀ skipped : List Char,
    readChars care skipped.length (skipped ++ rest) = readChars care 0 rest
  | [] => rfl
  | _ :: skipped => by
    rw [List.length_cons, List.cons_append, readChars, readChars_append care rest skipped]

theorem readChars_plain {care : Care} {c : Char} (hq : c ≠ '"') (hb : c ≠ '\\')
    (hc : 0x20 ≤ c.toNat) (text : List Char) :
    readChars care 0 (c :: text) = (readChars care 0 text >>= fun r => .ok (c :: r.1, r.2)) := by
  rw [readChars, if_neg hq, if_neg hb, if_neg (by omega)]
  rfl

theorem readChars_escape (care : Care) (text : List Char) :
    readChars care 0 ('\\' :: text) =
      (readEscape care text >>= fun e =>
        readChars care e.2 text >>= fun r => .ok (e.1 :: r.1, r.2)) := by
  rw [readChars, if_neg (by decide), if_pos rfl]
  rfl

/-- Characters are read up to the closing quote. -/
theorem readChars_of_chars {cs t : List Char} (h : Chars cs t) (rest : List Char) :
    readChars .strict 0 (t ++ '"' :: rest) = .ok (cs, rest) := by
  induction h with
  | nil => rfl
  | plain hq hb hc _ ih =>
    rw [List.cons_append, readChars_plain hq hb hc, ih]
    rfl
  | escape he _ ih =>
    rw [List.cons_append, List.append_assoc, readChars_escape, readEscape_of_escape he]
    show (readChars .strict _ _ >>= _) = _
    rw [readChars_append, ih]
    rfl

/-- What is read as characters are characters, up to the closing quote. -/
theorem chars_of_readChars : ∀ {text : List Char} {pending : Nat} {cs rest : List Char},
    readChars .strict pending text = .ok (cs, rest) →
    ∃ skipped t, text = skipped ++ (t ++ '"' :: rest) ∧ skipped.length = pending ∧ Chars cs t
  | [], pending, cs, rest, h => by
    rw [readChars] at h
    cases h
  | c :: text, pending + 1, cs, rest, h => by
    rw [readChars] at h
    obtain ⟨skipped, t, rfl, hlen, ht⟩ := chars_of_readChars h
    exact ⟨c :: skipped, t, rfl, by rw [List.length_cons, hlen], ht⟩
  | c :: text, 0, cs, rest, h => by
    by_cases hq : c = '"'
    · subst hq
      rw [readChars, if_pos rfl] at h
      cases h
      exact ⟨[], [], rfl, rfl, .nil⟩
    · by_cases hb : c = '\\'
      · subst hb
        rw [readChars_escape] at h
        obtain ⟨⟨e, width⟩, hescape, h⟩ := bind_eq_ok_iff.mp h
        obtain ⟨⟨more, rest'⟩, hmore, h⟩ := bind_eq_ok_iff.mp h
        cases h
        obtain ⟨written, rest', hwritten, hwidth, he⟩ := escape_of_readEscape hescape
        obtain ⟨skipped, t, htext, hlen, ht⟩ := chars_of_readChars hmore
        -- the characters passed over are those of the escape
        obtain ⟨rfl, -⟩ := List.append_inj (hwritten.symm.trans htext) (hwidth.trans hlen.symm)
        refine ⟨[], '\\' :: (written ++ t), ?_, rfl, .escape he ht⟩
        rw [htext, List.nil_append, List.cons_append, List.append_assoc]
      · by_cases hc : 0x20 ≤ c.toNat
        · rw [readChars_plain hq hb hc] at h
          obtain ⟨⟨more, rest'⟩, hmore, h⟩ := bind_eq_ok_iff.mp h
          cases h
          obtain ⟨skipped, t, rfl, hlen, ht⟩ := chars_of_readChars hmore
          rw [List.length_eq_zero_iff.mp hlen]
          exact ⟨[], c :: t, rfl, rfl, .plain hq hb hc ht⟩
        · rw [readChars, if_neg hq, if_neg hb, if_pos (by omega)] at h
          cases h

theorem readString_of_quoted {s : String} {q : List Char} (h : Quoted s q) (rest : List Char) :
    ∃ t, q ++ rest = '"' :: t ∧ readString .strict t = .ok (s, rest) := by
  obtain ⟨ht⟩ := h
  refine ⟨_, rfl, ?_⟩
  rw [List.append_eq, List.append_assoc, List.singleton_append, readString, readChars_of_chars ht]
  show Except.ok (String.ofList s.toList, rest) = _
  rw [String.ofList_toList]

theorem quoted_of_readString {text : List Char} {s : String} {rest : List Char}
    (h : readString .strict text = .ok (s, rest)) :
    ∃ q, '"' :: text = q ++ rest ∧ Quoted s q := by
  obtain ⟨⟨cs, rest'⟩, hchars, h⟩ := bind_eq_ok_iff.mp h
  cases h
  obtain ⟨skipped, t, rfl, hlen, ht⟩ := chars_of_readChars hchars
  rw [List.length_eq_zero_iff.mp hlen]
  refine ⟨'"' :: (t ++ ['"']), ?_, .mk ?_⟩
  · simp only [List.nil_append, List.cons_append, List.append_assoc]
  · rw [String.toList_ofList]
    exact ht

/-! ### Digits -/

/-- That a text does not start with a digit. -/
def NoDigit (text : List Char) : Prop :=
  ∀ c ∈ text.head?, c.isDigit = false

/-- That a text does not carry on a number in front of it. -/
def Ends (text : List Char) : Prop :=
  ∀ c ∈ text.head?, c.isDigit = false ∧ c ≠ '.' ∧ c ≠ 'e' ∧ c ≠ 'E'

theorem Ends.noDigit {text : List Char} (h : Ends text) : NoDigit text :=
  fun c hc => (h c hc).1

theorem ends_nil : Ends [] := fun _ h => by cases h

theorem ends_cons {c : Char} (h : c.isDigit = false ∧ c ≠ '.' ∧ c ≠ 'e' ∧ c ≠ 'E')
    (text : List Char) : Ends (c :: text) := by
  intro c' hc'
  cases hc'
  exact h

/-- White space does not carry on a number. -/
theorem ends_blank_append {b : List Char} (hb : Blank b) {text : List Char} (h : Ends text) :
    Ends (b ++ text) := by
  rcases b with _ | ⟨c, b⟩
  · exact h
  · have hc : isBlank c = true := hb c List.mem_cons_self
    simp only [isBlank, Bool.or_eq_true, beq_iff_eq] at hc
    rcases hc with ((rfl | rfl) | rfl) | rfl <;> exact ends_cons (by decide) _

theorem spanDigits_append {ds rest : List Char} (hds : ∀ c ∈ ds, c.isDigit = true)
    (hrest : NoDigit rest) : spanDigits (ds ++ rest) = (ds, rest) := by
  have htake : rest.takeWhile Char.isDigit = [] := by
    rcases rest with _ | ⟨c, rest⟩
    · rfl
    · exact List.takeWhile_cons_of_neg (by simp [hrest c rfl])
  have hdrop : rest.dropWhile Char.isDigit = rest := by
    rcases rest with _ | ⟨c, rest⟩
    · rfl
    · exact List.dropWhile_cons_of_neg (by simp [hrest c rfl])
  rw [spanDigits, List.takeWhile_append_of_pos hds, List.dropWhile_append_of_pos hds, htake, hdrop,
    List.append_nil]

theorem spanDigits_eq {text ds rest : List Char} (h : spanDigits text = (ds, rest)) :
    text = ds ++ rest ∧ ∀ c ∈ ds, c.isDigit = true := by
  cases h
  exact ⟨List.takeWhile_append_dropWhile.symm, fun _ hc => List.mem_takeWhile_imp hc⟩

theorem readDigits_of_digits (care : Care) {ds rest : List Char} (hds : Digits ds)
    (hrest : NoDigit rest) : readDigits care (ds ++ rest) = .ok (ds, rest) := by
  rw [readDigits, spanDigits_append hds.2 hrest]
  rcases ds with _ | ⟨c, ds⟩
  · exact absurd rfl hds.1
  · rfl

theorem digits_of_readDigits {care : Care} {text ds rest : List Char}
    (h : readDigits care text = .ok (ds, rest)) : text = ds ++ rest ∧ Digits ds := by
  unfold readDigits at h
  split at h
  · cases h
  · next ds' rest' hne hspan =>
    cases h
    obtain ⟨rfl, hall⟩ := spanDigits_eq hspan
    exact ⟨rfl, hne, hall⟩

theorem readWhole_of_wholeDigits (care : Care) {ds rest : List Char} (hds : WholeDigits ds)
    (hrest : NoDigit rest) : readWhole care (ds ++ rest) = .ok (ds, rest) := by
  rw [readWhole, spanDigits_append hds.1.2 hrest]
  match ds with
  | [] => exact absurd rfl hds.1.1
  | [c] => split <;> simp_all
  | c :: c' :: ds =>
    have hc : c ≠ '0' := by
      rintro rfl
      cases hds.2 rfl
    split <;> simp_all

theorem wholeDigits_of_readWhole {care : Care} {text ds rest : List Char}
    (h : readWhole care text = .ok (ds, rest)) : text = ds ++ rest ∧ WholeDigits ds := by
  unfold readWhole at h
  split at h
  · cases h
  · cases h
  · next ds' rest' hne hzero hspan =>
    cases h
    obtain ⟨rfl, hall⟩ := spanDigits_eq hspan
    refine ⟨rfl, ⟨hne, hall⟩, fun hhead => ?_⟩
    match ds with
    | [c] => simpa using hhead
    | c :: c' :: ds =>
      cases hhead
      exact absurd rfl (hzero _ _)

/-! ### Numbers -/

theorem Grammar.Digits.exists_cons {ds : List Char} (h : Digits ds) :
    ∃ c rest, ds = c :: rest ∧ c.isDigit = true := by
  obtain ⟨c, rest, rfl⟩ := List.exists_cons_of_ne_nil h.1
  exact ⟨c, rest, rfl, h.2 c List.mem_cons_self⟩

theorem readDecimals_of_decimals (care : Care) {o : Option (List Char)} {d rest : List Char}
    (hd : Decimals o d) (hrest : NoDigit rest) (hpoint : rest.head? ≠ some '.') :
    readDecimals care (d ++ rest) = .ok (o, rest) := by
  cases hd with
  | none =>
    rw [List.nil_append]
    unfold readDecimals
    split
    · exact absurd rfl hpoint
    · rfl
  | some hds =>
    rw [List.cons_append, readDecimals, readDigits_of_digits care hds hrest]
    rfl

theorem decimals_of_readDecimals {care : Care} {text : List Char} {o : Option (List Char)}
    {rest : List Char} (h : readDecimals care text = .ok (o, rest)) :
    ∃ d, text = d ++ rest ∧ Decimals o d := by
  unfold readDecimals at h
  split at h
  · next text =>
    obtain ⟨⟨ds, rest'⟩, hread, hpure⟩ := bind_eq_ok_iff.mp h
    cases hpure
    obtain ⟨rfl, hds⟩ := digits_of_readDigits hread
    exact ⟨'.' :: ds, rfl, .some hds⟩
  · cases h
    exact ⟨[], rfl, .none⟩

theorem readSign_of_sign {negative : Bool} {sign : List Char} (h : Sign negative sign)
    {ds : List Char} (hds : Digits ds) (rest : List Char) :
    readSign (sign ++ (ds ++ rest)) = (negative, ds ++ rest) := by
  cases h with
  | plus => rfl
  | minus => rfl
  | none =>
    obtain ⟨c, ds, rfl, hc⟩ := hds.exists_cons
    rw [List.nil_append, List.cons_append]
    unfold readSign
    split
    · next heq => cases heq; cases hc
    · next heq => cases heq; cases hc
    · rfl

theorem sign_of_readSign {text : List Char} {negative : Bool} {rest : List Char}
    (h : readSign text = (negative, rest)) : ∃ sign, text = sign ++ rest ∧ Sign negative sign := by
  unfold readSign at h
  split at h
  · cases h
    exact ⟨['+'], rfl, .plus⟩
  · cases h
    exact ⟨['-'], rfl, .minus⟩
  · cases h
    exact ⟨[], rfl, .none⟩

theorem readPower_of_power (care : Care) {o : Option (Bool × List Char)} {p rest : List Char}
    (hp : Power o p) (hrest : Ends rest) : readPower care (p ++ rest) = .ok (o, rest) := by
  cases hp with
  | none =>
    rw [List.nil_append]
    rcases rest with _ | ⟨c, rest⟩
    · rfl
    · obtain ⟨-, -, he, hE⟩ := hrest c rfl
      rw [readPower, if_neg (by rw [not_or]; exact ⟨he, hE⟩)]
  | some he hsign hds =>
    rw [List.cons_append, List.append_assoc, readPower, if_pos he]
    simp only [readSign_of_sign hsign hds, readDigits_of_digits care hds hrest.noDigit]
    rfl

theorem power_of_readPower {care : Care} {text : List Char} {o : Option (Bool × List Char)}
    {rest : List Char} (h : readPower care text = .ok (o, rest)) :
    ∃ p, text = p ++ rest ∧ Power o p := by
  rcases text with _ | ⟨c, text⟩
  · cases h
    exact ⟨[], rfl, .none⟩
  · rw [readPower] at h
    split at h
    · next he =>
      rcases hsign : readSign text with ⟨negative, text'⟩
      rw [hsign] at h
      obtain ⟨⟨ds, rest'⟩, hread, hpure⟩ := bind_eq_ok_iff.mp h
      cases hpure
      obtain ⟨sign, rfl, hs⟩ := sign_of_readSign hsign
      obtain ⟨rfl, hds⟩ := digits_of_readDigits hread
      refine ⟨c :: (sign ++ ds), ?_, .some he hs hds⟩
      rw [List.cons_append, List.append_assoc]
    · cases h
      exact ⟨[], rfl, .none⟩

/-- Neither the decimals nor the exponent carry on the digits before them. -/
theorem noDigit_decimals_append {o : Option (List Char)} {d rest : List Char} (hd : Decimals o d)
    (h : NoDigit rest) : NoDigit (d ++ rest) := by
  cases hd with
  | none => exact h
  | some _ =>
    intro c hc
    cases hc
    rfl

theorem noDigit_power_append {o : Option (Bool × List Char)} {p rest : List Char} (hp : Power o p)
    (h : Ends rest) : NoDigit (p ++ rest) ∧ (p ++ rest).head? ≠ some '.' := by
  cases hp with
  | none => exact ⟨h.noDigit, fun hpoint => (h '.' hpoint).2.1 rfl⟩
  | some he _ _ =>
    rcases he with rfl | rfl
    · exact ⟨fun c hc => by cases hc; rfl, fun hpoint => by cases hpoint⟩
    · exact ⟨fun c hc => by cases hc; rfl, fun hpoint => by cases hpoint⟩

/-- A numeral is read as far as it goes. -/
theorem readNumeral_of_unsigned (care : Care) {n : Numeral} {t : List Char} (h : Unsigned n t)
    {rest : List Char} (hrest : Ends rest) :
    readNumeral care n.negative (t ++ rest) = .ok (n, rest) := by
  obtain ⟨hwhole, hd, hp⟩ := h
  obtain ⟨hnp, hpoint⟩ := noDigit_power_append hp hrest
  have hnd := noDigit_decimals_append hd hnp
  rw [List.append_assoc, List.append_assoc, readNumeral, readWhole_of_wholeDigits care hwhole hnd]
  show (readDecimals care _ >>= _) = _
  rw [readDecimals_of_decimals care hd hnp hpoint]
  show (readPower care _ >>= _) = _
  rw [readPower_of_power care hp hrest]
  rfl

/-- What is read as a numeral is one. -/
theorem unsigned_of_readNumeral {care : Care} {negative : Bool} {text : List Char} {n : Numeral}
    {rest : List Char} (h : readNumeral care negative text = .ok (n, rest)) :
    n.negative = negative ∧ ∃ t, text = t ++ rest ∧ Unsigned n t := by
  obtain ⟨⟨whole, rest1⟩, hwhole, h1⟩ := bind_eq_ok_iff.mp h
  obtain ⟨⟨decimals, rest2⟩, hdecimals, h2⟩ := bind_eq_ok_iff.mp h1
  obtain ⟨⟨power, rest3⟩, hpower, h3⟩ := bind_eq_ok_iff.mp h2
  cases h3
  obtain ⟨rfl, hw⟩ := wholeDigits_of_readWhole hwhole
  obtain ⟨d, rfl, hd⟩ := decimals_of_readDecimals hdecimals
  obtain ⟨p, rfl, hp⟩ := power_of_readPower hpower
  refine ⟨rfl, whole ++ (d ++ p), ?_, .mk hw hd hp⟩
  simp only [List.append_assoc]

end CaretLayout.Json
