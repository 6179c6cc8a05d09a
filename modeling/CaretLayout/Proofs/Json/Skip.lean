import CaretLayout.Proofs.Json.Reader

/-!
# Skipping a value

A value that nobody asks for is skipped with less care, but it ends at the same place: whatever the
careful reader takes, the other one takes as well and leaves the same text (`exists_readValue_lax`).
The values may differ, since a skipped number is not computed and the halves of a surrogate pair are
skipped one by one.
-/

namespace CaretLayout.Json

open Grammar

/-! ### Strings -/

/-- An escape is skipped, and then what stands behind it. -/
theorem exists_readChars_escape_lax {e : Char} {skipped text rest : List Char}
    (he : readEscape .lax (skipped ++ text) = .ok (e, skipped.length))
    (h : ∃ cs, readChars .lax 0 text = .ok (cs, rest)) :
    ∃ cs, readChars .lax 0 ('\\' :: (skipped ++ text)) = .ok (cs, rest) := by
  obtain ⟨cs, hcs⟩ := h
  refine ⟨e :: cs, ?_⟩
  rw [readChars_escape, he]
  show (readChars .lax skipped.length _ >>= _) = _
  rw [readChars_append, hcs]
  rfl

theorem readEscape_unit_lax {n : Nat} {ds : List Char} (hds : Hex4 n ds) (rest : List Char) :
    readEscape .lax ('u' :: ds ++ rest) = .ok (Char.ofNat n, ('u' :: ds).length) := by
  have hread : readUnicode .lax (ds ++ rest) = .ok (Char.ofNat n, 4) := by
    rw [readUnicode, readHex4_of_hex4 hds]
    rfl
  rw [List.cons_append, readEscape_of_readUnicode hread, List.length_cons, hds.length_eq]

theorem readEscape_short_lax {c e : Char} (h : (c, e) ∈ shortEscapes) (rest : List Char) :
    readEscape .lax ([e] ++ rest) = .ok (c, [e].length) := by
  simp only [shortEscapes, List.mem_cons, List.not_mem_nil, or_false, Prod.mk.injEq] at h
  rcases h with ⟨rfl, rfl⟩ | ⟨rfl, rfl⟩ | ⟨rfl, rfl⟩ | ⟨rfl, rfl⟩ | ⟨rfl, rfl⟩ | ⟨rfl, rfl⟩ |
    ⟨rfl, rfl⟩ | ⟨rfl, rfl⟩ <;> rfl

/-- Characters are skipped up to the closing quote. -/
theorem exists_readChars_lax {cs t : List Char} (h : Chars cs t) (rest : List Char) :
    ∃ cs', readChars .lax 0 (t ++ '"' :: rest) = .ok (cs', rest) := by
  induction h with
  | nil => exact ⟨[], rfl⟩
  | plain hq hb hc _ ih =>
    obtain ⟨cs', hcs'⟩ := ih
    rw [List.cons_append, readChars_plain hq hb hc, hcs']
    exact ⟨_, rfl⟩
  | escape he _ ih =>
    rw [List.cons_append, List.append_assoc]
    cases he with
    | short hmem => exact exists_readChars_escape_lax (readEscape_short_lax hmem _) ih
    | unit hds _ => exact exists_readChars_escape_lax (readEscape_unit_lax hds _) ih
    | pair hds hds' _ _ =>
      -- each half of the pair is an escape of its own
      rw [List.cons_append, List.append_assoc, ← List.cons_append]
      exact exists_readChars_escape_lax (readEscape_unit_lax hds _)
        (exists_readChars_escape_lax (readEscape_unit_lax hds' _) ih)

theorem exists_readString_lax {text rest : List Char} {s : String}
    (h : readString .strict text = .ok (s, rest)) :
    ∃ s', readString .lax text = .ok (s', rest) := by
  obtain ⟨⟨cs, rest'⟩, hchars, hpure⟩ := bind_eq_ok_iff.mp h
  cases hpure
  obtain ⟨skipped, t, rfl, hlength, ht⟩ := chars_of_readChars hchars
  obtain ⟨cs', hcs'⟩ := exists_readChars_lax ht rest
  refine ⟨String.ofList cs', ?_⟩
  rw [List.length_eq_zero_iff.mp hlength, List.nil_append, readString, hcs']
  rfl

theorem exists_readName_lax {text rest : List Char} {k : String}
    (h : readName .strict text = .ok (k, rest)) : ∃ k', readName .lax text = .ok (k', rest) := by
  rcases text with _ | ⟨c, text⟩
  · cases h
  · rw [readName] at h ⊢
    split_ifs at h ⊢
    exact exists_readString_lax h

/-! ### Numbers -/

/-- The care that is taken shows in the fault of a missing digit only. -/
theorem readDigits_lax {text : List Char} {r : Reading (List Char)}
    (h : readDigits .strict text = .ok r) : readDigits .lax text = .ok r := by
  unfold readDigits at h ⊢
  split at h
  · cases h
  · exact h

theorem readWhole_lax {text : List Char} {r : Reading (List Char)}
    (h : readWhole .strict text = .ok r) : readWhole .lax text = .ok r := by
  unfold readWhole at h ⊢
  split at h
  · cases h
  · cases h
  · exact h

theorem readDecimals_lax {text : List Char} {r : Reading (Option (List Char))}
    (h : readDecimals .strict text = .ok r) : readDecimals .lax text = .ok r := by
  unfold readDecimals at h ⊢
  split at h
  · obtain ⟨digits, hdigits, hpure⟩ := bind_eq_ok_iff.mp h
    exact bind_eq_ok_iff.mpr ⟨digits, readDigits_lax hdigits, hpure⟩
  · exact h

theorem readPower_lax {text : List Char} {r : Reading (Option (Bool × List Char))}
    (h : readPower .strict text = .ok r) : readPower .lax text = .ok r := by
  rcases text with _ | ⟨c, text⟩
  · exact h
  · rw [readPower] at h ⊢
    split_ifs at h ⊢
    · obtain ⟨digits, hdigits, hpure⟩ := bind_eq_ok_iff.mp h
      exact bind_eq_ok_iff.mpr ⟨digits, readDigits_lax hdigits, hpure⟩
    · exact h

theorem exists_readNumber_lax {negative : Bool} {text rest : List Char} {v : Json}
    (h : readNumber .strict negative text = .ok (v, rest)) :
    ∃ w, readNumber .lax negative text = .ok (w, rest) := by
  obtain ⟨⟨n, rest'⟩, hread, hvalue⟩ := bind_eq_ok_iff.mp h
  obtain ⟨v', -, hpure⟩ := bind_eq_ok_iff.mp hvalue
  cases hpure
  obtain ⟨whole, hwhole, hread⟩ := bind_eq_ok_iff.mp hread
  obtain ⟨decimals, hdecimals, hread⟩ := bind_eq_ok_iff.mp hread
  obtain ⟨power, hpower, hread⟩ := bind_eq_ok_iff.mp hread
  have hlax : readNumeral .lax negative text = .ok (n, rest) :=
    bind_eq_ok_iff.mpr ⟨whole, readWhole_lax hwhole, bind_eq_ok_iff.mpr
      ⟨decimals, readDecimals_lax hdecimals, bind_eq_ok_iff.mpr ⟨power, readPower_lax hpower, hread⟩⟩⟩
  exact ⟨.null, bind_eq_ok_iff.mpr ⟨_, hlax, rfl⟩⟩

/-! ### Values -/

theorem exists_readScalar_lax {c : Char} {text rest : List Char} {v : Json}
    (h : readScalar .strict c text = .ok (v, rest)) :
    ∃ w, readScalar .lax c text = .ok (w, rest) := by
  unfold readScalar at h ⊢
  split_ifs at h ⊢
  · exact ⟨v, h⟩
  · exact ⟨v, h⟩
  · exact ⟨v, h⟩
  · obtain ⟨⟨s, rest'⟩, hstring, hpure⟩ := bind_eq_ok_iff.mp h
    cases hpure
    obtain ⟨s', hs'⟩ := exists_readString_lax hstring
    exact ⟨.string s', bind_eq_ok_iff.mpr ⟨_, hs', rfl⟩⟩
  · exact exists_readNumber_lax h
  · exact exists_readNumber_lax h

mutual

/-- **A skipped value ends where it is read carefully**, whatever depth is allowed in it. -/
theorem exists_readValue_lax (d' : Nat) : ∀ {fuel d : Nat} {text : List Char} {v : Json}
    {rest : List Char}, readValue .strict fuel d text = .ok (v, rest) →
    ∃ w, readValue .lax fuel d' text = .ok (w, rest)
  | 0, _, _, _, _, h => by
    rw [readValue] at h
    cases h
  | fuel + 1, d, text, v, rest, h => by
    rw [readValue] at h ⊢
    rcases hskip : skipBlank text with _ | ⟨c, text'⟩
    · rw [hskip] at h
      cases h
    · rw [hskip] at h
      dsimp only at h ⊢
      split_ifs at h ⊢
      · obtain ⟨inner, -, h⟩ := bind_eq_ok_iff.mp h
        obtain ⟨⟨items, rest'⟩, hread, hpure⟩ := bind_eq_ok_iff.mp h
        cases hpure
        obtain ⟨items', hitems'⟩ := exists_readItems_lax d' hread
        exact ⟨.array items', bind_eq_ok_iff.mpr ⟨d', rfl, bind_eq_ok_iff.mpr ⟨_, hitems', rfl⟩⟩⟩
      · obtain ⟨inner, -, h⟩ := bind_eq_ok_iff.mp h
        obtain ⟨⟨members, rest'⟩, hread, hpure⟩ := bind_eq_ok_iff.mp h
        cases hpure
        obtain ⟨members', hmembers'⟩ := exists_readMembers_lax d' hread
        exact ⟨.object members',
          bind_eq_ok_iff.mpr ⟨d', rfl, bind_eq_ok_iff.mpr ⟨_, hmembers', rfl⟩⟩⟩
      · exact exists_readScalar_lax h

theorem exists_readItems_lax (d' : Nat) : ∀ {fuel d : Nat} {text : List Char} {items : List Json}
    {rest : List Char}, readItems .strict fuel d text = .ok (items, rest) →
    ∃ items', readItems .lax fuel d' text = .ok (items', rest)
  | 0, _, _, _, _, h => by
    rw [readItems] at h
    cases h
  | fuel + 1, d, text, items, rest, h => by
    unfold readItems at h ⊢
    split at h
    · cases h
    · exact ⟨items, h⟩
    · exact exists_readMoreItems_lax d' h

theorem exists_readMoreItems_lax (d' : Nat) : ∀ {fuel d : Nat} {text : List Char}
    {items : List Json} {rest : List Char}, readMoreItems .strict fuel d text = .ok (items, rest) →
    ∃ items', readMoreItems .lax fuel d' text = .ok (items', rest)
  | 0, _, _, _, _, h => by
    rw [readMoreItems] at h
    cases h
  | fuel + 1, d, text, items, rest, h => by
    rw [readMoreItems] at h ⊢
    obtain ⟨⟨item, text1⟩, hitem, h⟩ := bind_eq_ok_iff.mp h
    obtain ⟨⟨again, text2⟩, hseparator, h⟩ := bind_eq_ok_iff.mp h
    obtain ⟨item', hitem'⟩ := exists_readValue_lax d' hitem
    rcases again with _ | _
    · cases h
      exact ⟨[item'], bind_eq_ok_iff.mpr ⟨_, hitem', bind_eq_ok_iff.mpr ⟨_, hseparator, rfl⟩⟩⟩
    · obtain ⟨⟨more, rest'⟩, hmore, hpure⟩ := bind_eq_ok_iff.mp h
      cases hpure
      obtain ⟨more', hmore'⟩ := exists_readMoreItems_lax d' hmore
      exact ⟨item' :: more', bind_eq_ok_iff.mpr ⟨_, hitem', bind_eq_ok_iff.mpr ⟨_, hseparator,
        bind_eq_ok_iff.mpr ⟨_, hmore', rfl⟩⟩⟩⟩

theorem exists_readMembers_lax (d' : Nat) : ∀ {fuel d : Nat} {text : List Char}
    {members : List (String × Json)} {rest : List Char},
    readMembers .strict fuel d text = .ok (members, rest) →
    ∃ members', readMembers .lax fuel d' text = .ok (members', rest)
  | 0, _, _, _, _, h => by
    rw [readMembers] at h
    cases h
  | fuel + 1, d, text, members, rest, h => by
    unfold readMembers at h ⊢
    split at h
    · cases h
    · exact ⟨members, h⟩
    · exact exists_readMoreMembers_lax d' h

theorem exists_readMoreMembers_lax (d' : Nat) : ∀ {fuel d : Nat} {text : List Char}
    {members : List (String × Json)} {rest : List Char},
    readMoreMembers .strict fuel d text = .ok (members, rest) →
    ∃ members', readMoreMembers .lax fuel d' text = .ok (members', rest)
  | 0, _, _, _, _, h => by
    rw [readMoreMembers] at h
    cases h
  | fuel + 1, d, text, members, rest, h => by
    rw [readMoreMembers] at h ⊢
    obtain ⟨⟨k, text1⟩, hname, h⟩ := bind_eq_ok_iff.mp h
    obtain ⟨text2, hcolon, h⟩ := bind_eq_ok_iff.mp h
    obtain ⟨⟨v, text3⟩, hvalue, h⟩ := bind_eq_ok_iff.mp h
    obtain ⟨⟨again, text4⟩, hseparator, h⟩ := bind_eq_ok_iff.mp h
    obtain ⟨k', hname'⟩ := exists_readName_lax hname
    obtain ⟨v', hvalue'⟩ := exists_readValue_lax d' hvalue
    rcases again with _ | _
    · cases h
      exact ⟨[(k', v')], bind_eq_ok_iff.mpr ⟨_, hname', bind_eq_ok_iff.mpr ⟨_, hcolon,
        bind_eq_ok_iff.mpr ⟨_, hvalue', bind_eq_ok_iff.mpr ⟨_, hseparator, rfl⟩⟩⟩⟩⟩
    · obtain ⟨⟨more, rest'⟩, hmore, hpure⟩ := bind_eq_ok_iff.mp h
      cases hpure
      obtain ⟨more', hmore'⟩ := exists_readMoreMembers_lax d' hmore
      exact ⟨(k', v') :: more', bind_eq_ok_iff.mpr ⟨_, hname', bind_eq_ok_iff.mpr ⟨_, hcolon,
        bind_eq_ok_iff.mpr ⟨_, hvalue', bind_eq_ok_iff.mpr ⟨_, hseparator,
          bind_eq_ok_iff.mpr ⟨_, hmore', rfl⟩⟩⟩⟩⟩⟩

end

/-- A value that stands at the front of a text is skipped. -/
theorem exists_readFront_lax {b : List Char} (hb : Blank b) {v : Json} {t : List Char}
    (h : Value v t) (d : Nat) {rest : List Char} (hrest : Ends rest) :
    ∃ w, readFront .lax d (b ++ (t ++ rest)) = .ok (w, rest) :=
  exists_readValue_lax d (readFront_of_value hb h (Nat.le_refl v.depth) hrest)

end CaretLayout.Json
