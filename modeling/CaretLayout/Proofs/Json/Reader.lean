import CaretLayout.Proofs.Json.Integer

/-!
# The reader accepts the grammar

A text is read as a value exactly when it writes the value and the containers in it stand at most
`maxDepth` deep (`readTree_eq_ok_iff`).  What is read is written (`value_of_readValue`) by induction
on the fuel, which bounds each call by the one before.  What is written is read (`readValue_of_value`)
as soon as the fuel is three times the length of the text, so the fuel of the wrappers never runs out,
and a value may be followed by anything that does not carry it on.
-/

namespace CaretLayout.Json

open Grammar

/-! ### Scalars -/

theorem readWord_append (rest : List Char) : ∀ word : List Char,
    readWord word (word ++ rest) = .ok rest
  | [] => rfl
  | w :: word => by
    rw [List.cons_append, readWord, if_pos rfl, readWord_append rest word]

theorem eq_append_of_readWord : ∀ {word text rest : List Char},
    readWord word text = .ok rest → text = word ++ rest
  | [], text, rest, h => by
    cases h
    rfl
  | w :: word, [], rest, h => by cases h
  | w :: word, c :: text, rest, h => by
    rw [readWord] at h
    split at h
    · next hc => rw [hc, eq_append_of_readWord h, List.cons_append]
    · cases h

theorem readNumber_of_unsigned {n : Numeral} {t : List Char} {v : Json} (ht : Unsigned n t)
    (hv : n.value = .ok v) {rest : List Char} (hrest : Ends rest) :
    readNumber .strict n.negative (t ++ rest) = .ok (v, rest) := by
  rw [readNumber, readNumeral_of_unsigned .strict ht hrest]
  show (n.value >>= _) = _
  rw [hv]
  rfl

theorem unsigned_of_readNumber {negative : Bool} {text : List Char} {v : Json} {rest : List Char}
    (h : readNumber .strict negative text = .ok (v, rest)) :
    ∃ n t, n.negative = negative ∧ text = t ++ rest ∧ Unsigned n t ∧ n.value = .ok v := by
  obtain ⟨⟨n, rest'⟩, hread, hvalue⟩ := bind_eq_ok_iff.mp h
  obtain ⟨v', hv, hpure⟩ := bind_eq_ok_iff.mp hvalue
  cases hpure
  obtain ⟨hneg, t, htext, ht⟩ := unsigned_of_readNumeral hread
  exact ⟨n, t, hneg, htext, ht, hv⟩

/-- Whether a value is a container. -/
def isContainer : Json → Bool
  | array _ => true
  | object _ => true
  | _ => false

theorem readScalar_digit (care : Care) {c : Char} (hc : c.isDigit = true) (text : List Char) :
    readScalar care c text = readNumber care false (c :: text) := by
  have hne : ∀ d : Char, d.isDigit = false → c ≠ d := by
    rintro d hd rfl
    rw [hd] at hc
    cases hc
  rw [readScalar, if_neg (hne _ (by decide)), if_neg (hne _ (by decide)),
    if_neg (hne _ (by decide)), if_neg (hne _ (by decide)), if_neg (hne _ (by decide)), if_pos hc]

theorem isBlank_of_isDigit {c : Char} (hc : c.isDigit = true) : isBlank c = false := by
  by_contra hb
  simp only [isBlank, Bool.or_eq_true, beq_iff_eq, Bool.not_eq_false] at hb
  rcases hb with ((rfl | rfl) | rfl) | rfl <;> cases hc

/-- What a number starts with. -/
theorem Grammar.Unsigned.exists_cons {n : Numeral} {t : List Char} (h : Unsigned n t) :
    ∃ c t', t = c :: t' ∧ c.isDigit = true := by
  obtain ⟨hwhole, -, -⟩ := h
  obtain ⟨c, ds, hds, hc⟩ := hwhole.1.exists_cons
  exact ⟨c, _, by rw [hds]; rfl, hc⟩

/-- A scalar is read, whatever follows that does not carry it on. -/
theorem readScalar_of_value {v : Json} {t : List Char} (h : Value v t) (hv : v.isContainer = false)
    {rest : List Char} (hrest : Ends rest) :
    ∃ c t', t = c :: t' ∧ c ≠ '[' ∧ c ≠ '{' ∧
      readScalar .strict c (t' ++ rest) = .ok (v, rest) := by
  cases h with
  | nullWord =>
    refine ⟨'n', _, rfl, by decide, by decide, ?_⟩
    rw [readScalar, if_pos rfl, readWord_append]
    rfl
  | trueWord =>
    refine ⟨'t', _, rfl, by decide, by decide, ?_⟩
    rw [readScalar, if_neg (by decide), if_pos rfl, readWord_append]
    rfl
  | falseWord =>
    refine ⟨'f', _, rfl, by decide, by decide, ?_⟩
    rw [readScalar, if_neg (by decide), if_neg (by decide), if_pos rfl, readWord_append]
    rfl
  | string hs =>
    obtain ⟨hchars⟩ := hs
    obtain ⟨t', ht', hread⟩ := readString_of_quoted (.mk hchars) rest
    cases ht'
    refine ⟨'"', _, rfl, by decide, by decide, ?_⟩
    rw [readScalar, if_neg (by decide), if_neg (by decide), if_neg (by decide), if_pos rfl]
    show (readString .strict _ >>= _) = _
    rw [← List.append_eq, hread]
    rfl
  | number hnumber hvalue =>
    cases hnumber with
    | positive hneg ht =>
      obtain ⟨c, t', rfl, hc⟩ := ht.exists_cons
      refine ⟨c, t', rfl, ?_, ?_, ?_⟩
      · rintro rfl
        cases hc
      · rintro rfl
        cases hc
      · rw [readScalar_digit .strict hc, ← List.cons_append, ← hneg]
        exact readNumber_of_unsigned ht hvalue hrest
    | negative hneg ht =>
      refine ⟨'-', _, rfl, by decide, by decide, ?_⟩
      rw [readScalar, if_neg (by decide), if_neg (by decide), if_neg (by decide),
        if_neg (by decide), if_pos rfl, ← hneg]
      exact readNumber_of_unsigned ht hvalue hrest
  | emptyArray => cases hv
  | array => cases hv
  | emptyObject => cases hv
  | object => cases hv

theorem value_of_readScalar {c : Char} {text : List Char} {v : Json} {rest : List Char}
    (h : readScalar .strict c text = .ok (v, rest)) :
    (∃ t, c :: text = t ++ rest ∧ Value v t) ∧ v.depth = 0 := by
  unfold readScalar at h
  split_ifs at h with hn ht hf hq hm hd
  · obtain ⟨rest', hword, hpure⟩ := bind_eq_ok_iff.mp h
    cases hpure
    rw [hn, eq_append_of_readWord hword]
    exact ⟨⟨_, rfl, .nullWord⟩, rfl⟩
  · obtain ⟨rest', hword, hpure⟩ := bind_eq_ok_iff.mp h
    cases hpure
    rw [ht, eq_append_of_readWord hword]
    exact ⟨⟨_, rfl, .trueWord⟩, rfl⟩
  · obtain ⟨rest', hword, hpure⟩ := bind_eq_ok_iff.mp h
    cases hpure
    rw [hf, eq_append_of_readWord hword]
    exact ⟨⟨_, rfl, .falseWord⟩, rfl⟩
  · obtain ⟨⟨s, rest'⟩, hstring, hpure⟩ := bind_eq_ok_iff.mp h
    cases hpure
    obtain ⟨q, htext, hs⟩ := quoted_of_readString hstring
    rw [hq, htext]
    exact ⟨⟨q, rfl, .string hs⟩, rfl⟩
  · obtain ⟨n, t, hneg, rfl, ht, hv⟩ := unsigned_of_readNumber h
    rw [hm]
    exact ⟨⟨'-' :: t, rfl, .number (.negative hneg ht) hv⟩, depth_of_value hv⟩
  · obtain ⟨n, t, hneg, htext, ht, hv⟩ := unsigned_of_readNumber h
    rw [htext]
    exact ⟨⟨t, rfl, .number (.positive hneg ht) hv⟩, depth_of_value hv⟩

/-! ### Between the parts of a container -/

theorem readSeparator_cases {close : Char} {text : List Char} {again : Bool} {rest : List Char}
    (h : readSeparator close text = .ok (again, rest)) :
    (again = false ∧ text = close :: rest) ∨
      (again = true ∧ ∃ b, Blank b ∧ text = ',' :: (b ++ rest)) := by
  rcases text with _ | ⟨c, text⟩
  · cases h
  · rw [readSeparator] at h
    split_ifs at h with hclose hcomma
    · cases h
      exact Or.inl ⟨rfl, by rw [hclose]⟩
    · cases h
      obtain ⟨b, hb, htext⟩ := exists_blank text
      exact Or.inr ⟨rfl, b, hb, by rw [hcomma, ← htext]⟩

theorem quoted_of_readName {text : List Char} {k : String} {rest : List Char}
    (h : readName .strict text = .ok (k, rest)) : ∃ q, text = q ++ rest ∧ Quoted k q := by
  rcases text with _ | ⟨c, text⟩
  · cases h
  · rw [readName] at h
    split_ifs at h with hc
    obtain ⟨q, htext, hq⟩ := quoted_of_readString h
    exact ⟨q, by rw [hc, htext], hq⟩

theorem blank_of_readColon {text rest : List Char} (h : readColon text = .ok rest) :
    ∃ b, Blank b ∧ text = b ++ ':' :: rest := by
  obtain ⟨b, hb, htext⟩ := exists_blank text
  unfold readColon at h
  split at h
  · cases h
  · next text' hskip =>
    cases h
    rw [hskip] at htext
    exact ⟨b, hb, htext⟩
  · cases h

theorem deeper_eq_ok {d d' : Nat} (h : deeper .strict d = .ok d') : d = d' + 1 := by
  rcases d with _ | d
  · cases h
  · cases h
    rfl

/-! ### What is read is written -/

mutual

/-- What is read as a value writes it, with white space before it. -/
theorem value_of_readValue : ∀ {fuel d : Nat} {text : List Char} {v : Json} {rest : List Char},
    readValue .strict fuel d text = .ok (v, rest) →
    ∃ b t, text = b ++ (t ++ rest) ∧ Blank b ∧ Value v t ∧ v.depth ≤ d
  | 0, _, _, _, _, h => by
    rw [readValue] at h
    cases h
  | fuel + 1, d, text, v, rest, h => by
    obtain ⟨b, hb, htext⟩ := exists_blank text
    rw [readValue] at h
    rcases hskip : skipBlank text with _ | ⟨c, text'⟩
    · rw [hskip] at h
      cases h
    · rw [hskip] at h htext
      dsimp only at h
      split_ifs at h with harray hobject
      · obtain ⟨d', hd, h⟩ := bind_eq_ok_iff.mp h
        obtain ⟨⟨items, rest'⟩, hread, hpure⟩ := bind_eq_ok_iff.mp h
        cases hpure
        obtain ⟨t, rfl, ht, hdepth⟩ := array_of_readItems hread
        refine ⟨b, '[' :: t, by rw [htext, harray]; rfl, hb, ht, ?_⟩
        rw [deeper_eq_ok hd]
        exact Nat.succ_le_succ hdepth
      · obtain ⟨d', hd, h⟩ := bind_eq_ok_iff.mp h
        obtain ⟨⟨members, rest'⟩, hread, hpure⟩ := bind_eq_ok_iff.mp h
        cases hpure
        obtain ⟨t, rfl, ht, hdepth⟩ := object_of_readMembers hread
        refine ⟨b, '{' :: t, by rw [htext, hobject]; rfl, hb, ht, ?_⟩
        rw [deeper_eq_ok hd]
        exact Nat.succ_le_succ hdepth
      · obtain ⟨⟨t, ht, hv⟩, hdepth⟩ := value_of_readScalar h
        exact ⟨b, t, by rw [htext, ht], hb, hv, by omega⟩

/-- What is read behind an opening bracket makes an array with it. -/
theorem array_of_readItems : ∀ {fuel d : Nat} {text : List Char} {items : List Json}
    {rest : List Char}, readItems .strict fuel d text = .ok (items, rest) →
    ∃ t, text = t ++ rest ∧ Value (.array items) ('[' :: t) ∧ itemsDepth items ≤ d
  | 0, _, _, _, _, h => by
    rw [readItems] at h
    cases h
  | fuel + 1, d, text, items, rest, h => by
    obtain ⟨b, hb, htext⟩ := exists_blank text
    unfold readItems at h
    split at h
    · cases h
    · next text' hskip =>
      cases h
      rw [hskip] at htext
      refine ⟨b ++ [']'], ?_, .emptyArray hb, Nat.zero_le _⟩
      rw [htext, List.append_assoc, List.singleton_append]
    · obtain ⟨b', t, ht, hb', hitems, hdepth⟩ := items_of_readMoreItems h
      rw [ht] at htext
      have hvalue := Value.array (hb.append hb') hitems
      refine ⟨_, ?_, hvalue, hdepth⟩
      rw [htext]
      simp only [List.append_assoc, List.singleton_append]

/-- What is read as items writes them, up to the closing bracket. -/
theorem items_of_readMoreItems : ∀ {fuel d : Nat} {text : List Char} {items : List Json}
    {rest : List Char}, readMoreItems .strict fuel d text = .ok (items, rest) →
    ∃ b t, text = b ++ (t ++ ']' :: rest) ∧ Blank b ∧ Items items t ∧ itemsDepth items ≤ d
  | 0, _, _, _, _, h => by
    rw [readMoreItems] at h
    cases h
  | fuel + 1, d, text, items, rest, h => by
    rw [readMoreItems] at h
    obtain ⟨⟨item, text1⟩, hitem, h⟩ := bind_eq_ok_iff.mp h
    obtain ⟨⟨again, text2⟩, hseparator, h⟩ := bind_eq_ok_iff.mp h
    obtain ⟨b, t, rfl, hb, ht, hdepth⟩ := value_of_readValue hitem
    obtain ⟨b1, hb1, htext1⟩ := exists_blank text1
    rcases readSeparator_cases hseparator with ⟨rfl, hclose⟩ | ⟨rfl, b2, hb2, hcomma⟩
    · cases h
      refine ⟨b, t ++ b1, ?_, hb, .last ht hb1, ?_⟩
      · rw [htext1, hclose]
        simp only [List.append_assoc]
      · rw [itemsDepth, itemsDepth]
        omega
    · obtain ⟨⟨more, rest'⟩, hmore, hpure⟩ := bind_eq_ok_iff.mp h
      cases hpure
      obtain ⟨b3, t', rfl, hb3, ht', hdepth'⟩ := items_of_readMoreItems hmore
      refine ⟨b, _, ?_, hb, .cons ht hb1 (hb2.append hb3) ht', ?_⟩
      · rw [htext1, hcomma]
        simp only [List.append_assoc, List.cons_append]
      · rw [itemsDepth]
        omega

/-- What is read behind an opening brace makes an object with it. -/
theorem object_of_readMembers : ∀ {fuel d : Nat} {text : List Char}
    {members : List (String × Json)} {rest : List Char},
    readMembers .strict fuel d text = .ok (members, rest) →
    ∃ t, text = t ++ rest ∧ Value (.object members) ('{' :: t) ∧ membersDepth members ≤ d
  | 0, _, _, _, _, h => by
    rw [readMembers] at h
    cases h
  | fuel + 1, d, text, members, rest, h => by
    obtain ⟨b, hb, htext⟩ := exists_blank text
    unfold readMembers at h
    split at h
    · cases h
    · next text' hskip =>
      cases h
      rw [hskip] at htext
      refine ⟨b ++ ['}'], ?_, .emptyObject hb, Nat.zero_le _⟩
      rw [htext, List.append_assoc, List.singleton_append]
    · obtain ⟨t, ht, hmembers, hdepth⟩ := members_of_readMoreMembers h
      rw [ht] at htext
      have hvalue := Value.object hb hmembers
      refine ⟨_, ?_, hvalue, hdepth⟩
      rw [htext]
      simp only [List.append_assoc, List.singleton_append]

/-- What is read as members writes them, up to the closing brace. -/
theorem members_of_readMoreMembers : ∀ {fuel d : Nat} {text : List Char}
    {members : List (String × Json)} {rest : List Char},
    readMoreMembers .strict fuel d text = .ok (members, rest) →
    ∃ t, text = t ++ '}' :: rest ∧ Members members t ∧ membersDepth members ≤ d
  | 0, _, _, _, _, h => by
    rw [readMoreMembers] at h
    cases h
  | fuel + 1, d, text, members, rest, h => by
    rw [readMoreMembers] at h
    obtain ⟨⟨k, text1⟩, hname, h⟩ := bind_eq_ok_iff.mp h
    obtain ⟨text2, hcolon, h⟩ := bind_eq_ok_iff.mp h
    obtain ⟨⟨v, text3⟩, hvalue, h⟩ := bind_eq_ok_iff.mp h
    obtain ⟨⟨again, text4⟩, hseparator, h⟩ := bind_eq_ok_iff.mp h
    obtain ⟨q, rfl, hq⟩ := quoted_of_readName hname
    obtain ⟨b, hb, rfl⟩ := blank_of_readColon hcolon
    obtain ⟨b', t, rfl, hb', ht, hdepth⟩ := value_of_readValue hvalue
    obtain ⟨b1, hb1, htext3⟩ := exists_blank text3
    have hmember := Member.mk hq hb hb' ht
    rcases readSeparator_cases hseparator with ⟨rfl, hclose⟩ | ⟨rfl, b2, hb2, hcomma⟩
    · cases h
      refine ⟨_, ?_, .last hmember hb1, ?_⟩
      · rw [htext3, hclose]
        simp only [List.append_assoc, List.cons_append]
      · rw [membersDepth, membersDepth]
        omega
    · obtain ⟨⟨more, rest'⟩, hmore, hpure⟩ := bind_eq_ok_iff.mp h
      cases hpure
      obtain ⟨t', rfl, ht', hdepth'⟩ := members_of_readMoreMembers hmore
      refine ⟨_, ?_, .cons hmember hb1 hb2 ht', ?_⟩
      · rw [htext3, hcomma]
        simp only [List.append_assoc, List.cons_append]
      · rw [membersDepth]
        omega

end

/-! ### What is written is read -/

/-- A value starts with a character that is neither white space nor the end of an array. -/
theorem Grammar.Value.exists_cons {v : Json} {t : List Char} (h : Value v t) :
    ∃ c t', t = c :: t' ∧ isBlank c = false ∧ c ≠ ']' := by
  cases h with
  | nullWord => exact ⟨_, _, rfl, rfl, by decide⟩
  | trueWord => exact ⟨_, _, rfl, rfl, by decide⟩
  | falseWord => exact ⟨_, _, rfl, rfl, by decide⟩
  | string hs =>
    cases hs
    exact ⟨_, _, rfl, rfl, by decide⟩
  | number hnumber _ =>
    cases hnumber with
    | positive _ ht =>
      obtain ⟨c, t', rfl, hc⟩ := ht.exists_cons
      refine ⟨c, t', rfl, isBlank_of_isDigit hc, ?_⟩
      rintro rfl
      cases hc
    | negative _ _ => exact ⟨_, _, rfl, rfl, by decide⟩
  | emptyArray => exact ⟨_, _, rfl, rfl, by decide⟩
  | array => exact ⟨_, _, rfl, rfl, by decide⟩
  | emptyObject => exact ⟨_, _, rfl, rfl, by decide⟩
  | object => exact ⟨_, _, rfl, rfl, by decide⟩

theorem Grammar.Items.exists_cons {items : List Json} {t : List Char} (h : Items items t) :
    ∃ c t', t = c :: t' ∧ isBlank c = false ∧ c ≠ ']' := by
  cases h with
  | last hv _ =>
    obtain ⟨c, t', rfl, hc⟩ := hv.exists_cons
    exact ⟨c, _, rfl, hc⟩
  | cons hv _ _ _ =>
    obtain ⟨c, t', rfl, hc⟩ := hv.exists_cons
    exact ⟨c, _, rfl, hc⟩

theorem Grammar.Member.exists_cons {k : String} {v : Json} {t : List Char} (h : Member k v t) :
    ∃ t', t = '"' :: t' := by
  obtain ⟨⟨_⟩, _, _, _⟩ := h
  exact ⟨_, rfl⟩

theorem Grammar.Members.exists_cons {members : List (String × Json)} {t : List Char}
    (h : Members members t) : ∃ t', t = '"' :: t' := by
  cases h with
  | last hm _ =>
    obtain ⟨t', rfl⟩ := hm.exists_cons
    exact ⟨_, rfl⟩
  | cons hm _ _ _ =>
    obtain ⟨t', rfl⟩ := hm.exists_cons
    exact ⟨_, rfl⟩

theorem readSeparator_close {close : Char} {b : List Char} (hb : Blank b)
    (hclose : isBlank close = false) (rest : List Char) :
    readSeparator close (skipBlank (b ++ close :: rest)) = .ok (false, rest) := by
  rw [skipBlank_blank_cons hb hclose, readSeparator, if_pos rfl]

theorem readSeparator_comma {close : Char} (hclose : close ≠ ',') {b b' : List Char} (hb : Blank b)
    (hb' : Blank b') {c : Char} (hc : isBlank c = false) (rest : List Char) :
    readSeparator close (skipBlank (b ++ ',' :: (b' ++ c :: rest))) = .ok (true, c :: rest) := by
  rw [skipBlank_blank_cons hb (by decide), readSeparator, if_neg hclose.symm, if_pos rfl,
    skipBlank_blank_cons hb' hc]

theorem readName_of_quoted {k : String} {q : List Char} (hq : Quoted k q) (rest : List Char) :
    readName .strict (q ++ rest) = .ok (k, rest) := by
  obtain ⟨t, ht, hread⟩ := readString_of_quoted hq rest
  rw [ht, readName, if_pos rfl, hread]

theorem readColon_of_blank {b : List Char} (hb : Blank b) (rest : List Char) :
    readColon (b ++ ':' :: rest) = .ok rest := by
  rw [readColon, skipBlank_blank_cons hb (by decide)]
  rfl

theorem readItems_of_cons (care : Care) (fuel d : Nat) {b : List Char} (hb : Blank b) {c : Char}
    (hc : isBlank c = false) (hne : c ≠ ']') (rest : List Char) :
    readItems care (fuel + 1) d (b ++ c :: rest) = readMoreItems care fuel d (c :: rest) := by
  unfold readItems
  rw [skipBlank_blank_cons hb hc]
  split
  · next h => cases h
  · next h =>
    cases h
    exact absurd rfl hne
  · rfl

theorem readMembers_of_quote (care : Care) (fuel d : Nat) {b : List Char} (hb : Blank b)
    (rest : List Char) :
    readMembers care (fuel + 1) d (b ++ '"' :: rest) = readMoreMembers care fuel d ('"' :: rest) := by
  rw [readMembers, skipBlank_blank_cons hb (by decide)]
  rfl

theorem deeper_of_le {n d : Nat} (h : n + 1 ≤ d) : ∃ d', deeper .strict d = .ok d' ∧ n ≤ d' := by
  rcases d with _ | d
  · omega
  · exact ⟨d, rfl, Nat.le_of_succ_le_succ h⟩

theorem readValue_blank_append (care : Care) (d : Nat) {b : List Char} (hb : Blank b)
    (text : List Char) : ∀ fuel : Nat,
    readValue care fuel d (b ++ text) = readValue care fuel d text
  | 0 => by rw [readValue, readValue]
  | fuel + 1 => by rw [readValue, readValue, skipBlank_append hb]

theorem readMoreItems_of_item {care : Care} {fuel d : Nat} {text : List Char} {v : Json}
    {rest : List Char} (h : readValue care fuel d text = .ok (v, rest)) :
    readMoreItems care (fuel + 1) d text =
      (readSeparator ']' (skipBlank rest) >>= fun s =>
        if s.1 then readMoreItems care fuel d s.2 >>= fun r => .ok (v :: r.1, r.2)
        else .ok ([v], s.2)) := by
  rw [readMoreItems, h]
  rfl

theorem readMoreMembers_of_member {fuel d : Nat} {k : String} {q b b' text : List Char} {v : Json}
    {rest : List Char} (hq : Quoted k q) (hb : Blank b) (hb' : Blank b')
    (h : readValue .strict fuel d text = .ok (v, rest)) :
    readMoreMembers .strict (fuel + 1) d (q ++ (b ++ ':' :: (b' ++ text))) =
      (readSeparator '}' (skipBlank rest) >>= fun s =>
        if s.1 then readMoreMembers .strict fuel d s.2 >>= fun r => .ok ((k, v) :: r.1, r.2)
        else .ok ([(k, v)], s.2)) := by
  rw [readMoreMembers, readName_of_quoted hq]
  show (readColon _ >>= _) = _
  rw [readColon_of_blank hb]
  show (readValue .strict fuel d _ >>= _) = _
  rw [readValue_blank_append _ _ hb', h]
  rfl

mutual

/-- A value is read, whatever follows that does not carry it on. -/
theorem readValue_of_value : ∀ {fuel d : Nat} {v : Json} {t : List Char}, Value v t → v.depth ≤ d →
    3 * t.length ≤ fuel → ∀ {rest : List Char}, Ends rest →
    readValue .strict fuel d (t ++ rest) = .ok (v, rest)
  | 0, d, v, t, h, _, hfuel, rest, _ => by
    -- three steps of fuel for a character are enough, since each container writes two brackets
    obtain ⟨c, t', rfl, -⟩ := h.exists_cons
    rw [List.length_cons] at hfuel
    omega
  | fuel + 1, d, v, t, h, hdepth, hfuel, rest, hrest => by
    obtain ⟨c, t', rfl, hc, -⟩ := h.exists_cons
    rw [List.cons_append, readValue, skipBlank_cons hc]
    dsimp only
    rcases hv : v.isContainer with _ | _
    · obtain ⟨c', t'', heq, harray, hobject, hread⟩ := readScalar_of_value h hv hrest
      cases heq
      rw [if_neg harray, if_neg hobject, hread]
    · rcases v with _ | _ | _ | _ | _ | items | members
      all_goals try cases hv
      · obtain ⟨d', hd, hdepth⟩ := deeper_of_le hdepth
        obtain ⟨rfl, hread⟩ := readItems_of_array h hdepth hfuel rest
        rw [if_pos rfl, hd]
        show (readItems .strict fuel d' (t' ++ rest) >>= _) = _
        rw [hread]
        rfl
      · obtain ⟨d', hd, hdepth⟩ := deeper_of_le hdepth
        obtain ⟨rfl, hread⟩ := readMembers_of_object h hdepth hfuel rest
        rw [if_neg (by decide), if_pos rfl, hd]
        show (readMembers .strict fuel d' (t' ++ rest) >>= _) = _
        rw [hread]
        rfl

/-- An array is read behind its opening bracket. -/
theorem readItems_of_array : ∀ {fuel d : Nat} {items : List Json} {c : Char} {t : List Char},
    Value (.array items) (c :: t) → itemsDepth items ≤ d → 3 * (t.length + 1) ≤ fuel + 1 →
    ∀ rest : List Char, c = '[' ∧ readItems .strict fuel d (t ++ rest) = .ok (items, rest)
  | 0, d, items, c, t, h, _, hfuel, rest => by omega
  | fuel + 1, d, items, c, t, h, hdepth, hfuel, rest => by
    cases h with
    | number _ hv => cases depth_of_value hv
    | @emptyArray b hb =>
      refine ⟨rfl, ?_⟩
      rw [List.append_assoc, readItems, List.singleton_append, skipBlank_blank_cons hb (by decide)]
      rfl
    | @array _ b t hb hitems =>
      refine ⟨rfl, ?_⟩
      obtain ⟨c, t', rfl, hc, hne⟩ := hitems.exists_cons
      rw [List.append_assoc, List.append_assoc, List.cons_append, readItems_of_cons _ _ _ hb hc hne,
        ← List.cons_append, List.singleton_append]
      refine readMoreItems_of_items hitems hdepth ?_ rest
      simp only [List.length_append, List.length_cons, List.length_nil] at hfuel ⊢
      omega

/-- Items are read up to the closing bracket. -/
theorem readMoreItems_of_items : ∀ {fuel d : Nat} {items : List Json} {t : List Char},
    Items items t → itemsDepth items ≤ d → 3 * t.length + 1 ≤ fuel → ∀ rest : List Char,
    readMoreItems .strict fuel d (t ++ ']' :: rest) = .ok (items, rest)
  | 0, d, items, t, h, _, hfuel, rest => by omega
  | fuel + 1, d, items, t, h, hdepth, hfuel, rest => by
    cases h with
    | @last v t b hv hb =>
      rw [itemsDepth] at hdepth
      rw [List.length_append] at hfuel
      have hread : readValue .strict fuel d (t ++ (b ++ ']' :: rest)) = .ok (v, b ++ ']' :: rest) :=
        readValue_of_value hv (by omega) (by omega)
          (ends_blank_append hb (ends_cons (by decide) rest))
      rw [List.append_assoc, readMoreItems_of_item hread, readSeparator_close hb (by decide)]
      rfl
    | @cons v vs t b b' t' hv hb hb' hvs =>
      rw [itemsDepth] at hdepth
      simp only [List.length_append, List.length_cons] at hfuel
      obtain ⟨c, t'', rfl, hc, -⟩ := hvs.exists_cons
      have hread : readValue .strict fuel d (t ++ (b ++ ',' :: (b' ++ c :: (t'' ++ ']' :: rest)))) =
          .ok (v, b ++ ',' :: (b' ++ c :: (t'' ++ ']' :: rest))) :=
        readValue_of_value hv (by omega) (by omega)
          (ends_blank_append hb (ends_cons (by decide) _))
      have hmore : readMoreItems .strict fuel d (c :: (t'' ++ ']' :: rest)) = .ok (vs, rest) :=
        readMoreItems_of_items hvs (by omega) (by omega) rest
      simp only [List.append_assoc, List.cons_append]
      rw [readMoreItems_of_item hread, readSeparator_comma (by decide) hb hb' hc]
      show (readMoreItems .strict fuel d _ >>= _) = _
      rw [hmore]
      rfl

/-- An object is read behind its opening brace. -/
theorem readMembers_of_object : ∀ {fuel d : Nat} {members : List (String × Json)} {c : Char}
    {t : List Char}, Value (.object members) (c :: t) → membersDepth members ≤ d →
    3 * (t.length + 1) ≤ fuel + 1 →
    ∀ rest : List Char, c = '{' ∧ readMembers .strict fuel d (t ++ rest) = .ok (members, rest)
  | 0, d, members, c, t, h, _, hfuel, rest => by omega
  | fuel + 1, d, members, c, t, h, hdepth, hfuel, rest => by
    cases h with
    | number _ hv => cases depth_of_value hv
    | @emptyObject b hb =>
      refine ⟨rfl, ?_⟩
      rw [List.append_assoc, readMembers, List.singleton_append,
        skipBlank_blank_cons hb (by decide)]
      rfl
    | @object _ b t hb hmembers =>
      refine ⟨rfl, ?_⟩
      obtain ⟨t', rfl⟩ := hmembers.exists_cons
      rw [List.append_assoc, List.append_assoc, List.cons_append, readMembers_of_quote _ _ _ hb,
        ← List.cons_append, List.singleton_append]
      refine readMoreMembers_of_members hmembers hdepth ?_ rest
      simp only [List.length_append, List.length_cons, List.length_nil] at hfuel ⊢
      omega

/-- Members are read up to the closing brace. -/
theorem readMoreMembers_of_members : ∀ {fuel d : Nat} {members : List (String × Json)}
    {t : List Char}, Members members t → membersDepth members ≤ d → 3 * t.length + 1 ≤ fuel →
    ∀ rest : List Char, readMoreMembers .strict fuel d (t ++ '}' :: rest) = .ok (members, rest)
  | 0, d, members, t, h, _, hfuel, rest => by omega
  | fuel + 1, d, members, t, h, hdepth, hfuel, rest => by
    cases h with
    | @last k v _ b hm hb =>
      obtain @⟨_, _, q, b1, b2, t, hq, hb1, hb2, hv⟩ := hm
      rw [membersDepth] at hdepth
      simp only [List.length_append, List.length_cons] at hfuel
      have hread : readValue .strict fuel d (t ++ (b ++ '}' :: rest)) = .ok (v, b ++ '}' :: rest) :=
        readValue_of_value hv (by omega) (by omega)
          (ends_blank_append hb (ends_cons (by decide) rest))
      simp only [List.append_assoc, List.cons_append]
      rw [readMoreMembers_of_member hq hb1 hb2 hread, readSeparator_close hb (by decide)]
      rfl
    | @cons k v ms _ b b' t' hm hb hb' hms =>
      obtain @⟨_, _, q, b1, b2, t, hq, hb1, hb2, hv⟩ := hm
      rw [membersDepth] at hdepth
      simp only [List.length_append, List.length_cons] at hfuel
      obtain ⟨t'', rfl⟩ := hms.exists_cons
      have hread : readValue .strict fuel d
            (t ++ (b ++ ',' :: (b' ++ '"' :: (t'' ++ '}' :: rest)))) =
          .ok (v, b ++ ',' :: (b' ++ '"' :: (t'' ++ '}' :: rest))) :=
        readValue_of_value hv (by omega) (by omega)
          (ends_blank_append hb (ends_cons (by decide) _))
      have hmore : readMoreMembers .strict fuel d ('"' :: (t'' ++ '}' :: rest)) = .ok (ms, rest) :=
        readMoreMembers_of_members hms (by omega) (by omega) rest
      simp only [List.append_assoc, List.cons_append]
      rw [readMoreMembers_of_member hq hb1 hb2 hread, readSeparator_comma (by decide) hb hb' rfl]
      show (readMoreMembers .strict fuel d _ >>= _) = _
      rw [hmore]
      rfl

end

/-! ### Whole texts -/

/-- The fuel of the wrappers is enough. -/
theorem readFront_of_value {b : List Char} (hb : Blank b) {v : Json} {t : List Char} (h : Value v t)
    {d : Nat} (hdepth : v.depth ≤ d) {rest : List Char} (hrest : Ends rest) :
    readFront .strict d (b ++ (t ++ rest)) = .ok (v, rest) := by
  rw [readFront, readValue_blank_append _ _ hb]
  refine readValue_of_value h hdepth ?_ hrest
  simp only [fuelFor, List.length_append]
  omega

theorem expectEnd_of_blank {b : List Char} (hb : Blank b) : expectEnd b = .ok () := by
  have hskip : skipBlank b = [] := List.dropWhile_eq_nil_iff.mpr hb
  rw [expectEnd, hskip]

theorem blank_of_expectEnd {text : List Char} (h : expectEnd text = .ok ()) : Blank text := by
  unfold expectEnd at h
  split at h
  · next hskip => exact List.dropWhile_eq_nil_iff.mp hskip
  · cases h

/-- **The reader accepts the grammar**: a text is read as a value exactly when it writes the value,
with containers at most `maxDepth` deep. -/
theorem readTree_eq_ok_iff {text : List Char} {v : Json} :
    readTree text = .ok v ↔ Padded v text ∧ v.depth ≤ maxDepth := by
  constructor
  · intro h
    obtain ⟨⟨v', rest⟩, hread, h⟩ := bind_eq_ok_iff.mp h
    obtain ⟨⟨⟩, hend, hpure⟩ := bind_eq_ok_iff.mp h
    cases hpure
    obtain ⟨b, t, rfl, hb, ht, hdepth⟩ := value_of_readValue hread
    exact ⟨⟨b, t, rest, hb, ht, blank_of_expectEnd hend, rfl⟩, hdepth⟩
  · rintro ⟨⟨b, t, b', hb, ht, hb', rfl⟩, hdepth⟩
    have hends : Ends b' := by
      have h := ends_blank_append hb' ends_nil
      rwa [List.append_nil] at h
    rw [readTree, readFront_of_value hb ht hdepth hends]
    show (expectEnd b' >>= _) = _
    rw [expectEnd_of_blank hb']
    rfl

/-- The value in canonical form of a text that writes one. -/
theorem read_eq_ok_iff {text : List Char} {v : Json} :
    read text = .ok v ↔ ∃ w, (Padded w text ∧ w.depth ≤ maxDepth) ∧ w.canonical = v := by
  constructor
  · intro h
    obtain ⟨w, hw, hpure⟩ := bind_eq_ok_iff.mp h
    cases hpure
    exact ⟨w, readTree_eq_ok_iff.mp hw, rfl⟩
  · rintro ⟨w, hw, rfl⟩
    rw [read, readTree_eq_ok_iff.mpr hw]
    rfl

end CaretLayout.Json
