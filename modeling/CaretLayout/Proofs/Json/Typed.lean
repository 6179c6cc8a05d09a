import CaretLayout.Json.Typed
import CaretLayout.Proofs.Json.Reader

/-!
# Values and records of a type

A string is read where one is asked for, and any other value there is a fault that names it
(`wrongTypeFault_of_value`).  A member of a record that is a string goes into its
field (`readMember_of_string`).
-/

namespace CaretLayout.Json

open Grammar

/-! ### Strings -/

/-- A string is read where one is asked for. -/
theorem readStringFor_of_quoted (expected : String) {b : List Char} (hb : Blank b) {s : String}
    {q : List Char} (hq : Quoted s q) (rest : List Char) :
    readStringFor expected (b ++ (q ++ rest)) = .ok (s, rest) := by
  obtain ⟨t, ht, hread⟩ := readString_of_quoted hq rest
  rw [readStringFor, ht, skipBlank_blank_cons hb (by decide)]
  exact hread

theorem quoted_of_value {s : String} {t : List Char} (h : Value (.string s) t) : Quoted s t := by
  cases h with
  | string hq => exact hq
  | number _ hv => rcases value_cases hv with ⟨x, hx⟩ | ⟨-, -, k, -, ⟨-, hx⟩ | ⟨-, -, hx⟩⟩ <;> cases hx

theorem exists_string_of_value {v : Json} {t : List Char} (h : Value v ('"' :: t)) :
    ∃ s, v = .string s := by
  cases h with
  | string hq => exact ⟨_, rfl⟩
  | number hn _ =>
    cases hn with
    | positive _ ht =>
      obtain ⟨c, t', ht', hc⟩ := ht.exists_cons
      cases ht'
      cases hc

/-! ### Values of another type -/

/-- The fault of a value of another type names what the value is. -/
theorem wrongTypeFault_of_value {expected : String} {c : Char} {t : List Char} {v : Json}
    (h : Value v (c :: t)) {rest : List Char} (hrest : Ends rest) :
    wrongTypeFault expected c (t ++ rest) = .data (.wrongType (.ofJson v) expected) := by
  have hscalar : v.isContainer = false →
      wrongTypeFault expected c (t ++ rest) = .data (.wrongType (.ofJson v) expected) := by
    intro hv
    obtain ⟨c', t', ht, hopen, hbrace, hread⟩ := readScalar_of_value h hv hrest
    cases ht
    rw [wrongTypeFault, if_neg hopen, if_neg hbrace, hread]
  cases h with
  | emptyArray => rfl
  | array => rfl
  | emptyObject => rfl
  | object => rfl
  | nullWord => exact hscalar rfl
  | trueWord => exact hscalar rfl
  | falseWord => exact hscalar rfl
  | string => exact hscalar rfl
  | number _ hv =>
    rcases value_cases hv with ⟨x, rfl⟩ | ⟨-, -, k, -, ⟨-, rfl⟩ | ⟨-, -, rfl⟩⟩
    · exact hscalar rfl
    · exact hscalar rfl
    · exact hscalar rfl

/-! ### Records -/

namespace RecordShape

variable {σ : Type} {shape : RecordShape σ}

/-- A member of a field that has not been seen and holds a string is read into the field. -/
theorem readMember_of_string (set : σ → String → σ) {seen : List String} {record : σ}
    {name s : String} {q b b' q' : List Char} {field : FieldReader σ} (hq : Quoted name q)
    (hb : Blank b) (hb' : Blank b') (hs : Quoted s q')
    (hfield : shape.fields.find? (·.name == name) = some field) (hseen : name ∉ seen)
    (hread : ∀ record text, field.read record text =
      (readTypedString text >>= fun r => .ok (set record r.1, r.2))) (rest : List Char) :
    shape.readMember seen record (q ++ (b ++ ':' :: (b' ++ (q' ++ rest)))) =
      .ok ((name :: seen, set record s), rest) := by
  rw [readMember, readMemberName, readName_of_quoted hq]
  dsimp only [bind, Except.bind]
  rw [hfield]
  dsimp only
  rw [if_neg (by simpa using hseen), readColon_of_blank hb]
  dsimp only
  rw [hread, readTypedString, readStringFor_of_quoted _ hb' hs]
  rfl

/-- A member is read, and then what the separator behind it announces. -/
theorem readMembers_of_member {fuel : Nat} {seen seen' : List String} {record record' : σ}
    {text rest : List Char}
    (h : shape.readMember seen record text = .ok ((seen', record'), rest)) :
    shape.readMembers (fuel + 1) seen record text =
      (readSeparator '}' (skipBlank rest) >>= fun s =>
        if s.1 then shape.readMembers fuel seen' record' s.2 else .ok ((seen', record'), s.2)) := by
  rw [readMembers, h]
  rfl

/-- An object whose members are read, with none missing, is read as a record. -/
theorem readRecord_of_members {seen : List String} {initial record : σ} {text rest : List Char}
    (hquote : text.head? = some '"')
    (h : ∀ fuel, shape.readMembers (fuel + 2) [] initial text = .ok ((seen, record), rest))
    (hmissing : shape.missing? seen = none) :
    shape.readRecord initial ('{' :: text) = .ok (record, rest) := by
  obtain ⟨t, rfl⟩ := List.head?_eq_some_iff.mp hquote
  rw [readRecord, skipBlank_cons (by decide)]
  dsimp only
  rw [if_pos rfl, skipBlank_cons (by decide)]
  show (shape.readMembers (t.length + 2) [] initial ('"' :: t) >>= _) = _
  rw [h]
  dsimp only [bind, Except.bind]
  rw [hmissing]
  rfl

end RecordShape

end CaretLayout.Json
