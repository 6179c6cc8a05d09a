import CaretLayout.Proofs.Json.Token

/-!
# Integers in JSON texts

A text writes an integer exactly when it is the decimal form of the integer and the integer fits into
64 bits, signed or unsigned (`value_int_iff`): there is no other spelling, and neither a fraction nor
an exponent nor `-0` is an integer.  Decimal digits without a superfluous zero are those of their
value (`eq_digitsOf`), and `absorb` computes this value as long as it stays within the bound.
-/

namespace CaretLayout.Json

open Grammar

/-- Whether an integer fits into 64 bits, signed or unsigned. -/
def Fits64 (i : Int) : Prop :=
  -9223372036854775808 ≤ i ∧ i ≤ 18446744073709551615

instance (i : Int) : Decidable (Fits64 i) :=
  inferInstanceAs (Decidable (_ ∧ _))

theorem maxWord_eq : maxWord = 18446744073709551615 := by decide

/-! ### Digits and their value -/

/-- The number that decimal digits write. -/
def valueOf (ds : List Char) : Nat :=
  Nat.ofDigitChars 10 ds 0

theorem valueOf_digitsOf (n : Nat) : valueOf (Decimal.digitsOf n) = n :=
  Nat.ofDigitChars_ten_toDigits

theorem le_ofDigitChars (ds : List Char) (n : Nat) : n ≤ Nat.ofDigitChars 10 ds n := by
  rw [Nat.ofDigitChars_eq_ofDigitChars_zero]
  have hpow : 1 ≤ 10 ^ ds.length := Nat.one_le_pow _ _ (by decide)
  have hmul := Nat.mul_le_mul_right n hpow
  omega

/-- Digits are absorbed as long as the value stays within the bound. -/
theorem absorb_of_le {bound : Nat} : ∀ {ds : List Char} {n : Nat},
    Nat.ofDigitChars 10 ds n ≤ bound → absorb bound n ds = (Nat.ofDigitChars 10 ds n, [])
  | [], n, _ => by rw [absorb, Nat.ofDigitChars_nil]
  | c :: ds, n, h => by
    rw [Nat.ofDigitChars_cons] at h ⊢
    have hnext : n * 10 + digitValue c = 10 * n + (c.toNat - '0'.toNat) := by
      rw [Nat.mul_comm]
      rfl
    have hle := le_ofDigitChars ds (10 * n + (c.toNat - '0'.toNat))
    rw [absorb, hnext, if_neg (by omega), absorb_of_le h]

/-- If all digits are absorbed, the value stays within the bound. -/
theorem absorb_eq_nil {bound : Nat} : ∀ {ds : List Char} {n k : Nat},
    absorb bound n ds = (k, []) → k = Nat.ofDigitChars 10 ds n ∧ (n ≤ bound → k ≤ bound)
  | [], n, k, h => by
    rw [absorb] at h
    cases h
    exact ⟨Nat.ofDigitChars_nil.symm, id⟩
  | c :: ds, n, k, h => by
    rw [absorb] at h
    split at h
    · cases h
    · next hle =>
      obtain ⟨hk, hbound⟩ := absorb_eq_nil h
      have hnext : n * 10 + digitValue c = 10 * n + (c.toNat - '0'.toNat) := by
        rw [Nat.mul_comm]
        rfl
      rw [hnext] at hk
      rw [Nat.ofDigitChars_cons]
      exact ⟨hk, fun _ => hbound (by omega)⟩

/-! ### Digits without a superfluous zero -/

theorem digitsOf_head {n : Nat} (h : (Decimal.digitsOf n).head? = some '0') :
    Decimal.digitsOf n = ['0'] := by
  induction n using Nat.strongRecOn with
  | ind n ih =>
    unfold Decimal.digitsOf at *
    by_cases hn : n < 10
    · rw [Nat.toDigits_of_lt_base hn] at h ⊢
      simpa using h
    · rw [Nat.toDigits_of_base_le (by decide) (by omega), List.head?_append] at h
      have hhead : (Nat.toDigits 10 (n / 10)).head? = some '0' := by
        rcases hd : (Nat.toDigits 10 (n / 10)).head? with _ | c
        · exact absurd (List.head?_eq_none_iff.mp hd) Nat.toDigits_ne_nil
        · rw [hd] at h
          exact h
      -- a number of two digits or more has more than a zero before its last digit
      have hzero := ih (n / 10) (by omega) hhead
      have hvalue := valueOf_digitsOf (n / 10)
      unfold Decimal.digitsOf at hvalue
      rw [hzero] at hvalue
      have hdiv : n / 10 = 0 := hvalue.symm
      omega

theorem wholeDigits_digitsOf (n : Nat) : WholeDigits (Decimal.digitsOf n) :=
  ⟨⟨Nat.toDigits_ne_nil, fun _ hc => Nat.isDigit_of_mem_toDigits (by decide) (by decide) hc⟩,
    digitsOf_head⟩

theorem digitsOf_of_isDigit {c : Char} (h : c.isDigit = true) :
    c.toNat - '0'.toNat < 10 ∧ Decimal.digitsOf (c.toNat - '0'.toNat) = [c] := by
  obtain ⟨hlow, hhigh⟩ := Char.isDigit_iff_toNat.mp h
  have h0 : '0'.toNat = 48 := rfl
  have h9 : '9'.toNat = 57 := rfl
  have hlt : c.toNat - '0'.toNat < 10 := by omega
  refine ⟨hlt, ?_⟩
  have hcode : 48 + (c.toNat - '0'.toNat) = c.toNat := by omega
  rw [Decimal.digitsOf, Nat.toDigits_of_lt_base hlt]
  generalize c.toNat - '0'.toNat = d at hlt hcode
  have hall : ∀ d < 10, Nat.digitChar d = Char.ofNat (48 + d) := by decide
  rw [hall d hlt, hcode, Char.ofNat_toNat]

/-- Digits behind those of a number that is not zero are digits of a number. -/
theorem digitsOf_append : ∀ {ds : List Char} {n : Nat}, (∀ c ∈ ds, c.isDigit = true) → 0 < n →
    Decimal.digitsOf n ++ ds = Decimal.digitsOf (Nat.ofDigitChars 10 ds n)
  | [], n, _, _ => by rw [List.append_nil, Nat.ofDigitChars_nil]
  | c :: ds, n, hds, hn => by
    obtain ⟨hlt, hc⟩ := digitsOf_of_isDigit (hds c List.mem_cons_self)
    have hnext : Decimal.digitsOf n ++ [c] =
        Decimal.digitsOf (10 * n + (c.toNat - '0'.toNat)) := by
      rw [← hc]
      exact Nat.toDigits_append_toDigits (by decide) hn hlt
    have ih := digitsOf_append (fun x hx => hds x (List.mem_cons_of_mem c hx))
      (n := 10 * n + (c.toNat - '0'.toNat)) (by omega)
    calc Decimal.digitsOf n ++ c :: ds
        = Decimal.digitsOf n ++ [c] ++ ds := List.append_cons ..
      _ = Decimal.digitsOf (10 * n + (c.toNat - '0'.toNat)) ++ ds := by rw [hnext]
      _ = Decimal.digitsOf (Nat.ofDigitChars 10 (c :: ds) n) := by rw [ih, Nat.ofDigitChars_cons]

/-- Digits without a superfluous zero are those of their value. -/
theorem eq_digitsOf {ds : List Char} (h : WholeDigits ds) : ds = Decimal.digitsOf (valueOf ds) := by
  obtain ⟨⟨hne, hall⟩, hzero⟩ := h
  obtain ⟨c, ds, rfl⟩ := List.exists_cons_of_ne_nil hne
  obtain ⟨-, hc⟩ := digitsOf_of_isDigit (hall c List.mem_cons_self)
  rw [valueOf, Nat.ofDigitChars_cons, Nat.mul_zero, Nat.zero_add]
  by_cases h0 : c.toNat - '0'.toNat = 0
  · rw [h0] at hc ⊢
    have hcz : c = '0' := by
      have hlist : ['0'] = [c] := hc
      exact (List.singleton_inj.mp hlist).symm
    have hds : ds = [] := by
      have := hzero (by rw [hcz]; rfl)
      exact (List.cons.inj this).2
    rw [hds, Nat.ofDigitChars_nil, hc]
  · rw [← digitsOf_append (fun x hx => hall x (List.mem_cons_of_mem c hx)) (Nat.pos_of_ne_zero h0),
      hc]
    rfl

/-! ### Integers -/

/-- What a numeral can write: a floating point number, or the integer that its digits write. -/
theorem value_cases {n : Numeral} {v : Json} (h : n.value = .ok v) :
    (∃ x, v = .float x) ∨ n.decimals = none ∧ n.power = none ∧
      ∃ k, absorb maxWord 0 n.whole = (k, []) ∧
        (n.negative = false ∧ v = .int k ∨
          n.negative = true ∧ (0 < k ∧ k ≤ 9223372036854775808) ∧ v = .int (-(k : Int))) := by
  have hfloat : (n.magnitude >>= fun m => Except.ok (Json.float ⟨n.negative, m⟩)) = .ok v →
      ∃ x, v = .float x := by
    intro hv
    obtain ⟨m, -, hpure⟩ := bind_eq_ok_iff.mp hv
    cases hpure
    exact ⟨_, rfl⟩
  unfold Numeral.value at h
  dsimp only at h
  split at h
  · next k hdecimals hpower habsorb =>
    rcases hneg : n.negative with _ | _
    · rw [hneg, if_pos (by decide)] at h
      cases h
      exact Or.inr ⟨hdecimals, hpower, k, habsorb, Or.inl ⟨rfl, rfl⟩⟩
    · rw [if_neg (by rw [hneg]; decide)] at h
      split at h
      · next hrange =>
        cases h
        exact Or.inr ⟨hdecimals, hpower, k, habsorb, Or.inr ⟨rfl, hrange, rfl⟩⟩
      · exact Or.inl (hfloat h)
  · exact Or.inl (hfloat h)

/-- A number is no container. -/
theorem depth_of_value {n : Numeral} {v : Json} (h : n.value = .ok v) : v.depth = 0 := by
  rcases value_cases h with ⟨x, rfl⟩ | ⟨-, -, k, -, ⟨-, rfl⟩ | ⟨-, -, rfl⟩⟩
  · rfl
  · rfl
  · rfl

/-- The decimal form of an integer as a numeral. -/
def Numeral.ofInt (i : Int) : Numeral where
  negative := decide (i < 0)
  whole := Decimal.digitsOf i.natAbs
  decimals := none
  power := none

theorem number_ofInt (i : Int) : Number (.ofInt i) (printInt i) := by
  have hunsigned : Unsigned (.ofInt i) (Decimal.digitsOf i.natAbs ++ ([] ++ [])) :=
    .mk (wholeDigits_digitsOf i.natAbs) .none .none
  rw [List.append_nil, List.append_nil] at hunsigned
  unfold printInt
  split
  · next hneg => exact .negative (decide_eq_true hneg) hunsigned
  · next hpos => exact .positive (decide_eq_false hpos) hunsigned

theorem value_ofInt {i : Int} (h : Fits64 i) : (Numeral.ofInt i).value = .ok (.int i) := by
  obtain ⟨hlow, hhigh⟩ := h
  have habsorb : absorb maxWord 0 (Decimal.digitsOf i.natAbs) = (i.natAbs, []) := by
    have hvalue := valueOf_digitsOf i.natAbs
    have hdone : valueOf (Decimal.digitsOf i.natAbs) ≤ maxWord →
        absorb maxWord 0 (Decimal.digitsOf i.natAbs) =
          (valueOf (Decimal.digitsOf i.natAbs), []) := absorb_of_le
    rw [hvalue, maxWord_eq] at hdone
    rw [maxWord_eq]
    exact hdone (by omega)
  unfold Numeral.value Numeral.ofInt
  dsimp only
  rw [habsorb]
  dsimp only
  by_cases hneg : i < 0
  · have hrange : 0 < i.natAbs ∧ i.natAbs ≤ Nat.pow 2 63 := by
      rw [show Nat.pow 2 63 = 9223372036854775808 from by decide]
      omega
    rw [decide_eq_true hneg, if_neg (by decide), if_pos hrange,
      show -(i.natAbs : Int) = i by omega]
  · rw [decide_eq_false hneg, if_pos (by decide), show (i.natAbs : Int) = i by omega]

/-- **The spelling of integers**: a text writes an integer exactly when it is its decimal form and
the integer fits into 64 bits. -/
theorem value_int_iff {i : Int} {t : List Char} :
    Value (.int i) t ↔ Fits64 i ∧ t = printInt i := by
  constructor
  · intro h
    obtain @⟨n, hnumber, hvalue⟩ : ∃ n, Number n t ∧ n.value = .ok (.int i) := by
      cases h with
      | number hnumber hvalue => exact ⟨_, hnumber, hvalue⟩
    rcases value_cases hvalue with ⟨x, hx⟩ | ⟨hdecimals, hpower, k, habsorb, hk⟩
    · cases hx
    · obtain ⟨hkv, hbound⟩ := absorb_eq_nil habsorb
      have hmax := hbound (Nat.zero_le _)
      rw [maxWord_eq] at hmax
      have hdigits : ∀ {u : List Char}, Unsigned n u → u = Decimal.digitsOf k := by
        rintro u ⟨hwhole, hd, hp⟩
        rw [hdecimals] at hd
        rw [hpower] at hp
        cases hd
        cases hp
        rw [List.append_nil, List.append_nil, hkv]
        exact eq_digitsOf hwhole
      unfold Fits64 printInt
      rcases hk with ⟨hneg, hi⟩ | ⟨hneg, hrange, hi⟩
      · cases hi
        cases hnumber with
        | positive _ hu =>
          rw [if_neg (by omega)]
          exact ⟨by omega, hdigits hu⟩
        | negative hneg' _ =>
          rw [hneg] at hneg'
          cases hneg'
      · cases hi
        cases hnumber with
        | positive hneg' _ =>
          rw [hneg] at hneg'
          cases hneg'
        | negative _ hu =>
          rw [if_pos (by omega), hdigits hu, show (-(k : Int)).natAbs = k by omega]
          exact ⟨by omega, rfl⟩
  · rintro ⟨hfits, rfl⟩
    exact .number (number_ofInt i) (value_ofInt hfits)

end CaretLayout.Json
