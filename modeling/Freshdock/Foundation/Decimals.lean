import Freshdock.Foundation.Text

/-!
# Decimal numerals

A numeral is a string of ASCII digits, leading zeros allowed. The number parser accepts the
numerals below its bound, and the numerals after a plus sign (`parseUnsigned_eq_some_iff`); a
number is printed as a numeral for it (`numeral_toString`).
-/

set_option autoImplicit false

namespace Freshdock.Text

/-- ASCII digits, at least one of them. -/
def IsDigits (s : String) : Prop := s.toList ≠ [] ∧ ∀ c ∈ s.toList, isAsciiDigit c = true

instance (s : String) : Decidable (IsDigits s) :=
  inferInstanceAs (Decidable (s.toList ≠ [] ∧ ∀ c ∈ s.toList, isAsciiDigit c = true))

/-- A digit string with the value `n`. -/
structure Numeral (s : String) (n : Nat) : Prop where
  digits : IsDigits s
  value : decimalValue s.toList = n

/-- A numeral, perhaps with a plus sign before it. -/
def SignedNumeral (s : String) (n : Nat) : Prop :=
  Numeral s n ∨ ∃ t, s = "+" ++ t ∧ Numeral t n

theorem IsDigits.not_mem {s : String} (h : IsDigits s) {c : Char} (hc : isAsciiDigit c = false) :
    c ∉ s.toList := by
  intro hmem
  rw [h.2 c hmem] at hc
  cases hc

theorem Numeral.unique {s : String} {n n' : Nat} (h : Numeral s n) (h' : Numeral s n') : n = n' :=
  h.value.symm.trans h'.value

theorem Numeral.signed {s : String} {n : Nat} (h : Numeral s n) : SignedNumeral s n := .inl h

/-- A numeral without a plus sign has none before it. -/
theorem SignedNumeral.numeral {s : String} {n : Nat} (h : SignedNumeral s n)
    (hplus : '+' ∉ s.toList) : Numeral s n := by
  rcases h with h | ⟨t, rfl, -⟩
  · exact h
  · exact absurd (by simp) hplus

theorem SignedNumeral.not_mem {s : String} {n : Nat} (h : SignedNumeral s n) {c : Char}
    (hc : isAsciiDigit c = false) (hplus : c ≠ '+') : c ∉ s.toList := by
  rcases h with h | ⟨t, rfl, h⟩
  · exact h.digits.not_mem hc
  · simpa [hplus] using h.digits.not_mem hc

/-- The digits the number parser reads: those after a plus sign, if there is one. -/
theorem parseUnsigned_digits {bound : Nat} {digits : List Char} {n : Nat} :
    (if digits.isEmpty || !digits.all isAsciiDigit then none
      else if decimalValue digits < bound then some (decimalValue digits) else none) = some n ↔
      Numeral (String.ofList digits) n ∧ n < bound := by
  have hdigits : (digits.isEmpty || !digits.all isAsciiDigit) = false ↔
      IsDigits (String.ofList digits) := by
    simp [IsDigits]
  by_cases h : IsDigits (String.ofList digits)
  · rw [hdigits.mpr h]
    have hnumeral : Numeral (String.ofList digits) n ↔ decimalValue digits = n :=
      ⟨fun hn => by simpa using hn.value, fun hn => ⟨h, by simpa using hn⟩⟩
    rw [hnumeral]
    simp only [Bool.false_eq_true, if_false, Option.ite_none_right_eq_some, Option.some.injEq]
    constructor
    · rintro ⟨hlt, rfl⟩
      exact ⟨rfl, hlt⟩
    · rintro ⟨rfl, hlt⟩
      exact ⟨hlt, rfl⟩
  · rw [Bool.not_eq_false _ |>.mp (mt hdigits.mp h)]
    simp only [if_true, reduceCtorEq, false_iff]
    exact fun hn => h hn.1.digits

/-- **The number parser accepts the numerals below its bound, with or without a plus sign.** -/
theorem parseUnsigned_eq_some_iff {bound : Nat} {s : String} {n : Nat} :
    parseUnsigned bound s = some n ↔ SignedNumeral s n ∧ n < bound := by
  have hplus (t : String) : s = "+" ++ t ↔ s.toList = '+' :: t.toList := by
    rw [← String.toList_inj, String.toList_append]
    rfl
  unfold parseUnsigned
  split
  · next rest hs =>
      rw [parseUnsigned_digits]
      have hrest : s = "+" ++ String.ofList rest := (hplus _).mpr (by simpa using hs)
      constructor
      · rintro ⟨h, hlt⟩
        exact ⟨.inr ⟨_, hrest, h⟩, hlt⟩
      · rintro ⟨h | ⟨t, ht, h⟩, hlt⟩
        · exact absurd (by simp [hs]) (h.digits.not_mem (c := '+') (by decide))
        · rw [ht] at hrest
          obtain rfl : t = String.ofList rest := by simpa using hrest
          exact ⟨h, hlt⟩
  · next hs =>
      rw [parseUnsigned_digits, String.ofList_toList]
      constructor
      · rintro ⟨h, hlt⟩
        exact ⟨.inl h, hlt⟩
      · rintro ⟨h | ⟨t, ht, -⟩, hlt⟩
        · exact ⟨h, hlt⟩
        · exact absurd ((hplus t).mp ht) (hs t.toList)

theorem SignedNumeral.unique {s : String} {n n' : Nat} (h : SignedNumeral s n)
    (h' : SignedNumeral s n') : n = n' := by
  have hn := (@parseUnsigned_eq_some_iff (max n n' + 1) s n).mpr ⟨h, by omega⟩
  have hn' := (@parseUnsigned_eq_some_iff (max n n' + 1) s n').mpr ⟨h', by omega⟩
  exact Option.some.inj (hn.symm.trans hn')

/-- **A number is printed as a numeral for it.** -/
theorem numeral_toString (n : Nat) : Numeral (toString n) n where
  digits := by
    rw [IsDigits, Nat.toString_eq_repr, Nat.toList_repr]
    refine ⟨Nat.toDigits_ne_nil, fun c hc => ?_⟩
    have hdigit := Nat.isDigit_of_mem_toDigits (by decide) (by decide) hc
    simpa [isAsciiDigit, Char.isDigit, Char.le_def] using hdigit
  value := by
    rw [Nat.toString_eq_repr, Nat.toList_repr]
    exact Nat.ofDigitChars_ten_toDigits

end Freshdock.Text
