import Freshdock.Cron
import Freshdock.Foundation.Decimals
import Freshdock.Foundation.Fallible
import Freshdock.Foundation.Splitting

/-!
# The syntax of a cron field

A field is a list of parts between commas. A part is a range, perhaps with a step; a range is
`*`, a number, or two numbers with a dash between them (`PartText`). The parser of a part accepts
these texts and no others, and finds the values they name (`readPart_eq_ok_iff`).

How numbers are written is a parameter: the documented syntax has plain digit strings, the number
parser also takes a plus sign before them.
-/

set_option autoImplicit false

namespace Freshdock.Cron

open Text

/-- What a part ranges over. -/
inductive PartRange where
  | any
  | value (n : Nat)
  | span (a b : Nat)
  deriving DecidableEq, Repr

structure Part where
  range : PartRange
  step : Option Nat
  deriving DecidableEq, Repr

/-- Numbers that may stand in a field: they lie in its range, in order. -/
def PartRange.InBounds (min max : Nat) : PartRange → Prop
  | .any => True
  | .value n => min ≤ n ∧ n ≤ max
  | .span a b => min ≤ a ∧ a ≤ b ∧ b ≤ max

/-- The range lies in the field, and the step is a positive 32-bit number. -/
structure Part.Admissible (min max : Nat) (p : Part) : Prop where
  range : p.range.InBounds min max
  step : ∀ n ∈ p.step, 1 ≤ n ∧ n < 2 ^ 32

section Texts

variable (numeral : String → Nat → Prop)

inductive RangeText : String → PartRange → Prop where
  | any : RangeText "*" .any
  | value {s : String} {n : Nat} (number : numeral s n) : RangeText s (.value n)
  | span {s t : String} {a b : Nat} (first : numeral s a) (last : numeral t b) :
      RangeText (s ++ "-" ++ t) (.span a b)

inductive PartText : String → Part → Prop where
  | plain {s : String} {r : PartRange} (range : RangeText numeral s r) : PartText s ⟨r, none⟩
  | stepped {s t : String} {r : PartRange} {n : Nat} (range : RangeText numeral s r)
      (step : numeral t n) : PartText (s ++ "/" ++ t) ⟨r, some n⟩

/-- The text of a field: its parts, at least one, with commas between them. -/
structure FieldText (min max : Nat) (text : String) (parts : List Part) : Prop where
  nonempty : parts ≠ []
  texts : ∃ texts, List.Forall₂ (PartText numeral) texts parts ∧ text = ",".intercalate texts
  admissible : ∀ p ∈ parts, p.Admissible min max

end Texts

/-! ## What a part names -/

/-- The first value of a part. -/
def Part.first (min : Nat) (p : Part) : Nat :=
  match p.range with
  | .any => min
  | .value n => n
  | .span a _ => a

/-- The last value of a part: a number with a step runs to the end of the field. -/
def Part.last (max : Nat) (p : Part) : Nat :=
  match p.range with
  | .any => max
  | .value n => if p.step.isSome then max else n
  | .span _ b => b

def Part.stepSize (p : Part) : Nat := p.step.getD 1

/-- The documented values of a part. -/
def Part.Documents (min max : Nat) (p : Part) (v : Nat) : Prop :=
  ∃ k, v = p.first min + k * p.stepSize ∧ v ≤ p.last max

/-- Where the code ends a part: a number whose step is one counts as a bare number. -/
def Part.stop (max : Nat) (p : Part) : Nat :=
  match p.range with
  | .any => max
  | .value n => if p.stepSize = 1 then n else max
  | .span _ b => b

theorem Part.Admissible.stepSize {min max : Nat} {p : Part} (h : p.Admissible min max) :
    1 ≤ p.stepSize ∧ p.stepSize < 2 ^ 32 := by
  cases hstep : p.step with
  | none => simp [Part.stepSize, hstep]
  | some n => simpa [Part.stepSize, hstep] using h.step n hstep

theorem Part.admissible_any {min max : Nat} : Part.Admissible min max ⟨.any, none⟩ :=
  ⟨trivial, by simp⟩

theorem Part.Admissible.ordered {min max : Nat} {p : Part} (h : p.Admissible min max)
    (hbounds : min ≤ max) : min ≤ p.first min ∧ p.first min ≤ p.stop max ∧ p.stop max ≤ max := by
  have hrange := h.range
  unfold Part.first Part.stop
  cases hr : p.range with
  | any => simp [hbounds]
  | value n =>
      rw [hr] at hrange
      obtain ⟨hmin, hmax⟩ := hrange
      dsimp only
      split <;> omega
  | span a b =>
      rw [hr] at hrange
      exact hrange

/-! ## Texts are read in one way -/

section Reading

variable {numeral : String → Nat → Prop}

theorem not_mem_number {s : String} {n : Nat} (h : SignedNumeral s n) :
    ',' ∉ s.toList ∧ '/' ∉ s.toList ∧ '-' ∉ s.toList ∧ '*' ∉ s.toList :=
  ⟨h.not_mem (by decide) (by decide), h.not_mem (by decide) (by decide),
    h.not_mem (by decide) (by decide), h.not_mem (by decide) (by decide)⟩

theorem RangeText.mono {numeral' : String → Nat → Prop} {s : String} {r : PartRange}
    (h : RangeText numeral s r) (weaker : ∀ s n, numeral s n → numeral' s n) :
    RangeText numeral' s r := by
  cases h with
  | any => exact .any
  | value number => exact .value (weaker _ _ number)
  | span first last => exact .span (weaker _ _ first) (weaker _ _ last)

theorem PartText.mono {numeral' : String → Nat → Prop} {s : String} {p : Part}
    (h : PartText numeral s p) (weaker : ∀ s n, numeral s n → numeral' s n) :
    PartText numeral' s p := by
  cases h with
  | plain range => exact .plain (range.mono weaker)
  | stepped range step => exact .stepped (range.mono weaker) (weaker _ _ step)

theorem RangeText.not_mem {s : String} {r : PartRange} (h : RangeText SignedNumeral s r) :
    ',' ∉ s.toList ∧ '/' ∉ s.toList := by
  cases h with
  | any => decide
  | value number => exact ⟨(not_mem_number number).1, (not_mem_number number).2.1⟩
  | span first last =>
      have hfirst := not_mem_number first
      have hlast := not_mem_number last
      simp [hfirst, hlast]

theorem PartText.not_mem {s : String} {p : Part} (h : PartText SignedNumeral s p) :
    ',' ∉ s.toList := by
  cases h with
  | plain range => exact range.not_mem.1
  | stepped range step =>
      have hrange := range.not_mem
      have hstep := not_mem_number step
      simp [hrange, hstep]

theorem toList_dash (s t : String) : (s ++ "-" ++ t).toList = s.toList ++ '-' :: t.toList := by
  simp

theorem toList_slash (s t : String) : (s ++ "/" ++ t).toList = s.toList ++ '/' :: t.toList := by
  simp

end Reading

/-! ## The parser of a part -/

section Parser

variable {min max : Nat} {field : String}

theorem parseValue_eq_ok_iff (hmax : max < 2 ^ 32) {token : String} {v : Nat} :
    parseValue token min max field = .ok v ↔ SignedNumeral token v ∧ min ≤ v ∧ v ≤ max := by
  unfold parseValue
  constructor
  · intro h
    cases hparse : parseU32 token with
    | none =>
        rw [hparse] at h
        cases h
    | some n =>
        obtain ⟨hnumber, -⟩ := parseUnsigned_eq_some_iff.mp hparse
        simp only [hparse, Bool.or_eq_true, decide_eq_true_eq] at h
        split_ifs at h with hrange
        obtain rfl := Except.ok.inj h
        exact ⟨hnumber, by omega, by omega⟩
  · rintro ⟨hnumber, hmin, hle⟩
    rw [parseU32, parseUnsigned_eq_some_iff.mpr ⟨hnumber, by omega⟩]
    simp only [Bool.or_eq_true, decide_eq_true_eq]
    exact if_neg (by omega)

theorem splitOnce_dash {s : String} (t : String) (h : '-' ∉ s.toList) :
    splitOnce (s ++ "-" ++ t) '-' = some (s, t) :=
  splitOnce_eq_some_iff.mpr ⟨rfl, h⟩

/-- The first and the last value of a range, as the code has them. -/
def PartRange.ends (min max step : Nat) : PartRange → Nat × Nat
  | .any => (min, max)
  | .value n => if step = 1 then (n, n) else (n, max)
  | .span a b => (a, b)

theorem Part.ends_range (p : Part) :
    p.range.ends min max p.stepSize = (p.first min, p.stop max) := by
  unfold PartRange.ends Part.first Part.stop
  cases p.range with
  | value n => dsimp only; split <;> rfl
  | _ => rfl

theorem parseRange_of_text (hmax : max < 2 ^ 32) {range : String} {r : PartRange} (step : Nat)
    (h : RangeText SignedNumeral range r) (bounds : r.InBounds min max) :
    parseRange range step min max field = .ok (r.ends min max step) := by
  cases h with
  | any => rfl
  | value number =>
      have hchars := not_mem_number number
      have hstar : range ≠ "*" := by
        rintro rfl
        exact hchars.2.2.2 (by decide)
      have hdash := splitOnce_eq_none_iff.mpr hchars.2.2.1
      rw [parseRange, if_neg hstar, hdash]
      simp only [(parseValue_eq_ok_iff hmax).mpr ⟨number, bounds⟩, PartRange.ends]
      rfl
  | span first last =>
      have hchars := not_mem_number first
      have hstar : ∀ s t : String, s ++ "-" ++ t ≠ "*" := by
        intro s t heq
        have hmem : '-' ∈ (s ++ "-" ++ t).toList := by simp
        rw [heq] at hmem
        exact absurd hmem (by decide)
      obtain ⟨hmin, hle, hmaxB⟩ := bounds
      rw [parseRange, if_neg (hstar _ _), splitOnce_dash _ hchars.2.2.1]
      have hread := (@parseValue_eq_ok_iff min max field hmax _ _).mpr ⟨first, hmin, by omega⟩
      have hread' := (@parseValue_eq_ok_iff min max field hmax _ _).mpr ⟨last, by omega, hmaxB⟩
      simp only [hread, hread', bind, Except.bind]
      rw [if_neg (by omega)]
      rfl

theorem text_of_parseRange (hmax : max < 2 ^ 32) {range : String} {step : Nat}
    {ends : Nat × Nat} (h : parseRange range step min max field = .ok ends) :
    ∃ r, RangeText SignedNumeral range r ∧ r.InBounds min max := by
  by_cases hstar : range = "*"
  · exact ⟨.any, hstar ▸ .any, trivial⟩
  rw [parseRange, if_neg hstar] at h
  split at h
  · next a b hsplit =>
      obtain ⟨first, hfirst, h⟩ := bind_ok h
      obtain ⟨last, hlast, h⟩ := bind_ok h
      obtain ⟨hnumber, hmin, -⟩ := (parseValue_eq_ok_iff hmax).mp hfirst
      obtain ⟨hnumber', -, hle⟩ := (parseValue_eq_ok_iff hmax).mp hlast
      split_ifs at h with hinverted
      obtain ⟨htext, -⟩ := splitOnce_eq_some_iff.mp hsplit
      exact ⟨.span first last, htext ▸ .span hnumber hnumber', hmin, by omega, hle⟩
  · obtain ⟨v, hv, -⟩ := bind_ok h
    obtain ⟨hnumber, hbounds⟩ := (parseValue_eq_ok_iff hmax).mp hv
    exact ⟨.value v, .value hnumber, hbounds⟩

theorem parseStep_of_not_mem {part : String} (h : '/' ∉ part.toList) :
    parseStep part field = .ok (part, 1) := by
  rw [parseStep, splitOnce_eq_none_iff.mpr h]

theorem parseStep_slash_eq_ok_iff {first t range : String} {step : Nat} (h : '/' ∉ first.toList) :
    parseStep (first ++ "/" ++ t) field = .ok (range, step) ↔
      range = first ∧ SignedNumeral t step ∧ 1 ≤ step ∧ step < 2 ^ 32 := by
  have hsplit : splitOnce (first ++ "/" ++ t) '/' = some (first, t) :=
    splitOnce_eq_some_iff.mpr ⟨rfl, h⟩
  rw [parseStep, hsplit]
  dsimp only
  constructor
  · intro hread
    cases hparse : parseU32 t with
    | none =>
        rw [hparse] at hread
        cases hread
    | some n =>
        obtain ⟨hnumber, hlt⟩ := parseUnsigned_eq_some_iff.mp hparse
        simp only [hparse] at hread
        split_ifs at hread with hzero
        cases hread
        exact ⟨rfl, hnumber, by omega, hlt⟩
  · rintro ⟨rfl, hnumber, hpos, hlt⟩
    rw [parseU32, parseUnsigned_eq_some_iff.mpr ⟨hnumber, hlt⟩]
    exact if_neg (by omega)

theorem parseStep_eq_ok_iff {part range : String} {step : Nat} :
    parseStep part field = .ok (range, step) ↔
      ('/' ∉ part.toList ∧ range = part ∧ step = 1) ∨
        ∃ t, part = range ++ "/" ++ t ∧ '/' ∉ range.toList ∧ SignedNumeral t step ∧
          1 ≤ step ∧ step < 2 ^ 32 := by
  constructor
  · intro h
    cases hsplit : splitOnce part '/' with
    | none =>
        have hnot := splitOnce_eq_none_iff.mp hsplit
        rw [parseStep_of_not_mem hnot] at h
        cases h
        exact .inl ⟨hnot, rfl, rfl⟩
    | some split =>
        obtain ⟨rfl, hnot⟩ := splitOnce_eq_some_iff.mp hsplit
        obtain ⟨rfl, hstep⟩ := (parseStep_slash_eq_ok_iff hnot).mp h
        exact .inr ⟨split.2, rfl, hnot, hstep⟩
  · rintro (⟨hnot, rfl, rfl⟩ | ⟨t, rfl, hnot, hstep⟩)
    · exact parseStep_of_not_mem hnot
    · exact (parseStep_slash_eq_ok_iff hnot).mpr ⟨rfl, hstep⟩

/-- The first value, the last value and the step of a part. -/
def readPart (min max : Nat) (field part : String) : Except CronError (Nat × Nat × Nat) := do
  let (range, step) ← parseStep part field
  let (start, stop) ← parseRange range step min max field
  .ok (start, stop, step)

theorem addPart_eq (mask : BitVec 64) (part : String) :
    addPart min max field mask part =
      (readPart min max field part).map fun r => setBits r.2.2 r.2.1 64 r.1 mask := by
  unfold addPart readPart
  cases parseStep part field with
  | error e => rfl
  | ok ranged =>
      simp only [bind, Except.bind]
      cases parseRange ranged.1 ranged.2 min max field <;> rfl

/-- **The parser reads the parts of the syntax, with plus signs allowed, and no others.** -/
theorem readPart_eq_ok_iff (hmax : max < 2 ^ 32) {part : String} {read : Nat × Nat × Nat} :
    readPart min max field part = .ok read ↔
      ∃ p, PartText SignedNumeral part p ∧ p.Admissible min max ∧
        read = (p.first min, p.stop max, p.stepSize) := by
  constructor
  · intro h
    obtain ⟨⟨range, step⟩, hstep, h⟩ := bind_ok h
    obtain ⟨ends, hrange, h⟩ := bind_ok h
    obtain rfl := Except.ok.inj h
    obtain ⟨r, htext, bounds⟩ := text_of_parseRange hmax hrange
    have hread := @parseRange_of_text min max field hmax range r step htext bounds
    rw [hrange] at hread
    obtain rfl := Except.ok.inj hread
    rcases parseStep_eq_ok_iff.mp hstep with ⟨-, rfl, rfl⟩ | ⟨t, rfl, -, hnumber, hpos, hlt⟩
    · have hread : r.ends min max 1 = _ := Part.ends_range ⟨r, none⟩
      refine ⟨⟨r, none⟩, .plain htext, ⟨bounds, by simp⟩, ?_⟩
      rw [hread]
      rfl
    · have hread : r.ends min max step = _ := Part.ends_range ⟨r, some step⟩
      refine ⟨⟨r, some step⟩, .stepped htext hnumber, ⟨bounds, ?_⟩, ?_⟩
      · rintro n hn
        obtain rfl := Option.mem_some_iff.mp hn
        exact ⟨hpos, hlt⟩
      · rw [hread]
        rfl
  · rintro ⟨p, htext, admissible, rfl⟩
    obtain ⟨range, hstep, hrange⟩ : ∃ range, parseStep part field = .ok (range, p.stepSize) ∧
        RangeText SignedNumeral range p.range := by
      cases htext with
      | plain range =>
          exact ⟨part, parseStep_eq_ok_iff.mpr (.inl ⟨range.not_mem.2, rfl, rfl⟩), range⟩
      | stepped range step =>
          obtain ⟨hpos, hlt⟩ := admissible.step _ rfl
          exact ⟨_, parseStep_eq_ok_iff.mpr
            (.inr ⟨_, rfl, range.not_mem.2, step, hpos, hlt⟩), range⟩
    have hread := @parseRange_of_text min max field hmax range p.range p.stepSize hrange
      admissible.range
    rw [readPart, hstep]
    simp only [bind, Except.bind, hread, Part.ends_range]

end Parser

end Freshdock.Cron
