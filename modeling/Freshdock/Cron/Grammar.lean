import Freshdock.Cron.Fields

/-!
# The grammar of cron expressions

An expression is five words, each of them the text of a field. The parser accepts the expressions
of this grammar and also those with a plus sign before a number (`parse_isOk_iff`), so it accepts
the grammar with plain digit strings exactly on the texts without such a sign
(`parse_iff_grammar_iff`).
-/

set_option autoImplicit false

namespace Freshdock.Cron

open Text

/-- The least and the greatest value of each field: minute, hour, day of month, month, day of
week. -/
def fieldBounds : List (Nat × Nat) := [(0, 59), (0, 23), (1, 31), (1, 12), (0, 6)]

/-- Five words, each the text of a field. -/
def Grammar (numeral : String → Nat → Prop) (text : String) : Prop :=
  ∃ fields : List String, Words text.toList (fields.map String.toList) ∧
    List.Forall₂ (fun field bounds => ∃ parts, FieldText numeral bounds.1 bounds.2 field parts)
      fields fieldBounds

theorem fieldParse_isOk_iff {text field : String} {min max : Nat} (hmax : max < 64) :
    (∃ set, FieldSet.parse text min max field = .ok set) ↔
      ∃ parts, FieldText SignedNumeral min max text parts := by
  simp only [parse_eq_ok_iff hmax]
  constructor
  · rintro ⟨set, parts, hparts, -⟩
    exact ⟨parts, hparts⟩
  · rintro ⟨parts, hparts⟩
    exact ⟨⟨_, _⟩, parts, hparts, rfl, rfl⟩

/-- An expression is five words, each of which is parsed as its field. -/
theorem exprParse_eq_ok_iff {text : String} {e : CronExpr} : CronExpr.parse text = .ok e ↔
    ∃ minute hour dom month dow, splitWhitespace text = [minute, hour, dom, month, dow] ∧
      FieldSet.parse minute 0 59 "minute" = .ok e.minute ∧
      FieldSet.parse hour 0 23 "hour" = .ok e.hour ∧
      FieldSet.parse dom 1 31 "day-of-month" = .ok e.dom ∧
      FieldSet.parse month 1 12 "month" = .ok e.month ∧
      FieldSet.parse dow 0 6 "day-of-week" = .ok e.dow := by
  constructor
  · intro h
    unfold CronExpr.parse at h
    split at h
    · next minute hour dom month dow hwords =>
        obtain ⟨_, hminute, h⟩ := bind_ok h
        obtain ⟨_, hhour, h⟩ := bind_ok h
        obtain ⟨_, hdom, h⟩ := bind_ok h
        obtain ⟨_, hmonth, h⟩ := bind_ok h
        obtain ⟨_, hdow, h⟩ := bind_ok h
        obtain rfl := Except.ok.inj h
        exact ⟨_, _, _, _, _, hwords, hminute, hhour, hdom, hmonth, hdow⟩
    · cases h
  · rintro ⟨minute, hour, dom, month, dow, hwords, hminute, hhour, hdom, hmonth, hdow⟩
    rw [CronExpr.parse, hwords]
    simp only [hminute, hhour, hdom, hmonth, hdow, bind, Except.bind]

/-- **The parser accepts the grammar in which numbers may have a plus sign.** -/
theorem parse_isOk_iff {text : String} :
    (∃ e, CronExpr.parse text = .ok e) ↔ Grammar SignedNumeral text := by
  simp only [exprParse_eq_ok_iff]
  constructor
  · rintro ⟨e, minute, hour, dom, month, dow, hwords, hminute, hhour, hdom, hmonth, hdow⟩
    refine ⟨_, splitWhitespace_eq_iff.mp hwords, ?_⟩
    exact .cons ((fieldParse_isOk_iff (by decide)).mp ⟨_, hminute⟩)
      (.cons ((fieldParse_isOk_iff (by decide)).mp ⟨_, hhour⟩)
      (.cons ((fieldParse_isOk_iff (by decide)).mp ⟨_, hdom⟩)
      (.cons ((fieldParse_isOk_iff (by decide)).mp ⟨_, hmonth⟩)
      (.cons ((fieldParse_isOk_iff (by decide)).mp ⟨_, hdow⟩) .nil))))
  · rintro ⟨fields, hwords, hfields⟩
    rw [← splitWhitespace_eq_iff] at hwords
    obtain _ | ⟨hminute, _ | ⟨hhour, _ | ⟨hdom, _ | ⟨hmonth, _ | ⟨hdow, hnil⟩⟩⟩⟩⟩ := hfields
    obtain rfl := List.forall₂_nil_right_iff.mp hnil
    obtain ⟨minute, hminute⟩ := (fieldParse_isOk_iff (by decide)).mpr hminute
    obtain ⟨hour, hhour⟩ := (fieldParse_isOk_iff (by decide)).mpr hhour
    obtain ⟨dom, hdom⟩ := (fieldParse_isOk_iff (by decide)).mpr hdom
    obtain ⟨month, hmonth⟩ := (fieldParse_isOk_iff (by decide)).mpr hmonth
    obtain ⟨dow, hdow⟩ := (fieldParse_isOk_iff (by decide)).mpr hdow
    exact ⟨⟨minute, hour, dom, month, dow⟩, _, _, _, _, _, hwords, hminute, hhour, hdom, hmonth,
      hdow⟩

/-! ## Plus signs -/

theorem rangeText_numeral_iff {s : String} {r : PartRange} :
    RangeText Numeral s r ↔ RangeText SignedNumeral s r ∧ '+' ∉ s.toList := by
  have hplain {s : String} {n : Nat} (h : Numeral s n) : '+' ∉ s.toList :=
    h.digits.not_mem (by decide)
  constructor
  · intro h
    refine ⟨h.mono fun _ _ => Numeral.signed, ?_⟩
    cases h with
    | any => decide
    | value number => exact hplain number
    | span first last => simp [hplain first, hplain last]
  · rintro ⟨h, hplus⟩
    cases h with
    | any => exact .any
    | value number => exact .value (number.numeral hplus)
    | span first last =>
        simp only [toList_dash, List.mem_append, List.mem_cons, not_or] at hplus
        exact .span (first.numeral hplus.1) (last.numeral hplus.2.2)

theorem partText_numeral_iff {s : String} {p : Part} :
    PartText Numeral s p ↔ PartText SignedNumeral s p ∧ '+' ∉ s.toList := by
  constructor
  · intro h
    refine ⟨h.mono fun _ _ => Numeral.signed, ?_⟩
    cases h with
    | plain range => exact (rangeText_numeral_iff.mp range).2
    | stepped range step =>
        have hrange := (rangeText_numeral_iff.mp range).2
        have hstep : '+' ∉ _ := step.digits.not_mem (by decide)
        simp [hrange, hstep]
  · rintro ⟨h, hplus⟩
    cases h with
    | plain range => exact .plain (rangeText_numeral_iff.mpr ⟨range, hplus⟩)
    | stepped range step =>
        simp only [toList_slash, List.mem_append, List.mem_cons, not_or] at hplus
        exact .stepped (rangeText_numeral_iff.mpr ⟨range, hplus.1⟩) (step.numeral hplus.2.2)

theorem fieldText_numeral_iff {min max : Nat} {text : String} {parts : List Part} :
    FieldText Numeral min max text parts ↔
      FieldText SignedNumeral min max text parts ∧ '+' ∉ text.toList := by
  constructor
  · rintro ⟨nonempty, ⟨texts, htexts, rfl⟩, admissible⟩
    refine ⟨⟨nonempty, ⟨texts, htexts.imp fun _ _ h => (partText_numeral_iff.mp h).1, rfl⟩,
      admissible⟩, fun hplus => ?_⟩
    rcases mem_of_mem_intercalate hplus with hcomma | ⟨piece, hpiece, hc⟩
    · exact absurd hcomma (by decide)
    · obtain ⟨p, -, hp⟩ := exists_of_mem_left htexts hpiece
      exact (partText_numeral_iff.mp hp).2 hc
  · rintro ⟨⟨nonempty, ⟨texts, htexts, rfl⟩, admissible⟩, hplus⟩
    have hpieces : ∀ piece ∈ texts, '+' ∉ piece.toList :=
      fun piece hpiece hc => hplus (mem_intercalate_of_mem hpiece hc)
    refine ⟨nonempty, ⟨texts, ?_, rfl⟩, admissible⟩
    exact (forall₂_and_right htexts.flip hpieces).flip.imp fun _ _ h =>
      partText_numeral_iff.mpr h

/-- The grammar with plain digit strings has the texts of the larger grammar without plus signs. -/
theorem grammar_numeral_iff {text : String} :
    Grammar Numeral text ↔ Grammar SignedNumeral text ∧ '+' ∉ text.toList := by
  have hsolid : isWhitespace '+' = false := by decide
  constructor
  · rintro ⟨fields, hwords, hfields⟩
    refine ⟨⟨fields, hwords, hfields.imp fun _ _ ⟨parts, hparts⟩ =>
      ⟨parts, (fieldText_numeral_iff.mp hparts).1⟩⟩, fun hplus => ?_⟩
    obtain ⟨word, hword, hc⟩ := (hwords.mem_iff hsolid).mpr hplus
    obtain ⟨field, hfield, rfl⟩ := List.mem_map.mp hword
    obtain ⟨bounds, -, parts, hparts⟩ := exists_of_mem_left hfields hfield
    exact (fieldText_numeral_iff.mp hparts).2 hc
  · rintro ⟨⟨fields, hwords, hfields⟩, hplus⟩
    have hplain : ∀ field ∈ fields, '+' ∉ field.toList := fun field hfield hc =>
      hplus ((hwords.mem_iff hsolid).mp ⟨_, List.mem_map_of_mem hfield, hc⟩)
    refine ⟨fields, hwords, (forall₂_and_right hfields.flip hplain).flip.imp ?_⟩
    rintro field bounds ⟨⟨parts, hparts⟩, hfield⟩
    exact ⟨parts, fieldText_numeral_iff.mpr ⟨hparts, hfield⟩⟩

/-- **The parser agrees with the grammar except on the texts with a plus sign before a number.** -/
theorem parse_iff_grammar_iff (text : String) :
    ((∃ e, CronExpr.parse text = .ok e) ↔ Grammar Numeral text) ↔
      ¬ (Grammar SignedNumeral text ∧ '+' ∈ text.toList) := by
  rw [parse_isOk_iff, grammar_numeral_iff]
  tauto

/-- The parser accepts a minute with a plus sign. -/
theorem not_grammar_plusMinute :
    (∃ e, CronExpr.parse "+5 * * * *" = .ok e) ∧ ¬ Grammar Numeral "+5 * * * *" := by
  refine ⟨⟨_, rfl⟩, fun grammar => ?_⟩
  exact (grammar_numeral_iff.mp grammar).2 (by decide)

end Freshdock.Cron
