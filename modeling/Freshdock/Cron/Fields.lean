import Freshdock.Cron.Syntax
import Mathlib.Tactic.Ring

/-!
# The values of a cron field

The loop that sets the bits of a part counts in 32-bit words. It always ends, and sets the values
of the part and, when the sum of the first value and the step does not fit a word, also values
below the first one (`exists_steps`). So the mask of a field is known from its parts
(`parse_contains_iff`).
-/

set_option autoImplicit false

namespace Freshdock.Cron

open Text

/-! ## The loop -/

/-- The values the loop comes to, from the counter's value to the end. -/
inductive Steps (step stop : Nat) : Nat → List Nat → Prop where
  | done {i : Nat} (past : stop < i) : Steps step stop i []
  | next {i : Nat} {is : List Nat} (more : i ≤ stop)
      (rest : Steps step stop ((i + step) % 2 ^ 32) is) : Steps step stop i (i :: is)

/-- A value the loop comes to after the counter has run over its end. -/
def Wraps (first step v : Nat) : Prop := ∃ k, v + (k + 1) * (2 ^ 32 - step) = first

section Loop

variable {step stop : Nat}

/-- Below the end of the counter the loop counts up. -/
theorem exists_steps_up (hpos : 1 ≤ step) (hfits : stop + step < 2 ^ 32) (i : Nat) :
    ∃ is, Steps step stop i is ∧ is.length ≤ stop + 1 - i ∧
      ∀ v, v ∈ is ↔ ∃ k, v = i + k * step ∧ v ≤ stop := by
  induction hleft : stop + 1 - i using Nat.strong_induction_on generalizing i with
  | _ left ih =>
      by_cases hmore : i ≤ stop
      · obtain ⟨is, hsteps, hlength, hmem⟩ := ih (stop + 1 - (i + step)) (by omega) (i + step) rfl
        have hmod : (i + step) % 2 ^ 32 = i + step := Nat.mod_eq_of_lt (by omega)
        refine ⟨i :: is, .next hmore (by rw [hmod]; exact hsteps), by rw [List.length_cons]; omega,
          fun v => ?_⟩
        rw [List.mem_cons, hmem]
        constructor
        · rintro (rfl | ⟨k, rfl, hle⟩)
          · exact ⟨0, by simp, hmore⟩
          · exact ⟨k + 1, by ring, hle⟩
        · rintro ⟨k, rfl, hle⟩
          cases k with
          | zero => simp
          | succ k => exact .inr ⟨k, by ring, hle⟩
      · refine ⟨[], .done (by omega), by simp, fun v => ?_⟩
        simp only [List.not_mem_nil, false_iff, not_exists, not_and]
        rintro k rfl
        omega

/-- When the step is close to the size of the counter, the loop counts down. -/
theorem exists_steps_down (hstop : stop < 64) (hlt : step < 2 ^ 32) (hover : 2 ^ 32 ≤ stop + step)
    (i : Nat) (hi : i ≤ stop) :
    ∃ is, Steps step stop i is ∧ is.length ≤ i + 1 ∧
      ∀ v, v ∈ is ↔ ∃ k, v + k * (2 ^ 32 - step) = i := by
  induction i using Nat.strong_induction_on with
  | _ i ih =>
      by_cases hwrap : 2 ^ 32 ≤ i + step
      · obtain ⟨is, hsteps, hlength, hmem⟩ := ih (i + step - 2 ^ 32) (by omega) (by omega)
        have hmod : (i + step) % 2 ^ 32 = i + step - 2 ^ 32 := by
          rw [Nat.mod_eq_sub_mod hwrap, Nat.mod_eq_of_lt (by omega)]
        refine ⟨i :: is, .next hi (by rw [hmod]; exact hsteps), by rw [List.length_cons]; omega,
          fun v => ?_⟩
        rw [List.mem_cons, hmem]
        constructor
        · rintro (rfl | ⟨k, hk⟩)
          · exact ⟨0, by simp⟩
          · exact ⟨k + 1, by rw [Nat.succ_mul]; omega⟩
        · rintro ⟨k, hk⟩
          cases k with
          | zero => exact .inl (by omega)
          | succ k => exact .inr ⟨k, by rw [Nat.succ_mul] at hk; omega⟩
      · have hmod : (i + step) % 2 ^ 32 = i + step := Nat.mod_eq_of_lt (by omega)
        refine ⟨[i], .next hi (.done (by omega)), by simp, fun v => ?_⟩
        rw [List.mem_singleton]
        constructor
        · rintro rfl
          exact ⟨0, by simp⟩
        · rintro ⟨k, hk⟩
          cases k with
          | zero => omega
          | succ k => rw [Nat.succ_mul] at hk; omega

/-- **The loop ends.** It has then come to every step between the first and the last value, and
to the values where the counter has wrapped around. -/
theorem exists_steps (hstop : stop < 64) (hstep : 1 ≤ step ∧ step < 2 ^ 32) {first : Nat}
    (hfirst : first ≤ stop) :
    ∃ is, Steps step stop first is ∧ is.length ≤ 64 ∧
      ∀ v, v ∈ is ↔ (∃ k, v = first + k * step ∧ v ≤ stop) ∨ Wraps first step v := by
  by_cases hfits : stop + step < 2 ^ 32
  · obtain ⟨is, hsteps, hlength, hmem⟩ := exists_steps_up hstep.1 hfits first
    refine ⟨is, hsteps, by omega, fun v => ?_⟩
    have hnone : ¬ Wraps first step v := by
      rintro ⟨k, hk⟩
      rw [Nat.succ_mul] at hk
      omega
    simp only [hmem, hnone, or_false]
  · obtain ⟨is, hsteps, hlength, hmem⟩ :=
      exists_steps_down hstop hstep.2 (by omega) first hfirst
    refine ⟨is, hsteps, by omega, fun v => ?_⟩
    rw [hmem]
    constructor
    · rintro ⟨k, hk⟩
      cases k with
      | zero => exact .inl ⟨0, by omega, by omega⟩
      | succ k => exact .inr ⟨k, hk⟩
    · rintro (⟨k, rfl, hle⟩ | ⟨k, hk⟩)
      · -- one step is already past the last value
        cases k with
        | zero => exact ⟨0, by omega⟩
        | succ k => rw [Nat.succ_mul] at hle; omega
      · exact ⟨k + 1, hk⟩

theorem setBits_of_steps {rounds i : Nat} {is : List Nat} (h : Steps step stop i is)
    (hrounds : is.length ≤ rounds) (mask : BitVec 64) :
    setBits step stop rounds i mask = is.foldl (fun mask i => mask ||| (1#64 <<< i)) mask := by
  induction h generalizing rounds mask with
  | done past =>
      cases rounds with
      | zero => rfl
      | succ rounds => rw [setBits, if_neg (by omega)]; rfl
  | next more rest ih =>
      cases rounds with
      | zero => simp at hrounds
      | succ rounds =>
          rw [setBits, if_pos more, List.foldl_cons]
          exact ih (by simpa using hrounds) _

theorem getLsbD_foldl {v : Nat} (hv : v < 64) (is : List Nat) (mask : BitVec 64) :
    (is.foldl (fun mask i => mask ||| (1#64 <<< i)) mask).getLsbD v = true ↔
      mask.getLsbD v = true ∨ v ∈ is := by
  induction is generalizing mask with
  | nil => simp
  | cons i is ih =>
      have hbit : (1#64 <<< i).getLsbD v = true ↔ v = i := by
        simp only [BitVec.getLsbD_shiftLeft, BitVec.getLsbD_one]
        simp
        omega
      rw [List.foldl_cons, ih, BitVec.getLsbD_or, Bool.or_eq_true, hbit, List.mem_cons, or_assoc]

end Loop

/-! ## The mask of a field -/

/-- The values the code sets for a part. -/
def Part.Sets (min max : Nat) (p : Part) (v : Nat) : Prop :=
  (∃ k, v = p.first min + k * p.stepSize ∧ v ≤ p.stop max) ∨ Wraps (p.first min) p.stepSize v

section Field

variable {min max : Nat} {text field : String}

theorem Part.Admissible.exists_steps {p : Part} (admissible : p.Admissible min max)
    (bounds : min ≤ max) (hmax : max < 64) :
    ∃ is, Steps p.stepSize (p.stop max) (p.first min) is ∧ is.length ≤ 64 ∧
      ∀ v, v ∈ is ↔ p.Sets min max v := by
  obtain ⟨-, hfirst, hstop⟩ := admissible.ordered bounds
  exact Cron.exists_steps (by omega) admissible.stepSize hfirst

theorem Part.Sets.le_max {p : Part} {v : Nat} (h : p.Sets min max v)
    (admissible : p.Admissible min max) (bounds : min ≤ max) : v ≤ max := by
  obtain ⟨-, hfirst, hstop⟩ := admissible.ordered bounds
  rcases h with ⟨k, rfl, hle⟩ | ⟨k, hk⟩ <;> omega

/-- Parts as the parser takes a field apart. -/
theorem fieldText_iff {parts : List Part} : FieldText SignedNumeral min max text parts ↔
    List.Forall₂ (fun part p => PartText SignedNumeral part p ∧ p.Admissible min max)
      (split text ',') parts := by
  constructor
  · rintro ⟨nonempty, ⟨texts, htexts, rfl⟩, admissible⟩
    have hpieces : split (",".intercalate texts) ',' = texts := by
      refine split_eq_iff.mpr ⟨?_, fun piece hpiece => ?_, rfl⟩
      · rintro rfl
        exact nonempty (List.forall₂_nil_left_iff.mp htexts)
      · obtain ⟨p, -, hp⟩ := exists_of_mem_left htexts hpiece
        exact hp.not_mem
    rw [hpieces]
    exact forall₂_and_right htexts admissible
  · intro h
    obtain ⟨hne, -, htext⟩ := split_eq_iff.mp (@rfl _ (split text ','))
    refine ⟨?_, ⟨_, h.imp fun _ _ hp => hp.1, htext⟩, fun p hp => ?_⟩
    · rintro rfl
      exact hne (List.forall₂_nil_right_iff.mp h)
    · obtain ⟨part, -, hpart⟩ := exists_of_mem_right h hp
      exact hpart.2

/-- What the code reads from the parts of a field. -/
def Part.read (min max : Nat) (p : Part) : Nat × Nat × Nat :=
  (p.first min, p.stop max, p.stepSize)

theorem forall₂_readPart_iff (hmax : max < 64) {texts : List String}
    {reads : List (Nat × Nat × Nat)} :
    List.Forall₂ (fun part read => readPart min max field part = .ok read) texts reads ↔
      ∃ parts, List.Forall₂ (fun part p => PartText SignedNumeral part p ∧ p.Admissible min max)
        texts parts ∧ reads = parts.map (Part.read min max) := by
  constructor
  · intro h
    induction h with
    | nil => exact ⟨[], .nil, rfl⟩
    | cons hread _ ih =>
        obtain ⟨p, htext, admissible, rfl⟩ := (readPart_eq_ok_iff (by omega)).mp hread
        obtain ⟨parts, hparts, rfl⟩ := ih
        exact ⟨p :: parts, .cons ⟨htext, admissible⟩ hparts, rfl⟩
  · rintro ⟨parts, hparts, rfl⟩
    rw [List.forall₂_map_right_iff]
    exact hparts.imp fun part p hp => (readPart_eq_ok_iff (by omega)).mpr ⟨p, hp.1, hp.2, rfl⟩

/-- **The parser accepts the fields of the syntax, with plus signs allowed, and no others.** -/
theorem parse_eq_ok_iff (hmax : max < 64) {set : FieldSet} :
    FieldSet.parse text min max field = .ok set ↔
      ∃ parts, FieldText SignedNumeral min max text parts ∧
        set.mask = (parts.map (Part.read min max)).foldl
          (fun mask read => setBits read.2.2 read.2.1 64 read.1 mask) 0#64 ∧
        set.star = (text == "*") := by
  have hadd : addPart min max field = fun mask part => (readPart min max field part).map
      fun read => setBits read.2.2 read.2.1 64 read.1 mask := by
    funext mask part
    exact addPart_eq mask part
  have hfold (mask : BitVec 64) : (split text ',').foldlM (addPart min max field) 0#64 = .ok mask ↔
      ∃ parts, FieldText SignedNumeral min max text parts ∧
        mask = (parts.map (Part.read min max)).foldl
          (fun mask read => setBits read.2.2 read.2.1 64 read.1 mask) 0#64 := by
    rw [hadd, foldlM_eq_ok_iff]
    simp only [forall₂_readPart_iff hmax, fieldText_iff]
    constructor
    · rintro ⟨_, ⟨parts, hparts, rfl⟩, rfl⟩
      exact ⟨parts, hparts, rfl⟩
    · rintro ⟨parts, hparts, rfl⟩
      exact ⟨_, ⟨parts, hparts, rfl⟩, rfl⟩
  constructor
  · intro h
    obtain ⟨mask, hmask, h⟩ := bind_ok h
    obtain rfl := Except.ok.inj h
    obtain ⟨parts, hparts, rfl⟩ := (hfold mask).mp hmask
    exact ⟨parts, hparts, rfl, rfl⟩
  · rintro ⟨parts, hparts, hmask, hstar⟩
    rw [FieldSet.parse, (hfold set.mask).mpr ⟨parts, hparts, hmask⟩, ← hstar]
    rfl

theorem getLsbD_parts {parts : List Part} (admissible : ∀ p ∈ parts, p.Admissible min max)
    (bounds : min ≤ max) (hmax : max < 64) (mask : BitVec 64) {v : Nat} (hv : v < 64) :
    ((parts.map (Part.read min max)).foldl
      (fun mask read => setBits read.2.2 read.2.1 64 read.1 mask) mask).getLsbD v = true ↔
      mask.getLsbD v = true ∨ ∃ p ∈ parts, p.Sets min max v := by
  induction parts generalizing mask with
  | nil => simp
  | cons p parts ih =>
      have hp := admissible p List.mem_cons_self
      obtain ⟨is, hsteps, hlength, hmem⟩ := hp.exists_steps bounds hmax
      rw [List.map_cons, List.foldl_cons,
        ih (fun q hq => admissible q (List.mem_cons_of_mem _ hq)), Part.read,
        setBits_of_steps hsteps hlength, getLsbD_foldl hv, hmem]
      simp only [List.mem_cons, exists_eq_or_imp, or_assoc]

theorem contains_parts {parts : List Part} (bounds : min ≤ max) (hmax : max < 64)
    (hparts : FieldText SignedNumeral min max text parts) {set : FieldSet}
    (hmask : set.mask = (parts.map (Part.read min max)).foldl
      (fun mask read => setBits read.2.2 read.2.1 64 read.1 mask) 0#64) {v : Nat} :
    set.contains v = true ↔ ∃ p ∈ parts, p.Sets min max v := by
  rw [FieldSet.contains, Bool.and_eq_true, decide_eq_true_eq, hmask]
  constructor
  · rintro ⟨hv, hbit⟩
    rw [getLsbD_parts hparts.admissible bounds hmax _ hv] at hbit
    simpa using hbit
  · rintro ⟨p, hp, hsets⟩
    have hv := hsets.le_max (hparts.admissible p hp) bounds
    refine ⟨by omega, ?_⟩
    rw [getLsbD_parts hparts.admissible bounds hmax _ (by omega)]
    exact .inr ⟨p, hp, hsets⟩

/-- **The values of a field are the ones the code sets for its parts.** -/
theorem parse_contains_iff (bounds : min ≤ max) (hmax : max < 64) {set : FieldSet}
    (h : FieldSet.parse text min max field = .ok set) :
    ∃ parts, FieldText SignedNumeral min max text parts ∧
      ∀ v, set.contains v = true ↔ ∃ p ∈ parts, p.Sets min max v := by
  obtain ⟨parts, hparts, hmask, -⟩ := (parse_eq_ok_iff hmax).mp h
  exact ⟨parts, hparts, fun v => contains_parts bounds hmax hparts hmask⟩

/-- A field that is a bare `*` has all values. -/
theorem contains_of_star (bounds : min ≤ max) (hmax : max < 64) {set : FieldSet}
    (h : FieldSet.parse text min max field = .ok set) (hstar : set.star = true) {v : Nat}
    (hv : min ≤ v ∧ v ≤ max) : set.contains v = true := by
  obtain ⟨-, -, -, htext⟩ := (parse_eq_ok_iff hmax).mp h
  rw [hstar, eq_comm, beq_iff_eq] at htext
  subst htext
  have hany : FieldText SignedNumeral min max "*" [⟨.any, none⟩] :=
    ⟨by simp, ⟨["*"], .cons (.plain .any) .nil, by decide⟩, by simp [Part.admissible_any]⟩
  obtain ⟨all, hmask, hall⟩ : ∃ all : FieldSet, all.mask = ([⟨.any, none⟩].map
      (Part.read min max)).foldl (fun mask read => setBits read.2.2 read.2.1 64 read.1 mask) 0#64 ∧
      all.star = ("*" == "*") := ⟨⟨_, _⟩, rfl, rfl⟩
  have hparse := (@parse_eq_ok_iff _ _ _ field hmax all).mpr ⟨_, hany, hmask, hall⟩
  obtain rfl := Except.ok.inj (h.symm.trans hparse)
  rw [contains_parts bounds hmax hany hmask]
  refine ⟨_, List.mem_singleton_self _, .inl ⟨v - min, ?_, hv.2⟩⟩
  simp only [Part.first, Part.stepSize, Option.getD_none]
  omega

/-! ## Arithmetic -/

/-- The loop over each part ends within the rounds of the model, no addition leaves the counter, no
shift leaves the mask, and the mask has values of the field only. -/
structure SafeArithmetic (min max : Nat) (text field : String) (set : FieldSet) : Prop where
  loops : ∀ part ∈ split text ',', ∀ first stop step,
    readPart min max field part = .ok (first, stop, step) →
      ∃ is, Steps step stop first is ∧ is.length ≤ 64 ∧ ∀ i ∈ is, i + step < 2 ^ 32 ∧ i < 64
  bits : ∀ v, set.contains v = true → min ≤ v ∧ v ≤ max

/-- The step does not take the counter past its end from the first value. -/
def Part.Fits (min : Nat) (p : Part) : Prop := p.first min + p.stepSize < 2 ^ 32

theorem Part.Fits.not_wraps {p : Part} (h : p.Fits min) (v : Nat) :
    ¬ Wraps (p.first min) p.stepSize v := by
  rintro ⟨k, hk⟩
  rw [Part.Fits] at h
  rw [Nat.succ_mul] at hk
  omega

/-- **The arithmetic of a field is safe exactly when no first value and step add up to more than a
32-bit word.** -/
theorem safeArithmetic_iff (bounds : min ≤ max) (hmax : max < 64) {set : FieldSet}
    (h : FieldSet.parse text min max field = .ok set) :
    ∃ parts, FieldText SignedNumeral min max text parts ∧
      (SafeArithmetic min max text field set ↔ ∀ p ∈ parts, p.Fits min) := by
  obtain ⟨parts, hparts, hcontains⟩ := parse_contains_iff bounds hmax h
  have hpieces := fieldText_iff.mp hparts
  have hread {part : String} {p : Part}
      (hp : PartText SignedNumeral part p ∧ p.Admissible min max) :
      readPart min max field part = .ok (p.first min, p.stop max, p.stepSize) :=
    (readPart_eq_ok_iff (by omega)).mpr ⟨p, hp.1, hp.2, rfl⟩
  refine ⟨parts, hparts, fun safe p hp => ?_, fun fits => ⟨?_, fun v hv => ?_⟩⟩
  · obtain ⟨part, hpart, htext⟩ := exists_of_mem_right hpieces hp
    obtain ⟨is, hsteps, -, hsafe⟩ := safe.loops part hpart _ _ _ (hread htext)
    obtain ⟨-, hfirst, -⟩ := htext.2.ordered bounds
    -- the loop comes to the first value
    cases hsteps with
    | done past => omega
    | next _ _ => exact (hsafe _ List.mem_cons_self).1
  · intro part hpart first stop step hok
    obtain ⟨p, hp, htext⟩ := exists_of_mem_left hpieces hpart
    rw [hread htext] at hok
    obtain ⟨rfl, hrest⟩ := Prod.mk.inj (Except.ok.inj hok)
    obtain ⟨rfl, rfl⟩ := Prod.mk.inj hrest
    obtain ⟨is, hsteps, hlength, hmem⟩ := htext.2.exists_steps bounds hmax
    obtain ⟨-, hfirst, hstop⟩ := htext.2.ordered bounds
    obtain ⟨hpos, hlt⟩ := htext.2.stepSize
    have hfits : p.first min + p.stepSize < 2 ^ 32 := fits p hp
    refine ⟨is, hsteps, hlength, fun i hi => ?_⟩
    rcases (hmem i).mp hi with ⟨k, rfl, hle⟩ | hwraps
    · refine ⟨?_, by omega⟩
      cases k with
      | zero => simpa using hfits
      | succ k => rw [Nat.succ_mul] at hle ⊢; omega
    · exact absurd hwraps ((fits p hp).not_wraps i)
  · obtain ⟨p, hp, hsets⟩ := (hcontains v).mp hv
    obtain ⟨hmin, -, hstop⟩ := (hparts.admissible p hp).ordered bounds
    rcases hsets with ⟨k, rfl, hle⟩ | hwraps
    · omega
    · exact absurd hwraps ((fits p hp).not_wraps v)

theorem safeArithmetic_iff_quarters :
    FieldSet.parse "*/15" 0 59 "minute" = .ok ⟨0x200040008001#64, false⟩ ∧
      ∃ parts, FieldText SignedNumeral 0 59 "*/15" parts ∧
        (SafeArithmetic 0 59 "*/15" "minute" ⟨0x200040008001#64, false⟩ ↔
          ∀ p ∈ parts, p.Fits 0) :=
  ⟨by decide, safeArithmetic_iff (by decide) (by decide) (by decide)⟩

/-- A step just below the size of the counter sets the day 0. -/
theorem not_safeArithmetic_longStep : ∃ set,
    FieldSet.parse "1/4294967295" 1 31 "day-of-month" = .ok set ∧
      ¬ SafeArithmetic 1 31 "1/4294967295" "day-of-month" set := by
  refine ⟨⟨3#64, false⟩, by decide, fun safe => ?_⟩
  have hzero := safe.bits 0 (by decide)
  omega

/-! ## The documented values -/

/-- `N/1`. -/
def Part.UnitStep (p : Part) : Prop := ∃ n, p = ⟨.value n, some 1⟩

/-- The part documents the value, and is not an `N/1` with a value after its number, or the counter
wraps around to the value. -/
def Part.Reaches (min max : Nat) (p : Part) (v : Nat) : Prop :=
  (p.Documents min max v ∧ (p.UnitStep → v = p.first min)) ∨ Wraps (p.first min) p.stepSize v

theorem Part.Admissible.sets_iff {p : Part} (admissible : p.Admissible min max) {v : Nat} :
    p.Sets min max v ↔ p.Reaches min max v := by
  have hrange := admissible.range
  refine or_congr_left ?_
  obtain ⟨range, step⟩ := p
  cases range with
  | any => simp [Part.Documents, Part.UnitStep, Part.stop, Part.last, Part.first]
  | span a b => simp [Part.Documents, Part.UnitStep, Part.stop, Part.last, Part.first]
  | value n =>
      obtain ⟨-, hle⟩ := hrange
      cases step with
      | none =>
          simp [Part.Documents, Part.UnitStep, Part.stop, Part.last, Part.first, Part.stepSize]
      | some step =>
          by_cases hunit : step = 1
          · simp only [Part.Documents, Part.UnitStep, Part.stop, Part.last, Part.first,
              Part.stepSize, hunit, Option.getD_some, Option.isSome_some, if_true, mul_one]
            constructor
            · rintro ⟨k, rfl, hk⟩
              exact ⟨⟨k, rfl, by omega⟩, fun _ => by omega⟩
            · rintro ⟨-, hfirst⟩
              obtain rfl := hfirst ⟨n, rfl⟩
              exact ⟨0, by simp⟩
          · simp [Part.Documents, Part.UnitStep, Part.stop, Part.last, Part.first,
              Part.stepSize, hunit]

/-- **A field has its documented values exactly when the values after the number of every `N/1` are
reached by a part, and the values the counter wraps around to are documented.** -/
theorem contains_iff_documents_iff (bounds : min ≤ max) (hmax : max < 64) {set : FieldSet}
    (h : FieldSet.parse text min max field = .ok set) :
    ∃ parts, FieldText SignedNumeral min max text parts ∧
      ((∀ v, set.contains v = true ↔ ∃ p ∈ parts, p.Documents min max v) ↔
        (∀ p ∈ parts, p.UnitStep → ∀ v, p.first min < v → v ≤ max →
          ∃ q ∈ parts, q.Reaches min max v) ∧
        ∀ p ∈ parts, ∀ v, Wraps (p.first min) p.stepSize v →
          ∃ q ∈ parts, q.Documents min max v) := by
  obtain ⟨parts, hparts, hcontains⟩ := parse_contains_iff bounds hmax h
  have hreaches (v : Nat) : set.contains v = true ↔ ∃ p ∈ parts, p.Reaches min max v := by
    rw [hcontains]
    exact exists_congr fun p => and_congr_right fun hp => (hparts.admissible p hp).sets_iff
  simp only [hreaches]
  refine ⟨parts, hparts, fun same => ⟨?_, ?_⟩, ?_⟩
  · rintro p hp ⟨n, rfl⟩ v hlt hle
    have hlt : n < v := hlt
    exact (same v).mpr ⟨_, hp, v - n, by simp [Part.first, Part.stepSize]; omega, hle⟩
  · intro p hp v hwraps
    exact (same v).mp ⟨p, hp, .inr hwraps⟩
  · rintro ⟨hunit, hwraps⟩ v
    constructor
    · rintro ⟨p, hp, ⟨hdocuments, -⟩ | hwrap⟩
      · exact ⟨p, hp, hdocuments⟩
      · exact hwraps p hp v hwrap
    · rintro ⟨p, hp, hdocuments⟩
      by_cases hlater : p.UnitStep ∧ v ≠ p.first min
      · obtain ⟨hstep, hne⟩ := hlater
        obtain ⟨n, rfl⟩ := hstep
        obtain ⟨k, rfl, hle⟩ := hdocuments
        exact hunit _ hp ⟨n, rfl⟩ _ (by omega) hle
      · exact ⟨p, hp, .inl ⟨hdocuments, fun hstep => by_contra fun hne => hlater ⟨hstep, hne⟩⟩⟩

theorem contains_iff_documents_iff_quarters :
    FieldSet.parse "*/15" 0 59 "minute" = .ok ⟨0x200040008001#64, false⟩ ∧
      ∃ parts, FieldText SignedNumeral 0 59 "*/15" parts ∧
        ((∀ v, FieldSet.contains ⟨0x200040008001#64, false⟩ v = true ↔
            ∃ p ∈ parts, p.Documents 0 59 v) ↔
          (∀ p ∈ parts, p.UnitStep → ∀ v, p.first 0 < v → v ≤ 59 →
            ∃ q ∈ parts, q.Reaches 0 59 v) ∧
          ∀ p ∈ parts, ∀ v, Wraps (p.first 0) p.stepSize v → ∃ q ∈ parts, q.Documents 0 59 v) :=
  ⟨by decide,
    @contains_iff_documents_iff 0 59 "*/15" "minute" (by decide) (by decide) _ (by decide)⟩

/-- `5/1` in the minute field has the value 5 only. -/
theorem not_documents_unitStep : ∃ set, FieldSet.parse "5/1" 0 59 "minute" = .ok set ∧
    ∃ parts, FieldText Numeral 0 59 "5/1" parts ∧
      ¬ ∀ v, set.contains v = true ↔ ∃ p ∈ parts, p.Documents 0 59 v := by
  refine ⟨⟨32#64, false⟩, by decide, [⟨.value 5, some 1⟩], ⟨by simp, ?_, ?_⟩, fun same => ?_⟩
  · exact ⟨["5/1"], .cons (.stepped (.value (numeral_toString 5)) (numeral_toString 1)) .nil,
      by decide⟩
  · rintro p hp
    obtain rfl := List.mem_singleton.mp hp
    exact ⟨by simp [PartRange.InBounds], by simp⟩
  · have hsix := (same 6).mpr ⟨_, List.mem_cons_self, 1, by decide⟩
    exact absurd hsix (by decide)

end Field

end Freshdock.Cron
