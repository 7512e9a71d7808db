import Mathlib.Data.List.TakeWhile

/-!
# Redacting delimited runs

A text in which every run that a delimiter opens is replaced by a mark, up to the next delimiter
of its kind or to the end. Delimiters are paired as they come. Two texts are redacted to one text
just when they agree outside those runs (`redactRuns_eq_iff`); what the mark says makes no
difference.
-/

set_option autoImplicit false

namespace Freshdock

universe u

variable {α : Type u} [DecidableEq α] {delims mark : List α}

/-- Around the first element that satisfies `p`. -/
def splitFirst (p : α → Bool) : List α → Option (List α × α × List α)
  | [] => none
  | a :: l =>
      if p a then some ([], a, l)
      else (splitFirst p l).map fun (front, b, back) => (a :: front, b, back)

omit [DecidableEq α] in
theorem splitFirst_eq_some {p : α → Bool} {l front back : List α} {a : α}
    (h : splitFirst p l = some (front, a, back)) :
    l = front ++ a :: back ∧ p a = true ∧ ∀ x ∈ front, p x = false := by
  induction l generalizing front with
  | nil => cases h
  | cons b l ih =>
      rw [splitFirst] at h
      by_cases hb : p b = true
      · rw [if_pos hb] at h
        cases h
        exact ⟨rfl, hb, by simp⟩
      · rw [if_neg hb, Option.map_eq_some_iff] at h
        obtain ⟨⟨first, c, rest⟩, hsplit, heq⟩ := h
        cases heq
        obtain ⟨rfl, hc, hfirst⟩ := ih hsplit
        exact ⟨rfl, hc, List.forall_mem_cons.mpr ⟨eq_false_of_ne_true hb, hfirst⟩⟩

omit [DecidableEq α] in
theorem splitFirst_append {p : α → Bool} {front : List α} {a : α} (back : List α)
    (ha : p a = true) (hfront : ∀ x ∈ front, p x = false) :
    splitFirst p (front ++ a :: back) = some (front, a, back) := by
  induction front with
  | nil => exact if_pos ha
  | cons b front ih =>
      obtain ⟨hb, hfront⟩ := List.forall_mem_cons.mp hfront
      rw [List.cons_append, splitFirst, if_neg (by simp [hb]), ih hfront]
      rfl

omit [DecidableEq α] in
theorem splitFirst_eq_none_iff {p : α → Bool} {l : List α} :
    splitFirst p l = none ↔ ∀ x ∈ l, p x = false := by
  induction l with
  | nil => simp [splitFirst]
  | cons a l ih =>
      rw [splitFirst, List.forall_mem_cons, ← ih]
      cases p a <;> simp

/-! ## The runs -/

/-- What follows the run that `d` opens: the text behind the next `d`, nothing if there is none. -/
def behindRun (d : α) (tail : List α) : List α :=
  match splitFirst (· == d) tail with
  | some (_, _, back) => back
  | none => []

theorem length_behindRun_le (d : α) (tail : List α) : (behindRun d tail).length ≤ tail.length := by
  unfold behindRun
  cases h : splitFirst (· == d) tail with
  | none => exact Nat.zero_le _
  | some found =>
      obtain ⟨front, c, back⟩ := found
      rw [(splitFirst_eq_some h).1]
      simp only [List.length_append, List.length_cons]
      omega

theorem behindRun_append {d : α} {body : List α} (h : d ∉ body) (rest : List α) :
    behindRun d (body ++ d :: rest) = rest := by
  have hbody : ∀ x ∈ body, (x == d) = false := fun x hx => beq_false_of_ne fun heq => h (heq ▸ hx)
  have hsplit : splitFirst (· == d) (body ++ d :: rest) = some (body, d, rest) :=
    splitFirst_append rest (beq_self_eq_true d) hbody
  rw [behindRun, hsplit]

/-- The text with every run replaced by the mark. -/
def redactRuns (delims mark rest : List α) : List α :=
  match _h : splitFirst (delims.contains ·) rest with
  | none => rest
  | some (front, delim, tail) =>
      front ++ delim :: (mark ++ delim :: redactRuns delims mark (behindRun delim tail))
termination_by rest.length
decreasing_by
  rw [(splitFirst_eq_some _h).1]
  simp only [List.length_append, List.length_cons]
  have := length_behindRun_le delim tail
  omega

/-- A text without a delimiter stays. -/
theorem redactRuns_plain {l : List α} (h : ∀ x ∈ l, x ∉ delims) : redactRuns delims mark l = l := by
  have hnone : splitFirst (delims.contains ·) l = none :=
    splitFirst_eq_none_iff.mpr fun x hx => by simpa using h x hx
  rw [redactRuns]
  split
  · rfl
  · next hsome =>
      rw [hnone] at hsome
      cases hsome

theorem redactRuns_run {front : List α} {delim : α} (tail : List α) (hdelim : delim ∈ delims)
    (hfront : ∀ x ∈ front, x ∉ delims) : redactRuns delims mark (front ++ delim :: tail) =
      front ++ delim :: (mark ++ delim :: redactRuns delims mark (behindRun delim tail)) := by
  have hsplit : splitFirst (delims.contains ·) (front ++ delim :: tail) =
      some (front, delim, tail) :=
    splitFirst_append tail (by simpa using hdelim) fun x hx => by simpa using hfront x hx
  rw [redactRuns]
  split
  · next hnone =>
      rw [hsplit] at hnone
      cases hnone
  · next hsome =>
      rw [hsplit] at hsome
      cases hsome
      rfl

/-- **The same text outside of the runs**, run for run between delimiters of the same kind. -/
inductive AgreeOutside (delims : List α) : List α → List α → Prop where
  | plain {l : List α} (plain : ∀ x ∈ l, x ∉ delims) : AgreeOutside delims l l
  | run {front tail tail' : List α} {delim : α} (plain : ∀ x ∈ front, x ∉ delims)
      (isDelim : delim ∈ delims)
      (behind : AgreeOutside delims (behindRun delim tail) (behindRun delim tail')) :
      AgreeOutside delims (front ++ delim :: tail) (front ++ delim :: tail')

/-- A text has no delimiter, or a first one. -/
theorem plain_or_run (delims l : List α) : (∀ x ∈ l, x ∉ delims) ∨
    ∃ front delim tail, l = front ++ delim :: tail ∧ delim ∈ delims ∧ ∀ x ∈ front, x ∉ delims := by
  cases h : splitFirst (delims.contains ·) l with
  | none => exact .inl fun x hx => by simpa using splitFirst_eq_none_iff.mp h x hx
  | some found =>
      obtain ⟨front, delim, tail⟩ := found
      obtain ⟨hl, hdelim, hfront⟩ := splitFirst_eq_some h
      exact .inr ⟨front, delim, tail, hl, by simpa using hdelim,
        fun x hx => by simpa using hfront x hx⟩

theorem AgreeOutside.refl (l : List α) : AgreeOutside delims l l := by
  induction hlength : l.length using Nat.strong_induction_on generalizing l with
  | _ n ih =>
    rcases plain_or_run delims l with hplain | ⟨front, delim, tail, rfl, hdelim, hfront⟩
    · exact .plain hplain
    · refine .run hfront hdelim (ih _ ?_ _ rfl)
      have := length_behindRun_le delim tail
      simp only [List.length_append, List.length_cons] at hlength
      omega

theorem AgreeOutside.redactRuns_eq {l l' : List α} (h : AgreeOutside delims l l') :
    redactRuns delims mark l = redactRuns delims mark l' := by
  induction h with
  | plain plain => rfl
  | run plain isDelim _ ih =>
      rw [redactRuns_run _ isDelim plain, redactRuns_run _ isDelim plain, ih]

/-- A text without a delimiter agrees with itself only. -/
theorem AgreeOutside.eq_of_plain {l l' : List α} (h : AgreeOutside delims l l')
    (plain : ∀ x ∈ l', x ∉ delims) : l = l' := by
  cases h with
  | plain => rfl
  | run _ isDelim _ => exact absurd isDelim (plain _ (by simp))

/-- **Two texts are redacted to one text just when they agree outside of the runs.** -/
theorem redactRuns_eq_iff {l l' : List α} :
    redactRuns delims mark l = redactRuns delims mark l' ↔ AgreeOutside delims l l' := by
  refine ⟨fun h => ?_, AgreeOutside.redactRuns_eq⟩
  induction hlength : l.length using Nat.strong_induction_on generalizing l l' with
  | _ n ih =>
    rcases plain_or_run delims l with hplain | ⟨front, delim, tail, rfl, hdelim, hfront⟩
    · rcases plain_or_run delims l' with hplain' | ⟨front', delim', tail', rfl, hdelim', hfront'⟩
      · rw [redactRuns_plain hplain, redactRuns_plain hplain'] at h
        rw [h]
        exact .refl _
      · -- a redacted run leaves its delimiter
        rw [redactRuns_plain hplain, redactRuns_run _ hdelim' hfront'] at h
        exact absurd hdelim' (hplain delim' (by simp [h]))
    · rcases plain_or_run delims l' with hplain' | ⟨front', delim', tail', rfl, hdelim', hfront'⟩
      · rw [redactRuns_plain hplain', redactRuns_run _ hdelim hfront] at h
        exact absurd hdelim (hplain' delim (by simp [← h]))
      · -- the first delimiters are the same, and so is what follows their runs
        rw [redactRuns_run _ hdelim hfront, redactRuns_run _ hdelim' hfront'] at h
        have hfirst := congrArg (splitFirst (delims.contains ·)) h
        rw [splitFirst_append _ (by simpa using hdelim) fun x hx => by simpa using hfront x hx,
          splitFirst_append _ (by simpa using hdelim') fun x hx => by simpa using hfront' x hx]
          at hfirst
        obtain ⟨rfl, rfl, hrest⟩ : front = front' ∧ delim = delim' ∧ _ := by simpa using hfirst
        refine .run hfront hdelim (ih _ ?_ hrest rfl)
        have := length_behindRun_le delim tail
        simp only [List.length_append, List.length_cons] at hlength
        omega

end Freshdock
