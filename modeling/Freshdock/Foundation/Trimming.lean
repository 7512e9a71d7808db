import Freshdock.Foundation.Text
import Mathlib.Data.List.DropRight

/-!
# Trimming

What trimming at both ends keeps: only characters of the text, all of it when neither end is to
go (`trimEnds_eq_self`), and nothing of what is put around it (`trimEnds_surrounded`). White space
and a fixed character are the two cases.
-/

set_option autoImplicit false

namespace Freshdock.Text

section TrimEnds

universe u

variable {α : Type u} {p : α → Bool}

/-- Without the elements at either end that satisfy `p`. -/
def trimEnds (p : α → Bool) (l : List α) : List α := (l.dropWhile p).rdropWhile p

theorem mem_of_mem_trimEnds {a : α} {l : List α} (h : a ∈ trimEnds p l) : a ∈ l := by
  have hdrop : a ∈ l.dropWhile p := (List.rdropWhile_prefix p _).subset h
  exact (List.dropWhile_sublist p).subset hdrop

theorem trimEnds_eq_self {l : List α} (first : ∀ a ∈ l.head?, p a = false)
    (last : ∀ a ∈ l.getLast?, p a = false) : trimEnds p l = l := by
  have hfront : l.dropWhile p = l := by
    cases l with
    | nil => rfl
    | cons a l => exact List.dropWhile_cons_of_neg (by simp [first a rfl])
  rw [trimEnds, hfront, List.rdropWhile_eq_self_iff]
  intro hne
  simp [last _ (List.getLast?_eq_getLast_of_ne_nil hne)]

theorem trimEnds_eq_self_of_forall {l : List α} (h : ∀ a ∈ l, p a = false) : trimEnds p l = l :=
  trimEnds_eq_self (fun _ ha => h _ (List.mem_of_mem_head? ha))
    fun _ ha => h _ (List.mem_of_mem_getLast? ha)

/-- **What is trimmed at the ends makes no difference.** -/
theorem trimEnds_surrounded {front back : List α} (l : List α) (hfront : ∀ a ∈ front, p a = true)
    (hback : ∀ a ∈ back, p a = true) : trimEnds p (front ++ l ++ back) = trimEnds p l := by
  have hdrop (cs : List α) : (front ++ cs).dropWhile p = cs.dropWhile p := by
    rw [List.dropWhile_append, List.dropWhile_eq_nil_iff.mpr hfront]
    rfl
  have hrdrop (cs : List α) : (cs ++ back).rdropWhile p = cs.rdropWhile p := by
    unfold List.rdropWhile
    rw [List.reverse_append, List.dropWhile_append,
      List.dropWhile_eq_nil_iff.mpr fun a ha => hback a (List.mem_reverse.mp ha)]
    rfl
  unfold trimEnds
  rw [List.append_assoc, hdrop, List.dropWhile_append]
  split_ifs with hempty
  · rw [List.isEmpty_iff.mp hempty, List.dropWhile_eq_nil_iff.mpr hback]
  · exact hrdrop _

end TrimEnds

/-! ## White space -/

theorem trim_eq (s : String) : trim s = String.ofList (trimEnds isWhitespace s.toList) := rfl

theorem mem_of_mem_trim {c : Char} {s : String} (h : c ∈ (trim s).toList) : c ∈ s.toList := by
  rw [trim_eq, String.toList_ofList] at h
  exact mem_of_mem_trimEnds h

theorem trim_eq_self {s : String} {first last : Char} {middle : List Char}
    (hs : s.toList = first :: (middle ++ [last])) (hfirst : isWhitespace first = false)
    (hlast : isWhitespace last = false) : trim s = s := by
  have hends : trimEnds isWhitespace s.toList = s.toList := by
    refine trimEnds_eq_self (fun c hc => ?_) fun c hc => ?_
    · rw [hs, List.head?_cons] at hc
      obtain rfl := Option.some.inj hc
      exact hfirst
    · rw [hs, ← List.cons_append, List.getLast?_concat] at hc
      obtain rfl := Option.some.inj hc
      exact hlast
  rw [trim_eq, hends, String.ofList_toList]

/-! ## A fixed character -/

/-- Without any copies of `c` at either end. -/
def trimMatches (s : String) (c : Char) : String := String.ofList (trimEnds (· == c) s.toList)

theorem mem_of_mem_trimMatches {c c' : Char} {s : String} (h : c' ∈ (trimMatches s c).toList) :
    c' ∈ s.toList := by
  rw [trimMatches, String.toList_ofList] at h
  exact mem_of_mem_trimEnds h

theorem trimMatches_surrounded {c : Char} {s : String} (h : c ∉ s.toList) :
    trimMatches (String.singleton c ++ s ++ String.singleton c) c = s := by
  have hinner : trimEnds (· == c) s.toList = s.toList := by
    refine trimEnds_eq_self_of_forall fun a ha => ?_
    exact beq_false_of_ne fun heq => h (heq ▸ ha)
  rw [trimMatches, String.toList_append, String.toList_append, String.toList_singleton,
    trimEnds_surrounded _ (by simp) (by simp), hinner, String.ofList_toList]

end Freshdock.Text
