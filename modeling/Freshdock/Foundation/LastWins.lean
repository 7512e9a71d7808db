import Freshdock.Foundation.SortedMap
import Mathlib.Data.List.Induction
import Mathlib.Data.List.Perm.Basic

/-!
# The last one counts

Where several values are put in one place, the last of them counts. In an unknown order that is
some one of them (`oneOf_getLast?`), and it can be any one of them (`exists_perm_getLast?`), so
that the order makes no difference just when they are all the same (`Agree`).
-/

set_option autoImplicit false

namespace Freshdock

universe u v

section Last

variable {α : Type u} {β : Type v}

/-- One of the elements, and nothing only when there is none. -/
def OneOf (l : List α) : Option α → Prop
  | none => l = []
  | some a => a ∈ l

theorem oneOf_getLast? (l : List α) : OneOf l l.getLast? := by
  cases h : l.getLast? with
  | none => exact List.getLast?_eq_none_iff.mp h
  | some a => exact List.mem_of_getLast? h

theorem OneOf.of_perm {l l' : List α} {o : Option α} (h : OneOf l o) (perm : l.Perm l') :
    OneOf l' o := by
  cases o with
  | none =>
      have hl : l = [] := h
      rw [hl] at perm
      exact perm.nil_eq.symm
  | some a => exact perm.mem_iff.mp h

theorem OneOf.eq_none {o : Option α} (h : OneOf [] o) : o = none := by
  cases o with
  | none => rfl
  | some a => cases h

/-- Are all elements the same? -/
def Agree (l : List α) : Prop := ∀ a ∈ l, ∀ b ∈ l, a = b

instance [DecidableEq α] (l : List α) : Decidable (Agree l) :=
  inferInstanceAs (Decidable (∀ a ∈ l, ∀ b ∈ l, a = b))

theorem Agree.eq_of_oneOf {l : List α} (agree : Agree l) {o o' : Option α} (h : OneOf l o)
    (h' : OneOf l o') : o = o' := by
  cases o with
  | none =>
      cases o' with
      | none => rfl
      | some b =>
          have hl : l = [] := h
          rw [hl] at h'
          exact h'.eq_none.symm
  | some a =>
      cases o' with
      | none =>
          have hl : l = [] := h'
          rw [hl] at h
          exact h.eq_none
      | some b => exact congrArg some (agree a h b h')

/-- Values each of which some possible result shows are all the same when there is one result. -/
theorem agree_of_each {l : List α} {P : β → Prop} {f : β → Option α}
    (one : ∀ r r', P r → P r' → r = r') (each : ∀ a ∈ l, ∃ r, P r ∧ f r = some a) :
    Agree l := by
  intro a ha b hb
  obtain ⟨r, possible, hr⟩ := each a ha
  obtain ⟨r', possible', hr'⟩ := each b hb
  apply Option.some.inj
  rw [← hr, ← hr', one r r' possible possible']

/-- **Every value comes last in some order.** -/
theorem exists_perm_getLast? {f : α → Option β} {l : List α} {b : β} (h : b ∈ l.filterMap f) :
    ∃ l' : List α, l'.Perm l ∧ (l'.filterMap f).getLast? = some b := by
  obtain ⟨a, ha, hb⟩ := List.mem_filterMap.mp h
  obtain ⟨front, back, rfl⟩ := List.append_of_mem ha
  refine ⟨front ++ back ++ [a], ?_, ?_⟩
  · rw [List.append_assoc]
    exact List.Perm.append_left front List.perm_append_comm
  · rw [List.filterMap_append, List.filterMap_cons_some hb, List.filterMap_nil,
      List.getLast?_concat]

end Last

namespace SortedMap

variable {κ : Type u} {ν : Type v} [LinearOrder κ]

section Insert

variable {α : Type u}

/-- **Of the values inserted at a key, the last one is there.** -/
theorem get?_foldl_insert [DecidableEq κ] (key : α → κ) (value : α → ν) (l : List α)
    (m : SortedMap κ ν) (k : κ) :
    (l.foldl (fun m a => m.insert (key a) (value a)) m).get? k =
      (l.filterMap fun a => if key a = k then some (value a) else none).getLast?.or (m.get? k) := by
  induction l using List.reverseRecOn with
  | nil => rfl
  | append_singleton l a ih =>
      rw [List.foldl_append, List.filterMap_append, List.foldl_cons, List.foldl_nil]
      by_cases hkey : key a = k
      · subst hkey
        simp
      · rw [get?_insert_of_ne _ _ (Ne.symm hkey), ih]
        simp [hkey]

end Insert

section Own

variable {β : Type v}

theorem find_eq_some_iff {l : List (κ × β)} (distinct : (l.map Prod.fst).Nodup) {k : κ} {b : β} :
    find k l = some b ↔ (k, b) ∈ l := by
  induction l with
  | nil => simp [find]
  | cons entry rest ih =>
      obtain ⟨k', b'⟩ := entry
      rw [List.map_cons, List.nodup_cons] at distinct
      rw [find, List.mem_cons, Prod.mk.injEq]
      by_cases hk : k = k'
      · subst hk
        have hrest : (k, b) ∉ rest := fun h => distinct.1 (List.mem_map.mpr ⟨_, h, rfl⟩)
        simp [hrest, eq_comm]
      · simp [hk, ih distinct.2]

theorem find_perm {l l' : List (κ × β)} (perm : l.Perm l') (distinct : (l.map Prod.fst).Nodup)
    (k : κ) : find k l = find k l' := by
  ext b
  have distinct' : (l'.map Prod.fst).Nodup := (perm.map Prod.fst).nodup_iff.mp distinct
  rw [find_eq_some_iff distinct, find_eq_some_iff distinct', perm.mem_iff]

/-- **Entries that change only what is at their own key** change it once each, whatever their
order. -/
theorem get?_foldl_own {step : SortedMap κ ν → κ × β → SortedMap κ ν}
    {change : Option ν → β → Option ν}
    (own : ∀ m k b, (step m (k, b)).get? k = change (m.get? k) b)
    (other : ∀ m entry k, k ≠ entry.1 → (step m entry).get? k = m.get? k)
    {l : List (κ × β)} (distinct : (l.map Prod.fst).Nodup) (m : SortedMap κ ν) (k : κ) :
    (l.foldl step m).get? k = ((find k l).map (change (m.get? k))).getD (m.get? k) := by
  induction l generalizing m with
  | nil => rfl
  | cons entry rest ih =>
      obtain ⟨k', b⟩ := entry
      rw [List.map_cons, List.nodup_cons] at distinct
      rw [List.foldl_cons, ih distinct.2, find]
      by_cases hk : k = k'
      · -- no later entry has the key
        subst hk
        have hrest : find k rest = none := by
          rw [Option.eq_none_iff_forall_ne_some]
          intro b' hb'
          rw [find_eq_some_iff distinct.2] at hb'
          exact distinct.1 (List.mem_map.mpr ⟨_, hb', rfl⟩)
        simp [hrest, own]
      · rw [other _ _ _ hk, if_neg hk]

end Own

end SortedMap

end Freshdock
