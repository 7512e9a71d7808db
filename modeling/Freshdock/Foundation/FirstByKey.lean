import Freshdock.Foundation.SortedMap
import Mathlib.Data.List.Destutter

/-!
# The first of each key

A list that is sorted by a key, and of which neighbours with one key are then dropped but for the
first. A lookup by a key gives what it gives in the list itself (`find?_firstByKey`), and a list
with one element for each key comes out sorted whatever its order (`firstByKey_of_perm`).
-/

set_option autoImplicit false

namespace Freshdock.SortedMap

universe u

variable {κ β : Type u} [LinearOrder κ]

/-- Sorted by the key, with the first element of each key only. -/
def firstByKey (key : β → κ) (l : List β) : List β :=
  (l.insertionSort fun a b => key a ≤ key b).destutter fun a b => key a ≠ key b

section Lookup

variable {key : β → κ}

theorem find?_orderedInsert (a : β) (l : List β) (k : κ) :
    (l.orderedInsert (fun a b => key a ≤ key b) a).find? (fun b => key b = k) =
      (a :: l).find? fun b => key b = k := by
  induction l with
  | nil => rfl
  | cons b l ih =>
      rw [List.orderedInsert_cons]
      split_ifs with hle
      · rfl
      · rw [List.find?_cons, ih]
        simp only [List.find?_cons]
        by_cases ha : key a = k
        · -- what stands before the new element has a smaller key
          have hb : key b ≠ k := fun hb => hle (by rw [ha, hb])
          simp [ha, hb]
        · simp [ha]

theorem find?_insertionSort (l : List β) (k : κ) :
    (l.insertionSort fun a b => key a ≤ key b).find? (fun b => key b = k) =
      l.find? fun b => key b = k := by
  induction l with
  | nil => rfl
  | cons a l ih =>
      rw [List.insertionSort_cons, find?_orderedInsert]
      simp only [List.find?_cons, ih]

theorem find?_destutter' (a : β) (l : List β) (k : κ) :
    (l.destutter' (fun a b => key a ≠ key b) a).find? (fun b => key b = k) =
      (a :: l).find? fun b => key b = k := by
  induction l generalizing a with
  | nil => rfl
  | cons b l ih =>
      rw [List.destutter'_cons]
      split_ifs with hne
      · simp only [List.find?_cons, ih]
      · rw [ih]
        have hsame : key a = key b := not_not.mp hne
        simp only [List.find?_cons, hsame]
        by_cases hb : key b = k <;> simp [hb]

/-- **Sorting and dropping keep the first element of each key.** -/
theorem find?_firstByKey (l : List β) (k : κ) :
    (firstByKey key l).find? (fun b => key b = k) = l.find? fun b => key b = k := by
  rw [← find?_insertionSort l k, firstByKey]
  cases l.insertionSort fun a b => key a ≤ key b with
  | nil => rfl
  | cons a rest => rw [List.destutter_cons', find?_destutter']

end Lookup

/-- What comes out has one element for each key, in the order of the keys. -/
theorem pairwise_firstByKey (key : β → κ) (l : List β) :
    (firstByKey key l).Pairwise fun a b => key a < key b := by
  have hle : (firstByKey key l).Pairwise fun a b => key a ≤ key b := by
    refine List.Pairwise.sublist (List.destutter_sublist _ _) ?_
    exact List.pairwise_insertionSort (fun a b => key a ≤ key b) l
  have hchain : (firstByKey key l).IsChain fun a b => key a < key b := by
    have hne : (firstByKey key l).IsChain fun a b => key a ≠ key b :=
      List.isChain_destutter _ _
    refine List.isChain_iff_getElem.mpr fun i hi => ?_
    have hi_le := List.isChain_iff_getElem.mp hle.isChain i hi
    exact lt_of_le_of_ne hi_le (List.isChain_iff_getElem.mp hne i hi)
  have htrans : IsTrans β fun a b => key a < key b := ⟨fun _ _ _ => lt_trans⟩
  exact List.isChain_iff_pairwise.mp hchain

/-- **One element for each key comes out sorted, in whichever order it came.** -/
theorem firstByKey_of_perm {key : β → κ} {l sorted : List β} (perm : l.Perm sorted)
    (hsorted : sorted.Pairwise fun a b => key a < key b) : firstByKey key l = sorted := by
  have distinct : ∀ a ∈ sorted, ∀ b ∈ sorted, key a = key b → a = b := by
    have nodup : (sorted.map key).Nodup := List.pairwise_map.mpr (hsorted.imp fun hlt => hlt.ne)
    exact fun a ha b hb heq => List.inj_on_of_nodup_map nodup ha hb heq
  have hsort : (l.insertionSort fun a b => key a ≤ key b) = sorted := by
    have hcongr := insertionSort_congr perm fun a ha b hb =>
      distinct a (perm.mem_iff.mp ha) b (perm.mem_iff.mp hb)
    rw [hcongr]
    exact (hsorted.imp fun hlt => hlt.le).insertionSort_eq
  rw [firstByKey, hsort]
  exact List.destutter_of_isChain _ _ (hsorted.imp fun hlt => hlt.ne).isChain

end Freshdock.SortedMap
