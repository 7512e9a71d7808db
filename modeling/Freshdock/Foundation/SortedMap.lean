import Mathlib.Data.List.Basic
import Mathlib.Order.Basic
import Mathlib.Data.List.Sort

/-!
# Maps with one key order

A finite map from a linearly ordered key type, kept as its entries in strictly increasing key
order. The order is a field of the structure, so a key occurs once and two maps with the same
entries are equal.

A hash map of a program whose results do not depend on the iteration order is modelled by
such a map: iterating it is reading `entries`.
-/

set_option autoImplicit false

namespace Freshdock

universe u v

variable {κ : Type u} {ν : Type v} [LinearOrder κ]

/-- A finite map, as its entries in strictly increasing key order. -/
structure SortedMap (κ : Type u) (ν : Type v) [LinearOrder κ] where
  entries : List (κ × ν)
  sorted : (entries.map Prod.fst).Pairwise (· < ·)

namespace SortedMap

@[ext] theorem ext {m m' : SortedMap κ ν} (h : m.entries = m'.entries) : m = m' := by
  cases m
  cases m'
  cases h
  rfl

def empty : SortedMap κ ν := ⟨[], List.Pairwise.nil⟩

def keys (m : SortedMap κ ν) : List κ := m.entries.map Prod.fst

def values (m : SortedMap κ ν) : List ν := m.entries.map Prod.snd

/-- The value at `k` in a list of entries. -/
def find (k : κ) : List (κ × ν) → Option ν
  | [] => none
  | (k', v) :: rest => if k = k' then some v else find k rest

def get? (m : SortedMap κ ν) (k : κ) : Option ν := find k m.entries

/-- Put `f` of the present value at `k`, at its place in the order. -/
def upsert (k : κ) (f : Option ν → ν) : List (κ × ν) → List (κ × ν)
  | [] => [(k, f none)]
  | (k', v) :: rest =>
      if k < k' then (k, f none) :: (k', v) :: rest
      else if k = k' then (k, f (some v)) :: rest
      else (k', v) :: upsert k f rest

theorem mem_keys_upsert {k x : κ} {f : Option ν → ν} {l : List (κ × ν)} :
    x ∈ (upsert k f l).map Prod.fst ↔ x = k ∨ x ∈ l.map Prod.fst := by
  induction l with
  | nil => simp [upsert]
  | cons entry rest ih =>
      obtain ⟨k', v⟩ := entry
      rw [upsert]
      split_ifs with hlt heq
      · simp
      · subst heq
        simp
      · rw [List.map_cons, List.mem_cons, ih, List.map_cons, List.mem_cons]
        exact or_left_comm

theorem sorted_upsert {k : κ} {f : Option ν → ν} {l : List (κ × ν)}
    (h : (l.map Prod.fst).Pairwise (· < ·)) :
    ((upsert k f l).map Prod.fst).Pairwise (· < ·) := by
  induction l with
  | nil => simp [upsert]
  | cons entry rest ih =>
      obtain ⟨k', v⟩ := entry
      rw [List.map_cons, List.pairwise_cons] at h
      rw [upsert]
      split_ifs with hlt heq
      · rw [List.map_cons, List.pairwise_cons]
        refine ⟨fun x hx => ?_, List.pairwise_cons.mpr h⟩
        rcases List.mem_cons.mp hx with rfl | hx
        · exact hlt
        · exact hlt.trans (h.1 x hx)
      · subst heq
        exact List.pairwise_cons.mpr h
      · rw [List.map_cons, List.pairwise_cons]
        refine ⟨fun x hx => ?_, ih h.2⟩
        rcases mem_keys_upsert.mp hx with rfl | hx
        · exact lt_of_le_of_ne (not_lt.mp hlt) (Ne.symm heq)
        · exact h.1 x hx

/-- `entry(k).and_modify(..).or_insert(..)`. -/
def alter (m : SortedMap κ ν) (k : κ) (f : Option ν → ν) : SortedMap κ ν :=
  ⟨upsert k f m.entries, sorted_upsert m.sorted⟩

def insert (m : SortedMap κ ν) (k : κ) (v : ν) : SortedMap κ ν := m.alter k fun _ => v

/-- Append `x` to the list at `k`, which starts empty. -/
def push {ξ : Type v} (m : SortedMap κ (List ξ)) (k : κ) (x : ξ) : SortedMap κ (List ξ) :=
  m.alter k fun present => present.getD [] ++ [x]

def map {ξ : Type v} (m : SortedMap κ ν) (f : ν → ξ) : SortedMap κ ξ :=
  ⟨m.entries.map fun entry => (entry.1, f entry.2), by simpa [Function.comp_def] using m.sorted⟩

/-- The entries whose key satisfies `keep`. -/
def retain (m : SortedMap κ ν) (keep : κ → Bool) : SortedMap κ ν :=
  ⟨m.entries.filter fun entry => keep entry.1,
    m.sorted.sublist (List.filter_sublist.map Prod.fst)⟩

def erase (m : SortedMap κ ν) (k : κ) : SortedMap κ ν := m.retain fun k' => k' ≠ k

/-! ## Lookups -/

theorem find_upsert_self {k : κ} {f : Option ν → ν} {l : List (κ × ν)}
    (h : (l.map Prod.fst).Pairwise (· < ·)) : find k (upsert k f l) = some (f (find k l)) := by
  induction l with
  | nil => simp [upsert, find]
  | cons entry rest ih =>
      obtain ⟨k', v⟩ := entry
      rw [List.map_cons, List.pairwise_cons] at h
      rw [upsert]
      split_ifs with hlt heq
      · have hne : k ≠ k' := hlt.ne
        have hrest : find k rest = none := by
          have hgt : ∀ x ∈ rest.map Prod.fst, k < x := fun x hx => hlt.trans (h.1 x hx)
          clear ih h
          induction rest with
          | nil => rfl
          | cons entry' rest ih =>
              obtain ⟨k'', v'⟩ := entry'
              have hk : k < k'' := hgt k'' (by simp)
              rw [find, if_neg hk.ne]
              exact ih fun x hx => hgt x (List.mem_cons_of_mem _ hx)
        simp [find, hne, hrest]
      · subst heq
        simp [find]
      · rw [find, if_neg heq, ih h.2, find, if_neg heq]

theorem find_upsert_of_ne {k k' : κ} {f : Option ν → ν} {l : List (κ × ν)} (hne : k' ≠ k) :
    find k' (upsert k f l) = find k' l := by
  induction l with
  | nil => simp [upsert, find, hne]
  | cons entry rest ih =>
      obtain ⟨k'', v⟩ := entry
      rw [upsert]
      split_ifs with hlt heq
      · rw [find, if_neg hne]
      · subst heq
        simp [find, hne]
      · rw [find, ih, find]

@[simp] theorem get?_empty (k : κ) : (empty : SortedMap κ ν).get? k = none := rfl

theorem get?_alter_self (m : SortedMap κ ν) (k : κ) (f : Option ν → ν) :
    (m.alter k f).get? k = some (f (m.get? k)) := find_upsert_self m.sorted

theorem get?_alter_of_ne (m : SortedMap κ ν) {k k' : κ} (f : Option ν → ν) (hne : k' ≠ k) :
    (m.alter k f).get? k' = m.get? k' := find_upsert_of_ne hne

@[simp] theorem get?_insert_self (m : SortedMap κ ν) (k : κ) (v : ν) :
    (m.insert k v).get? k = some v := get?_alter_self m k _

theorem get?_insert_of_ne (m : SortedMap κ ν) {k k' : κ} (v : ν) (hne : k' ≠ k) :
    (m.insert k v).get? k' = m.get? k' := get?_alter_of_ne m _ hne

theorem get?_push_self {ξ : Type v} (m : SortedMap κ (List ξ)) (k : κ) (x : ξ) :
    (m.push k x).get? k = some ((m.get? k).getD [] ++ [x]) := get?_alter_self m k _

theorem get?_push_of_ne {ξ : Type v} (m : SortedMap κ (List ξ)) {k k' : κ} (x : ξ)
    (hne : k' ≠ k) : (m.push k x).get? k' = m.get? k' := get?_alter_of_ne m _ hne

theorem find_map {ξ : Type v} {k : κ} {f : ν → ξ} {l : List (κ × ν)} :
    find k (l.map fun entry => (entry.1, f entry.2)) = (find k l).map f := by
  induction l with
  | nil => rfl
  | cons entry rest ih =>
      rw [List.map_cons, find, find]
      split_ifs with heq
      · rfl
      · exact ih

@[simp] theorem get?_map {ξ : Type v} (m : SortedMap κ ν) (f : ν → ξ) (k : κ) :
    (m.map f).get? k = (m.get? k).map f := find_map

theorem find_filter {keep : κ → Bool} {k : κ} {l : List (κ × ν)} :
    find k (l.filter fun entry => keep entry.1) = if keep k then find k l else none := by
  induction l with
  | nil => simp [find]
  | cons entry rest ih =>
      obtain ⟨k', v⟩ := entry
      rw [List.filter_cons, find]
      by_cases heq : k = k'
      · subst heq
        cases hkeep : keep k with
        | true => simp [find]
        | false => simpa [hkeep] using ih
      · cases hkeep' : keep k' with
        | true => simpa [find, heq] using ih
        | false => simpa [heq] using ih

theorem get?_retain (m : SortedMap κ ν) (keep : κ → Bool) (k : κ) :
    (m.retain keep).get? k = if keep k then m.get? k else none := find_filter

theorem get?_erase_of_ne (m : SortedMap κ ν) {k k' : κ} (hne : k' ≠ k) :
    (m.erase k).get? k' = m.get? k' := by
  rw [erase, get?_retain, if_pos (by simpa using hne)]

theorem mem_entries_iff {m : SortedMap κ ν} {k : κ} {v : ν} :
    (k, v) ∈ m.entries ↔ m.get? k = some v := by
  obtain ⟨l, sorted⟩ := m
  change (k, v) ∈ l ↔ find k l = some v
  induction l with
  | nil => simp [find]
  | cons entry rest ih =>
      obtain ⟨k', v'⟩ := entry
      rw [List.map_cons, List.pairwise_cons] at sorted
      rw [List.mem_cons, find]
      split_ifs with heq
      · subst heq
        constructor
        · rintro (hkv | hkv)
          · cases hkv
            rfl
          · exact absurd (sorted.1 k (List.mem_map_of_mem hkv)) (lt_irrefl k)
        · intro hv
          cases hv
          exact .inl rfl
      · rw [← ih sorted.2]
        constructor
        · rintro (hkv | hkv)
          · cases hkv
            exact absurd rfl heq
          · exact hkv
        · exact .inr

theorem mem_keys_iff {m : SortedMap κ ν} {k : κ} : k ∈ m.keys ↔ ∃ v, m.get? k = some v := by
  simp only [keys, List.mem_map, Prod.exists, exists_and_right, exists_eq_right, mem_entries_iff]

/-- **Two maps with the same lookups are the same map.** -/
theorem ext_get? {m m' : SortedMap κ ν} (h : ∀ k, m.get? k = m'.get? k) : m = m' := by
  have nodup (m : SortedMap κ ν) : m.entries.Nodup :=
    List.Nodup.of_map Prod.fst (m.sorted.imp fun hlt => hlt.ne)
  have perm : m.entries.Perm m'.entries := by
    refine (List.perm_ext_iff_of_nodup (nodup m) (nodup m')).mpr fun entry => ?_
    rw [← Prod.eta entry, mem_entries_iff, mem_entries_iff, h]
  have sorted (m : SortedMap κ ν) : m.entries.Pairwise fun a b => a.1 < b.1 :=
    List.pairwise_map.mp m.sorted
  refine SortedMap.ext (perm.eq_of_pairwise ?_ (sorted m) (sorted m'))
  intro a b _ _ hlt hgt
  exact absurd hgt hlt.asymm

/-! ## Sorting by a key -/

/-- The order in which entries with different keys come does not matter to sorting them. -/
theorem insertionSort_congr {β : Type u} {key : β → κ} {l l' : List β} (perm : l.Perm l')
    (distinct : ∀ a ∈ l, ∀ b ∈ l, key a = key b → a = b) :
    (l.insertionSort fun a b => key a ≤ key b) = l'.insertionSort fun a b => key a ≤ key b := by
  have total : Std.Total fun a b : β => key a ≤ key b := ⟨fun a b => le_total (key a) (key b)⟩
  have trans : IsTrans β fun a b => key a ≤ key b := ⟨fun _ _ _ => le_trans⟩
  have sorted (l : List β) := List.pairwise_insertionSort (fun a b => key a ≤ key b) l
  have perm' : (l.insertionSort fun a b => key a ≤ key b).Perm
      (l'.insertionSort fun a b => key a ≤ key b) :=
    (List.perm_insertionSort _ l).trans (perm.trans (List.perm_insertionSort _ l').symm)
  refine perm'.eq_of_pairwise (fun a b ha hb hab hba => ?_) (sorted l) (sorted l')
  rw [List.mem_insertionSort] at ha hb
  exact distinct a ha b (perm.mem_iff.mpr hb) (le_antisymm hab hba)

/-! ## Grouping -/

/-- No key of the map has an empty list. -/
def Filled {ξ : Type v} (m : SortedMap κ (List ξ)) : Prop := ∀ k, m.get? k ≠ some []

theorem filled_empty {ξ : Type v} : Filled (empty : SortedMap κ (List ξ)) := by
  intro k
  simp

theorem Filled.push {ξ : Type v} {m : SortedMap κ (List ξ)} (h : Filled m) (k : κ) (x : ξ) :
    Filled (m.push k x) := by
  intro k'
  by_cases heq : k' = k
  · subst heq
    simp [get?_push_self]
  · rw [get?_push_of_ne m x heq]
    exact h k'

/-- The keys of a filled map are those with a member. -/
theorem Filled.mem_keys {ξ : Type v} {m : SortedMap κ (List ξ)} (h : Filled m) {k : κ} :
    k ∈ m.keys ↔ ∃ x, x ∈ (m.get? k).getD [] := by
  rw [mem_keys_iff]
  cases hget : m.get? k with
  | none => simp
  | some l =>
      have hne : l ≠ [] := fun hnil => h k (hnil ▸ hget)
      simpa using List.exists_mem_of_ne_nil l hne

/-- Filled maps with permuted lists at each key have equal images under what does not see the
order of a list. -/
theorem Filled.map_eq {ξ ζ : Type v} {m m' : SortedMap κ (List ξ)} (h : Filled m)
    (h' : Filled m') (perm : ∀ k, ((m.get? k).getD []).Perm ((m'.get? k).getD []))
    {f : List ξ → ζ} (blind : ∀ k l l', m.get? k = some l → l.Perm l' → f l = f l') :
    m.map f = m'.map f := by
  refine ext_get? fun k => ?_
  rw [get?_map, get?_map]
  have hperm := perm k
  cases hget : m.get? k with
  | none =>
      cases hget' : m'.get? k with
      | none => rfl
      | some l' =>
          rw [hget, hget'] at hperm
          exact absurd (hget'.trans (congrArg some (List.perm_nil.mp hperm.symm))) (h' k)
  | some l =>
      cases hget' : m'.get? k with
      | none =>
          rw [hget, hget'] at hperm
          exact absurd (hget.trans (congrArg some (List.perm_nil.mp hperm))) (h k)
      | some l' =>
          rw [hget, hget'] at hperm
          exact congrArg some (blind k l l' hget hperm)

/-- A list that is grouped by a key, group after group, is the list in another order. -/
theorem flatMap_groups_perm {α : Type u} {key : α → κ} {ks : List κ} {l : List α}
    (nodup : ks.Nodup) (covers : ∀ x ∈ l, key x ∈ ks) :
    (ks.flatMap fun k => l.filter fun x => key x = k).Perm l := by
  induction ks generalizing l with
  | nil =>
      obtain rfl : l = [] := List.eq_nil_iff_forall_not_mem.mpr fun x hx => by
        simpa using covers x hx
      exact .refl []
  | cons k ks ih =>
      obtain ⟨hk, nodup⟩ := List.nodup_cons.mp nodup
      have others : (ks.flatMap fun k' => l.filter fun x => key x = k').Perm
          (l.filter fun x => !decide (key x = k)) := by
        have hfilter := @ih (l.filter fun x => !decide (key x = k)) nodup fun x hx => by
          obtain ⟨hx, hne⟩ := List.mem_filter.mp hx
          exact (List.mem_cons.mp (covers x hx)).resolve_left (by simpa using hne)
        refine (List.Perm.of_eq (List.flatMap_congr fun k' hk' => ?_)).trans hfilter
        rw [List.filter_filter]
        refine List.filter_congr fun x _ => ?_
        by_cases heq : key x = k'
        · have hne : key x ≠ k := by
            rintro rfl
            exact hk (heq ▸ hk')
          simp [heq, heq ▸ hne]
        · simp [heq]
      rw [List.flatMap_cons]
      exact (others.append_left _).trans (List.filter_append_perm _ l)

end SortedMap

end Freshdock
