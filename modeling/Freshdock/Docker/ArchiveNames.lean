import Freshdock.Docker.Rename
import Freshdock.Foundation.Decimals
import Freshdock.Foundation.Splitting

/-!
# Archive names and their recognition

A name is recognised as an archive when digits follow its last `-old-`, perhaps with a dash and
more digits behind them. The characters behind that `-old-` cannot start another one, so it does
not matter what comes before it (`isArchiveName_iff`), and every name that is chosen for an
archive is recognised (`nextAvailableOldName_spec`).
-/

set_option autoImplicit false

namespace Freshdock.Docker

open Interaction Text

universe u

/-! ## Recognition -/

theorem isAllDigits_iff {s : String} : isAllDigits s = true ↔ IsDigits s := by
  unfold isAllDigits IsDigits
  simp

/-- The texts behind an archive's `-old-`: a timestamp, perhaps with a sequence number. -/
def IsStamp (tail : String) : Prop :=
  IsDigits tail ∨ ∃ ts seq, IsDigits ts ∧ IsDigits seq ∧ tail = ts ++ "-" ++ seq

theorem IsStamp.not_mem {tail : String} (h : IsStamp tail) : 'o' ∉ tail.toList := by
  rcases h with h | ⟨ts, seq, hts, hseq, rfl⟩
  · exact h.not_mem (by decide)
  · have hts := hts.not_mem (c := 'o') (by decide)
    have hseq := hseq.not_mem (c := 'o') (by decide)
    simp [hts, hseq]

/-- Behind an `-old-` with no further `o`, there is no other one. -/
theorem old_last {before before' after after' : List Char} (hafter : 'o' ∉ after)
    (h : before ++ "-old-".toList ++ after = before' ++ "-old-".toList ++ after') :
    before'.length ≤ before.length := by
  by_contra hlonger
  rw [List.append_assoc, List.append_assoc] at h
  rcases List.append_eq_append_iff.mp h with ⟨gap, rfl, hrest⟩ | ⟨gap, rfl, -⟩
  · -- the other one starts at one of the five characters, or behind them
    have hold : "-old-".toList = ['-', 'o', 'l', 'd', '-'] := by decide
    rw [hold] at hrest
    rcases gap with _ | ⟨c₁, _ | ⟨c₂, _ | ⟨c₃, _ | ⟨c₄, _ | ⟨c₅, gap⟩⟩⟩⟩⟩
    · simp at hlonger
    all_goals simp at hrest
    · obtain ⟨-, -, -, -, rfl⟩ := hrest
      exact hafter (by simp)
    · obtain ⟨-, -, -, -, -, rfl⟩ := hrest
      exact hafter (by simp)
  · simp at hlonger

theorem isStamp_iff {tail : String} : (match splitOnce tail '-' with
    | some (ts, seq) => isAllDigits ts && isAllDigits seq
    | none => isAllDigits tail) = true ↔ IsStamp tail := by
  constructor
  · intro h
    cases hsplit : splitOnce tail '-' with
    | none =>
        rw [hsplit] at h
        exact .inl (isAllDigits_iff.mp h)
    | some split =>
        obtain ⟨htail, -⟩ := splitOnce_eq_some_iff.mp hsplit
        simp only [hsplit, Bool.and_eq_true, isAllDigits_iff] at h
        exact .inr ⟨split.1, split.2, h.1, h.2, htail⟩
  · rintro (h | ⟨ts, seq, hts, hseq, rfl⟩)
    · rw [splitOnce_eq_none_iff.mpr (h.not_mem (by decide))]
      exact isAllDigits_iff.mpr h
    · have hsplit : splitOnce (ts ++ "-" ++ seq) '-' = some (ts, seq) :=
        splitOnce_eq_some_iff.mpr ⟨rfl, hts.not_mem (by decide)⟩
      simp [hsplit, isAllDigits_iff, hts, hseq]

/-- **A name is an archive's when it is anything, `-old-` and a stamp.** -/
theorem isArchiveName_iff {name : String} : isArchiveName name = true ↔
    ∃ original tail, name = original ++ "-old-" ++ tail ∧ IsStamp tail := by
  unfold isArchiveName
  cases hsplit : rsplitOnce name "-old-" with
  | none =>
      refine ⟨nofun, ?_⟩
      rintro ⟨original, tail, rfl, -⟩
      exact absurd rfl (rsplitOnce_eq_none hsplit original tail)
  | some split =>
      obtain ⟨original, tail⟩ := split
      obtain ⟨hname, hlast⟩ := rsplitOnce_eq_some_iff.mp hsplit
      refine isStamp_iff.trans ?_
      constructor
      · intro h
        exact ⟨original, tail, hname, h⟩
      · rintro ⟨original', tail', hname', h⟩
        -- both splits are at the last `-old-`
        have hlengths : original.toList.length = original'.toList.length := by
          refine le_antisymm (@old_last _ _ _ tail.toList h.not_mem ?_) (hlast _ _ hname')
          simpa using congrArg String.toList (hname'.symm.trans hname)
        have hsame := congrArg String.toList (hname.symm.trans hname')
        simp only [String.toList_append, List.append_assoc] at hsame
        obtain ⟨-, htails⟩ := List.append_inj hsame hlengths
        obtain rfl := String.toList_inj.mp (List.append_cancel_left htails)
        exact h

/-! ## The chosen name -/

theorem isArchiveName_of_isArchiveOf {original name : String} {tsUnix : Int} (hts : 0 ≤ tsUnix)
    (h : IsArchiveOf original tsUnix name) : isArchiveName name = true := by
  obtain ⟨n, rfl⟩ := Int.eq_ofNat_of_zero_le hts
  have hdigits : IsDigits (toString (n : Int)) := (numeral_toString n).digits
  rw [isArchiveName_iff]
  rcases h with rfl | ⟨seq, rfl⟩
  · exact ⟨original, _, rfl, .inl hdigits⟩
  · exact ⟨original, toString (n : Int) ++ "-" ++ toString seq,
      by simp only [oldNameFor, String.append_assoc],
      .inr ⟨_, _, hdigits, (numeral_toString seq).digits, rfl⟩⟩

/-- The plain search, one number at a time. -/
theorem firstAvailable_cons {base : String} {taken : String → Bool} (n : Nat) (rest : List Nat) :
    Id.run (firstAvailable base (fun name => pure (taken name)) (n :: rest)) =
      if taken (base ++ "-" ++ toString n) then
        Id.run (firstAvailable base (fun name => pure (taken name)) rest)
      else base ++ "-" ++ toString n := by
  rw [firstAvailable, pure_bind]
  split <;> rfl

/-- The search with a plain predicate finds a free numbered name, or all of them are taken. -/
theorem firstAvailable_spec {base : String} {taken : String → Bool} {numbers : List Nat} :
    (∃ n : Nat, Id.run (firstAvailable base (fun name => pure (taken name)) numbers) =
      base ++ "-" ++ toString n) ∧
      (taken (Id.run (firstAvailable base (fun name => pure (taken name)) numbers)) = true →
        ∀ n ∈ numbers, taken (base ++ "-" ++ toString n) = true) := by
  induction numbers with
  | nil => exact ⟨⟨_, rfl⟩, by simp⟩
  | cons n rest ih =>
      rw [firstAvailable_cons]
      cases htaken : taken (base ++ "-" ++ toString n) with
      | false =>
          refine ⟨⟨n, rfl⟩, fun hchosen => ?_⟩
          exact absurd (htaken.symm.trans hchosen) (by decide)
      | true =>
          refine ⟨ih.1, fun hchosen n' hn' => ?_⟩
          rcases List.mem_cons.mp hn' with rfl | hn'
          · exact htaken
          · exact ih.2 hchosen n' hn'

/-! ## Asking the daemon -/

section Async

variable {σ : Type u} {h : Handler Call Call.Reply σ} {taken : String → Bool}

/-- The daemon answers every inspection, and has the names that are taken. -/
def AnswersNames (h : Handler Call Call.Reply σ) (taken : String → Bool) : Prop :=
  ∀ name s, ∃ reply s', h (.inspectContainer name) s = (some reply, s') ∧
    Except.isOk reply = taken name

theorem returns_nameTaken (answers : AnswersNames h taken) (name : String) (s : σ) :
    ∃ s', Returns h (nameTaken name) s (taken name) s' := by
  obtain ⟨reply, s', hreply, htaken⟩ := answers name s
  exact ⟨s', returns_bind (returns_request hreply) (htaken ▸ returns_done _)⟩

theorem returns_firstAvailable (answers : AnswersNames h taken) (base : String)
    (numbers : List Nat) (s : σ) :
    ∃ s', Returns h (firstAvailable base nameTaken numbers) s
      (Id.run (firstAvailable base (fun name => pure (taken name)) numbers)) s' := by
  induction numbers generalizing s with
  | nil => exact ⟨s, returns_done _⟩
  | cons n rest ih =>
      obtain ⟨s₁, hasked⟩ := returns_nameTaken answers (base ++ "-" ++ toString n) s
      rw [firstAvailable_cons]
      cases htaken : taken (base ++ "-" ++ toString n) with
      | false =>
          refine ⟨s₁, returns_bind hasked ?_⟩
          rw [htaken]
          exact returns_done _
      | true =>
          obtain ⟨s₂, hrest⟩ := ih s₁
          refine ⟨s₂, returns_bind hasked ?_⟩
          rw [htaken]
          exact hrest

/-- The plain choice: the base name, or the search through the numbers. -/
theorem nextAvailableOldName_eq (original : String) (tsUnix : Int) (taken : String → Bool) :
    nextAvailableOldName original tsUnix taken =
      if taken (oldNameFor original tsUnix) then
        Id.run (firstAvailable (oldNameFor original tsUnix) (fun name => pure (taken name))
          (List.range' 1 maxCollisionAttempts))
      else oldNameFor original tsUnix := by
  rw [nextAvailableOldName, chooseOldName, pure_bind]
  split <;> rfl

/-- **Against a daemon that has the taken names, the same name is chosen.** -/
theorem returns_nextAvailableOldName (answers : AnswersNames h taken) (original : String)
    (tsUnix : Int) (s : σ) :
    ∃ s', Returns h (nextAvailableOldNameAsync original tsUnix) s
      (nextAvailableOldName original tsUnix taken) s' := by
  obtain ⟨s₁, hasked⟩ := returns_nameTaken answers (oldNameFor original tsUnix) s
  rw [nextAvailableOldName_eq]
  cases htaken : taken (oldNameFor original tsUnix) with
  | false =>
      refine ⟨s₁, returns_bind hasked ?_⟩
      rw [htaken]
      exact returns_done _
  | true =>
      obtain ⟨s₂, hrest⟩ := returns_firstAvailable answers (oldNameFor original tsUnix)
        (List.range' 1 maxCollisionAttempts) s₁
      refine ⟨s₂, returns_bind hasked ?_⟩
      rw [htaken]
      exact hrest

end Async

/-- **The name chosen for an archive is recognised, is free unless all candidates are taken, and is
the one chosen against a daemon with the same names.** -/
theorem nextAvailableOldName_spec (original : String) {tsUnix : Int} (hts : 0 ≤ tsUnix)
    (taken : String → Bool) :
    isArchiveName (nextAvailableOldName original tsUnix taken) = true ∧
      (taken (nextAvailableOldName original tsUnix taken) = true →
        taken (oldNameFor original tsUnix) = true ∧ ∀ n, 1 ≤ n → n ≤ maxCollisionAttempts →
          taken (oldNameFor original tsUnix ++ "-" ++ toString n) = true) ∧
      ∀ {σ : Type u} (h : Handler Call Call.Reply σ), AnswersNames h taken → ∀ s, ∃ s',
        Returns h (nextAvailableOldNameAsync original tsUnix) s
          (nextAvailableOldName original tsUnix taken) s' := by
  refine ⟨@isArchiveName_of_isArchiveOf original _ tsUnix hts ?_, ?_, fun h answers s =>
    returns_nextAvailableOldName answers original tsUnix s⟩
  · rw [nextAvailableOldName_eq]
    split
    · exact .inr firstAvailable_spec.1
    · exact .inl rfl
  · rw [nextAvailableOldName_eq]
    cases htaken : taken (oldNameFor original tsUnix) with
    | false =>
        intro hchosen
        exact absurd (htaken.symm.trans hchosen) (by decide)
    | true =>
        intro hchosen
        refine ⟨rfl, fun n hpos hle => ?_⟩
        exact firstAvailable_spec.2 hchosen n (List.mem_range'_1.mpr ⟨hpos, by omega⟩)

/-- A daemon without containers. -/
def noContainers : Handler Call Call.Reply Unit
  | .inspectContainer name, s =>
      (some (.error (.bollard ⟨.dockerResponseServerError 404 name, "no such container"⟩)), s)
  | _, s => (none, s)

theorem nextAvailableOldName_spec_free :
    isArchiveName (nextAvailableOldName "web-old-5" 1700000000 fun _ => false) = true ∧
      ∃ s', Returns noContainers (nextAvailableOldNameAsync "web-old-5" 1700000000) ()
        (nextAvailableOldName "web-old-5" 1700000000 fun _ => false) s' := by
  have spec := @nextAvailableOldName_spec "web-old-5" 1700000000 (by decide) fun _ => false
  exact ⟨spec.1, spec.2.2 noContainers (fun name s => ⟨_, s, rfl, rfl⟩) ()⟩

end Freshdock.Docker
