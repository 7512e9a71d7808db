import Freshdock.Foundation.Text
import Mathlib.Data.List.TakeWhile

/-!
# What the splitting operations find

Each splitting operation of `Text` is characterized by the text it takes apart: the pieces
between separators put together again give the text (`split_eq_iff`), the first and the last
occurrence of a pattern are the ones with nothing before or behind them
(`splitOnce_eq_some_iff`, `rsplitOnce_eq_some_iff`), and the words of a text are the runs between
its blanks (`splitWhitespace_eq_iff`).
-/

set_option autoImplicit false

namespace Freshdock.Text

/-! ## Both ends -/

theorem stripPrefix_eq_some_iff {s pat rest : String} :
    stripPrefix s pat = some rest ↔ s = pat ++ rest := by
  unfold stripPrefix startsWith
  rw [← String.toList_inj, String.toList_append]
  split
  · next h =>
      obtain ⟨tail, htail⟩ := List.isPrefixOf_iff_prefix.mp h
      rw [← htail]
      simp only [List.drop_left, Option.some.injEq, List.append_cancel_left_eq]
      rw [← String.toList_inj, String.toList_ofList]
  · next h =>
      refine ⟨nofun, fun hs => absurd ?_ h⟩
      exact List.isPrefixOf_iff_prefix.mpr ⟨_, hs.symm⟩

theorem stripSuffix_eq_some_iff {s pat rest : String} :
    stripSuffix s pat = some rest ↔ s = rest ++ pat := by
  unfold stripSuffix
  rw [← String.toList_inj, String.toList_append]
  split
  · next h =>
      obtain ⟨front, hfront⟩ := List.isSuffixOf_iff_suffix.mp h
      rw [← hfront]
      simp only [List.length_append, Nat.add_sub_cancel, List.take_left', Option.some.injEq,
        List.append_cancel_right_eq]
      rw [← String.toList_inj, String.toList_ofList]
  · next h =>
      refine ⟨nofun, fun hs => absurd ?_ h⟩
      exact List.isSuffixOf_iff_suffix.mpr ⟨_, hs.symm⟩

/-! ## All occurrences of a separator -/

section Split

variable {sep : Char}

theorem splitChars_eq_splitOn (cs : List Char) : splitChars sep cs = cs.splitOn sep := by
  induction cs with
  | nil => rfl
  | cons c cs ih =>
      rw [splitChars, List.splitOn_cons_eq_if_modifyHead, ih]
      by_cases hc : c = sep
      · simp [hc]
      · simp only [hc, if_false, beq_iff_eq]
        cases hpieces : cs.splitOn sep with
        | nil => exact absurd hpieces (List.splitOn_ne_nil _ _)
        | cons piece pieces => rfl

theorem not_mem_of_mem_splitChars (cs : List Char) : ∀ piece ∈ splitChars sep cs, sep ∉ piece := by
  induction cs with
  | nil =>
      intro piece hpiece
      obtain rfl := List.mem_singleton.mp hpiece
      exact List.not_mem_nil
  | cons c cs ih =>
      intro piece hpiece
      rw [splitChars] at hpiece
      by_cases hc : c = sep
      · rw [if_pos hc] at hpiece
        rcases List.mem_cons.mp hpiece with rfl | hpiece
        · exact List.not_mem_nil
        · exact ih piece hpiece
      · rw [if_neg hc] at hpiece
        cases hpieces : splitChars sep cs with
        | nil =>
            rw [hpieces] at hpiece
            obtain rfl := List.mem_singleton.mp hpiece
            simpa using Ne.symm hc
        | cons first pieces =>
            rw [hpieces] at hpiece ih
            rcases List.mem_cons.mp hpiece with rfl | hpiece
            · have hfirst := ih first List.mem_cons_self
              simpa [Ne.symm hc] using hfirst
            · exact ih piece (List.mem_cons_of_mem _ hpiece)

theorem splitChars_eq_iff {cs : List Char} {pieces : List (List Char)} :
    splitChars sep cs = pieces ↔
      pieces ≠ [] ∧ (∀ piece ∈ pieces, sep ∉ piece) ∧ cs = [sep].intercalate pieces := by
  constructor
  · rintro rfl
    refine ⟨?_, not_mem_of_mem_splitChars cs, ?_⟩
    · rw [splitChars_eq_splitOn]
      exact List.splitOn_ne_nil _ _
    · rw [splitChars_eq_splitOn, List.intercalate_splitOn]
  · rintro ⟨hne, hpieces, rfl⟩
    rw [splitChars_eq_splitOn, List.splitOn_intercalate sep hpieces hne]

/-- **A text splits into the pieces without the separator that make it up.** -/
theorem split_eq_iff {s : String} {pieces : List String} :
    split s sep = pieces ↔
      pieces ≠ [] ∧ (∀ piece ∈ pieces, sep ∉ piece.toList) ∧
        s = (String.singleton sep).intercalate pieces := by
  have lift : split s sep = pieces ↔ splitChars sep s.toList = pieces.map String.toList := by
    rw [split]
    constructor
    · rintro rfl
      simp
    · intro h
      rw [h]
      simp
  have hjoin : s = (String.singleton sep).intercalate pieces ↔
      s.toList = [sep].intercalate (pieces.map String.toList) := by
    rw [← String.toList_inj, String.toList_intercalate, String.toList_singleton]
  rw [lift, splitChars_eq_iff, hjoin]
  simp

/-- The characters of a joined text are those of its pieces and of the separator. -/
theorem mem_of_mem_intercalate {c : Char} {sep : String} {pieces : List String}
    (h : c ∈ (sep.intercalate pieces).toList) :
    c ∈ sep.toList ∨ ∃ piece ∈ pieces, c ∈ piece.toList := by
  induction pieces with
  | nil => simp at h
  | cons first pieces ih =>
      cases pieces with
      | nil => exact .inr ⟨first, List.mem_cons_self, by simpa using h⟩
      | cons second pieces =>
          rw [String.intercalate_cons_cons, String.toList_append, String.toList_append,
            List.mem_append, List.mem_append] at h
          rcases h with (h | h) | h
          · exact .inr ⟨first, List.mem_cons_self, h⟩
          · exact .inl h
          · exact (ih h).imp_right fun ⟨piece, hpiece, hc⟩ =>
              ⟨piece, List.mem_cons_of_mem _ hpiece, hc⟩

theorem mem_intercalate_of_mem {c : Char} {sep piece : String} {pieces : List String}
    (hpiece : piece ∈ pieces) (hc : c ∈ piece.toList) : c ∈ (sep.intercalate pieces).toList := by
  induction pieces with
  | nil => cases hpiece
  | cons first pieces ih =>
      cases pieces with
      | nil =>
          obtain rfl := List.mem_singleton.mp hpiece
          simpa using hc
      | cons second pieces =>
          rw [String.intercalate_cons_cons, String.toList_append, List.mem_append,
            String.toList_append, List.mem_append]
          rcases List.mem_cons.mp hpiece with rfl | hpiece
          · exact .inl (.inl hc)
          · exact .inr (ih hpiece)

end Split

/-! ## The first occurrence of a character -/

section SplitOnce

variable {sep : Char}

theorem splitOnceChars_eq_some_iff {cs before after : List Char} :
    splitOnceChars sep cs = some (before, after) ↔
      cs = before ++ sep :: after ∧ sep ∉ before := by
  induction cs generalizing before with
  | nil => simp [splitOnceChars]
  | cons c cs ih =>
      rw [splitOnceChars]
      by_cases hc : c = sep
      · subst hc
        simp only [if_true, Option.some.injEq, Prod.mk.injEq]
        constructor
        · rintro ⟨rfl, rfl⟩
          exact ⟨rfl, List.not_mem_nil⟩
        · rintro ⟨heq, hnot⟩
          cases before with
          | nil => exact ⟨rfl, (List.cons.inj heq).2⟩
          | cons b before =>
              obtain rfl := (List.cons.inj heq).1
              exact absurd List.mem_cons_self hnot
      · simp only [hc, if_false, Option.map_eq_some_iff, Prod.exists]
        constructor
        · rintro ⟨first, rest, hsplit, heq⟩
          cases heq
          obtain ⟨rfl, hnot⟩ := ih.mp hsplit
          exact ⟨rfl, by simpa [Ne.symm hc] using hnot⟩
        · rintro ⟨heq, hnot⟩
          cases before with
          | nil => exact absurd (List.cons.inj heq).1 hc
          | cons b before =>
              obtain ⟨rfl, rfl⟩ := List.cons.inj heq
              refine ⟨before, after, ih.mpr ⟨rfl, fun h => ?_⟩, rfl⟩
              exact hnot (List.mem_cons_of_mem _ h)

theorem splitOnceChars_eq_none_iff {cs : List Char} :
    splitOnceChars sep cs = none ↔ sep ∉ cs := by
  induction cs with
  | nil => simp [splitOnceChars]
  | cons c cs ih =>
      rw [splitOnceChars]
      by_cases hc : c = sep
      · simp [hc]
      · simp [hc, ih, Ne.symm hc]

/-- **The first occurrence is the one with none before it.** -/
theorem splitOnce_eq_some_iff {s before after : String} :
    splitOnce s sep = some (before, after) ↔
      s = before ++ String.singleton sep ++ after ∧ sep ∉ before.toList := by
  have htext : s = before ++ String.singleton sep ++ after ↔
      s.toList = before.toList ++ sep :: after.toList := by
    rw [← String.toList_inj]
    simp
  rw [splitOnce, Option.map_eq_some_iff, htext]
  constructor
  · rintro ⟨⟨first, rest⟩, hsplit, heq⟩
    cases heq
    simpa using splitOnceChars_eq_some_iff.mp hsplit
  · intro h
    refine ⟨(before.toList, after.toList), splitOnceChars_eq_some_iff.mpr h, ?_⟩
    simp

theorem splitOnce_eq_none_iff {s : String} : splitOnce s sep = none ↔ sep ∉ s.toList := by
  rw [splitOnce, Option.map_eq_none_iff, splitOnceChars_eq_none_iff]

end SplitOnce

/-- The first piece is what comes before the first separator. -/
theorem headD_split (s : String) (sep : Char) :
    (split s sep).headD "" = ((splitOnce s sep).map Prod.fst).getD s := by
  cases hsplit : splitOnce s sep with
  | none =>
      have hnone : sep ∉ s.toList := splitOnce_eq_none_iff.mp hsplit
      have hwhole : split s sep = [s] :=
        split_eq_iff.mpr ⟨List.cons_ne_nil _ _, by simpa using hnone, by simp⟩
      rw [hwhole]
      rfl
  | some found =>
      obtain ⟨before, after⟩ := found
      obtain ⟨hs, hbefore⟩ := splitOnce_eq_some_iff.mp hsplit
      obtain ⟨hne, hpieces, hafter⟩ := split_eq_iff.mp (rfl : split after sep = split after sep)
      have hparts : split s sep = before :: split after sep := by
        refine split_eq_iff.mpr ⟨List.cons_ne_nil _ _,
          List.forall_mem_cons.mpr ⟨hbefore, hpieces⟩, ?_⟩
        rw [hs]
        cases hlist : split after sep with
        | nil => exact absurd hlist hne
        | cons first rest =>
            rw [String.intercalate_cons_cons, ← hlist, ← hafter]
      rw [hparts]
      rfl

/-! ## The last occurrence of a pattern -/

section RsplitOnce

variable {pat : List Char}

theorem rsplitOnceChars_isSome {before after : List Char} :
    (rsplitOnceChars pat (before ++ pat ++ after)).isSome := by
  induction before with
  | nil =>
      rw [List.nil_append]
      cases hcs : pat ++ after with
      | nil =>
          obtain ⟨rfl, -⟩ := List.append_eq_nil_iff.mp hcs
          simp [rsplitOnceChars]
      | cons c cs =>
          have hfront : pat.isPrefixOf (c :: cs) = true := by
            rw [← hcs, List.isPrefixOf_iff_prefix]
            exact List.prefix_append _ _
          rw [rsplitOnceChars]
          cases rsplitOnceChars pat cs <;> simp [hfront]
  | cons b before ih =>
      obtain ⟨found, hfound⟩ := Option.isSome_iff_exists.mp ih
      rw [List.append_assoc] at hfound
      simp [rsplitOnceChars, hfound]

theorem eq_of_rsplitOnceChars {cs before after : List Char}
    (h : rsplitOnceChars pat cs = some (before, after)) : cs = before ++ pat ++ after := by
  induction cs generalizing before with
  | nil =>
      rw [rsplitOnceChars] at h
      split_ifs at h with hpat
      cases h
      simp [hpat]
  | cons c cs ih =>
      rw [rsplitOnceChars] at h
      cases hrest : rsplitOnceChars pat cs with
      | some found =>
          rw [hrest] at h
          cases h
          rw [ih hrest]
          simp
      | none =>
          rw [hrest] at h
          simp only at h
          split_ifs at h with hfront
          cases h
          obtain ⟨rest, hrest⟩ := List.isPrefixOf_iff_prefix.mp hfront
          rw [← hrest]
          simp

/-- The text behind the last occurrence is the shortest. -/
theorem rsplitOnceChars_last {before after before' after' : List Char} {cs : List Char}
    (h : rsplitOnceChars pat cs = some (before, after)) (hcs : cs = before' ++ pat ++ after') :
    before'.length ≤ before.length := by
  induction cs generalizing before before' with
  | nil =>
      have hnil := List.append_eq_nil_iff.mp hcs.symm
      simp [(List.append_eq_nil_iff.mp hnil.1).1]
  | cons c cs ih =>
      cases before' with
      | nil => exact Nat.zero_le _
      | cons b before' =>
          obtain ⟨-, hrest⟩ := List.cons.inj hcs
          have hsome := @rsplitOnceChars_isSome pat before' after'
          obtain ⟨⟨first, last⟩, hfound⟩ := Option.isSome_iff_exists.mp hsome
          have hcs' : cs = before' ++ pat ++ after' := hrest
          rw [← hcs'] at hfound
          rw [rsplitOnceChars, hfound] at h
          cases h
          exact Nat.succ_le_succ (ih hfound hcs')

/-- **The last occurrence is the one with none behind it.** -/
theorem rsplitOnceChars_eq_some_iff {cs before after : List Char} :
    rsplitOnceChars pat cs = some (before, after) ↔ cs = before ++ pat ++ after ∧
      ∀ before' after', cs = before' ++ pat ++ after' → before'.length ≤ before.length := by
  constructor
  · intro h
    exact ⟨eq_of_rsplitOnceChars h, fun before' after' hcs => rsplitOnceChars_last h hcs⟩
  · rintro ⟨hcs, hlast⟩
    have hsome := @rsplitOnceChars_isSome pat before after
    rw [← hcs] at hsome
    obtain ⟨⟨first, last⟩, hfound⟩ := Option.isSome_iff_exists.mp hsome
    have heq := eq_of_rsplitOnceChars hfound
    have hlength := le_antisymm (hlast first last heq) (rsplitOnceChars_last hfound hcs)
    have hsplit : first ++ (pat ++ last) = before ++ (pat ++ after) := by
      rw [← List.append_assoc, ← List.append_assoc, ← heq, ← hcs]
    obtain ⟨rfl, hrest⟩ := List.append_inj hsplit hlength
    obtain rfl := List.append_cancel_left hrest
    exact hfound

theorem rsplitOnce_eq_some_iff {s pat before after : String} :
    rsplitOnce s pat = some (before, after) ↔ s = before ++ pat ++ after ∧
      ∀ before' after' : String, s = before' ++ pat ++ after' →
        before'.toList.length ≤ before.toList.length := by
  have hlift : rsplitOnce s pat = some (before, after) ↔
      rsplitOnceChars pat.toList s.toList = some (before.toList, after.toList) := by
    rw [rsplitOnce, Option.map_eq_some_iff]
    constructor
    · rintro ⟨⟨first, last⟩, hsplit, heq⟩
      cases heq
      simpa using hsplit
    · intro h
      exact ⟨_, h, by simp⟩
  have hchars (a b : String) :
      s = a ++ pat ++ b ↔ s.toList = a.toList ++ pat.toList ++ b.toList := by
    rw [← String.toList_inj, String.toList_append, String.toList_append]
  rw [hlift, rsplitOnceChars_eq_some_iff, hchars]
  constructor
  · rintro ⟨hs, hlast⟩
    exact ⟨hs, fun a b hab => hlast _ _ ((hchars a b).mp hab)⟩
  · rintro ⟨hs, hlast⟩
    refine ⟨hs, fun a b hab => ?_⟩
    simpa using hlast (String.ofList a) (String.ofList b) ((hchars _ _).mpr (by simpa using hab))

theorem rsplitOnce_eq_none {s pat : String} (h : rsplitOnce s pat = none) (before after : String) :
    s ≠ before ++ pat ++ after := by
  rintro rfl
  have hsome := @rsplitOnceChars_isSome pat.toList before.toList after.toList
  rw [rsplitOnce, Option.map_eq_none_iff, String.toList_append, String.toList_append] at h
  rw [h] at hsome
  cases hsome

end RsplitOnce

/-- What comes before and behind the last occurrence of a character. -/
theorem last_occurrence_inj {c : Char} {before before' after after' : List Char}
    (hafter : c ∉ after) (hafter' : c ∉ after')
    (h : before ++ c :: after = before' ++ c :: after') : before = before' ∧ after = after' := by
  rcases List.append_eq_append_iff.mp h with ⟨gap, rfl, hrest⟩ | ⟨gap, rfl, hrest⟩ <;>
    cases gap with
    | nil =>
        obtain ⟨-, rfl⟩ := List.cons.inj hrest
        simp
    | cons first gap =>
        obtain ⟨-, rfl⟩ := List.cons.inj hrest
        simp at hafter hafter'

/-- **The last occurrence of a character is the one with none behind it.** -/
theorem rsplitOnce_singleton_eq_some_iff {c : Char} {s before after : String} :
    rsplitOnce s (String.singleton c) = some (before, after) ↔
      s = before ++ String.singleton c ++ after ∧ c ∉ after.toList := by
  have behind {first last : String} (h : rsplitOnce s (String.singleton c) = some (first, last)) :
      s = first ++ String.singleton c ++ last ∧ c ∉ last.toList := by
    obtain ⟨hs, hlast⟩ := rsplitOnce_eq_some_iff.mp h
    refine ⟨hs, fun hc => ?_⟩
    obtain ⟨front, back, hback⟩ := List.append_of_mem hc
    have hlater := hlast (first ++ String.singleton c ++ String.ofList front) (String.ofList back)
      (by rw [hs, ← String.toList_inj]; simp [hback])
    simp at hlater
  refine ⟨behind, fun ⟨hs, hc⟩ => ?_⟩
  cases hfound : rsplitOnce s (String.singleton c) with
  | none => exact absurd hs (rsplitOnce_eq_none hfound before after)
  | some found =>
      obtain ⟨hs', hc'⟩ := behind hfound
      have hchars := congrArg String.toList (hs'.symm.trans hs)
      simp only [String.toList_append, String.toList_singleton, List.append_assoc,
        List.singleton_append] at hchars
      obtain ⟨hfirst, hlast⟩ := last_occurrence_inj hc' hc hchars
      rw [← String.toList_inj.mp hfirst, ← String.toList_inj.mp hlast]

theorem rsplitOnce_singleton_eq_none_iff {c : Char} {s : String} :
    rsplitOnce s (String.singleton c) = none ↔ c ∉ s.toList := by
  constructor
  · intro h hc
    obtain ⟨front, back, hback⟩ := List.append_of_mem hc
    refine rsplitOnce_eq_none h (String.ofList front) (String.ofList back) ?_
    rw [← String.toList_inj]
    simp [hback]
  · intro hc
    cases hfound : rsplitOnce s (String.singleton c) with
    | none => rfl
    | some found =>
        refine absurd ?_ hc
        rw [(rsplitOnce_singleton_eq_some_iff.mp hfound).1]
        simp

/-! ## Words -/

/-- The words of a text: runs of characters that are not white space, with white space between
them and perhaps around them. -/
inductive Words : List Char → List (List Char) → Prop where
  | blank {cs : List Char} (blank : ∀ c ∈ cs, isWhitespace c = true) : Words cs []
  | word {blanks word rest : List Char} {words : List (List Char)}
      (blank : ∀ c ∈ blanks, isWhitespace c = true) (nonempty : word ≠ [])
      (solid : ∀ c ∈ word, isWhitespace c = false)
      (ends : ∀ c ∈ rest.head?, isWhitespace c = true) (more : Words rest words) :
      Words (blanks ++ word ++ rest) (word :: words)

theorem splitWhitespaceChars_blank {blanks : List Char}
    (blank : ∀ c ∈ blanks, isWhitespace c = true) (cs : List Char) :
    splitWhitespaceChars (blanks ++ cs) = splitWhitespaceChars cs := by
  induction blanks with
  | nil => rfl
  | cons c blanks ih =>
      rw [List.cons_append, splitWhitespaceChars.eq_def]
      simp only [blank c List.mem_cons_self, if_true]
      exact ih fun c' hc' => blank c' (List.mem_cons_of_mem _ hc')

theorem splitWhitespaceChars_word {word rest : List Char} (nonempty : word ≠ [])
    (solid : ∀ c ∈ word, isWhitespace c = false)
    (ends : ∀ c ∈ rest.head?, isWhitespace c = true) :
    splitWhitespaceChars (word ++ rest) = word :: splitWhitespaceChars rest := by
  induction word with
  | nil => exact absurd rfl nonempty
  | cons c word ih =>
      have hc := solid c List.mem_cons_self
      rw [List.cons_append, splitWhitespaceChars.eq_def]
      simp only [hc, Bool.false_eq_true, if_false]
      cases word with
      | nil =>
          cases rest with
          | nil => rfl
          | cons next rest =>
              have hnext := ends next (by simp)
              simp [hnext]
      | cons next word =>
          have hnext := solid next (by simp)
          have hrest := ih (by simp) fun c' hc' => solid c' (List.mem_cons_of_mem _ hc')
          rw [List.cons_append] at hrest
          simp [hnext, hrest]

theorem Words.split {cs : List Char} {words : List (List Char)} (h : Words cs words) :
    splitWhitespaceChars cs = words := by
  induction h with
  | blank blank =>
      have h := splitWhitespaceChars_blank blank []
      rwa [List.append_nil] at h
  | word blank nonempty solid ends _ ih =>
      rw [List.append_assoc, splitWhitespaceChars_blank blank,
        splitWhitespaceChars_word nonempty solid ends, ih]

theorem exists_words (cs : List Char) : ∃ words, Words cs words := by
  induction hlength : cs.length using Nat.strong_induction_on generalizing cs with
  | _ n ih =>
    have hcs := List.takeWhile_append_dropWhile (p := isWhitespace) (l := cs)
    have hblank : ∀ c ∈ cs.takeWhile isWhitespace, isWhitespace c = true :=
      fun c hc => List.mem_takeWhile_imp hc
    cases hrest : cs.dropWhile isWhitespace with
    | nil =>
        rw [hrest, List.append_nil] at hcs
        exact ⟨[], .blank fun c hc => hblank c (hcs.symm ▸ hc)⟩
    | cons first rest =>
        have hfirst : isWhitespace first = false := by
          have h := List.head?_dropWhile_not isWhitespace cs
          rw [hrest] at h
          simpa using h
        have hsplit := List.takeWhile_append_dropWhile (p := (!isWhitespace ·)) (l := rest)
        have hends : ∀ c ∈ (rest.dropWhile (!isWhitespace ·)).head?, isWhitespace c = true := by
          intro c hc
          have h := List.head?_dropWhile_not (!isWhitespace ·) rest
          rw [Option.mem_def.mp hc] at h
          simpa using h
        have hshort : (rest.dropWhile (!isWhitespace ·)).length < n := by
          have hlong := congrArg List.length hcs
          rw [hrest, List.length_append, List.length_cons] at hlong
          have hle := (List.dropWhile_sublist (!isWhitespace ·) (l := rest)).length_le
          omega
        obtain ⟨words, hwords⟩ := ih _ hshort _ rfl
        refine ⟨(first :: rest.takeWhile (!isWhitespace ·)) :: words, ?_⟩
        rw [← hcs, hrest, ← hsplit]
        have hword := @Words.word _ (first :: rest.takeWhile (!isWhitespace ·)) _ words hblank
          (by simp) (fun c hc => ?_) hends hwords
        · simpa using hword
        · rcases List.mem_cons.mp hc with rfl | hc
          · exact hfirst
          · simpa using List.mem_takeWhile_imp hc

/-- **A text splits into its words.** -/
theorem splitWhitespaceChars_eq_iff {cs : List Char} {words : List (List Char)} :
    splitWhitespaceChars cs = words ↔ Words cs words := by
  constructor
  · rintro rfl
    obtain ⟨words, hwords⟩ := exists_words cs
    rwa [hwords.split]
  · exact Words.split

/-- The characters of the words are those of the text that are not white space. -/
theorem Words.mem_iff {cs : List Char} {words : List (List Char)} (h : Words cs words) {c : Char}
    (solid : isWhitespace c = false) : (∃ word ∈ words, c ∈ word) ↔ c ∈ cs := by
  induction h with
  | blank blank =>
      simp only [List.not_mem_nil, false_and, exists_false, false_iff]
      intro hc
      rw [blank c hc] at solid
      cases solid
  | @word blanks word rest words blank _ _ _ _ ih =>
      have hblanks : c ∉ blanks := by
        intro hc
        rw [blank c hc] at solid
        cases solid
      simp only [List.mem_cons, exists_eq_or_imp, ih, List.mem_append, hblanks, false_or]

theorem splitWhitespace_eq_iff {s : String} {words : List String} :
    splitWhitespace s = words ↔ Words s.toList (words.map String.toList) := by
  rw [← splitWhitespaceChars_eq_iff, splitWhitespace]
  constructor
  · rintro rfl
    simp
  · intro h
    rw [h]
    simp

end Freshdock.Text
