import Freshdock.Config
import Freshdock.Foundation.Fallible
import Freshdock.Foundation.Splitting
import Mathlib.Data.List.Induction

/-!
# The targets of the file and the environment

A declaration of the environment is compared with the names of the file's targets as it is
spelled, and then stored under its name in lower case. So a target of the file is kept, up to the
secrets that the environment may set, unless a name that is no target's environment form turns
into a target's key in lower case (`buildNotifications_keeps_iff`).
-/

set_option autoImplicit false

namespace Freshdock.Config

open Text

/-! ## Variables -/

/-- The variable of a target with a suffix. -/
def varName (name suffix : String) : String := notifyPrefix ++ name ++ suffix

/-- The name in a variable with a suffix. -/
def nameOf (suffix : String) (var : String × String) : Option String :=
  (stripPrefix var.1 notifyPrefix).bind (namedSuffix · suffix)

theorem namedSuffix_eq_some_iff {tail suffix name : String} :
    namedSuffix tail suffix = some name ↔ tail = name ++ suffix ∧ name ≠ "" := by
  rw [namedSuffix, Option.filter_eq_some_iff, stripSuffix_eq_some_iff, decide_eq_true_eq]

theorem nameOf_eq_some_iff {suffix name : String} {var : String × String} :
    nameOf suffix var = some name ↔ var.1 = varName name suffix ∧ name ≠ "" := by
  simp only [nameOf, Option.bind_eq_some_iff, stripPrefix_eq_some_iff, namedSuffix_eq_some_iff,
    varName]
  constructor
  · rintro ⟨rest, hvar, rfl, hname⟩
    exact ⟨by rw [hvar, String.append_assoc], hname⟩
  · rintro ⟨hvar, hname⟩
    exact ⟨name ++ suffix, by rw [hvar, String.append_assoc], rfl, hname⟩

theorem varName_inj {name name' suffix : String} (h : varName name suffix = varName name' suffix) :
    name = name' := by
  have hlists := congrArg String.toList h
  simp only [varName, String.toList_append, List.append_assoc] at hlists
  exact String.toList_inj.mp (List.append_cancel_right (List.append_cancel_left hlists))

/-- Suffixes that end differently make different variables. -/
theorem varName_ne {name name' suffix suffix' : String} {c d : Char}
    (hc : suffix.toList.getLast? = some c) (hd : suffix'.toList.getLast? = some d)
    (hne : c ≠ d) : varName name suffix ≠ varName name' suffix' := by
  intro h
  have hlast := congrArg (fun s => s.toList.getLast?) h
  simp only [varName, String.toList_append, List.getLast?_append, hc, hd, Option.some_or,
    Option.some.injEq] at hlast
  exact hne hlast

/-- The value of a variable, the last one when there are several. -/
def envValue (env : List (String × String)) (name suffix : String) : Option String :=
  (env.reverse.find? fun var => var.1 = varName name suffix).map Prod.snd

theorem envValue_append (env : List (String × String)) (var : String × String)
    (name suffix : String) : envValue (env ++ [var]) name suffix =
      if var.1 = varName name suffix then some var.2 else envValue env name suffix := by
  rw [envValue, List.reverse_append, List.reverse_singleton, List.singleton_append,
    List.find?_cons]
  by_cases h : var.1 = varName name suffix
  · simp [h]
  · simp [h, envValue]

/-! ## The declarations -/

theorem gatherVar_eq (decls : SortedMap String (Option String × Option String))
    (var : String × String) : gatherVar decls var =
      match nameOf "_URL" var with
      | some name => decls.alter name fun decl => (some var.2, (decl.getD (none, none)).2)
      | none =>
          match nameOf "_TRIGGERS" var with
          | some name => decls.alter name fun decl => ((decl.getD (none, none)).1, some var.2)
          | none => decls := by
  unfold gatherVar nameOf
  cases stripPrefix var.1 notifyPrefix <;> rfl

/-- What one variable does to the declaration of a name. -/
theorem gatherVar_get? (decls : SortedMap String (Option String × Option String))
    (var : String × String) {name : String} (hname : name ≠ "") :
    ((gatherVar decls var).get? name).getD (none, none) =
      (if var.1 = varName name "_URL" then some var.2
        else ((decls.get? name).getD (none, none)).1,
      if var.1 = varName name "_TRIGGERS" then some var.2
        else ((decls.get? name).getD (none, none)).2) := by
  have hdistinct (name name' : String) : varName name "_URL" ≠ varName name' "_TRIGGERS" :=
    varName_ne (c := 'L') (d := 'S') (by decide) (by decide) (by decide)
  rw [gatherVar_eq]
  cases hurl : nameOf "_URL" var with
  | some named =>
      obtain ⟨hvar, -⟩ := nameOf_eq_some_iff.mp hurl
      rw [hvar, if_neg (hdistinct _ _)]
      by_cases hsame : name = named
      · subst hsame
        rw [SortedMap.get?_alter_self, if_pos rfl]
        rfl
      · rw [SortedMap.get?_alter_of_ne _ _ hsame, if_neg fun h => hsame (varName_inj h).symm]
  | none =>
      have hnot : var.1 ≠ varName name "_URL" := fun h => by
        rw [nameOf_eq_some_iff.mpr ⟨h, hname⟩] at hurl
        cases hurl
      rw [if_neg hnot]
      cases htriggers : nameOf "_TRIGGERS" var with
      | some named =>
          obtain ⟨hvar, -⟩ := nameOf_eq_some_iff.mp htriggers
          rw [hvar]
          by_cases hsame : name = named
          · subst hsame
            simp only [if_true]
            rw [SortedMap.get?_alter_self]
            rfl
          · simp only
            rw [SortedMap.get?_alter_of_ne _ _ hsame, if_neg fun h => hsame (varName_inj h).symm]
      | none =>
          have hnot' : var.1 ≠ varName name "_TRIGGERS" := fun h => by
            rw [nameOf_eq_some_iff.mpr ⟨h, hname⟩] at htriggers
            cases htriggers
          rw [if_neg hnot']

/-- **A declaration has the values of its variables.** -/
theorem gatherDecls_get? (env : List (String × String)) {name : String} (hname : name ≠ "") :
    ((gatherDecls env).get? name).getD (none, none) =
      (envValue env name "_URL", envValue env name "_TRIGGERS") := by
  induction env using List.reverseRecOn with
  | nil => rfl
  | append_singleton env var ih =>
      have hstep : gatherDecls (env ++ [var]) = gatherVar (gatherDecls env) var := by
        rw [gatherDecls, List.foldl_append]
        rfl
      rw [hstep, gatherVar_get? _ _ hname, ih, envValue_append, envValue_append]

/-- An empty name declares nothing. -/
theorem gatherDecls_empty (env : List (String × String)) : (gatherDecls env).get? "" = none := by
  induction env using List.reverseRecOn with
  | nil => rfl
  | append_singleton env var ih =>
      rw [gatherDecls, List.foldl_append]
      change (gatherVar (gatherDecls env) var).get? "" = none
      rw [gatherVar_eq]
      cases hurl : nameOf "_URL" var with
      | some named =>
          have hne := (nameOf_eq_some_iff.mp hurl).2
          simp only
          rw [SortedMap.get?_alter_of_ne _ _ hne.symm, ih]
      | none =>
          cases htriggers : nameOf "_TRIGGERS" var with
          | some named =>
              have hne := (nameOf_eq_some_iff.mp htriggers).2
              simp only
              rw [SortedMap.get?_alter_of_ne _ _ hne.symm, ih]
          | none => exact ih

/-- The name of a variable declares a target that the file does not have by that name. -/
def Declares (lib : UrlLib) (files : Targets) (env : List (String × String)) (name : String)
    (target : NotificationTarget) : Prop :=
  name ≠ "" ∧ (∀ key ∈ files.keys, notifyEnvName key ≠ name) ∧
    ∃ url declared, envValue env name "_URL" = some url ∧ parseNotifyUrl lib url = .ok declared ∧
      target = setTriggers declared ((envValue env name "_TRIGGERS").bind splitTriggers)

/-- The target a declaration makes. -/
def declaredTarget (lib : UrlLib) (fileNames : List String) (decl : Declaration) :
    Option NotificationTarget :=
  match decl.2.1 with
  | none => none
  | some url =>
      if fileNames.contains decl.1 then none
      else (parseNotifyUrl lib url).toOption.map (setTriggers · (decl.2.2.bind splitTriggers))

theorem declareTarget_eq (lib : UrlLib) (fileNames : List String) (targets : Targets)
    (decl : Declaration) : declareTarget lib fileNames targets decl =
      match declaredTarget lib fileNames decl with
      | none => targets
      | some target => targets.insert (toAsciiLowercase decl.1) target := by
  unfold declareTarget declaredTarget
  cases decl.2.1 with
  | none => rfl
  | some url =>
      cases fileNames.contains decl.1 with
      | true => rfl
      | false =>
          simp only [Bool.false_eq_true, if_false]
          cases parseNotifyUrl lib url <;> rfl

theorem declaredTarget_eq_some_iff {lib : UrlLib} {files : Targets} {decl : Declaration}
    {target : NotificationTarget} :
    declaredTarget lib (files.keys.map notifyEnvName) decl = some target ↔
      (∀ key ∈ files.keys, notifyEnvName key ≠ decl.1) ∧ ∃ url declared, decl.2.1 = some url ∧
        parseNotifyUrl lib url = .ok declared ∧
        target = setTriggers declared (decl.2.2.bind splitTriggers) := by
  have hnames : (files.keys.map notifyEnvName).contains decl.1 = false ↔
      ∀ key ∈ files.keys, notifyEnvName key ≠ decl.1 := by
    rw [← Bool.not_eq_true, List.contains_iff_mem]
    simp
  unfold declaredTarget
  cases decl.2.1 with
  | none => simp
  | some url =>
      cases hcontains : (files.keys.map notifyEnvName).contains decl.1 with
      | true =>
          refine ⟨nofun, ?_⟩
          rintro ⟨hne, -⟩
          rw [hnames.mpr hne] at hcontains
          cases hcontains
      | false =>
          simp only [Bool.false_eq_true, if_false, Option.map_eq_some_iff, toOption_eq_some_iff]
          constructor
          · rintro ⟨declared, hparse, rfl⟩
            exact ⟨hnames.mp hcontains, url, declared, rfl, hparse, rfl⟩
          · rintro ⟨-, url', declared, hurl, hparse, rfl⟩
            cases hurl
            exact ⟨declared, hparse, rfl⟩

/-- **The declarations of the environment are the ones its variables make.** -/
theorem declares_iff {lib : UrlLib} {files : Targets} {env : List (String × String)}
    {name : String} {target : NotificationTarget} : Declares lib files env name target ↔
      ∃ decl ∈ (gatherDecls env).entries, decl.1 = name ∧
        declaredTarget lib (files.keys.map notifyEnvName) decl = some target := by
  constructor
  · rintro ⟨hname, hne, url, declared, hurl, hparse, rfl⟩
    have hget := gatherDecls_get? env hname
    cases hentry : (gatherDecls env).get? name with
    | none =>
        rw [hentry, hurl] at hget
        cases hget
    | some values =>
        rw [hentry] at hget
        obtain rfl : values = (_, _) := hget
        exact ⟨_, SortedMap.mem_entries_iff.mpr hentry, rfl,
          declaredTarget_eq_some_iff.mpr ⟨hne, url, declared, hurl, hparse, rfl⟩⟩
  · rintro ⟨⟨name', url', triggers'⟩, hdecl, rfl, htarget⟩
    have hentry := SortedMap.mem_entries_iff.mp hdecl
    obtain ⟨hne, url, declared, hurl, hparse, rfl⟩ := declaredTarget_eq_some_iff.mp htarget
    have hname : name' ≠ "" := by
      rintro rfl
      rw [gatherDecls_empty] at hentry
      cases hentry
    have hget := gatherDecls_get? env hname
    rw [hentry] at hget
    obtain ⟨rfl, rfl⟩ := Prod.mk.inj hget
    exact ⟨hname, hne, url, declared, hurl, hparse, rfl⟩

/-! ## The first pass -/

section Declare

variable {lib : UrlLib} {names : List String}

/-- A key keeps its target or gets the target of a declaration. -/
theorem declare_kept {targets : Targets} {key : String} {target : NotificationTarget}
    (h : targets.get? key = some target) (decls : List Declaration) :
    ∃ target', (decls.foldl (declareTarget lib names) targets).get? key = some target' ∧
      (target' = target ∨ ∃ decl ∈ decls, toAsciiLowercase decl.1 = key ∧
        declaredTarget lib names decl = some target') := by
  induction decls using List.reverseRecOn with
  | nil => exact ⟨target, h, .inl rfl⟩
  | append_singleton decls decl ih =>
      obtain ⟨target', hget, hsource⟩ := ih
      have hsource' : target' = target ∨ ∃ d ∈ decls ++ [decl], toAsciiLowercase d.1 = key ∧
          declaredTarget lib names d = some target' := by
        rcases hsource with rfl | ⟨d, hd, hkey, hdeclared⟩
        · exact .inl rfl
        · exact .inr ⟨d, List.mem_append_left _ hd, hkey, hdeclared⟩
      rw [List.foldl_append, List.foldl_cons, List.foldl_nil, declareTarget_eq]
      cases hdeclared : declaredTarget lib names decl with
      | none => exact ⟨target', hget, hsource'⟩
      | some new =>
          simp only
          by_cases hkey : key = toAsciiLowercase decl.1
          · subst hkey
            exact ⟨new, SortedMap.get?_insert_self _ _ _, .inr ⟨decl, by simp, rfl, hdeclared⟩⟩
          · rw [SortedMap.get?_insert_of_ne _ _ hkey]
            exact ⟨target', hget, hsource'⟩

/-- The keys are those of before and those of the declarations. -/
theorem mem_declare_keys {targets : Targets} {key : String} (decls : List Declaration) :
    key ∈ (decls.foldl (declareTarget lib names) targets).keys ↔
      key ∈ targets.keys ∨ ∃ decl ∈ decls, ∃ target, toAsciiLowercase decl.1 = key ∧
        declaredTarget lib names decl = some target := by
  induction decls using List.reverseRecOn with
  | nil => simp
  | append_singleton decls decl ih =>
      rw [List.foldl_append, List.foldl_cons, List.foldl_nil, declareTarget_eq]
      cases hdeclared : declaredTarget lib names decl with
      | none =>
          simp only [ih, List.mem_append, List.mem_singleton]
          constructor
          · rintro (h | ⟨d, hd, hsource⟩)
            · exact .inl h
            · exact .inr ⟨d, .inl hd, hsource⟩
          · rintro (h | ⟨d, hd | rfl, target, hkey, htarget⟩)
            · exact .inl h
            · exact .inr ⟨d, hd, target, hkey, htarget⟩
            · rw [hdeclared] at htarget
              cases htarget
      | some new =>
          have hinsert : key ∈ (SortedMap.insert (decls.foldl (declareTarget lib names) targets)
              (toAsciiLowercase decl.1) new).keys ↔ key = toAsciiLowercase decl.1 ∨
                key ∈ (decls.foldl (declareTarget lib names) targets).keys :=
            SortedMap.mem_keys_upsert
          simp only [hinsert, ih, List.mem_append, List.mem_singleton]
          constructor
          · rintro (rfl | h | ⟨d, hd, hsource⟩)
            · exact .inr ⟨decl, .inr rfl, new, rfl, hdeclared⟩
            · exact .inl h
            · exact .inr ⟨d, .inl hd, hsource⟩
          · rintro (h | ⟨d, hd | rfl, target, hkey, htarget⟩)
            · exact .inr (.inl h)
            · exact .inr (.inr ⟨d, hd, target, hkey, htarget⟩)
            · exact .inl hkey.symm

/-- The last declaration of a key decides. -/
theorem declare_last {targets : Targets} {decl : Declaration} {target : NotificationTarget}
    (h : declaredTarget lib names decl = some target) (decls : List Declaration) :
    ((decls ++ [decl]).foldl (declareTarget lib names) targets).get?
      (toAsciiLowercase decl.1) = some target := by
  rw [List.foldl_append, List.foldl_cons, List.foldl_nil, declareTarget_eq, h]
  exact SortedMap.get?_insert_self _ _ _

end Declare

/-! ## The index -/

/-- Put keys into an index, one after the other. -/
def indexKeys (keys : List String) : SortedMap String String :=
  keys.foldl (fun index key => index.insert (notifyEnvName key) key) .empty

theorem indexKeys_append (keys : List String) (key : String) :
    indexKeys (keys ++ [key]) = (indexKeys keys).insert (notifyEnvName key) key := by
  rw [indexKeys, List.foldl_append]
  rfl

/-- The index finds keys by their names. -/
theorem of_indexKeys {keys : List String} {name key : String}
    (h : (indexKeys keys).get? name = some key) : key ∈ keys ∧ notifyEnvName key = name := by
  induction keys using List.reverseRecOn with
  | nil => cases h
  | append_singleton keys last ih =>
      rw [indexKeys_append] at h
      by_cases hname : name = notifyEnvName last
      · subst hname
        rw [SortedMap.get?_insert_self] at h
        cases h
        exact ⟨by simp, rfl⟩
      · rw [SortedMap.get?_insert_of_ne _ _ hname] at h
        exact ⟨List.mem_append_left _ (ih h).1, (ih h).2⟩

theorem indexKeys_isSome {keys : List String} {key : String} (h : key ∈ keys) :
    ∃ key', (indexKeys keys).get? (notifyEnvName key) = some key' := by
  induction keys using List.reverseRecOn with
  | nil => cases h
  | append_singleton keys last ih =>
      rw [indexKeys_append]
      by_cases hname : notifyEnvName key = notifyEnvName last
      · rw [hname]
        exact ⟨last, SortedMap.get?_insert_self _ _ _⟩
      · rw [SortedMap.get?_insert_of_ne _ _ hname]
        rcases List.mem_append.mp h with h | h
        · exact ih h
        · obtain rfl := List.mem_singleton.mp h
          exact absurd rfl hname

/-- The only key with its name is found by it. -/
theorem indexKeys_unique {keys : List String} {key : String} (h : key ∈ keys)
    (unique : ∀ key' ∈ keys, notifyEnvName key' = notifyEnvName key → key' = key) :
    (indexKeys keys).get? (notifyEnvName key) = some key := by
  obtain ⟨key', hkey'⟩ := indexKeys_isSome h
  obtain ⟨hmem, hname⟩ := of_indexKeys hkey'
  rw [hkey', unique key' hmem hname]

/-! ## The second pass -/

/-- The suffix of the variable that has a target's secret. -/
def secretSuffix : NotificationTarget → Option String
  | .telegram .. => some "_BOT_TOKEN"
  | .smtp .. => some "_PASSWORD"
  | _ => none

/-- The target with another secret. -/
def withSecret (target : NotificationTarget) (value : String) : NotificationTarget :=
  setPassword value (setBotToken value target)

@[simp] theorem secretSuffix_withSecret (target : NotificationTarget) (value : String) :
    secretSuffix (withSecret target value) = secretSuffix target := by
  cases target <;> rfl

@[simp] theorem withSecret_withSecret (target : NotificationTarget) (value value' : String) :
    withSecret (withSecret target value) value' = withSecret target value' := by
  cases target <;> rfl

/-- What one variable does to the target that has the name. -/
def applyVar (name : String) (target : NotificationTarget) (var : String × String) :
    NotificationTarget :=
  if name ≠ "" ∧ ∃ suffix ∈ secretSuffix target, var.1 = varName name suffix then
    withSecret target var.2
  else target

theorem changeIndexed_get? (index : SortedMap String String) (targets : Targets)
    (name key : String) (change : NotificationTarget → NotificationTarget) :
    (changeIndexed index targets name change).get? key =
      if index.get? name = some key then (targets.get? key).map change else targets.get? key := by
  unfold changeIndexed
  cases hindex : index.get? name with
  | none => simp
  | some key' =>
      by_cases hkey : key' = key
      · subst hkey
        rw [if_pos rfl]
        dsimp only
        cases htarget : targets.get? key' with
        | none => exact htarget
        | some target => exact SortedMap.get?_insert_self _ _ _
      · have hne : some key' ≠ some key := fun h => hkey (Option.some.inj h)
        simp only [if_neg hne]
        cases htarget : targets.get? key' with
        | none => rfl
        | some target => exact SortedMap.get?_insert_of_ne _ _ (Ne.symm hkey)

theorem overlayVar_eq (index : SortedMap String String) (targets : Targets)
    (var : String × String) : overlayVar index targets var =
      match nameOf "_BOT_TOKEN" var with
      | some name => changeIndexed index targets name (setBotToken var.2)
      | none =>
          match nameOf "_PASSWORD" var with
          | some name => changeIndexed index targets name (setPassword var.2)
          | none => targets := by
  unfold overlayVar nameOf
  cases stripPrefix var.1 notifyPrefix <;> rfl

theorem varName_token_ne_password (name name' : String) :
    varName name "_BOT_TOKEN" ≠ varName name' "_PASSWORD" :=
  varName_ne (c := 'N') (d := 'D') (by decide) (by decide) (by decide)

/-- Setting the secret that a variable is for. -/
theorem applyVar_token {name : String} (hname : name ≠ "") {var : String × String}
    (hvar : var.1 = varName name "_BOT_TOKEN") (target : NotificationTarget) :
    applyVar name target var = setBotToken var.2 target := by
  have hne := varName_token_ne_password name name
  cases target <;> simp [applyVar, secretSuffix, withSecret, setBotToken, setPassword, hname, hvar,
    hne]

theorem applyVar_password {name : String} (hname : name ≠ "") {var : String × String}
    (hvar : var.1 = varName name "_PASSWORD") (target : NotificationTarget) :
    applyVar name target var = setPassword var.2 target := by
  have hne := (varName_token_ne_password name name).symm
  cases target <;> simp [applyVar, secretSuffix, withSecret, setBotToken, setPassword, hname, hvar,
    hne]

/-- Other variables leave the target. -/
theorem applyVar_other {name : String} {var : String × String}
    (htoken : nameOf "_BOT_TOKEN" var ≠ some name) (hpassword : nameOf "_PASSWORD" var ≠ some name)
    (target : NotificationTarget) : applyVar name target var = target := by
  rw [applyVar, if_neg]
  rintro ⟨hname, suffix, hsuffix, hvar⟩
  have hread := nameOf_eq_some_iff.mpr ⟨hvar, hname⟩
  cases target with
  | webhook => cases hsuffix
  | discord => cases hsuffix
  | telegram =>
      cases hsuffix
      exact htoken hread
  | smtp =>
      cases hsuffix
      exact hpassword hread

/-- Changing the target of a name, seen from a key. -/
theorem changeIndexed_indexKeys {keys : List String} {targets : Targets} {name key : String}
    {change change' : NotificationTarget → NotificationTarget}
    (same : name = notifyEnvName key → change = change')
    (other : name ≠ notifyEnvName key → change' = id) :
    (changeIndexed (indexKeys keys) targets name change).get? key = (targets.get? key).map
      (if (indexKeys keys).get? (notifyEnvName key) = some key then change' else id) := by
  rw [changeIndexed_get?]
  by_cases hname : name = notifyEnvName key
  · rw [hname, same hname]
    by_cases hindex : (indexKeys keys).get? (notifyEnvName key) = some key
    · rw [if_pos hindex, if_pos hindex]
    · rw [if_neg hindex, if_neg hindex, Option.map_id_apply]
  · have hindex : (indexKeys keys).get? name ≠ some key :=
      fun h => hname (of_indexKeys h).2.symm
    rw [if_neg hindex, other hname, ite_self, Option.map_id_apply]

/-- **What one variable does to a key**: nothing, when the index has another key for its name. -/
theorem overlayVar_get? {keys : List String} (targets : Targets) (var : String × String)
    (key : String) : (overlayVar (indexKeys keys) targets var).get? key =
      (targets.get? key).map
        (if (indexKeys keys).get? (notifyEnvName key) = some key then
          fun target => applyVar (notifyEnvName key) target var
        else id) := by
  rw [overlayVar_eq]
  cases htoken : nameOf "_BOT_TOKEN" var with
  | some name =>
      obtain ⟨hvar, hname⟩ := nameOf_eq_some_iff.mp htoken
      refine changeIndexed_indexKeys (fun hsame => funext fun target => ?_)
        (fun hother => funext fun target => applyVar_other (fun h => ?_) (fun h => ?_) target)
      · exact (applyVar_token (hsame ▸ hname) (hsame ▸ hvar) target).symm
      · exact hother (Option.some.inj (htoken.symm.trans h))
      · exact varName_token_ne_password _ _ (hvar.symm.trans (nameOf_eq_some_iff.mp h).1)
  | none =>
      cases hpassword : nameOf "_PASSWORD" var with
      | some name =>
          obtain ⟨hvar, hname⟩ := nameOf_eq_some_iff.mp hpassword
          refine changeIndexed_indexKeys (fun hsame => funext fun target => ?_)
            (fun hother => funext fun target => applyVar_other (fun h => ?_) (fun h => ?_) target)
          · exact (applyVar_password (hsame ▸ hname) (hsame ▸ hvar) target).symm
          · cases htoken.symm.trans h
          · exact hother (Option.some.inj (hpassword.symm.trans h))
      | none =>
          have hleft : (fun target => applyVar (notifyEnvName key) target var) = id := by
            funext target
            refine applyVar_other (fun h => ?_) (fun h => ?_) target
            · cases htoken.symm.trans h
            · cases hpassword.symm.trans h
          rw [hleft, ite_self, Option.map_id_apply]

/-- **What the second pass does to a key.** -/
theorem overlay_get? {keys : List String} (env : List (String × String)) (targets : Targets)
    (key : String) : (env.foldl (overlayVar (indexKeys keys)) targets).get? key =
      (targets.get? key).map
        (if (indexKeys keys).get? (notifyEnvName key) = some key then
          fun target => env.foldl (applyVar (notifyEnvName key)) target
        else id) := by
  induction env generalizing targets with
  | nil =>
      have hid : (fun target => [].foldl (applyVar (notifyEnvName key)) target) = id := rfl
      rw [hid, ite_self, Option.map_id_apply]
      rfl
  | cons var env ih =>
      rw [List.foldl_cons, ih, overlayVar_get?, Option.map_map]
      by_cases hindex : (indexKeys keys).get? (notifyEnvName key) = some key
      · simp only [if_pos hindex]
        rfl
      · simp only [if_neg hindex]
        rfl

/-! ## Kept targets -/

/-- A variable has this secret for the target of the key. -/
def HasSecret (env : List (String × String)) (key : String) (target : NotificationTarget)
    (value : String) : Prop :=
  notifyEnvName key ≠ "" ∧ ∃ suffix ∈ secretSuffix target,
    (varName (notifyEnvName key) suffix, value) ∈ env

/-- The same target, with the secret of the file or of a variable. -/
def Keeps (env : List (String × String)) (key : String) (target target' : NotificationTarget) :
    Prop :=
  target' = target ∨ ∃ value, HasSecret env key target value ∧ target' = withSecret target value

/-- Targets of one kind with the same fields, apart from their secrets. -/
def SameButSecret (target target' : NotificationTarget) : Prop :=
  withSecret target "" = withSecret target' ""

section Kept

variable {env : List (String × String)} {key : String} {target target' : NotificationTarget}

theorem SameButSecret.withSecret_eq (h : SameButSecret target target') (value : String) :
    withSecret target value = withSecret target' value := by
  have hsame := congrArg (withSecret · value) h
  simpa using hsame

theorem SameButSecret.suffix (h : SameButSecret target target') :
    secretSuffix target = secretSuffix target' := by
  have hsame := congrArg secretSuffix h
  simpa using hsame

theorem Keeps.sameButSecret (h : Keeps env key target target') : SameButSecret target target' := by
  rcases h with rfl | ⟨value, -, rfl⟩
  · rfl
  · simp [SameButSecret]

theorem Keeps.trans {target'' : NotificationTarget} (h : Keeps env key target target')
    (h' : Keeps env key target' target'') : Keeps env key target target'' := by
  rcases h' with rfl | ⟨value, ⟨hname, suffix, hsuffix, hvar⟩, rfl⟩
  · exact h
  · have hsame := h.sameButSecret
    exact .inr ⟨value, ⟨hname, suffix, hsame.suffix ▸ hsuffix, hvar⟩,
      (hsame.withSecret_eq value).symm⟩

/-- **The variables of a key leave its target, or give it one of their secrets.** -/
theorem applyVars_cases (env : List (String × String)) (key : String)
    (target : NotificationTarget) :
    (env.foldl (applyVar (notifyEnvName key)) target = target ∧
        ∀ value, ¬ HasSecret env key target value) ∨
      ∃ value, HasSecret env key target value ∧
        env.foldl (applyVar (notifyEnvName key)) target = withSecret target value := by
  induction env using List.reverseRecOn with
  | nil => exact .inl ⟨rfl, fun value h => by simp [HasSecret] at h⟩
  | append_singleton env var ih =>
      obtain ⟨name, value⟩ := var
      have hsuffix : secretSuffix (env.foldl (applyVar (notifyEnvName key)) target) =
          secretSuffix target := by
        rcases ih with ⟨hsame, -⟩ | ⟨value', -, hsame⟩ <;> simp [hsame]
      rw [List.foldl_append, List.foldl_cons, List.foldl_nil, applyVar, hsuffix]
      by_cases hvar : notifyEnvName key ≠ "" ∧ ∃ suffix ∈ secretSuffix target,
          name = varName (notifyEnvName key) suffix
      · rw [if_pos hvar]
        obtain ⟨hname, suffix, hmem, rfl⟩ := hvar
        refine .inr ⟨value, ⟨hname, suffix, hmem, by simp⟩, ?_⟩
        rcases ih with ⟨hsame, -⟩ | ⟨value', -, hsame⟩ <;> simp [hsame]
      · rw [if_neg hvar]
        have hmore (value' : String) :
            HasSecret (env ++ [(name, value)]) key target value' ↔
              HasSecret env key target value' := by
          constructor
          · rintro ⟨hname, suffix, hmem, h⟩
            refine ⟨hname, suffix, hmem, ?_⟩
            rcases List.mem_append.mp h with h | h
            · exact h
            · obtain ⟨rfl, rfl⟩ := Prod.mk.inj (List.mem_singleton.mp h)
              exact absurd ⟨hname, suffix, hmem, rfl⟩ hvar
          · rintro ⟨hname, suffix, hmem, h⟩
            exact ⟨hname, suffix, hmem, List.mem_append_left _ h⟩
        simpa only [hmore] using ih

theorem keeps_applyVars (env : List (String × String)) (key : String)
    (target : NotificationTarget) :
    Keeps env key target (env.foldl (applyVar (notifyEnvName key)) target) := by
  rcases applyVars_cases env key target with ⟨hsame, -⟩ | hsecret
  · exact .inl hsame
  · exact .inr hsecret

end Kept

/-! ## The targets of the file -/

/-- Another declaration has the environment form of the key. -/
def HasRival (lib : UrlLib) (files : Targets) (env : List (String × String)) (key : String) :
    Prop :=
  ∃ name target, Declares lib files env name target ∧ toAsciiLowercase name ≠ key ∧
    notifyEnvName (toAsciiLowercase name) = notifyEnvName key

/-- A declaration under the key of a file's target that makes no difference: it declares the
target itself, up to a secret of the environment, or the environment sets the secret anyway. -/
def Harmless (lib : UrlLib) (files : Targets) (env : List (String × String)) (key : String)
    (target declared : NotificationTarget) : Prop :=
  Keeps env key target declared ∨ (SameButSecret target declared ∧
    (∃ value, HasSecret env key target value) ∧ ¬ HasRival lib files env key)

/-- All targets of the file are there, up to the secrets of the environment. -/
def KeepsFiles (files : Targets) (env : List (String × String)) (result : Targets) : Prop :=
  ∀ key target, files.get? key = some target →
    ∃ target', result.get? key = some target' ∧ Keeps env key target target'

section Files

variable {lib : UrlLib} {files : Targets} {env : List (String × String)}

/-- The result at a key, from the target the first pass leaves there. -/
theorem buildNotifications_get? (order : HashOrder) {key : String} {target : NotificationTarget}
    (h : (declareEnvTargets lib order files env).get? key = some target) :
    (buildNotifications lib order files env).get? key = some
      ((if (indexKeys (order.keys (declareEnvTargets lib order files env).keys)).get?
          (notifyEnvName key) = some key then
        fun target => env.foldl (applyVar (notifyEnvName key)) target
      else id) target) := by
  have hfold := @overlay_get? (order.keys (declareEnvTargets lib order files env).keys) env
    (declareEnvTargets lib order files env) key
  rw [h] at hfold
  exact hfold

/-- The keys after the first pass. -/
theorem mem_declareEnv_keys (order : HashOrder) {key : String} :
    key ∈ (declareEnvTargets lib order files env).keys ↔ key ∈ files.keys ∨
      ∃ name target, Declares lib files env name target ∧ toAsciiLowercase name = key := by
  rw [declareEnvTargets, mem_declare_keys]
  simp only [(order.decls_perm _).mem_iff, declares_iff]
  refine or_congr_right ⟨?_, ?_⟩
  · rintro ⟨decl, hdecl, target, hkey, htarget⟩
    exact ⟨decl.1, target, ⟨decl, hdecl, rfl, htarget⟩, hkey⟩
  · rintro ⟨name, target, ⟨decl, hdecl, rfl, htarget⟩, hkey⟩
    exact ⟨decl, hdecl, target, hkey, htarget⟩

/-- Without a rival the index finds a key of the file. -/
theorem index_of_no_rival (order : HashOrder) (distinct : ∀ key ∈ files.keys, ∀ key' ∈ files.keys,
    notifyEnvName key = notifyEnvName key' → key = key') {key : String} (hkey : key ∈ files.keys)
    (norival : ¬ HasRival lib files env key) :
    (indexKeys (order.keys (declareEnvTargets lib order files env).keys)).get?
      (notifyEnvName key) = some key := by
  refine indexKeys_unique ?_ fun key' hkey' hname => ?_
  · exact (order.keys_perm _).mem_iff.mpr ((mem_declareEnv_keys order).mpr (.inl hkey))
  · rw [(order.keys_perm _).mem_iff, mem_declareEnv_keys] at hkey'
    rcases hkey' with hkey' | ⟨name, target, hdeclares, rfl⟩
    · exact distinct _ hkey' _ hkey hname
    · by_contra hne
      exact norival ⟨name, target, hdeclares, hne, hname⟩

/-- **Harmless declarations leave the targets of the file.** -/
theorem keepsFiles_of_harmless (distinct : ∀ key ∈ files.keys, ∀ key' ∈ files.keys,
    notifyEnvName key = notifyEnvName key' → key = key')
    (harmless : ∀ key target, files.get? key = some target → ∀ name declared,
      Declares lib files env name declared → toAsciiLowercase name = key →
        Harmless lib files env key target declared) (order : HashOrder) :
    KeepsFiles files env (buildNotifications lib order files env) := by
  intro key target htarget
  have hkey : key ∈ files.keys := SortedMap.mem_keys_iff.mpr ⟨target, htarget⟩
  obtain ⟨first, hfirst, hsource⟩ :=
    @declare_kept lib (files.keys.map notifyEnvName) files key target htarget
      (order.decls (gatherDecls env).entries)
  refine ⟨_, buildNotifications_get? order hfirst, ?_⟩
  have hkept : Keeps env key first ((if (indexKeys (order.keys
      (declareEnvTargets lib order files env).keys)).get? (notifyEnvName key) = some key then
        fun target => env.foldl (applyVar (notifyEnvName key)) target else id) first) := by
    split
    · exact keeps_applyVars env key first
    · exact .inl rfl
  rcases hsource with rfl | ⟨decl, hdecl, hlower, hdeclared⟩
  · exact hkept
  · have hdeclares : Declares lib files env decl.1 first :=
      declares_iff.mpr ⟨decl, (order.decls_perm _).mem_iff.mp hdecl, rfl, hdeclared⟩
    rcases harmless key target htarget _ _ hdeclares hlower with hsame | ⟨hsame, hsecret, hnone⟩
    · exact hsame.trans hkept
    · -- the environment sets the secret of the declared target
      rw [if_pos (index_of_no_rival order distinct hkey hnone)]
      obtain ⟨value, hname, suffix, hsuffix, hvar⟩ := hsecret
      rcases applyVars_cases env key first with ⟨-, hno⟩ | ⟨value', ⟨-, suffix', hs, hvar'⟩, happly⟩
      · exact absurd ⟨hname, suffix, hsame.suffix ▸ hsuffix, hvar⟩ (hno value)
      · refine .inr ⟨value', ⟨hname, suffix', hsame.suffix ▸ hs, hvar'⟩, ?_⟩
        rw [happly]
        exact (hsame.withSecret_eq value').symm

/-- The visits in which one declaration and one key come last. -/
def lastOrder (decl : Declaration) (key : String) : HashOrder where
  decls l := if decl ∈ l then l.erase decl ++ [decl] else l
  keys l := if key ∈ l then l.erase key ++ [key] else l
  decls_perm l := by
    split
    · next h => exact (List.perm_append_singleton _ _).trans (List.perm_cons_erase h).symm
    · exact .refl _
  keys_perm l := by
    split
    · next h => exact (List.perm_append_singleton _ _).trans (List.perm_cons_erase h).symm
    · exact .refl _

/-- **A declaration under the key of a kept target is harmless.** -/
theorem harmless_of_keepsFiles (distinct : ∀ key ∈ files.keys, ∀ key' ∈ files.keys,
    notifyEnvName key = notifyEnvName key' → key = key')
    (kept : ∀ order, KeepsFiles files env (buildNotifications lib order files env))
    {key name : String} {target declared : NotificationTarget}
    (htarget : files.get? key = some target) (hdeclares : Declares lib files env name declared)
    (hlower : toAsciiLowercase name = key) : Harmless lib files env key target declared := by
  obtain ⟨decl, hdecl, rfl, hdeclared⟩ := declares_iff.mp hdeclares
  subst hlower
  have hkey : toAsciiLowercase decl.1 ∈ files.keys := SortedMap.mem_keys_iff.mpr ⟨target, htarget⟩
  -- visited last, the declaration is what the first pass leaves
  have hlast (last : String) : (declareEnvTargets lib (lastOrder decl last) files env).get?
      (toAsciiLowercase decl.1) = some declared := by
    have hvisits : (lastOrder decl last).decls (gatherDecls env).entries =
        (gatherDecls env).entries.erase decl ++ [decl] := if_pos hdecl
    rw [declareEnvTargets, hvisits]
    exact declare_last hdeclared _
  by_cases hrival : HasRival lib files env (toAsciiLowercase decl.1)
  · -- with the rival last in the index, the second pass leaves the declaration
    obtain ⟨rival, other, hother, hne, hname⟩ := hrival
    obtain ⟨target', hget, hkeeps⟩ := kept (lastOrder decl (toAsciiLowercase rival)) _ _ htarget
    have hmem : toAsciiLowercase rival ∈ (declareEnvTargets lib
        (lastOrder decl (toAsciiLowercase rival)) files env).keys :=
      (mem_declareEnv_keys _).mpr (.inr ⟨rival, other, hother, rfl⟩)
    have hvisits : (lastOrder decl (toAsciiLowercase rival)).keys (declareEnvTargets lib
        (lastOrder decl (toAsciiLowercase rival)) files env).keys = _ := if_pos hmem
    rw [buildNotifications_get? _ (hlast _), hvisits, indexKeys_append, ← hname,
      SortedMap.get?_insert_self, if_neg fun h => hne (Option.some.inj h)] at hget
    cases hget
    exact .inl hkeeps
  · obtain ⟨target', hget, hkeeps⟩ := kept (lastOrder decl "") _ _ htarget
    rw [buildNotifications_get? _ (hlast _),
      if_pos (index_of_no_rival _ distinct hkey hrival)] at hget
    cases hget
    rcases applyVars_cases env (toAsciiLowercase decl.1) declared with
      ⟨hsame, -⟩ | ⟨value, ⟨hname, suffix, hsuffix, hvar⟩, happly⟩
    · rw [hsame] at hkeeps
      exact .inl hkeeps
    · have hsame : SameButSecret target declared := by
        have h := hkeeps.sameButSecret
        rw [happly] at h
        simpa [SameButSecret] using h
      exact .inr ⟨hsame, ⟨value, hname, suffix, hsame.suffix ▸ hsuffix, hvar⟩, hrival⟩

/-- **The targets of the file are kept exactly when every declaration that is stored under a key
of the file is harmless.** -/
theorem buildNotifications_keeps_iff (lib : UrlLib) {files : Targets}
    (distinct : ∀ key ∈ files.keys, ∀ key' ∈ files.keys,
      notifyEnvName key = notifyEnvName key' → key = key') (env : List (String × String)) :
    (∀ order, KeepsFiles files env (buildNotifications lib order files env)) ↔
      ∀ key target, files.get? key = some target → ∀ name declared,
        Declares lib files env name declared → toAsciiLowercase name = key →
          Harmless lib files env key target declared :=
  ⟨fun kept _ _ htarget _ _ hdeclares hlower =>
    harmless_of_keepsFiles distinct kept htarget hdeclares hlower,
    keepsFiles_of_harmless distinct⟩

end Files

/-! ## One Telegram target -/

/-- The URL parser on one address, without login and query. -/
def httpsLib : UrlLib where
  parse raw :=
    if raw = "https://ops.example.com/hook" then
      .ok ⟨"https", "", none, some "ops.example.com", none, []⟩
    else .error "relative URL without a base"
  pctDecode s := s

/-- A file with the target `ops`. -/
def opsFile : Targets := SortedMap.empty.insert "ops" (.telegram "1:secret" "42" none)

theorem buildNotifications_keeps_ops : opsFile.keys = ["ops"] ∧
    ∀ order, KeepsFiles opsFile [("FRESHDOCK_NOTIFY_OPS_URL", "https://ops.example.com/hook")]
      (buildNotifications httpsLib order opsFile
        [("FRESHDOCK_NOTIFY_OPS_URL", "https://ops.example.com/hook")]) := by
  refine ⟨rfl, (buildNotifications_keeps_iff httpsLib (by decide) _).mpr ?_⟩
  rintro key target - name declared ⟨hname, hne, url, -, hurl, -⟩ -
  have hvar : varName "OPS" "_URL" = varName name "_URL" := by
    by_contra hother
    have hnone : "FRESHDOCK_NOTIFY_OPS_URL" ≠ varName name "_URL" := hother
    simp [envValue, hnone] at hurl
  exact absurd (varName_inj hvar) (hne "ops" (by decide))

/-- The variable in lower case replaces the target of the file. -/
theorem ops_replaced : opsFile.keys = ["ops"] ∧
    ∀ order, ¬ KeepsFiles opsFile [("FRESHDOCK_NOTIFY_ops_URL", "https://ops.example.com/hook")]
      (buildNotifications httpsLib order opsFile
        [("FRESHDOCK_NOTIFY_ops_URL", "https://ops.example.com/hook")]) := by
  refine ⟨rfl, fun order kept => ?_⟩
  have hentries : (gatherDecls [("FRESHDOCK_NOTIFY_ops_URL",
      "https://ops.example.com/hook")]).entries =
        [("ops", some "https://ops.example.com/hook", none)] := by decide
  have hvisits := List.perm_singleton.mp (order.decls_perm
    [("ops", some "https://ops.example.com/hook", none)])
  have hfirst : (declareEnvTargets httpsLib order opsFile [("FRESHDOCK_NOTIFY_ops_URL",
      "https://ops.example.com/hook")]).get? "ops" =
        some (.webhook "https://ops.example.com/hook" none) := by
    rw [declareEnvTargets, hentries, hvisits]
    decide
  obtain ⟨target, hget, hkeeps⟩ := kept "ops" (.telegram "1:secret" "42" none) (by decide)
  rw [buildNotifications_get? order hfirst] at hget
  have hsame := hkeeps.sameButSecret.suffix
  have hkept := @keeps_applyVars [("FRESHDOCK_NOTIFY_ops_URL", "https://ops.example.com/hook")]
    "ops" (.webhook "https://ops.example.com/hook" none)
  split at hget
  · cases hget
    rw [← hkept.sameButSecret.suffix] at hsame
    cases hsame
  · cases hget
    cases hsame

end Freshdock.Config
