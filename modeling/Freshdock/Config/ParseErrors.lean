import Freshdock.Foundation.Runs
import Freshdock.Foundation.Text
import Mathlib.Data.Nat.Digits.Defs

/-!
# Redacted parse errors

The message of a config file that does not parse may quote a value, which may be a mistyped
secret. Whatever stands between two delimiters is redacted, and the delimiters are paired as they
come. A quote inside a value is escaped in the message and a delimiter all the same, so what is
shown is the message behind the first quote of the value (`redactParseMessage_eq_iff`): nothing of
a value without a quote.

**Outside code.** Which characters the quoting of a string leaves as they are is a parameter,
`printable`.
-/

set_option autoImplicit false

namespace Freshdock.Config

open Text

/-- Stands in for whatever is quoted. -/
def redactedValue : String := "<redacted>"

/-- The characters that quote something in a message. -/
def delimiters : List Char := "`\"".toList

/-- Is nothing quoted in a text? -/
def quotesNothing (cs : List Char) : Bool := cs.all fun c => !delimiters.contains c

theorem not_mem_delimiters {cs : List Char} (h : quotesNothing cs = true) :
    ∀ c ∈ cs, c ∉ delimiters := by
  intro c hc
  have hplain := List.all_eq_true.mp h c hc
  simpa using hplain

/-- Only `unknown field` and `missing field` quote a key; anything else is redacted. -/
def redactParseMessage (message : String) : String :=
  if startsWith message "unknown field" || startsWith message "missing field" then message
  else String.ofList (redactRuns delimiters redactedValue.toList message.toList)

/-- The characters of the text before a byte offset, `none` inside a character or past the end. -/
def takeBytes (bytes : Nat) : List Char → Option (List Char)
  | [] => if bytes = 0 then some [] else none
  | c :: cs =>
      if bytes = 0 then some []
      else if c.utf8Size ≤ bytes then (takeBytes (bytes - c.utf8Size) cs).map (c :: ·)
      else none

/-- The line and the redacted message of a failure that starts at a byte offset. -/
def describeParseError (text : String) (start : Option Nat) (message : String) :
    Option Nat × String :=
  let before := start.bind (takeBytes · text.toList)
  (before.map fun chars => chars.count '\n' + 1, redactParseMessage message)

/-- How the error is shown. -/
def ConfigError.parseText (path : String) (line : Option Nat) (message : String) : String :=
  "parsing config file " ++ path ++ ": " ++ message ++
    match line with
    | some n => " (line " ++ toString n ++ ")"
    | none => ""

/-- The error of a config file that does not parse, as it is shown. -/
def readFileError (path text : String) (start : Option Nat) (message : String) : String :=
  let (line, redacted) := describeParseError text start message
  ConfigError.parseText path line redacted

/-! ## Quoted values -/

/-- A character inside a quoted string. -/
def escapeDebug (printable : Char → Bool) (c : Char) : List Char :=
  if c.toNat = 0 then "\\0".toList
  else if c = '\t' then "\\t".toList
  else if c = '\r' then "\\r".toList
  else if c = '\n' then "\\n".toList
  else if c = '"' then "\\\"".toList
  else if c = '\\' then "\\\\".toList
  else if printable c then [c]
  else "\\u\x7b".toList ++ (Nat.digits 16 c.toNat).reverse.map Nat.digitChar ++ "\x7d".toList

/-- The message about a string where something else was expected. -/
def invalidString (printable : Char → Bool) (value expected : String) : String :=
  "invalid type: string \"" ++ String.ofList (value.toList.flatMap (escapeDebug printable)) ++
    "\", expected " ++ expected

/-- What of the message comes behind the first run between delimiters: all that is behind the
first quote of the value, or behind the value when it has none. -/
def behindQuote (printable : Char → Bool) (value expected : String) : List Char :=
  let rest := (", expected " ++ expected).toList
  if '"' ∈ value.toList then
    (behindRun '"' value.toList).flatMap (escapeDebug printable) ++ '"' :: rest
  else rest

theorem quote_not_mem_hex (n : Nat) :
    '"' ∉ (Nat.digits 16 n).reverse.map Nat.digitChar := by
  have hdigit : ∀ d < 16, Nat.digitChar d ≠ '"' := by decide
  intro hmem
  obtain ⟨d, hd, hquote⟩ := List.mem_map.mp hmem
  exact hdigit d (Nat.digits_lt_base (by decide) (List.mem_reverse.mp hd)) hquote

/-- Only a quote is escaped to one. -/
theorem quote_not_mem_escapeDebug (printable : Char → Bool) {c : Char} (h : c ≠ '"') :
    '"' ∉ escapeDebug printable c := by
  unfold escapeDebug
  split_ifs
  · decide
  · decide
  · decide
  · decide
  · decide
  · simpa using h.symm
  · rw [List.mem_append, List.mem_append, not_or, not_or]
    exact ⟨⟨by decide, quote_not_mem_hex _⟩, by decide⟩

theorem quote_not_mem_escaped (printable : Char → Bool) {cs : List Char} (h : '"' ∉ cs) :
    '"' ∉ cs.flatMap (escapeDebug printable) := by
  intro hmem
  obtain ⟨c, hc, hquote⟩ := List.mem_flatMap.mp hmem
  exact quote_not_mem_escapeDebug printable (fun heq => h (heq ▸ hc)) hquote

/-- The first run of the message ends with the value's first quote, or with the value. -/
theorem behindRun_escaped (printable : Char → Bool) (value expected : String) :
    behindRun '"' (value.toList.flatMap (escapeDebug printable) ++
      '"' :: (", expected " ++ expected).toList) = behindQuote printable value expected := by
  unfold behindQuote
  dsimp only
  split_ifs with hquote
  · obtain ⟨front, back, hvalue, hfront⟩ := List.eq_append_cons_of_mem hquote
    have hescape : escapeDebug printable '"' = ['\\', '"'] := rfl
    have hbody : '"' ∉ front.flatMap (escapeDebug printable) ++ ['\\'] := by
      simpa using quote_not_mem_escaped printable hfront
    rw [hvalue, behindRun_append hfront, List.flatMap_append, List.flatMap_cons, hescape]
    have hrun := behindRun_append hbody (back.flatMap (escapeDebug printable) ++
      '"' :: (", expected " ++ expected).toList)
    simpa using hrun
  · exact behindRun_append (quote_not_mem_escaped printable hquote) _

/-- **What is shown of a quoted value** is the message behind its first quote, redacted. -/
theorem redactParseMessage_invalidString (printable : Char → Bool) (value expected : String) :
    redactParseMessage (invalidString printable value expected) =
      "invalid type: string \"<redacted>\"" ++ String.ofList
        (redactRuns delimiters redactedValue.toList (behindQuote printable value expected)) := by
  have hmessage : (invalidString printable value expected).toList =
      "invalid type: string ".toList ++ '"' :: (value.toList.flatMap (escapeDebug printable) ++
        '"' :: (", expected " ++ expected).toList) := by
    have hopen : ("invalid type: string \"" : String) = "invalid type: string " ++ "\"" := by decide
    have hclose : ("\", expected " : String) = "\"" ++ ", expected " := by decide
    have hquote : ("\"" : String).toList = ['"'] := rfl
    unfold invalidString
    simp only [hopen, hclose, hquote, String.toList_append, String.toList_ofList,
      List.append_assoc, List.cons_append, List.nil_append]
  have hother : (startsWith (invalidString printable value expected) "unknown field" ||
      startsWith (invalidString printable value expected) "missing field") = false := by
    rw [startsWith, startsWith, hmessage]
    simp [List.isPrefixOf]
  have hfront : ∀ c ∈ "invalid type: string ".toList, c ∉ delimiters :=
    not_mem_delimiters (by decide)
  rw [redactParseMessage, hother, hmessage, redactRuns_run _ (by decide) hfront, behindRun_escaped,
    ← String.toList_inj]
  simp [redactedValue]

theorem parseText_inj {path : String} {line : Option Nat} {message message' : String} :
    ConfigError.parseText path line message = ConfigError.parseText path line message' ↔
      message = message' := by
  unfold ConfigError.parseText
  rw [String.append_left_inj, String.append_right_inj]

/-- **What is shown of two quoted values is the same** just when neither has a quote, or what is
behind their first quotes agrees outside of the runs that are redacted; and so it is for the whole
error, whichever the file and the line. -/
theorem redactParseMessage_eq_iff (printable : Char → Bool) (value value' expected : String) :
    (redactParseMessage (invalidString printable value expected) =
        redactParseMessage (invalidString printable value' expected) ↔
      '"' ∉ value.toList ∧ '"' ∉ value'.toList ∨
        AgreeOutside delimiters (behindQuote printable value expected)
          (behindQuote printable value' expected)) ∧
    ∀ (path text : String) (start : Option Nat),
      (readFileError path text start (invalidString printable value expected) =
          readFileError path text start (invalidString printable value' expected) ↔
        redactParseMessage (invalidString printable value expected) =
          redactParseMessage (invalidString printable value' expected)) := by
  refine ⟨?_, fun path text start => parseText_inj⟩
  rw [redactParseMessage_invalidString, redactParseMessage_invalidString,
    String.append_right_inj, String.ofList_inj, redactRuns_eq_iff]
  refine ⟨.inr, ?_⟩
  rintro (⟨hvalue, hvalue'⟩ | agree)
  · rw [behindQuote, behindQuote, if_neg hvalue, if_neg hvalue']
    exact .refl _
  · exact agree

/-- A value with a quote is told from every value without one. -/
theorem redactParseMessage_ne (printable : Char → Bool) {value value' expected : String}
    (plain : ∀ c ∈ expected.toList, c ∉ delimiters) (hvalue : '"' ∈ value.toList)
    (hvalue' : '"' ∉ value'.toList) :
    redactParseMessage (invalidString printable value expected) ≠
      redactParseMessage (invalidString printable value' expected) := by
  rw [redactParseMessage_invalidString, redactParseMessage_invalidString]
  intro h
  have agree := redactRuns_eq_iff.mp (String.ofList_inj.mp ((String.append_right_inj _).mp h))
  rw [behindQuote, behindQuote, if_pos hvalue, if_neg hvalue'] at agree
  have hrest : ∀ c ∈ (", expected " ++ expected).toList, c ∉ delimiters := by
    intro c hc
    rw [String.toList_append, List.mem_append] at hc
    rcases hc with hc | hc
    · exact not_mem_delimiters (by decide) c hc
    · exact plain c hc
  have heq := agree.eq_of_plain hrest
  have hquote : '"' ∈ (", expected " ++ expected).toList := by
    rw [← heq]
    simp
  exact hrest '"' hquote (by decide)

/-- **A secret behind a quote is shown.** -/
theorem secret_behind_quote_shown :
    redactParseMessage (invalidString (fun _ => true) "a\"hunter2" "a boolean") =
        "invalid type: string \"<redacted>\"hunter2\"<redacted>\"" ∧
      redactParseMessage (invalidString (fun _ => true) "a\"hunter2" "a boolean") ≠
        redactParseMessage (invalidString (fun _ => true) "x" "a boolean") := by
  have hplain : ∀ c ∈ "a boolean".toList, c ∉ delimiters := not_mem_delimiters (by decide)
  refine ⟨?_, redactParseMessage_ne _ hplain (by decide) (by decide)⟩
  have hbehind : behindQuote (fun _ => true) "a\"hunter2" "a boolean" =
      "hunter2".toList ++ '"' :: ", expected a boolean".toList := by decide
  have hclosed : behindRun '"' ", expected a boolean".toList = [] := by decide
  have hfront : ∀ c ∈ "hunter2".toList, c ∉ delimiters := not_mem_delimiters (by decide)
  rw [redactParseMessage_invalidString, hbehind, redactRuns_run _ (by decide) hfront, hclosed,
    redactRuns_plain (by simp)]
  decide

end Freshdock.Config
