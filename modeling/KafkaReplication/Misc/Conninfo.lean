import KafkaReplication.Misc.SqlTokens

/-!
# Connection strings

`keyword=value` settings as libpq reads them. Blanks stand between settings and around the equal
sign; a value is written as it is or between apostrophes, and a backslash in it stands for the
character behind it. `parse_write_iff` says which settings can be written without apostrophes. Its
second half is by counting: a reader that passes over anything else than one blank a setting has too
few characters left.
-/

namespace KafkaReplication.Misc.Conninfo

open Sql

def backslash : UInt8 := chr '\\'

def equals : UInt8 := chr '='

/-! ## The reader -/

/-- A value up to the next blank, and what is behind that. -/
def readPlain : Bytes → Bytes × Bytes
  | [] => ([], [])
  | c :: rest =>
      if isSpace c then ([], rest)
      else if c = backslash then
        match rest with
        | [] => ([], [])
        | d :: rest => (d :: (readPlain rest).1, (readPlain rest).2)
      else (c :: (readPlain rest).1, (readPlain rest).2)

/-- A value up to its closing apostrophe. -/
def readQuoted : Bytes → Option (Bytes × Bytes)
  | [] => none
  | c :: rest =>
      if c = backslash then
        match rest with
        | [] => none
        | d :: rest => (readQuoted rest).map fun read => (d :: read.1, read.2)
      else if c = quoteMark then some ([], rest)
      else (readQuoted rest).map fun read => (c :: read.1, read.2)

def readValue (text : Bytes) : Option (Bytes × Bytes) :=
  if text.head? = some quoteMark then readQuoted text.tail else some (readPlain text)

/-- The characters of a keyword. -/
def isName (c : UInt8) : Bool := !isSpace c && c ≠ equals

/-- A keyword, its value, and what is behind them. -/
def readSetting (text : Bytes) : Option ((Bytes × Bytes) × Bytes) :=
  match (text.dropWhile isName).dropWhile isSpace with
  | [] => none
  | c :: rest =>
      if c = equals then
        (readValue (rest.dropWhile isSpace)).map fun read =>
          ((text.takeWhile isName, read.1), read.2)
      else none

/-! ## What the reader passes over -/

/-- The characters of a value that are read as they are. -/
def Plain (text : Bytes) : Prop := ∀ c ∈ text, isSpace c = false ∧ c ≠ backslash

/-- The value can be written without apostrophes. -/
structure Bare (value : Bytes) : Prop where
  plain : Plain value
  unquoted : value.head? ≠ some quoteMark

/-- What is behind a setting needs a character in front of it, if there is something. -/
def owed (rest : Bytes) : Nat := if rest = [] then 0 else rest.length + 1

theorem length_le_owed (rest : Bytes) : rest.length ≤ owed rest := by
  unfold owed
  split
  next nothing => rw [nothing, List.length_nil]
  next => exact Nat.le_succ _

theorem owed_le (rest : Bytes) : owed rest ≤ rest.length + 1 := by
  unfold owed
  split
  · exact Nat.zero_le _
  · exact Nat.le_refl _

/-- A plain value is no longer than what it is read from, and if it is as long it is that. -/
theorem readPlain_spec (text : Bytes) :
    ∃ raw sep, text = raw ++ sep ∧ (readPlain text).1.length ≤ raw.length ∧
      ((readPlain text).1.length = raw.length → (readPlain text).1 = raw ∧ Plain raw) ∧
      (sep = [] ∧ (readPlain text).2 = [] ∨
        ∃ blank, isSpace blank = true ∧ sep = blank :: (readPlain text).2) := by
  have nothing : Plain [] := by
    intro c mem
    cases mem
  fun_induction readPlain text with
  | case1 => exact ⟨[], [], rfl, Nat.le_refl 0, fun _ => ⟨rfl, nothing⟩, .inl ⟨rfl, rfl⟩⟩
  | case2 c rest blank =>
    exact ⟨[], c :: rest, rfl, Nat.le_refl 0, fun _ => ⟨rfl, nothing⟩, .inr ⟨c, blank, rfl⟩⟩
  | case3 solid =>
    refine ⟨[backslash], [], rfl, Nat.zero_le _, ?_, .inl ⟨rfl, rfl⟩⟩
    intro same
    cases same
  | case4 d rest solid ih =>
    obtain ⟨raw, sep, rfl, le, -, behind⟩ := ih
    refine ⟨backslash :: d :: raw, sep, rfl, ?_, ?_, behind⟩
    · simp only [List.length_cons]
      omega
    · intro same
      simp only [List.length_cons] at same
      omega
  | case5 c rest solid noBackslash ih =>
    obtain ⟨raw, sep, rfl, le, exact_, behind⟩ := ih
    refine ⟨c :: raw, sep, rfl, ?_, ?_, behind⟩
    · simp only [List.length_cons]
      omega
    · intro same
      simp only [List.length_cons, Nat.add_right_cancel_iff] at same
      obtain ⟨asIs, plain⟩ := exact_ same
      refine ⟨congrArg (c :: ·) asIs, ?_⟩
      intro d mem
      rcases List.mem_cons.mp mem with rfl | later
      · exact ⟨by simpa using solid, noBackslash⟩
      · exact plain d later

theorem readQuoted_length {text value rest : Bytes} (run : readQuoted text = some (value, rest)) :
    value.length + rest.length + 1 ≤ text.length := by
  fun_induction readQuoted text generalizing value with
  | case1 => cases run
  | case2 => cases run
  | case3 d text ih =>
    obtain ⟨⟨value', rest'⟩, found, same⟩ := Option.map_eq_some_iff.mp run
    simp only [Prod.mk.injEq] at same
    obtain ⟨rfl, rfl⟩ := same
    have shorter := ih found
    simp only [List.length_cons]
    omega
  | case4 text noBackslash =>
    cases run
    simp
  | case5 c text noBackslash noQuote ih =>
    obtain ⟨⟨value', rest'⟩, found, same⟩ := Option.map_eq_some_iff.mp run
    simp only [Prod.mk.injEq] at same
    obtain ⟨rfl, rfl⟩ := same
    have shorter := ih found
    simp only [List.length_cons]
    omega

/-- A value is no longer than what is passed over for it. If it is as long, there were no
apostrophes and no backslashes. -/
theorem readValue_owed {text value rest : Bytes} (run : readValue text = some (value, rest)) :
    value.length + owed rest ≤ text.length ∧
      (text.length ≤ value.length + owed rest →
        Bare value ∧ (value = [] → rest = [] ∨ text.head?.any isSpace = true)) := by
  have enough := owed_le rest
  unfold readValue at run
  split at run
  next quoted =>
    cases text with
    | nil => cases quoted
    | cons c text =>
      have shorter := readQuoted_length run
      simp only [List.tail_cons] at shorter
      simp only [List.length_cons]
      refine ⟨by omega, ?_⟩
      intro tight
      omega
  next unquoted =>
    obtain ⟨raw, sep, split, le, exact_, behind⟩ := readPlain_spec text
    rw [Option.some.inj run] at le exact_ behind
    simp only at le exact_ behind
    have length : text.length = raw.length + sep.length := by rw [split, List.length_append]
    have bound : owed rest ≤ sep.length := by
      rcases behind with ⟨-, rfl⟩ | ⟨blank, -, rfl⟩
      · exact Nat.zero_le _
      · exact enough
    refine ⟨by omega, ?_⟩
    intro tight
    obtain ⟨asIs, plain⟩ := exact_ (by omega)
    refine ⟨⟨asIs ▸ plain, ?_⟩, ?_⟩
    · intro first
      apply unquoted
      rw [split, ← asIs, List.head?_append, first]
      rfl
    · intro empty
      rcases behind with ⟨-, rfl⟩ | ⟨blank, isBlank, rfl⟩
      · exact .inl rfl
      · rw [split, ← asIs, empty]
        exact .inr isBlank

theorem length_dropWhile_le (p : UInt8 → Bool) (text : Bytes) :
    (text.dropWhile p).length ≤ text.length := (List.dropWhile_sublist p).length_le

theorem head_dropWhile (p : UInt8 → Bool) (text : Bytes) :
    (text.dropWhile p).head?.any p = false := by
  induction text with
  | nil => rfl
  | cons c text ih =>
    rw [List.dropWhile_cons]
    split
    next => exact ih
    next no => simpa using no

/-- The same of a setting. -/
theorem readSetting_owed {text name value rest : Bytes}
    (run : readSetting text = some ((name, value), rest)) :
    name.length + 1 + value.length + owed rest ≤ text.length ∧
      (text.length ≤ name.length + 1 + value.length + owed rest →
        Bare value ∧ (value = [] → rest = [])) := by
  have parts : (text.takeWhile isName).length + (text.dropWhile isName).length = text.length := by
    rw [← List.length_append, List.takeWhile_append_dropWhile]
  have gap := length_dropWhile_le isSpace (text.dropWhile isName)
  unfold readSetting at run
  split at run
  next => cases run
  next c behind found =>
    rw [found, List.length_cons] at gap
    split at run
    next isEquals =>
      obtain ⟨⟨value', rest'⟩, read, same⟩ := Option.map_eq_some_iff.mp run
      simp only [Prod.mk.injEq] at same
      obtain ⟨⟨rfl, rfl⟩, rfl⟩ := same
      have gap' := length_dropWhile_le isSpace behind
      obtain ⟨bound, tight⟩ := readValue_owed read
      refine ⟨by omega, ?_⟩
      intro few
      obtain ⟨bare, empty⟩ := tight (by omega)
      refine ⟨bare, ?_⟩
      intro nothing
      rcases empty nothing with atEnd | blank
      · exact atEnd
      · rw [head_dropWhile isSpace behind] at blank
        cases blank
    next => cases run

/-- The settings in a connection string. Their names are not looked up here. -/
def parse (text : Bytes) : Option (List (Bytes × Bytes)) :=
  match _ : text.dropWhile isSpace with
  | [] => some []
  | c :: rest =>
      match _ : readSetting (c :: rest) with
      | none => none
      | some (setting, rest) => (parse rest).map (setting :: ·)
termination_by text.length
decreasing_by
  have shorter := (readSetting_owed ‹_›).1
  have skipped := length_dropWhile_le isSpace text
  have least := length_le_owed ‹_›
  rw [‹text.dropWhile isSpace = _›] at skipped
  omega

/-! ## Settings without apostrophes -/

/-- The characters of settings, each with its equal sign and a blank. -/
def needed : List (Bytes × Bytes) → Nat
  | [] => 0
  | setting :: settings => setting.1.length + setting.2.length + 2 + needed settings

/-- The values are bare, and only the last one may be empty. -/
structure Writable (settings : List (Bytes × Bytes)) : Prop where
  bare : ∀ setting ∈ settings, Bare setting.2
  filled : ∀ setting ∈ settings.dropLast, setting.2 ≠ []

theorem parse_blank {text : Bytes} (nothing : text.dropWhile isSpace = []) :
    parse text = some [] := by
  unfold parse
  split
  next => rfl
  next c rest found =>
    rw [nothing] at found
    cases found

theorem parse_nil : parse [] = some [] := parse_blank rfl

/-- Each setting takes its characters. If there are no others, the values are as they stand. -/
theorem parse_owed {text : Bytes} {settings : List (Bytes × Bytes)}
    (run : parse text = some settings) :
    needed settings ≤ owed text ∧
      (owed text ≤ needed settings → Writable settings) := by
  have nothing : Writable [] := by
    refine ⟨?_, ?_⟩ <;>
    · intro setting mem
      cases mem
  fun_induction parse text generalizing settings with
  | case1 text blank =>
    cases run
    exact ⟨Nat.zero_le _, fun _ => nothing⟩
  | case2 text c rest found bad => cases run
  | case3 text c rest found setting behind read ih =>
    obtain ⟨others, parsed, rfl⟩ := Option.map_eq_some_iff.mp run
    obtain ⟨name, value⟩ := setting
    obtain ⟨bound, tight⟩ := readSetting_owed read
    obtain ⟨rest_le, rest_tight⟩ := ih parsed
    have skipped := length_dropWhile_le isSpace text
    rw [found] at skipped
    have some_ : text ≠ [] := by
      rintro rfl
      cases found
    have whole : owed text = text.length + 1 := if_neg some_
    have sum : needed ((name, value) :: others) =
        name.length + value.length + 2 + needed others := rfl
    rw [sum, whole]
    refine ⟨by omega, ?_⟩
    intro few
    obtain ⟨bare, empty⟩ := tight (by omega)
    obtain ⟨bares, filled⟩ := rest_tight (by omega)
    refine ⟨List.forall_mem_cons.mpr ⟨bare, bares⟩, ?_⟩
    cases others with
    | nil =>
      intro setting mem
      cases mem
    | cons next others =>
      rw [List.dropLast_cons_of_ne_nil (List.cons_ne_nil next others)]
      refine List.forall_mem_cons.mpr ⟨?_, filled⟩
      intro isEmpty
      rw [empty isEmpty, parse_nil] at parsed
      cases parsed

/-- Settings with one blank between them. -/
def write : List (Bytes × Bytes) → Bytes
  | [] => []
  | [setting] => setting.1 ++ equals :: setting.2
  | setting :: settings => setting.1 ++ equals :: (setting.2 ++ chr ' ' :: write settings)

theorem write_ne_nil {settings : List (Bytes × Bytes)} (some_ : settings ≠ []) :
    write settings ≠ [] := by
  fun_cases write settings with
  | case1 => exact absurd rfl some_
  | case2 setting => simp
  | case3 setting settings several => simp

theorem owed_write (settings : List (Bytes × Bytes)) : owed (write settings) = needed settings := by
  fun_induction write settings with
  | case1 => rfl
  | case2 setting =>
    have some_ : setting.1 ++ equals :: setting.2 ≠ [] := by simp
    rw [owed, if_neg some_]
    simp only [List.length_append, List.length_cons, needed]
    omega
  | case3 setting settings several ih =>
    have some_ : setting.1 ++ equals :: (setting.2 ++ chr ' ' :: write settings) ≠ [] := by simp
    rw [owed, if_neg (write_ne_nil several)] at ih
    rw [owed, if_neg some_, needed, ← ih]
    simp only [List.length_append, List.length_cons]
    omega

/-- A plain value is read up to a blank or the end. -/
theorem readPlain_plain {value : Bytes} (plain : Plain value) :
    readPlain value = (value, []) ∧
      ∀ rest, readPlain (value ++ chr ' ' :: rest) = (value, rest) := by
  induction value with
  | nil =>
    refine ⟨rfl, ?_⟩
    intro rest
    have blank : isSpace (chr ' ') = true := rfl
    rw [List.nil_append, readPlain.eq_def]
    simp only [blank, if_true]
  | cons c value ih =>
    obtain ⟨solid, noBackslash⟩ := plain c List.mem_cons_self
    obtain ⟨atEnd, inFront⟩ := ih fun d mem => plain d (List.mem_cons_of_mem c mem)
    have step (rest : Bytes) :
        readPlain (c :: rest) = (c :: (readPlain rest).1, (readPlain rest).2) := by
      rw [readPlain.eq_def]
      simp only [solid, Bool.false_eq_true, if_false, if_neg noBackslash]
    refine ⟨?_, ?_⟩
    · rw [step, atEnd]
    · intro rest
      rw [List.cons_append, step, inFront]

theorem Bare.readValue {value : Bytes} (bare : Bare value) :
    readValue value = some (value, []) ∧
      ∀ rest, Conninfo.readValue (value ++ chr ' ' :: rest) = some (value, rest) := by
  obtain ⟨atEnd, inFront⟩ := readPlain_plain bare.plain
  refine ⟨?_, ?_⟩
  · rw [Conninfo.readValue, if_neg bare.unquoted, atEnd]
  · intro rest
    have unquoted : (value ++ chr ' ' :: rest).head? ≠ some quoteMark := by
      cases value with
      | nil => exact fun first => absurd (Option.some.inj first) (by decide)
      | cons c value => exact bare.unquoted
    rw [Conninfo.readValue, if_neg unquoted, inFront]

/-- No blank is passed over in front of a bare value. -/
theorem Bare.dropWhile {value : Bytes} (bare : Bare value) (filled : value ≠ []) (rest : Bytes) :
    (value ++ rest).dropWhile isSpace = value ++ rest := by
  cases value with
  | nil => exact absurd rfl filled
  | cons c value =>
    have solid := (bare.plain c List.mem_cons_self).1
    rw [List.cons_append, List.dropWhile_cons, solid]
    rfl

/-- A keyword that is not looked up: no blanks and no equal sign. -/
def Keyword (name : Bytes) : Prop := ∀ c ∈ name, isName c = true

/-- A setting is read as far as its value. -/
theorem readSetting_equals {name : Bytes} (keyword : Keyword name) (behind : Bytes) :
    readSetting (name ++ equals :: behind) =
      (readValue (behind.dropWhile isSpace)).map fun read => ((name, read.1), read.2) := by
  have stops : (equals :: behind).head?.any isName = false := rfl
  have noBlank : (equals :: behind).dropWhile isSpace = equals :: behind := rfl
  rw [readSetting, dropWhile_run keyword stops, takeWhile_run keyword stops, noBlank]
  simp only [if_true]

theorem parse_setting {name behind value rest : Bytes} (keyword : Keyword name)
    (read : readValue (behind.dropWhile isSpace) = some (value, rest)) :
    parse (name ++ equals :: behind) = (parse rest).map ((name, value) :: ·) := by
  have setting := readSetting_equals keyword behind
  rw [read, Option.map_some] at setting
  have noBlank : (name ++ equals :: behind).dropWhile isSpace = name ++ equals :: behind := by
    cases name with
    | nil => rfl
    | cons c name =>
      have isName := keyword c List.mem_cons_self
      have solid : isSpace c = false := by
        rw [Conninfo.isName, Bool.and_eq_true, Bool.not_eq_true'] at isName
        exact isName.1
      rw [List.cons_append, List.dropWhile_cons, solid]
      rfl
  rw [parse.eq_def]
  split
  next nothing =>
    rw [noBlank] at nothing
    cases name <;> cases nothing
  next c text found =>
    rw [noBlank] at found
    rw [← found, setting]

theorem parse_write {settings : List (Bytes × Bytes)}
    (keywords : ∀ setting ∈ settings, Keyword setting.1) (writable : Writable settings) :
    parse (write settings) = some settings := by
  obtain ⟨bare, filled⟩ := writable
  fun_induction write settings with
  | case1 => exact parse_nil
  | case2 setting =>
    have keyword := keywords setting List.mem_cons_self
    have isBare := bare setting List.mem_cons_self
    have read : readValue (setting.2.dropWhile isSpace) = some (setting.2, []) := by
      by_cases empty : setting.2 = []
      · rw [empty]
        rfl
      · have noBlank := isBare.dropWhile empty []
        rw [List.append_nil] at noBlank
        rw [noBlank]
        exact isBare.readValue.1
    rw [parse_setting keyword read, parse_nil]
    rfl
  | case3 setting settings several ih =>
    have keyword := keywords setting List.mem_cons_self
    have isBare := bare setting List.mem_cons_self
    rw [List.dropLast_cons_of_ne_nil several] at filled
    have isFilled := filled setting List.mem_cons_self
    have read : readValue ((setting.2 ++ chr ' ' :: write settings).dropWhile isSpace) =
        some (setting.2, write settings) := by
      rw [isBare.dropWhile isFilled]
      exact isBare.readValue.2 _
    have others := ih (fun other mem => keywords other (List.mem_cons_of_mem setting mem))
      (fun other mem => bare other (List.mem_cons_of_mem setting mem))
      (fun other mem => filled other (List.mem_cons_of_mem setting mem))
    rw [parse_setting keyword read, others]
    rfl

/-- Settings that are written without apostrophes are read as what they are exactly if there is no
blank, no backslash and no apostrophe at the front in any value, and only the last one is empty. -/
theorem parse_write_iff {settings : List (Bytes × Bytes)}
    (keywords : ∀ setting ∈ settings, Keyword setting.1) :
    parse (write settings) = some settings ↔ Writable settings := by
  constructor
  · intro run
    exact (parse_owed run).2 (Nat.le_of_eq (owed_write settings))
  · exact parse_write keywords

end KafkaReplication.Misc.Conninfo
