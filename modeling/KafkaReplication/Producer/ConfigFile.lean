import KafkaReplication.Producer.ConfigManager

/-!
# Configuration files

The files that `ConfigManager::load` (`producer_azs/config_manager.cpp:28-66`) is meant for:
lines `key = value` with spaces and tabs around key and value, and among them blank lines, lines
that begin with `#` and lines without `=`. They end in LF or CRLF, and the last one need not end.
What is loaded from such a file is what was written to it.
-/

namespace KafkaReplication
open Misc Misc.StdString

namespace ConfigManager

/-! ## Lines -/

/-- Nothing that is trimmed stands at either end. -/
structure Trimmed (text : Bytes) : Prop where
  head : ∀ c, text.head? = some c → c ∉ blanks
  last : ∀ c, text.getLast? = some c → c ∉ blanks

/-- A key with its value, as they can be written in a line. -/
structure Entry where
  key : Bytes
  value : Bytes
  key_some : key ≠ []
  key_noEquals : chr '=' ∉ key
  key_single : newline ∉ key
  key_noComment : key.head? ≠ some (chr '#')
  key_trimmed : Trimmed key
  value_single : newline ∉ value
  value_trimmed : Trimmed value

/-- Spaces and tabs. -/
abbrev Padding := { pad : Bytes // ∀ c ∈ pad, c = chr ' ' ∨ c = 9 }

/-- A line without its end: an entry with padding around its parts, or a line that says nothing. -/
inductive Line where
  | keyValue (entry : Entry) (beforeKey afterKey beforeValue afterValue : Padding)
  | other (text : Bytes) (single : newline ∉ text)
      (silent : text.head? = some (chr '#') ∨ chr '=' ∉ text)

namespace Line

def text : Line → Bytes
  | keyValue entry beforeKey afterKey beforeValue afterValue =>
      beforeKey.val ++ (entry.key ++ afterKey.val) ++
        chr '=' :: (beforeValue.val ++ (entry.value ++ afterValue.val))
  | other text _ _ => text

/-- The key with its value, where the line has one. -/
def pair : Line → Option (Bytes × Bytes)
  | keyValue entry _ _ _ _ => some (entry.key, entry.value)
  | other _ _ _ => none

end Line

/-- What ends a line. -/
inductive Ending where
  | lf
  | crlf
  deriving DecidableEq, Repr

/-- What of the ending stands in front of the line feed. -/
def Ending.front : Ending → Bytes
  | lf => []
  | crlf => [13]

/-- The file of the lines, each with its ending. The last line has none unless `ended`. -/
def render (ended : Bool) : List (Line × Ending) → Bytes
  | [] => []
  | [(line, ending)] => line.text ++ if ended then ending.front ++ [newline] else []
  | (line, ending) :: next :: lines =>
      line.text ++ (ending.front ++ newline :: render ended (next :: lines))

/-- The pairs that are written, in the order of the lines. -/
def pairsOf (lines : List (Line × Ending)) : List (Bytes × Bytes) :=
  lines.filterMap fun line => line.1.pair

/-- Each key with the value of its last occurrence. -/
def lastValues (pairs : List (Bytes × Bytes)) : ConfigValues := fun key =>
  pairs.reverse.lookup key

/-! ## Trimming -/

section Trim

variable {front core back : Bytes}

theorem trim_blank {text : Bytes} (all : ∀ c ∈ text, c ∈ blanks) : trim text = .ok none := by
  rw [trim, findFirstNotOf_all all]

/-- What stands between blanks. -/
theorem trim_padded (blankFront : ∀ c ∈ front, c ∈ blanks) (blankBack : ∀ c ∈ back, c ∈ blanks)
    (some_ : core ≠ []) (trimmed : Trimmed core) :
    trim (front ++ (core ++ back)) = .ok (some core) := by
  obtain ⟨first, others, core_eq⟩ := List.exists_cons_of_ne_nil some_
  obtain ⟨init, last, core_eq'⟩ := List.eq_nil_or_concat core |>.resolve_left some_
  have firstFound : findFirstNotOf blanks (front ++ (core ++ back)) = some front.length := by
    rw [core_eq, List.cons_append]
    apply findFirstNotOf_append blankFront
    exact trimmed.head first (by rw [core_eq, List.head?_cons])
  have lastFound : findLastNotOf blanks (front ++ (core ++ back)) =
      some (front.length + core.length - 1) := by
    have shape : front ++ (core ++ back) = (front ++ init) ++ last :: back := by
      rw [core_eq', List.concat_eq_append, List.append_assoc, List.append_assoc]
      rfl
    rw [shape, findLastNotOf_append blankBack (trimmed.last last (by rw [core_eq']; simp)),
      core_eq', List.length_append, List.length_concat]
    rfl
  have positive := List.length_pos_iff.mpr some_
  have count : front.length + core.length - 1 - front.length + 1 = core.length := by omega
  rw [trim, firstFound, lastFound]
  dsimp only
  rw [Option.getD_some, count, substr_append]
  rfl

/-- A value may be empty. -/
theorem trim_value (blankFront : ∀ c ∈ front, c ∈ blanks) (blankBack : ∀ c ∈ back, c ∈ blanks)
    (trimmed : Trimmed core) :
    ∃ shown, trim (front ++ (core ++ back)) = .ok shown ∧ shown.getD [] = core := by
  by_cases nothing : core = []
  · subst nothing
    refine ⟨none, trim_blank ?_, rfl⟩
    intro c member
    rcases List.mem_append.mp member with inFront | inBack
    · exact blankFront c inFront
    · exact blankBack c inBack
  · exact ⟨some core, trim_padded blankFront blankBack nothing trimmed, rfl⟩

end Trim

/-! ## One line -/

section Lines

variable (values : ConfigValues)

/-- What a line says is put into the map. -/
def Line.apply (line : Line) : ConfigValues :=
  match line.pair with
  | none => values
  | some (key, value) => Function.update values key (some value)

theorem padding_blank (pad : Padding) : ∀ c ∈ pad.val, c ∈ blanks := by
  intro c member
  rcases pad.property c member with rfl | rfl <;> decide

theorem notMem_padding {c : UInt8} (noSpace : c ≠ chr ' ') (noTab : c ≠ 9) (pad : Padding) :
    c ∉ pad.val := by
  intro member
  rcases pad.property c member with same | same
  · exact noSpace same
  · exact noTab same

theorem padding_noEquals (pad : Padding) : chr '=' ∉ pad.val :=
  notMem_padding (by decide) (by decide) pad

theorem padding_noComment (pad : Padding) : pad.val.head? ≠ some (chr '#') := by
  intro first
  exact notMem_padding (by decide) (by decide) pad (List.mem_of_head? first)

theorem front_blank (ending : Ending) : ∀ c ∈ ending.front, c ∈ blanks := by
  cases ending <;> decide +kernel

/-- What is put into the map from a line with a key. -/
theorem loadLine_pair {keyPart valuePart key : Bytes} {shown : Option Bytes}
    (noComment : keyPart.head? ≠ some (chr '#')) (noEquals : chr '=' ∉ keyPart)
    (trimmedKey : trim keyPart = .ok (some key)) (trimmedValue : trim valuePart = .ok shown) :
    loadLine (keyPart ++ chr '=' :: valuePart) values =
      .ok (Function.update values key (some (shown.getD []))) := by
  have read : ¬ (keyPart ++ chr '=' :: valuePart = [] ∨
      (keyPart ++ chr '=' :: valuePart).head? = some (chr '#')) := by
    rw [List.head?_append]
    cases first : keyPart.head? with
    | none => simp [chr]
    | some c => simpa [first] using noComment
  have keyCut : substr (keyPart ++ chr '=' :: valuePart) 0 keyPart.length = .ok keyPart :=
    substr_append [] keyPart (chr '=' :: valuePart)
  have valueCut : substrFrom (keyPart ++ chr '=' :: valuePart) (keyPart.length + 1) =
      .ok valuePart := by
    have behind := substrFrom_append (keyPart ++ [chr '=']) valuePart
    rwa [List.append_assoc, List.length_append] at behind
  have inside : (keyPart ++ chr '=' :: valuePart).length ≥ keyPart.length + 1 := by
    rw [List.length_append, List.length_cons]
    omega
  rw [loadLine, if_neg read, find_append_cons noEquals]
  simp only [keyCut, inside, valueCut, if_true, bind, Except.bind, trimmedKey, trimmedValue]
  rfl

/-- An entry is loaded, whatever ends its line. -/
theorem loadLine_keyValue (entry : Entry) (beforeKey afterKey beforeValue afterValue : Padding)
    (ending : Ending) :
    loadLine ((Line.keyValue entry beforeKey afterKey beforeValue afterValue).text ++
      ending.front) values = .ok (Function.update values entry.key (some entry.value)) := by
  have blankBehind : ∀ c ∈ afterValue.val ++ ending.front, c ∈ blanks := by
    intro c member
    rcases List.mem_append.mp member with inPadding | inEnding
    · exact padding_blank afterValue c inPadding
    · exact front_blank ending c inEnding
  have noEquals : chr '=' ∉ beforeKey.val ++ (entry.key ++ afterKey.val) := by
    simp only [List.mem_append, not_or]
    exact ⟨padding_noEquals beforeKey, entry.key_noEquals, padding_noEquals afterKey⟩
  have noComment : (beforeKey.val ++ (entry.key ++ afterKey.val)).head? ≠ some (chr '#') := by
    rw [List.head?_append, List.head?_append_of_ne_nil _ entry.key_some]
    cases first : beforeKey.val.head? with
    | none => exact entry.key_noComment
    | some c => simpa [first] using padding_noComment beforeKey
  obtain ⟨shown, trimmedValue, shown_eq⟩ :=
    trim_value (padding_blank beforeValue) blankBehind entry.value_trimmed
  have trimmedKey := trim_padded (padding_blank beforeKey) (padding_blank afterKey)
    entry.key_some entry.key_trimmed
  have shape : (Line.keyValue entry beforeKey afterKey beforeValue afterValue).text ++
      ending.front = (beforeKey.val ++ (entry.key ++ afterKey.val)) ++
        chr '=' :: (beforeValue.val ++ (entry.value ++ (afterValue.val ++ ending.front))) := by
    simp [Line.text]
  rw [shape, loadLine_pair values noComment noEquals trimmedKey trimmedValue, shown_eq]

/-- Any other line is passed over. -/
theorem loadLine_other {text : Bytes}
    (silent : text.head? = some (chr '#') ∨ chr '=' ∉ text) (ending : Ending) :
    loadLine (text ++ ending.front) values = .ok values := by
  rcases silent with comment | noEquals
  · rw [loadLine, if_pos]
    right
    rw [List.head?_append, comment]
    rfl
  · have absent : chr '=' ∉ text ++ ending.front := by
      rw [List.mem_append, not_or]
      exact ⟨noEquals, by cases ending <;> decide⟩
    by_cases nothing : text ++ ending.front = [] ∨
        (text ++ ending.front).head? = some (chr '#')
    · rw [loadLine, if_pos nothing]
    · rw [loadLine, if_neg nothing, find_eq_none absent]

theorem loadLine_text (line : Line) (ending : Ending) :
    loadLine (line.text ++ ending.front) values = .ok (line.apply values) := by
  cases line with
  | keyValue entry beforeKey afterKey beforeValue afterValue =>
    exact loadLine_keyValue values entry beforeKey afterKey beforeValue afterValue ending
  | other text single silent => exact loadLine_other values silent ending

theorem Line.single (line : Line) : newline ∉ line.text := by
  have inPadding : ∀ pad : Padding, newline ∉ pad.val :=
    notMem_padding (by decide) (by decide)
  cases line with
  | keyValue entry beforeKey afterKey beforeValue afterValue =>
    have notEquals : newline ≠ chr '=' := by decide
    simp [Line.text, entry.key_single, entry.value_single, inPadding, notEquals]
  | other text single silent => exact single

theorem Line.single_front (line : Line) (ending : Ending) :
    newline ∉ line.text ++ ending.front := by
  rw [List.mem_append, not_or]
  exact ⟨line.single, by cases ending <;> decide⟩

end Lines

/-! ## The file -/

section Files

variable (values : ConfigValues)

theorem loadLines_nil : loadLines [] values = .ok values := by
  rw [loadLines]
  rfl

theorem loadLines_newline {line : Bytes} (single : newline ∉ line) (rest : Bytes) :
    loadLines (line ++ newline :: rest) values = (loadLine line values >>= loadLines rest) := by
  rw [loadLines]
  split
  · next nothing => rw [getline_newline single] at nothing; cases nothing
  · next read =>
    rw [getline_newline single] at read
    cases read
    rfl

/-- The last line, where nothing ends it. -/
theorem loadLines_last (line : Line) :
    loadLines line.text values = .ok (line.apply values) := by
  have loaded := loadLine_text values line .lf
  rw [Ending.front, List.append_nil] at loaded
  by_cases nothing : line.text = []
  · rw [nothing] at loaded ⊢
    rw [loadLines_nil, ← loaded]
    rfl
  · rw [loadLines]
    split
    · next none => rw [getline_last line.single nothing] at none; cases none
    · next read =>
      rw [getline_last line.single nothing] at read
      cases read
      rw [loaded]
      exact loadLines_nil _

/-- Line by line, each is put into the map. -/
theorem loadLines_render (ended : Bool) (lines : List (Line × Ending)) :
    loadLines (render ended lines) values =
      .ok (lines.foldl (fun values line => line.1.apply values) values) := by
  induction lines generalizing values with
  | nil => exact loadLines_nil values
  | cons first lines ih =>
    obtain ⟨line, ending⟩ := first
    have step : ∀ rest, loadLines (line.text ++ (ending.front ++ newline :: rest)) values =
        loadLines rest (line.apply values) := by
      intro rest
      rw [← List.append_assoc, loadLines_newline values (line.single_front ending),
        loadLine_text]
      rfl
    cases lines with
    | nil =>
      cases ended with
      | false =>
        rw [render, if_neg (by decide), List.append_nil]
        exact loadLines_last values line
      | true =>
        rw [render, if_pos rfl, step]
        exact ih (line.apply values)
    | cons next lines =>
      rw [render, step]
      exact ih (line.apply values)

/-- A pair that is put into the map later hides those of its key before. -/
theorem foldl_apply (lines : List (Line × Ending)) :
    lines.foldl (fun values line => line.1.apply values) values =
      fun key => ((pairsOf lines).reverse.lookup key).or (values key) := by
  induction lines generalizing values with
  | nil => rfl
  | cons first lines ih =>
    rw [List.foldl_cons, ih]
    funext key
    cases written : first.1.pair with
    | none => simp [Line.apply, pairsOf, written]
    | some pair =>
      obtain ⟨name, value⟩ := pair
      have pairs : pairsOf (first :: lines) = (name, value) :: pairsOf lines := by
        simp [pairsOf, written]
      rw [pairs, List.reverse_cons, List.lookup_append, Option.or_assoc]
      congr 1
      by_cases same : key = name
      · simp [Line.apply, written, same]
      · have other : (key == name) = false := beq_false_of_ne same
        simp [Line.apply, written, same, List.lookup_cons, other]

/-- What is loaded from a file into an empty map is what was written to it: the value of the last
occurrence of each key, and no other key. -/
theorem load_render (ended : Bool) (lines : List (Line × Ending)) :
    load (some (render ended lines)) (fun _ => none) = .ok (lastValues (pairsOf lines)) := by
  rw [load, loadLines_render, foldl_apply]
  simp only [Option.or_none]
  rfl

end Files

end ConfigManager

end KafkaReplication
