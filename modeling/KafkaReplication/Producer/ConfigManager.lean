import KafkaReplication.Misc.Numerals

/-!
# `ConfigManager`

`producer_azs/config_manager.cpp:28-93`: a configuration file is read line by line into a map from
keys to values, and the position in it is taken apart at the slash.
-/

namespace KafkaReplication
open Misc Misc.StdString

/-- `values_` (`config_manager.h:22`), a map from keys. -/
abbrev ConfigValues := Bytes → Option Bytes

namespace ConfigManager

/-- `" \t\n\r"`, the characters that are trimmed. -/
def blanks : Bytes := [chr ' ', 9, newline, 13]

/-- A text without the blanks around it, unless there is nothing else in it
(`config_manager.cpp:48-51,53-60`). -/
def trim (text : Bytes) : Except Fault (Option Bytes) :=
  match findFirstNotOf blanks text with
  | none => .ok none
  | some start => do
      let part ← substr text start ((findLastNotOf blanks text).getD npos - start + 1)
      return some part

/-- One round of the loop of `load` (`config_manager.cpp:39-62`). A key of blanks is passed over, a
value of blanks is empty. -/
def loadLine (line : Bytes) (values : ConfigValues) : Except Fault ConfigValues :=
  if line = [] ∨ line.head? = some (chr '#') then .ok values
  else
    match find (chr '=') line with
    | none => .ok values
    | some eqPos => do
        let key ← substr line 0 eqPos
        let value ← if line.length ≥ eqPos + 1 then substrFrom line (eqPos + 1) else .ok []
        let trimmedKey ← trim key
        match trimmedKey with
        | none => return values
        | some key => do
            let trimmedValue ← trim value
            return Function.update values key (some (trimmedValue.getD []))

/-- The loop of `load` (`config_manager.cpp:37-63`) on what is left of the file. -/
def loadLines (file : Bytes) (values : ConfigValues) : Except Fault ConfigValues :=
  match _ : getline file with
  | none => .ok values
  | some (line, rest) => do
      let values ← loadLine line values
      loadLines rest values
termination_by file.length
decreasing_by exact getline_shorter ‹_›

/-- `load` (`config_manager.cpp:28-66`): a file that cannot be opened leaves the values. -/
def load (file : Option Bytes) (values : ConfigValues) : Except Fault ConfigValues :=
  match file with
  | none => .ok values
  | some file => loadLines file values

/-- `getValueByKeyFromConfig` (`config_manager.cpp:68-78`). -/
def getValueByKeyFromConfig (values : ConfigValues) (key : Bytes) : Bytes := (values key).getD []

/-- `parseLSN` (`config_manager.cpp:81-93`) on the numbers that `high` and `low` refer to. -/
def parseLSN (lsnStr : Bytes) : EStateM Fault (UInt32 × UInt32) Unit :=
  match find (chr '/') lsnStr with
  | none => set ((0, 0) : UInt32 × UInt32)
  | some slash => do
      let high ← ofExcept (substr lsnStr 0 slash >>= Numerals.stoul)
      modify fun halves => (high.toUInt32, halves.2)
      let low ← ofExcept (substrFrom lsnStr (slash + 1) >>= Numerals.stoul)
      modify fun halves => (halves.1, low.toUInt32)

section Halves

variable {front back : Bytes} {halves : UInt32 × UInt32}

theorem parseLSN_slash (noSlash : chr '/' ∉ front) :
    parseLSN (front ++ chr '/' :: back) = (do
      let high ← ofExcept (Numerals.stoul front)
      modify fun halves => (high.toUInt32, halves.2)
      let low ← ofExcept (Numerals.stoul back)
      modify fun halves => (halves.1, low.toUInt32)) := by
  have highCut : substr (front ++ chr '/' :: back) 0 front.length = .ok front :=
    substr_append [] front (chr '/' :: back)
  have lowCut : substrFrom (front ++ chr '/' :: back) (front.length + 1) = .ok back := by
    have behind := substrFrom_append (front ++ [chr '/']) back
    rwa [List.append_assoc, List.length_append] at behind
  rw [parseLSN, find_append_cons noSlash]
  simp only [highCut, lowCut]
  rfl

theorem parseLSN_ok_iff (noSlash : chr '/' ∉ front) (high low : UInt32) :
    parseLSN (front ++ chr '/' :: back) halves = .ok () (high, low) ↔
      (∃ read, Numerals.stoul front = .ok read ∧ read.toUInt32 = high) ∧
        ∃ read, Numerals.stoul back = .ok read ∧ read.toUInt32 = low := by
  rw [parseLSN_slash noSlash]
  cases Numerals.stoul front with
  | error fault =>
    constructor
    · intro parsed
      cases parsed
    · rintro ⟨⟨_, nothing, _⟩, _⟩
      cases nothing
  | ok highRead =>
    cases Numerals.stoul back with
    | error fault =>
      constructor
      · intro parsed
        cases parsed
      · rintro ⟨_, _, nothing, _⟩
        cases nothing
    | ok lowRead =>
      constructor
      · intro parsed
        cases parsed
        exact ⟨⟨highRead, rfl, rfl⟩, lowRead, rfl, rfl⟩
      · rintro ⟨⟨_, highParsed, rfl⟩, _, lowParsed, rfl⟩
        cases highParsed
        cases lowParsed
        rfl

end Halves

end ConfigManager

end KafkaReplication
