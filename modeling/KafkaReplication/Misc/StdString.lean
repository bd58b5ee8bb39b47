import KafkaReplication.Misc.Buffer

/-!
# `std::string` and its streams

The members of `std::string` by which a program takes a text apart, and `std::getline`. A position
is a natural number, and `npos` is `none` until it is calculated with. The rules say what is found
in a text that is put together from parts, so that a parser of lines is followed part by part.
-/

namespace KafkaReplication.Misc.StdString

/-- `std::string::npos` as a number. -/
def npos : Nat := 2 ^ 64 - 1

/-- `text.find(c)`. -/
def find (c : UInt8) (text : Bytes) : Option Nat := text.findIdx? (· = c)

/-- `text.substr(pos, count)`; what is not there is left out, but the position must be in the text
or at its end. -/
def substr (text : Bytes) (pos count : Nat) : Except Fault Bytes :=
  if text.length < pos then
    .error (.exception "basic_string::substr: __pos > this->size()")
  else .ok ((text.drop pos).take count)

/-- `text.substr(pos)`. -/
def substrFrom (text : Bytes) (pos : Nat) : Except Fault Bytes := substr text pos text.length

/-- `text.find_first_not_of(set)`. -/
def findFirstNotOf (set text : Bytes) : Option Nat := text.findIdx? (· ∉ set)

/-- `text.find_last_not_of(set)`. -/
def findLastNotOf (set text : Bytes) : Option Nat :=
  (text.reverse.findIdx? (· ∉ set)).map (text.length - 1 - ·)

/-- The line feed, at which `getline` stops. -/
def newline : UInt8 := 10

/-- `std::getline(file, line)` on what is left of the file, if it succeeds: the line without its
end, and what is left then. At the end of the file there is no line. -/
def getline : Bytes → Option (Bytes × Bytes)
  | [] => none
  | c :: file =>
      if c = newline then some ([], file)
      else
        match getline file with
        | none => some ([c], [])
        | some (line, rest) => some (c :: line, rest)

/-! ## What is found where -/

section Search

variable {c : UInt8} {set front core back text : Bytes}

theorem find_append_cons (absent : c ∉ front) (back : Bytes) :
    find c (front ++ c :: back) = some front.length := by
  have nowhere : front.findIdx? (· = c) = none := by
    rw [List.findIdx?_eq_none_iff]
    intro d member
    exact decide_eq_false fun same => absent (same ▸ member)
  rw [find, List.findIdx?_append, nowhere, List.findIdx?_cons]
  simp

theorem find_eq_none (absent : c ∉ text) : find c text = none := by
  rw [find, List.findIdx?_eq_none_iff]
  intro d member
  exact decide_eq_false fun same => absent (same ▸ member)

theorem substr_append (front core back : Bytes) :
    substr (front ++ (core ++ back)) front.length core.length = .ok core := by
  have inside : ¬ (front ++ (core ++ back)).length < front.length := by
    rw [List.length_append]
    omega
  rw [substr, if_neg inside, List.drop_left, List.take_left]

theorem substrFrom_append (front back : Bytes) :
    substrFrom (front ++ back) front.length = .ok back := by
  have inside : ¬ (front ++ back).length < front.length := by
    rw [List.length_append]
    omega
  have enough : back.length ≤ (front ++ back).length := by
    rw [List.length_append]
    omega
  rw [substrFrom, substr, if_neg inside, List.drop_left, List.take_of_length_le enough]

theorem findFirstNotOf_all (all : ∀ c ∈ text, c ∈ set) : findFirstNotOf set text = none := by
  rw [findFirstNotOf, List.findIdx?_eq_none_iff]
  intro c member
  exact decide_eq_false (not_not_intro (all c member))

/-- What comes first behind characters of the set. -/
theorem findFirstNotOf_append (all : ∀ c ∈ front, c ∈ set) (other : c ∉ set) (back : Bytes) :
    findFirstNotOf set (front ++ c :: back) = some front.length := by
  have nowhere := findFirstNotOf_all all
  rw [findFirstNotOf] at nowhere ⊢
  rw [List.findIdx?_append, nowhere, List.findIdx?_cons]
  simp [other]

theorem findLastNotOf_append (all : ∀ c ∈ back, c ∈ set) (other : c ∉ set) (front : Bytes) :
    findLastNotOf set (front ++ (c :: back)) = some front.length := by
  have reversed : (front ++ (c :: back)).reverse = back.reverse ++ c :: front.reverse := by
    rw [List.reverse_append, List.reverse_cons, List.append_assoc]
    rfl
  have found := findFirstNotOf_append
    (fun d member => all d (List.mem_reverse.mp member)) other front.reverse
  rw [findFirstNotOf] at found
  rw [findLastNotOf, reversed, found, Option.map_some, List.length_reverse, List.length_append,
    List.length_cons]
  congr 1
  omega

end Search

/-! ## Lines -/

section Lines

variable {file line rest : Bytes}

theorem getline_shorter (read : getline file = some (line, rest)) :
    rest.length < file.length := by
  induction file generalizing line with
  | nil => cases read
  | cons c file ih =>
    rw [getline] at read
    split at read
    · cases read
      exact Nat.lt_succ_self _
    · split at read
      · cases read
        exact Nat.succ_pos _
      · next later =>
        cases read
        exact Nat.lt_succ_of_lt (ih later)

/-- A line with its end. -/
theorem getline_newline (single : newline ∉ line) (rest : Bytes) :
    getline (line ++ newline :: rest) = some (line, rest) := by
  induction line with
  | nil => rw [List.nil_append, getline, if_pos rfl]
  | cons c line ih =>
    rw [List.mem_cons, not_or] at single
    rw [List.cons_append, getline, if_neg (Ne.symm single.1), ih single.2]

/-- The last line of a file that does not end in a line feed. -/
theorem getline_last (single : newline ∉ line) (some_ : line ≠ []) :
    getline line = some (line, []) := by
  induction line with
  | nil => exact absurd rfl some_
  | cons c line ih =>
    rw [List.mem_cons, not_or] at single
    rw [getline, if_neg (Ne.symm single.1)]
    cases line with
    | nil => rfl
    | cons d line => rw [ih single.2 (List.cons_ne_nil d line)]

end Lines

end KafkaReplication.Misc.StdString
