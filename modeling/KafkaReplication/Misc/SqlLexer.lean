import KafkaReplication.Misc.Buffer
import KafkaReplication.Misc.Quoting
import Mathlib.Data.Rat.Defs
import Mathlib.Algebra.Field.Rat

/-!
# The lexical rules of PostgreSQL

Tokens as PostgreSQL reads them with `standard_conforming_strings` on: names and key words are
folded to lower case, a name in double quotes and a literal in apostrophes have their delimiter
doubled inside, comments nest. What is not read here has no tokens at all: literals behind a
letter (`E`, `B`, `X`, `N`, `U&`), literals that go on in a further one, dollar quotes,
parameters, and numbers that run into a word.

`ReadsAs` says of a chunk which tokens it gives in front of a given rest. Chunks are put together
by `ReadsAs.append`, so that the tokens of a statement are found piece by piece.
-/

namespace KafkaReplication.Misc.Sql

/-- What the lexer hands to the grammar. -/
inductive Token where
  /-- A key word, or a name without quotes, in lower case. -/
  | word (text : Bytes)
  /-- A name in quotes. -/
  | quoted (name : Bytes)
  | string (text : Bytes)
  | number (value : Rat)
  | operator (text : Bytes)
  /-- A punctuation mark. -/
  | special (mark : UInt8)
  deriving DecidableEq

/-! ## Characters -/

/-- The apostrophe. -/
def quoteMark : UInt8 := 0x27

def inRange (first last : Char) (c : UInt8) : Bool :=
  first.toNat ≤ c.toNat && c.toNat ≤ last.toNat

def isSpace (c : UInt8) : Bool := c = chr ' ' || (9 ≤ c.toNat && c.toNat ≤ 13)

def isNewline (c : UInt8) : Bool := c.toNat = 10 || c.toNat = 13

def isDigit (c : UInt8) : Bool := inRange '0' '9' c

/-- Letters, the underscore and all bytes outside ASCII. -/
def isWordStart (c : UInt8) : Bool :=
  inRange 'a' 'z' c || inRange 'A' 'Z' c || c = chr '_' || 128 ≤ c.toNat

def isWordPart (c : UInt8) : Bool := isWordStart c || isDigit c || c = chr '$'

/-- Only ASCII letters have a lower case. -/
def foldCase (c : UInt8) : UInt8 := if inRange 'A' 'Z' c then c + 32 else c

/-- Operator characters that let an operator end in a sign. -/
def isRareOperator (c : UInt8) : Bool := c ∈ 0x60 :: str "~!@#%^&|?"

def isOperator (c : UInt8) : Bool :=
  isRareOperator c || c ∈ [chr '+', chr '-', chr '*', chr '/', chr '<', chr '>', chr '=']

def isSpecial (c : UInt8) : Bool := c ∈ str "(),;:[]."

/-! ## Between tokens -/

/-- Where the lexer is between two tokens. -/
inductive Gap where
  | blank
  /-- In a comment that the line ends. -/
  | line
  /-- In a comment with so many others around it. -/
  | block (depth : Nat)

/-- What follows the white space and the comments, unless a comment does not end. -/
def skip : Gap → Bytes → Option Bytes
  | .blank, c :: d :: rest =>
      if c = chr '-' ∧ d = chr '-' then skip .line rest
      else if c = chr '/' ∧ d = chr '*' then skip (.block 0) rest
      else if isSpace c then skip .blank (d :: rest)
      else some (c :: d :: rest)
  | .blank, [c] => if isSpace c then some [] else some [c]
  | .blank, [] => some []
  | .line, c :: rest => if isNewline c then skip .blank rest else skip .line rest
  | .line, [] => some []
  | .block depth, c :: d :: rest =>
      if c = chr '*' ∧ d = chr '/' then
        match depth with
        | 0 => skip .blank rest
        | depth + 1 => skip (.block depth) rest
      else if c = chr '/' ∧ d = chr '*' then skip (.block (depth + 1)) rest
      else skip (.block depth) (d :: rest)
  | .block _, _ => none

/-! ## Tokens -/

/-- The number that decimal digits stand for. -/
def digitsValue (digits : Bytes) : Nat := digits.foldl (fun n c => 10 * n + (c.toNat - 48)) 0

/-- The digits behind a decimal point, where there is one. -/
def readFraction : Bytes → Bytes × Bytes
  | [] => ([], [])
  | c :: rest =>
      if c = chr '.' then (rest.takeWhile isDigit, rest.dropWhile isDigit) else ([], c :: rest)

/-- The sign of an exponent: whether it is a minus. -/
def readSign : Bytes → Bool × Bytes
  | [] => (false, [])
  | c :: rest =>
      if c = chr '-' then (true, rest)
      else if c = chr '+' then (false, rest)
      else (false, c :: rest)

/-- The exponent, 0 where there is none. -/
def readExponent : Bytes → Int × Bytes
  | [] => (0, [])
  | c :: rest =>
      if c = chr 'e' ∨ c = chr 'E' then
        let (negative, shown) := readSign rest
        let digits := shown.takeWhile isDigit
        if digits = [] then (0, c :: rest)
        else (if negative then -digitsValue digits else digitsValue digits,
          shown.dropWhile isDigit)
      else (0, c :: rest)

/-- A number may not run into a word or a further point. -/
def runsOn (rest : Bytes) : Bool := rest.head?.any fun c => isWordStart c || c = chr '.'

def readNumber (s : Bytes) : Option (Rat × Bytes) :=
  let whole := s.takeWhile isDigit
  let (places, rest) := readFraction (s.dropWhile isDigit)
  let (exponent, rest) := readExponent rest
  if runsOn rest then none
  else some (digitsValue (whole ++ places) * (10 : Rat) ^ (exponent - places.length), rest)

/-- An operator goes on until a comment starts. -/
def operatorRun : Bytes → Bytes
  | [] => []
  | [c] => if isOperator c then [c] else []
  | c :: d :: rest =>
      if c = chr '-' ∧ d = chr '-' ∨ c = chr '/' ∧ d = chr '*' then []
      else if isOperator c then c :: operatorRun (d :: rest)
      else []

/-- Signs at the end are operators of their own, unless a rare character comes before them. -/
def operatorOf (run : Bytes) : Bytes :=
  if run.any isRareOperator then run
  else
    let kept := (run.reverse.dropWhile fun c => c = chr '+' || c = chr '-').reverse
    if kept = [] then run.take 1 else kept

/-- A word in front of a literal that makes it one of another kind. -/
def marksLiteral (word rest : Bytes) : Bool :=
  (word ∈ [str "e", str "b", str "x", str "n"] && rest.head? = some quoteMark) ||
    (word = str "u" && rest.take 2 ∈ [[chr '&', quoteMark], [chr '&', chr '"']])

/-- A literal that another one follows is continued by it, or is an error. -/
def readString (s : Bytes) : Option (Bytes × Bytes) :=
  (readDelimited quoteMark s).bind fun (text, rest) =>
    if (skip .blank rest).any fun after => after.head? = some quoteMark then none
    else some (text, rest)

/-- The token at the front. -/
def readToken : Bytes → Option (Token × Bytes)
  | [] => none
  | c :: rest =>
      if c = chr '"' then
        (readDelimited c rest).bind fun (name, rest) =>
          -- a name has at least one character
          if name = [] then none else some (.quoted name, rest)
      else if c = quoteMark then
        (readString rest).map fun (text, rest) => (.string text, rest)
      else if isWordStart c then
        let text := ((c :: rest).takeWhile isWordPart).map foldCase
        let rest := (c :: rest).dropWhile isWordPart
        if marksLiteral text rest then none else some (.word text, rest)
      else if isDigit c then
        (readNumber (c :: rest)).map fun (value, rest) => (.number value, rest)
      else if isSpecial c then some (.special c, rest)
      else
        let text := operatorOf (operatorRun (c :: rest))
        if text = [] then none else some (.operator text, (c :: rest).drop text.length)

def nextToken (s : Bytes) : Option (Token × Bytes) := (skip .blank s).bind readToken

/-- A text is read to its end, token by token. -/
inductive Lexes : Bytes → List Token → Prop
  | done {s : Bytes} (blank : skip .blank s = some []) : Lexes s []
  | next {s rest : Bytes} {token : Token} {tokens : List Token}
      (read : nextToken s = some (token, rest)) (more : Lexes rest tokens) :
      Lexes s (token :: tokens)


/-! ## What is skipped -/

theorem skip_suffix {gap : Gap} {s rest : Bytes} (skipped : skip gap s = some rest) :
    rest <:+ s := by
  fun_induction skip gap s with
  | case1 c d s' _ ih | case2 c d s' _ _ ih | case11 c d s' _ ih | case12 c d s' _ _ ih
  | case13 _ c d s' _ _ ih =>
    exact (ih skipped).trans (List.suffix_append [c, d] s')
  | case3 c d s' _ _ _ ih | case14 _ c d s' _ _ ih =>
    exact (ih skipped).trans (List.suffix_cons c (d :: s'))
  | case8 c s' _ ih | case9 c s' _ ih => exact (ih skipped).trans (List.suffix_cons c s')
  | case4 | case6 => exact Option.some.inj skipped ▸ List.suffix_rfl
  | case5 | case7 | case10 => exact Option.some.inj skipped ▸ List.nil_suffix
  | case15 => cases skipped

/-- Neither white space nor a comment begins with this character. -/
def isSolid (c : UInt8) : Bool := !isSpace c && c ≠ chr '-' && c ≠ chr '/'

theorem skip_solid {c : UInt8} (solid : isSolid c = true) (rest : Bytes) :
    skip .blank (c :: rest) = some (c :: rest) := by
  simp only [isSolid, Bool.and_eq_true, Bool.not_eq_true', decide_eq_true_eq] at solid
  obtain ⟨⟨solid, noLine⟩, noBlock⟩ := solid
  cases rest with
  | nil => rw [skip, if_neg (by simp [solid])]
  | cons d rest =>
    rw [skip, if_neg (fun comment => noLine comment.1), if_neg (fun comment => noBlock comment.1),
      if_neg (by simp [solid])]

theorem skip_minus {rest : Bytes} (single : rest.head? ≠ some (chr '-')) :
    skip .blank (chr '-' :: rest) = some (chr '-' :: rest) := by
  cases rest with
  | nil => rfl
  | cons d rest =>
    have noLine : ¬(chr '-' = chr '-' ∧ d = chr '-') := fun comment =>
      single (congrArg some comment.2)
    have noBlock : ¬(chr '-' = chr '/' ∧ d = chr '*') := fun comment =>
      absurd comment.1 (by decide)
    rw [skip, if_neg noLine, if_neg noBlock]
    rfl

theorem skip_space (rest : Bytes) : skip .blank (chr ' ' :: rest) = skip .blank rest := by
  cases rest with
  | nil => rfl
  | cons d rest =>
    have noLine : ¬(chr ' ' = chr '-' ∧ d = chr '-') := fun comment =>
      absurd comment.1 (by decide)
    have noBlock : ¬(chr ' ' = chr '/' ∧ d = chr '*') := fun comment =>
      absurd comment.1 (by decide)
    rw [skip, if_neg noLine, if_neg noBlock]
    rfl

theorem nextToken_solid {c : UInt8} (solid : isSolid c = true) (rest : Bytes) :
    nextToken (c :: rest) = readToken (c :: rest) := by
  rw [nextToken, skip_solid solid]
  rfl

theorem nextToken_minus {rest : Bytes} (single : rest.head? ≠ some (chr '-')) :
    nextToken (chr '-' :: rest) = readToken (chr '-' :: rest) := by
  rw [nextToken, skip_minus single]
  rfl

theorem nextToken_space (rest : Bytes) : nextToken (chr ' ' :: rest) = nextToken rest := by
  rw [nextToken, nextToken, skip_space]

/-! ## Texts and their tokens -/

theorem lexes_iff_of_next {s rest : Bytes} {token : Token}
    (read : nextToken s = some (token, rest)) (tokens : List Token) :
    Lexes s tokens ↔ ∃ later, tokens = token :: later ∧ Lexes rest later := by
  constructor
  · intro lexes
    cases lexes with
    | done blank =>
      rw [nextToken, blank] at read
      cases read
    | next read' more =>
      rw [read, Option.some.injEq, Prod.mk.injEq] at read'
      obtain ⟨rfl, rfl⟩ := read'
      exact ⟨_, rfl, more⟩
  · rintro ⟨later, rfl, more⟩
    exact .next read more

theorem lexes_nil_iff (tokens : List Token) : Lexes [] tokens ↔ tokens = [] := by
  constructor
  · intro lexes
    cases lexes with
    | done _ => rfl
    | next read _ => cases read
  · rintro rfl
    exact .done rfl

theorem lexes_space (rest : Bytes) (tokens : List Token) :
    Lexes (chr ' ' :: rest) tokens ↔ Lexes rest tokens := by
  constructor
  · intro lexes
    cases lexes with
    | done blank => exact .done (skip_space rest ▸ blank)
    | next read more => exact .next (nextToken_space rest ▸ read) more
  · intro lexes
    cases lexes with
    | done blank => exact .done ((skip_space rest).trans blank)
    | next read more => exact .next ((nextToken_space rest).trans read) more

/-- In front of `rest`, `chunk` gives these tokens. -/
def ReadsAs (chunk : Bytes) (tokens : List Token) (rest : Bytes) : Prop :=
  ∀ all, Lexes (chunk ++ rest) all ↔ ∃ later, all = tokens ++ later ∧ Lexes rest later

namespace ReadsAs

variable {chunk front back rest : Bytes} {token : Token} {tokens later : List Token}

theorem of_next (read : nextToken (chunk ++ rest) = some (token, rest)) :
    ReadsAs chunk [token] rest := lexes_iff_of_next read

theorem space : ReadsAs [chr ' '] [] rest := by
  intro all
  rw [List.singleton_append, lexes_space]
  simp

theorem append (first : ReadsAs front tokens (back ++ rest)) (second : ReadsAs back later rest) :
    ReadsAs (front ++ back) (tokens ++ later) rest := by
  intro all
  rw [List.append_assoc, first]
  constructor
  · rintro ⟨others, rfl, lexes⟩
    obtain ⟨last, rfl, lexesLast⟩ := (second others).mp lexes
    exact ⟨last, (List.append_assoc tokens later last).symm, lexesLast⟩
  · rintro ⟨last, rfl, lexes⟩
    exact ⟨later ++ last, List.append_assoc tokens later last, (second _).mpr ⟨last, rfl, lexes⟩⟩

/-- What follows the chunk gives the tokens that follow its own. -/
theorem cancel (reads : ReadsAs chunk tokens rest) :
    Lexes (chunk ++ rest) (tokens ++ later) ↔ Lexes rest later := by
  rw [reads]
  constructor
  · rintro ⟨later', same, lexes⟩
    exact List.append_cancel_left same ▸ lexes
  · intro lexes
    exact ⟨later, rfl, lexes⟩

/-- A chunk that is the whole text. -/
theorem whole (reads : ReadsAs chunk tokens []) (all : List Token) :
    Lexes chunk all ↔ all = tokens := by
  have everything := reads all
  rw [List.append_nil] at everything
  rw [everything]
  constructor
  · rintro ⟨later, rfl, nothing⟩
    rw [(lexes_nil_iff later).mp nothing, List.append_nil]
  · rintro rfl
    exact ⟨[], (List.append_nil _).symm, (lexes_nil_iff []).mpr rfl⟩

end ReadsAs

end KafkaReplication.Misc.Sql
