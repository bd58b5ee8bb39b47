import Mathlib.Data.List.Basic

/-!
# Delimited texts

A text between two delimiters, where a delimiter inside the text is written twice. What
follows the closing delimiter must not begin with another one, or the text goes on. Lists of such
texts can be read from either end.
-/

namespace KafkaReplication.Misc

section Delimited

variable {α : Type}

/-- A text without a separator ends where the separator comes first. -/
theorem append_cons_inj_left {separator : α} {text text' rest rest' : List α}
    (plain : separator ∉ text) (plain' : separator ∉ text')
    (same : text ++ separator :: rest = text' ++ separator :: rest') :
    text = text' ∧ rest = rest' := by
  induction text generalizing text' with
  | nil =>
    cases text' with
    | nil => exact ⟨rfl, List.tail_eq_of_cons_eq same⟩
    | cons b text' =>
      exact absurd (List.head_eq_of_cons_eq same ▸ List.mem_cons_self) plain'
  | cons a text ih =>
    cases text' with
    | nil => exact absurd (List.head_eq_of_cons_eq same ▸ List.mem_cons_self) plain
    | cons b text' =>
      rw [List.mem_cons, not_or] at plain plain'
      obtain ⟨texts, rests⟩ := ih plain.2 plain'.2 (List.tail_eq_of_cons_eq same)
      have heads := List.head_eq_of_cons_eq same
      exact ⟨by rw [heads, texts], rests⟩

variable [DecidableEq α]

/-- `text` with each `quote` in it written twice. -/
def doubled (quote : α) : List α → List α
  | [] => []
  | a :: text =>
      if a = quote then quote :: quote :: doubled quote text else a :: doubled quote text

/-- `text` between two `quote`s. -/
def delimited (quote : α) (text : List α) : List α := quote :: (doubled quote text ++ [quote])

variable {quote : α}

theorem doubled_cons_self (text : List α) :
    doubled quote (quote :: text) = quote :: quote :: doubled quote text := by
  rw [doubled, if_pos rfl]

theorem doubled_cons_of_ne {a : α} (other : a ≠ quote) (text : List α) :
    doubled quote (a :: text) = a :: doubled quote text := by
  rw [doubled, if_neg other]

theorem doubled_of_notMem {text : List α} (plain : quote ∉ text) : doubled quote text = text := by
  induction text with
  | nil => rfl
  | cons a text ih =>
    rw [List.mem_cons, not_or] at plain
    rw [doubled_cons_of_ne (Ne.symm plain.1), ih plain.2]

theorem delimited_of_notMem {text : List α} (plain : quote ∉ text) :
    delimited quote text = quote :: (text ++ [quote]) := by
  rw [delimited, doubled_of_notMem plain]

theorem mem_doubled {a : α} {text : List α} : a ∈ doubled quote text ↔ a ∈ text := by
  induction text with
  | nil => rfl
  | cons b text ih =>
    by_cases same : b = quote
    · rw [same, doubled_cons_self, List.mem_cons, List.mem_cons, List.mem_cons, ih, or_self_left]
    · rw [doubled_cons_of_ne same, List.mem_cons, List.mem_cons, ih]

theorem count_doubled_of_ne {a : α} (other : a ≠ quote) (text : List α) :
    (doubled quote text).count a = text.count a := by
  induction text with
  | nil => rfl
  | cons b text ih =>
    by_cases same : b = quote
    · have apart : b ≠ a := same ▸ other.symm
      rw [same, doubled_cons_self, List.count_cons_of_ne (same ▸ apart),
        List.count_cons_of_ne (same ▸ apart), List.count_cons_of_ne (same ▸ apart), ih]
    · rw [doubled_cons_of_ne same, List.count_cons, List.count_cons, ih]

theorem sublist_doubled (text : List α) : text.Sublist (doubled quote text) := by
  induction text with
  | nil => exact .slnil
  | cons a text ih =>
    by_cases same : a = quote
    · rw [same, doubled_cons_self]
      exact (ih.cons_cons quote).cons quote
    · rw [doubled_cons_of_ne same]
      exact ih.cons_cons a

/-- Every quote counts once more. -/
theorem length_doubled (quote : α) (text : List α) :
    (doubled quote text).length = text.length + text.count quote := by
  induction text with
  | nil => rfl
  | cons a text ih =>
    by_cases same : a = quote
    · subst same
      rw [doubled_cons_self, List.count_cons_self, List.length_cons, List.length_cons,
        List.length_cons, ih]
      omega
    · rw [doubled_cons_of_ne same, List.count_cons_of_ne same, List.length_cons, List.length_cons,
        ih]
      omega

theorem length_delimited (quote : α) (text : List α) :
    (delimited quote text).length = text.length + text.count quote + 2 := by
  rw [delimited, List.length_cons, List.length_append, length_doubled, List.length_singleton]

/-- A text that goes on is not taken for its end. -/
theorem doubled_cons_append_ne {a : α} {text rest rest' : List α}
    (ends : rest.head? ≠ some quote) :
    quote :: rest ≠ doubled quote (a :: text) ++ rest' := by
  intro same
  by_cases isQuote : a = quote
  · -- the rest would begin with the second half of a doubled quote
    rw [isQuote, doubled_cons_self] at same
    rw [List.tail_eq_of_cons_eq same] at ends
    exact ends rfl
  · rw [doubled_cons_of_ne isQuote] at same
    exact isQuote (List.head_eq_of_cons_eq same).symm

theorem doubled_cons_append_inj {a b : α} {text text' rest rest' : List α}
    (same : doubled quote (a :: text) ++ rest = doubled quote (b :: text') ++ rest') :
    a = b ∧ doubled quote text ++ rest = doubled quote text' ++ rest' := by
  by_cases left : a = quote <;> by_cases right : b = quote
  · rw [left, right, doubled_cons_self, doubled_cons_self] at same
    exact ⟨left.trans right.symm, List.tail_eq_of_cons_eq (List.tail_eq_of_cons_eq same)⟩
  · rw [left, doubled_cons_self, doubled_cons_of_ne right] at same
    exact absurd (List.head_eq_of_cons_eq same).symm right
  · rw [right, doubled_cons_self, doubled_cons_of_ne left] at same
    exact absurd (List.head_eq_of_cons_eq same) left
  · rw [doubled_cons_of_ne left, doubled_cons_of_ne right] at same
    exact ⟨List.head_eq_of_cons_eq same, List.tail_eq_of_cons_eq same⟩

/-- Where the rests do not begin with the quote, the texts and the rests can be told apart. -/
theorem doubled_append_inj {text text' rest rest' : List α} (ends : rest.head? ≠ some quote)
    (ends' : rest'.head? ≠ some quote)
    (same : doubled quote text ++ quote :: rest = doubled quote text' ++ quote :: rest') :
    text = text' ∧ rest = rest' := by
  induction text generalizing text' with
  | nil =>
    cases text' with
    | nil => exact ⟨rfl, List.tail_eq_of_cons_eq same⟩
    | cons b text' => exact absurd same (doubled_cons_append_ne ends)
  | cons a text ih =>
    cases text' with
    | nil => exact absurd same.symm (doubled_cons_append_ne ends')
    | cons b text' =>
      obtain ⟨heads, tails⟩ := doubled_cons_append_inj same
      obtain ⟨texts, rests⟩ := ih tails
      exact ⟨by rw [heads, texts], rests⟩

theorem delimited_append_inj {text text' rest rest' : List α} (ends : rest.head? ≠ some quote)
    (ends' : rest'.head? ≠ some quote)
    (same : delimited quote text ++ rest = delimited quote text' ++ rest') :
    text = text' ∧ rest = rest' := by
  apply doubled_append_inj ends ends'
  have inner : doubled quote text ++ [quote] ++ rest = doubled quote text' ++ [quote] ++ rest' :=
    List.tail_eq_of_cons_eq same
  rw [List.append_assoc, List.append_assoc] at inner
  exact inner

/-! ## Reading -/

/-- The text behind an opening `quote`, and what follows the closing one. -/
def readDelimited (quote : α) : List α → Option (List α × List α)
  | [] => none
  | [a] => if a = quote then some ([], []) else none
  | a :: b :: rest =>
      if a = quote then
        if b = quote then (readDelimited quote rest).map fun (text, rest) => (quote :: text, rest)
        else some ([], b :: rest)
      else (readDelimited quote (b :: rest)).map fun (text, rest) => (a :: text, rest)

theorem readDelimited_quotes (rest : List α) :
    readDelimited quote (quote :: quote :: rest) =
      (readDelimited quote rest).map fun (text, rest) => (quote :: text, rest) := by
  rw [readDelimited, if_pos rfl, if_pos rfl]

theorem readDelimited_end {rest : List α} (ends : rest.head? ≠ some quote) :
    readDelimited quote (quote :: rest) = some ([], rest) := by
  cases rest with
  | nil => exact if_pos rfl
  | cons b rest =>
    have other : b ≠ quote := fun same => ends (congrArg some same)
    rw [readDelimited, if_pos rfl, if_neg other]

theorem readDelimited_other {a : α} (other : a ≠ quote) (rest : List α) :
    readDelimited quote (a :: rest) =
      (readDelimited quote rest).map fun (text, rest) => (a :: text, rest) := by
  cases rest with
  | nil => exact if_neg other
  | cons b rest => rw [readDelimited, if_neg other]

/-- Reading undoes writing. -/
theorem readDelimited_doubled {rest : List α} (ends : rest.head? ≠ some quote) (text : List α) :
    readDelimited quote (doubled quote text ++ quote :: rest) = some (text, rest) := by
  induction text with
  | nil => exact readDelimited_end ends
  | cons a text ih =>
    by_cases same : a = quote
    · rw [same, doubled_cons_self, List.cons_append, List.cons_append, readDelimited_quotes, ih]
      rfl
    · rw [doubled_cons_of_ne same, List.cons_append, readDelimited_other same, ih]
      rfl

/-- What is read was written so. -/
theorem eq_of_readDelimited {s text rest : List α}
    (read : readDelimited quote s = some (text, rest)) :
    s = doubled quote text ++ quote :: rest ∧ rest.head? ≠ some quote := by
  induction s using readDelimited.induct quote generalizing text rest with
  | case1 => cases read
  | case2 =>
    rw [readDelimited, if_pos rfl, Option.some.injEq, Prod.mk.injEq] at read
    obtain ⟨rfl, rfl⟩ := read
    exact ⟨rfl, by simp⟩
  | case3 a other =>
    rw [readDelimited, if_neg other] at read
    cases read
  | case4 rest' ih =>
    rw [readDelimited_quotes, Option.map_eq_some_iff] at read
    obtain ⟨⟨text', rest''⟩, inner, same⟩ := read
    rw [Prod.mk.injEq] at same
    obtain ⟨rfl, rfl⟩ := same
    obtain ⟨written, ends⟩ := ih inner
    rw [doubled_cons_self, List.cons_append, List.cons_append, ← written]
    exact ⟨rfl, ends⟩
  | case5 b rest' other =>
    rw [readDelimited, if_pos rfl, if_neg other, Option.some.injEq, Prod.mk.injEq] at read
    obtain ⟨rfl, rfl⟩ := read
    exact ⟨rfl, fun same => other (Option.some.inj same)⟩
  | case6 a b rest' other ih =>
    rw [readDelimited_other other, Option.map_eq_some_iff] at read
    obtain ⟨⟨text', rest''⟩, inner, same⟩ := read
    rw [Prod.mk.injEq] at same
    obtain ⟨rfl, rfl⟩ := same
    obtain ⟨written, ends⟩ := ih inner
    rw [doubled_cons_of_ne other, List.cons_append, ← written]
    exact ⟨rfl, ends⟩

/-- A quote that comes before its text cannot be made good for by the text. -/
theorem append_cons_ne_replicate (text : List α) {tail : List α}
    (ends : tail.head? ≠ some quote) (count : Nat) (rest : List α) :
    text ++ quote :: tail ≠
      List.replicate (count + 1) quote ++ (doubled quote text ++ quote :: rest) := by
  induction text generalizing count with
  | nil =>
    intro same
    rw [List.replicate_succ, List.cons_append] at same
    rw [List.tail_eq_of_cons_eq same] at ends
    cases count <;> exact ends rfl
  | cons a text ih =>
    intro same
    rw [List.replicate_succ, List.cons_append, List.cons_append] at same
    have isQuote : a = quote := List.head_eq_of_cons_eq same
    have tails := List.tail_eq_of_cons_eq same
    rw [isQuote, doubled_cons_self, List.cons_append, List.cons_append] at tails
    -- the two halves of this quote join those that came before
    have joined : List.replicate count quote ++
        quote :: quote :: (doubled quote text ++ quote :: rest) =
          List.replicate (count + 1 + 1) quote ++ (doubled quote text ++ quote :: rest) := by
      rw [List.append_cons, ← List.replicate_succ', List.append_cons, ← List.replicate_succ']
    exact ih (count + 1) (tails.trans joined)

/-- A text that was not written for it is read as it stands only if it has no quote in it. -/
theorem readDelimited_plain_iff {text tail rest : List α} (ends : tail.head? ≠ some quote) :
    readDelimited quote (text ++ quote :: tail) = some (text, rest) ↔
      quote ∉ text ∧ rest = tail := by
  constructor
  · intro read
    have written := (eq_of_readDelimited read).1
    clear read
    induction text with
    | nil => exact ⟨List.not_mem_nil, (List.tail_eq_of_cons_eq written).symm⟩
    | cons a text ih =>
      by_cases same : a = quote
      · rw [same, doubled_cons_self, List.cons_append] at written
        exact absurd (List.tail_eq_of_cons_eq written) (append_cons_ne_replicate text ends 0 rest)
      · rw [doubled_cons_of_ne same] at written
        obtain ⟨plain, rests⟩ := ih (List.tail_eq_of_cons_eq written)
        exact ⟨List.not_mem_cons_of_ne_of_not_mem (Ne.symm same) plain, rests⟩
  · rintro ⟨plain, rfl⟩
    have read := readDelimited_doubled ends text
    rw [doubled_of_notMem plain] at read
    exact read

/-! ## From the end -/

theorem doubled_append (front back : List α) :
    doubled quote (front ++ back) = doubled quote front ++ doubled quote back := by
  induction front with
  | nil => rfl
  | cons a front ih =>
    by_cases same : a = quote
    · rw [same, List.cons_append, doubled_cons_self, doubled_cons_self, ih]
      rfl
    · rw [List.cons_append, doubled_cons_of_ne same, doubled_cons_of_ne same, ih]
      rfl

theorem reverse_doubled (text : List α) :
    (doubled quote text).reverse = doubled quote text.reverse := by
  induction text with
  | nil => rfl
  | cons a text ih =>
    rw [List.reverse_cons, doubled_append]
    by_cases same : a = quote
    · rw [same, doubled_cons_self, doubled_cons_self, List.reverse_cons, List.reverse_cons, ih,
        List.append_assoc]
      rfl
    · rw [doubled_cons_of_ne same, doubled_cons_of_ne same, List.reverse_cons, ih]
      rfl

theorem reverse_delimited (text : List α) :
    (delimited quote text).reverse = delimited quote text.reverse := by
  rw [delimited, List.reverse_cons, List.reverse_append, reverse_doubled]
  rfl

end Delimited

/-! ## Lists -/

section Lists

variable {α : Type} (sep : List α)

/-- The first part, and each further one behind a separator. -/
theorem intercalate_cons_eq_append (part : List α) (parts : List (List α)) :
    sep.intercalate (part :: parts) = part ++ parts.flatMap (sep ++ ·) := by
  induction parts generalizing part with
  | nil => rw [List.intercalate_singleton, List.flatMap_nil, List.append_nil]
  | cons next parts ih =>
    rw [List.intercalate_cons_cons, ih, List.flatMap_cons, List.append_assoc, List.append_assoc]

/-- Texts of items, with what follows the list. -/
theorem intercalate_map_cons {β : Type} (text : β → List α) (item : β) (items : List β)
    (rest : List α) :
    sep.intercalate ((item :: items).map text) ++ rest =
      text item ++ (items.flatMap (fun later => sep ++ text later) ++ rest) := by
  rw [List.map_cons, intercalate_cons_eq_append, List.flatMap_map, List.append_assoc]

theorem intercalate_concat {parts : List (List α)} (some_ : parts ≠ []) (part : List α) :
    sep.intercalate (parts ++ [part]) = sep.intercalate parts ++ sep ++ part := by
  cases parts with
  | nil => exact absurd rfl some_
  | cons first parts =>
    rw [List.cons_append, intercalate_cons_eq_append, intercalate_cons_eq_append,
      List.flatMap_append, List.flatMap_singleton]
    simp only [List.append_assoc]

theorem reverse_intercalate (parts : List (List α)) :
    (sep.intercalate parts).reverse =
      sep.reverse.intercalate (parts.map List.reverse).reverse := by
  induction parts with
  | nil => rfl
  | cons part parts ih =>
    cases parts with
    | nil => simp
    | cons next parts =>
      have some_ : ((next :: parts).map List.reverse).reverse ≠ [] := by simp
      have last : ((part :: next :: parts).map List.reverse).reverse =
          ((next :: parts).map List.reverse).reverse ++ [part.reverse] := List.reverse_cons
      rw [List.intercalate_cons_cons, List.reverse_append, List.reverse_append, ih, last,
        intercalate_concat _ some_, List.append_assoc]

variable [DecidableEq α] {sep} {quote first : α}

/-- A further part begins with its separator. -/
theorem head?_flatMap_delimited (sepFirst : sep.head? = some first) (text : List α)
    (texts : List (List α)) (rest : List α) :
    ((text :: texts).flatMap (sep ++ delimited quote ·) ++ rest).head? = some first := by
  rw [List.flatMap_cons, List.append_assoc, List.append_assoc, List.head?_append, sepFirst]
  rfl

/-- Behind a part there is a separator or the end. -/
theorem head?_flatMap_ne (sepFirst : sep.head? = some first) (apart : first ≠ quote)
    (texts : List (List α)) {rest : List α} (ends : rest.head? ≠ some quote) :
    (texts.flatMap (sep ++ delimited quote ·) ++ rest).head? ≠ some quote := by
  cases texts with
  | nil => exact ends
  | cons text texts =>
    rw [head?_flatMap_delimited sepFirst]
    exact fun same => apart (Option.some.inj same)

/-- Further parts can be told from what follows the list, and from each other. -/
theorem flatMap_delimited_inj (sepFirst : sep.head? = some first) (apart : first ≠ quote)
    {texts texts' : List (List α)} {rest rest' : List α}
    (ends : rest.head? ≠ some quote) (stops : rest.head? ≠ some first)
    (ends' : rest'.head? ≠ some quote) (stops' : rest'.head? ≠ some first)
    (same : texts.flatMap (sep ++ delimited quote ·) ++ rest =
      texts'.flatMap (sep ++ delimited quote ·) ++ rest') :
    texts = texts' ∧ rest = rest' := by
  induction texts generalizing texts' with
  | nil =>
    cases texts' with
    | nil => exact ⟨rfl, same⟩
    | cons text' texts' =>
      rw [List.flatMap_nil, List.nil_append] at same
      rw [same, head?_flatMap_delimited sepFirst] at stops
      exact absurd rfl stops
  | cons text texts ih =>
    cases texts' with
    | nil =>
      rw [List.flatMap_nil, List.nil_append] at same
      rw [← same, head?_flatMap_delimited sepFirst] at stops'
      exact absurd rfl stops'
    | cons text' texts' =>
      rw [List.flatMap_cons, List.flatMap_cons, List.append_assoc, List.append_assoc,
        List.append_assoc, List.append_assoc] at same
      obtain ⟨heads, tails⟩ := delimited_append_inj (head?_flatMap_ne sepFirst apart texts ends)
        (head?_flatMap_ne sepFirst apart texts' ends') (List.append_cancel_left same)
      obtain ⟨others, rests⟩ := ih tails
      exact ⟨by rw [heads, others], rests⟩

/-- A list of delimited texts can be read from its front. -/
theorem intercalate_delimited_inj (sepFirst : sep.head? = some first) (apart : first ≠ quote)
    {texts texts' : List (List α)} (some_ : texts ≠ []) (some_' : texts' ≠ [])
    {rest rest' : List α}
    (ends : rest.head? ≠ some quote) (stops : rest.head? ≠ some first)
    (ends' : rest'.head? ≠ some quote) (stops' : rest'.head? ≠ some first)
    (same : sep.intercalate (texts.map (delimited quote)) ++ rest =
      sep.intercalate (texts'.map (delimited quote)) ++ rest') :
    texts = texts' ∧ rest = rest' := by
  cases texts with
  | nil => exact absurd rfl some_
  | cons text texts =>
    cases texts' with
    | nil => exact absurd rfl some_'
    | cons text' texts' =>
      rw [intercalate_map_cons, intercalate_map_cons] at same
      obtain ⟨heads, tails⟩ := delimited_append_inj (head?_flatMap_ne sepFirst apart texts ends)
        (head?_flatMap_ne sepFirst apart texts' ends') same
      obtain ⟨others, rests⟩ := flatMap_delimited_inj sepFirst apart ends stops ends' stops' tails
      exact ⟨by rw [heads, others], rests⟩

theorem getLast?_delimited_list {texts : List (List α)} (some_ : texts ≠ []) (front : List α) :
    (front ++ sep.intercalate (texts.map (delimited quote))).getLast? = some quote := by
  obtain ⟨others, text, rfl⟩ := (List.eq_nil_or_concat' texts).resolve_left some_
  have delimited_last : (delimited quote text).getLast? = some quote := by
    rw [delimited, List.getLast?_cons, List.getLast?_append, List.getLast?_singleton]
    rfl
  rw [List.map_append, List.map_singleton]
  cases others with
  | nil =>
    rw [List.map_nil, List.nil_append, List.intercalate_singleton, List.getLast?_append,
      delimited_last]
    rfl
  | cons first others =>
    have some_ : (first :: others).map (delimited quote) ≠ [] := List.cons_ne_nil _ _
    rw [intercalate_concat sep some_, ← List.append_assoc, List.getLast?_append, delimited_last]
    rfl

/-- A list of delimited texts can be read from its end. -/
theorem intercalate_delimited_inj_end {last : α} (sepLast : sep.getLast? = some last)
    (apart : last ≠ quote)
    {texts texts' : List (List α)} (some_ : texts ≠ []) (some_' : texts' ≠ [])
    {front front' : List α}
    (ends : front.getLast? ≠ some quote) (stops : front.getLast? ≠ some last)
    (ends' : front'.getLast? ≠ some quote) (stops' : front'.getLast? ≠ some last)
    (same : front ++ sep.intercalate (texts.map (delimited quote)) =
      front' ++ sep.intercalate (texts'.map (delimited quote))) :
    texts = texts' ∧ front = front' := by
  have reversed := congrArg List.reverse same
  have texts_reverse (texts : List (List α)) :
      ((texts.map (delimited quote)).map List.reverse).reverse =
        (texts.map List.reverse).reverse.map (delimited quote) := by
    rw [List.map_map, ← List.map_reverse, ← List.map_reverse, List.map_map]
    apply List.map_congr_left
    intro text _
    exact reverse_delimited text
  rw [List.reverse_append, List.reverse_append, reverse_intercalate, reverse_intercalate,
    texts_reverse, texts_reverse] at reversed
  rw [← List.head?_reverse] at sepLast ends stops ends' stops'
  have some_reverse {texts : List (List α)} (some_ : texts ≠ []) :
      (texts.map List.reverse).reverse ≠ [] := by
    simpa using some_
  obtain ⟨texts_eq, fronts⟩ := intercalate_delimited_inj sepLast apart (some_reverse some_)
    (some_reverse some_') ends stops ends' stops' reversed
  have mapped := List.reverse_injective texts_eq
  exact ⟨List.map_injective_iff.mpr List.reverse_injective mapped, List.reverse_injective fronts⟩

end Lists

end KafkaReplication.Misc
