import KafkaReplication.Consumer.StatementText
import KafkaReplication.Pipeline.EventTrip

/-!
# How the statements write a row

The rows of the events hold texts only. `getMemberNames` gives their columns in the order of the
names, and `insertRow`, `updateRow` and `buildCreateTableSql`
(`consumer_bo/database_writer.cpp:98-230`) write one part for each.
-/

namespace KafkaReplication
open Misc DatabaseWriter

/-! ## Members in order -/

/-- The names of the members go up. -/
def SortedMembers (members : List (Bytes × Json)) : Prop :=
  members.Pairwise fun a b => a.1 < b.1

theorem mem_insertMember {name : Bytes} {value : Json} {members : List (Bytes × Json)}
    {member : Bytes × Json} (mem : member ∈ Json.insertMember name value members) :
    member = (name, value) ∨ member ∈ members := by
  induction members with
  | nil => exact .inl (List.mem_singleton.mp mem)
  | cons first rest ih =>
    unfold Json.insertMember at mem
    split_ifs at mem
    · rcases List.mem_cons.mp mem with new | old
      · exact .inl new
      · exact .inr (List.mem_cons_of_mem first old)
    · rcases List.mem_cons.mp mem with new | old
      · exact .inl new
      · exact .inr old
    · rcases List.mem_cons.mp mem with head | later
      · exact .inr (head ▸ List.mem_cons_self)
      · rcases ih later with new | old
        · exact .inl new
        · exact .inr (List.mem_cons_of_mem first old)

theorem insertMember_sorted (name : Bytes) (value : Json) {members : List (Bytes × Json)}
    (sorted : SortedMembers members) : SortedMembers (Json.insertMember name value members) := by
  unfold SortedMembers at *
  induction members with
  | nil => exact List.pairwise_singleton _ _
  | cons first rest ih =>
    obtain ⟨below, sorted'⟩ := List.pairwise_cons.mp sorted
    unfold Json.insertMember
    split_ifs with same before
    · rw [← same] at below
      exact List.pairwise_cons.mpr ⟨below, sorted'⟩
    · refine List.pairwise_cons.mpr ⟨?_, sorted⟩
      intro member mem
      rcases List.mem_cons.mp mem with rfl | later
      · exact before
      · exact List.lt_trans before (below member later)
    · refine List.pairwise_cons.mpr ⟨?_, ih sorted'⟩
      intro member mem
      rcases mem_insertMember mem with rfl | old
      · rcases Std.lt_trichotomy first.1 name with less | equal | more
        · exact less
        · exact absurd equal.symm same
        · exact absurd more before
      · exact below member old

theorem fillMembers_sorted (pairs : List (Bytes × Bytes)) {members : List (Bytes × Json)}
    (sorted : SortedMembers members) : SortedMembers (fillMembers pairs members) := by
  induction pairs generalizing members with
  | nil => exact sorted
  | cons pair pairs ih => exact ih (insertMember_sorted pair.1 _ sorted)

/-- Every member is a text. -/
def TextMembers (members : List (Bytes × Json)) : Prop :=
  ∀ member ∈ members, ∃ text, member.2 = .string text

theorem fillMembers_texts (pairs : List (Bytes × Bytes)) {members : List (Bytes × Json)}
    (texts : TextMembers members) : TextMembers (fillMembers pairs members) := by
  induction pairs generalizing members with
  | nil => exact texts
  | cons pair pairs ih =>
    apply ih
    intro member mem
    rcases mem_insertMember mem with rfl | old
    · exact ⟨pair.2, rfl⟩
    · exact texts member old

/-! ## The columns of a row -/

/-- The text of a text. -/
def textOf : Json → Bytes
  | .string text => text
  | _ => []

/-- The columns of a row with their texts, in the order of the names. -/
def textMembers (pairs : List (Bytes × Bytes)) : List (Bytes × Bytes) :=
  (fillMembers pairs []).map fun member => (member.1, textOf member.2)

section TextMembers

variable (pairs : List (Bytes × Bytes))

theorem fillMembers_eq :
    fillMembers pairs [] = (textMembers pairs).map fun member => (member.1, .string member.2) := by
  have texts : TextMembers (fillMembers pairs []) :=
    fillMembers_texts pairs fun member mem => absurd mem List.not_mem_nil
  rw [textMembers, List.map_map]
  conv_lhs => rw [← List.map_id (fillMembers pairs [])]
  apply List.map_congr_left
  intro member mem
  obtain ⟨text, isText⟩ := texts member mem
  obtain ⟨name, value⟩ := member
  cases isText
  rfl

theorem textMembers_names :
    (textMembers pairs).map Prod.fst = (fillMembers pairs []).map Prod.fst := by
  rw [textMembers, List.map_map]
  rfl

theorem textMembers_sorted : (textMembers pairs).Pairwise fun a b => a.1 < b.1 := by
  have sorted : SortedMembers (fillMembers pairs []) := fillMembers_sorted pairs List.Pairwise.nil
  exact List.pairwise_map.mpr sorted

theorem textMembers_nodup : ((textMembers pairs).map Prod.fst).Nodup := by
  refine List.pairwise_map.mpr ((textMembers_sorted pairs).imp ?_)
  intro a b less same
  rw [same] at less
  exact List.lt_irrefl _ less

theorem lookup_textMembers (name : Bytes) :
    (fillMembers pairs []).lookup name = ((textMembers pairs).lookup name).map .string := by
  rw [fillMembers_eq]
  induction textMembers pairs with
  | nil => rfl
  | cons member members ih =>
    rw [List.map_cons, Json.lookup_cons_ite, ih, List.lookup_cons]
    by_cases same : name = member.1
    · rw [if_pos same, same, beq_self_eq_true]
      rfl
    · rw [if_neg same, beq_false_of_ne same]

theorem mem_textMembers_names (name : Bytes) :
    name ∈ (textMembers pairs).map Prod.fst ↔ name ∈ pairs.map Prod.fst := by
  have there := isSome_lookup_fillMembers pairs name []
  rw [lookup_textMembers, Option.isSome_map, List.lookup_nil, Option.isSome_none,
    Bool.or_false] at there
  constructor
  · intro mem
    by_contra absent
    rw [decide_eq_false absent, Option.isSome_eq_false_iff, Option.isNone_iff_eq_none,
      List.lookup_eq_none_iff] at there
    obtain ⟨member, found, rfl⟩ := List.mem_map.mp mem
    have other := there member found
    exact bne_iff_ne.mp other rfl
  · intro mem
    rw [decide_eq_true mem, Option.isSome_iff_exists] at there
    obtain ⟨text, found⟩ := there
    obtain ⟨front, back, same, -⟩ := List.lookup_eq_some_iff.mp found
    rw [same]
    simp

theorem rowJson_getMemberNames :
    (rowJson pairs).getMemberNames = .ok ((textMembers pairs).map Prod.fst) := by
  rw [textMembers_names]
  cases pairs with
  | nil => rfl
  | cons pair pairs => rfl

theorem rowJson_index_text {member : Bytes × Bytes} (mem : member ∈ textMembers pairs) :
    (rowJson pairs).index member.1 = .ok (.string member.2) := by
  cases pairs with
  | nil => cases mem
  | cons pair pairs =>
    have found : (fillMembers (pair :: pairs) []).lookup member.1 = some (.string member.2) := by
      rw [lookup_textMembers, lookup_of_mem (textMembers_nodup _) mem]
      rfl
    have indexed := index_object (fillMembers (pair :: pairs) []) member.1
    rw [found] at indexed
    exact indexed

end TextMembers

/-! ## The key -/

/-- The column that is compared, with the text it has in the row: the primary key, or the first
column if that has no name. -/
def comparedKey (pairs : List (Bytes × Bytes)) (primaryKey : Bytes) : Option (Bytes × Bytes) :=
  if primaryKey = [] then (textMembers pairs).head?
  else some (primaryKey, ((textMembers pairs).lookup primaryKey).getD [])

theorem rowJson_index_getD (pairs : List (Bytes × Bytes)) (name : Bytes) :
    (rowJson pairs).index name =
      .ok ((((textMembers pairs).lookup name).map Json.string).getD .null) := by
  rw [← lookup_textMembers]
  cases pairs with
  | nil => rfl
  | cons pair pairs => rfl

theorem rowKey_comparedKey (pairs : List (Bytes × Bytes)) (primaryKey : Bytes) :
    rowKey (rowJson pairs) primaryKey =
      (comparedKey pairs primaryKey).elim (.error (.undefined .pastTheEnd))
        fun key => .ok (key.1, keyLiteral key.2) := by
  rw [rowKey, rowJson_getMemberNames, comparedKey]
  by_cases unnamed : primaryKey = []
  · rw [if_pos unnamed, unnamed]
    have found := @rowJson_index_text pairs
    cases members : textMembers pairs with
    | nil => rfl
    | cons member rest =>
      rw [members] at found
      have column : keyColumnOf ((member :: rest).map Prod.fst) [] = .ok member.1 := rfl
      simp only [bind, Except.bind, column, found List.mem_cons_self]
      rfl
  · rw [if_neg unnamed]
    have column : keyColumnOf ((textMembers pairs).map Prod.fst) primaryKey = .ok primaryKey :=
      if_neg unnamed
    simp only [bind, Except.bind, column, rowJson_index_getD]
    cases (textMembers pairs).lookup primaryKey with
    | none => rfl
    | some text => rfl

/-! ## One part for each column -/

/-- What is written member by member. -/
theorem mapM_names {f : Bytes → Except Fault Bytes} {part : Bytes × Bytes → Bytes}
    {members : List (Bytes × Bytes)}
    (written : ∀ member ∈ members, f member.1 = .ok (part member)) :
    (members.map Prod.fst).mapM f = .ok (members.map part) := by
  rw [List.mapM_map]
  exact except_mapM_ok written

section Statements

/-- The assignments of a row of texts. -/
def assignments (escape : Bytes → Bytes) (members : List (Bytes × Bytes)) : Bytes :=
  commaSeparated (members.map fun member => quoteColumn member.1 ++ textLiteral escape member.2)

/-- The UPDATE to a row of texts. -/
def updateSql (escape : Bytes → Bytes) (table : Bytes) (members : List (Bytes × Bytes))
    (key : Bytes × Bytes) : Bytes :=
  str "UPDATE " ++ table ++ str " SET " ++ assignments escape members ++ whereClause key

/-- The texts of a row fit into the blocks that they are escaped into. -/
def Escaping.TextsFit (escaping : Escaping) (members : List (Bytes × Bytes)) : Prop :=
  ∀ member ∈ members, escaping.Fits member.2

instance (escaping : Escaping) (members : List (Bytes × Bytes)) :
    Decidable (escaping.TextsFit members) :=
  inferInstanceAs (Decidable (∀ member ∈ members, escaping.Fits member.2))

variable (pg : Postgres) (jsoncpp : JsonCpp)

theorem valueText_string_fits (boolText : Bool → Bytes) {text : Bytes} (fits : pg.Fits text) :
    valueText pg jsoncpp boolText (.string text) = .ok (textLiteral pg.escapedText text) :=
  valueText_fits pg jsoncpp boolText fits

theorem valueText_string_overflows (boolText : Bool → Bytes) {text : Bytes}
    (overflows : ¬pg.Fits text) :
    valueText pg jsoncpp boolText (.string text) = .error (.undefined .pastTheEnd) :=
  valueText_overflows pg jsoncpp boolText overflows

variable {pg jsoncpp} (table : Bytes) (pairs : List (Bytes × Bytes))

theorem insertRow_rowJson :
    insertRow pg jsoncpp table (rowJson pairs) =
      if pg.TextsFit (textMembers pairs) then
        execute pg (insertSql pg.escapedText table (textMembers pairs))
      else liftE pg (.error (.undefined .pastTheEnd)) := by
  have values : ((textMembers pairs).map Prod.fst).mapM (fun key => do
      let value ← (rowJson pairs).index key
      valueText pg jsoncpp insertedBool value) =
        if pg.TextsFit (textMembers pairs) then
          .ok ((textMembers pairs).map fun member => textLiteral pg.escapedText member.2)
        else .error (.undefined .pastTheEnd) := by
    rw [List.mapM_map]
    apply except_mapM_ite
    · intro member mem fits
      rw [Function.comp_apply, rowJson_index_text pairs mem]
      exact valueText_string_fits pg jsoncpp insertedBool fits
    · intro member mem overflows
      rw [Function.comp_apply, rowJson_index_text pairs mem]
      exact valueText_string_overflows pg jsoncpp insertedBool overflows
  rw [insertRow, rowJson_getMemberNames, liftE_ok_bind, values]
  split
  · rw [liftE_ok_bind, insertSql, List.map_map]
    rfl
  · rfl

theorem updateRow_rowJson (before : Json) (primaryKey : Bytes) :
    updateRow pg jsoncpp table before (rowJson pairs) primaryKey =
      liftE pg (rowKey before primaryKey) >>= fun key =>
        if pg.TextsFit (textMembers pairs) then
          execute pg (updateSql pg.escapedText table (textMembers pairs) key)
        else liftE pg (.error (.undefined .pastTheEnd)) := by
  have written : ((textMembers pairs).map Prod.fst).mapM
      (assignment pg jsoncpp (rowJson pairs)) =
        if pg.TextsFit (textMembers pairs) then
          .ok ((textMembers pairs).map fun member =>
            quoteColumn member.1 ++ textLiteral pg.escapedText member.2)
        else .error (.undefined .pastTheEnd) := by
    rw [List.mapM_map]
    apply except_mapM_ite
    · intro member mem fits
      rw [Function.comp_apply, assignment, rowJson_index_text pairs mem]
      simp only [bind, Except.bind, valueText_string_fits pg jsoncpp assignedBool fits]
      rfl
    · intro member mem overflows
      rw [Function.comp_apply, assignment, rowJson_index_text pairs mem]
      simp only [bind, Except.bind,
        valueText_string_overflows pg jsoncpp assignedBool overflows]
  rw [updateRow, rowJson_getMemberNames]
  simp only [liftE_ok_bind, written]
  split <;> rfl

theorem buildCreateTableSql_rowJson :
    buildCreateTableSql table (rowJson pairs) =
      .ok (createTableSql table (textMembers pairs)) := by
  have written : ((textMembers pairs).map Prod.fst).mapM (columnDefinition (rowJson pairs)) =
      .ok ((textMembers pairs).map fun member =>
        quoteColumn member.1 ++ str " " ++ str "TEXT") := by
    apply mapM_names
    intro member mem
    rw [columnDefinition, rowJson_index_text pairs mem]
    rfl
  rw [buildCreateTableSql, rowJson_getMemberNames]
  simp only [bind, Except.bind, written]
  rfl

end Statements

end KafkaReplication
