import KafkaReplication.Consumer.LiteralTokens

/-!
# What a SET clause means

The loop of `updateRow` (`consumer_bo/database_writer.cpp:193-215`) writes a column's name and its
value, and no `=` between them. No row comes out as a list of assignments.
-/

namespace KafkaReplication
open Misc Misc.Sql

namespace DatabaseWriter

/-- What every member is to be assigned. -/
def assignedValues (jsoncpp : JsonCpp) (members : List (Bytes × Json)) : List (Bytes × Value) :=
  members.map fun member => (member.1, (Json.valueOf members member.1).sqlValue jsoncpp)

/-- The server reads the clause as the assignments of the row, in their order. -/
def SetMeans (pg : Postgres) (jsoncpp : JsonCpp) (reserved : Bytes → Prop)
    (members : List (Bytes × Json)) : Prop :=
  ∃ tokens, Lexes (cStr (setText pg jsoncpp members)) tokens ∧
    IsAssignmentList reserved tokens (assignedValues jsoncpp members)

section Text

variable (pg : Postgres) (jsoncpp : JsonCpp)

/-- The name of the first column, and its value at once. -/
theorem setText_cons (first : Bytes × Json) (members : List (Bytes × Json)) :
    ∃ more, setText pg jsoncpp (first :: members) = chr '"' :: (first.1 ++ chr '"' ::
      (literalText pg jsoncpp assignedBool (Json.valueOf (first :: members) first.1) ++ more)) := by
  unfold setText commaSeparated
  rw [List.map_cons, intercalate_cons_eq_append, quoteColumn]
  simp only [List.append_assoc]
  exact ⟨_, rfl⟩

theorem startsValue_assignedBool (b : Bool) : StartsValue (assignedBool b) := by
  cases b with
  | false => exact ⟨chr 'F', str "ALSE", rfl, by decide, by decide, by decide, .inl rfl⟩
  | true => exact ⟨chr 'T', str "RUE", rfl, by decide, by decide, by decide, .inl rfl⟩

end Text

/-- A list of assignments begins with a name and an equality sign. -/
theorem assignmentList_cons {reserved : Bytes → Prop} {tokens : List Token}
    {first : Bytes × Value} {assigned : List (Bytes × Value)}
    (list : IsAssignmentList reserved tokens (first :: assigned)) :
    ∃ name later, Names reserved first.1 name ∧
      tokens = name :: .operator [chr '='] :: later := by
  obtain ⟨items, each, rfl⟩ := list
  cases each with
  | cons assignment _ =>
    obtain ⟨name, literal, names, _, rfl⟩ := assignment
    rw [commas, intercalate_cons_eq_append]
    exact ⟨name, _, names, rfl⟩

theorem not_setMeans (pg : Postgres) (jsoncpp : JsonCpp) (reserved : Bytes → Prop)
    {members : List (Bytes × Json)} (some_ : members ≠ []) :
    ¬SetMeans pg jsoncpp reserved members := by
  obtain ⟨first, members, rfl⟩ := List.exists_cons_of_ne_nil some_
  rintro ⟨tokens, lexes, list⟩
  obtain ⟨name, later, names, rfl⟩ := assignmentList_cons list
  have nulName : 0 ∉ first.1 :=
    names.text_eq ▸ lexes.notMem rfl (zero_notMem_cStr _) name List.mem_cons_self
  obtain ⟨more, text⟩ := setText_cons pg jsoncpp first members
  have starts : StartsValue (literalText pg jsoncpp assignedBool
      (Json.valueOf (first :: members) first.1)) :=
    startsValue_literal pg jsoncpp startsValue_assignedBool _
  have front : 0 ∉ chr '"' :: (first.1 ++ [chr '"']) := by
    simp only [List.mem_cons, List.mem_append, not_or]
    exact ⟨by decide, nulName, by decide, by simp⟩
  have seen (value : Bytes) : cStr (chr '"' :: (first.1 ++ chr '"' :: value)) =
      chr '"' :: (first.1 ++ chr '"' :: cStr value) := by
    have split := cStr_append front value
    simp only [List.cons_append, List.append_assoc, List.nil_append] at split
    exact split
  rw [text, seen, lexes_name_iff (starts.head?_ne more) names] at lexes
  obtain ⟨_, _, _, lexes⟩ := lexes
  cases lexes with
  | next read _ => exact starts.nextToken_ne more _ read

/-- No row with members is assigned, whatever its names and values are. -/
theorem setClause_neverMeans (pg : Postgres) (jsoncpp : JsonCpp) (reserved : Bytes → Prop)
    {after : Json} {members : List (Bytes × Json)} (has : after.memberList = some members)
    (some_ : members ≠ []) :
    (∀ table before primaryKey key, rowKey before primaryKey = .ok key →
      updateRow pg jsoncpp table before after primaryKey =
        if RowFits pg jsoncpp members then
          execute pg (str "UPDATE " ++ table ++ str " SET " ++ setText pg jsoncpp members ++
            whereClause key)
        else liftE pg (.error (.undefined .pastTheEnd))) ∧
      ¬SetMeans pg jsoncpp reserved members := by
  refine ⟨?_, not_setMeans pg jsoncpp reserved some_⟩
  intro table before primaryKey key row
  rw [updateRow_eq pg table before primaryKey has, row, liftE_ok_bind, updateText]

theorem setClause_neverMeans_one :
    ¬SetMeans (Postgres.ofStatement .plain [] id) (JsonCpp.compactOf []) (fun _ => False)
      [(str "id", .int 1)] := by
  have has : (Json.object [(str "id", .int 1)]).memberList = some [(str "id", .int 1)] := rfl
  exact (setClause_neverMeans (Postgres.ofStatement .plain [] id) (JsonCpp.compactOf [])
    (fun _ => False) has (List.cons_ne_nil _ _)).2

/-- The column and its value stand side by side. -/
theorem setClause_withoutEquals :
    updateRow (Postgres.ofStatement .plain [] id) (JsonCpp.compactOf []) (str "users")
        (.object [(str "id", .int 1)]) (.object [(str "name", .string (str "Ann"))])
        (str "id") =
      execute (Postgres.ofStatement .plain [] id)
        (str "UPDATE users SET \"name\"'Ann' WHERE \"id\" = '1'") ∧
    Lexes (cStr (setText (Postgres.ofStatement .plain [] id) (JsonCpp.compactOf [])
        [(str "name", .string (str "Ann"))])) [.quoted (str "name"), .string (str "Ann")] ∧
    ¬SetMeans (Postgres.ofStatement .plain [] id) (JsonCpp.compactOf []) (fun _ => False)
      [(str "name", .string (str "Ann"))] := by
  refine ⟨rfl, ?_, not_setMeans _ _ _ (List.cons_ne_nil _ _)⟩
  have text : cStr (setText (Postgres.ofStatement .plain [] id) (JsonCpp.compactOf [])
      [(str "name", .string (str "Ann"))]) = str "\"name\"'Ann'" := rfl
  rw [text]
  exact .next rfl (.next rfl (.done rfl))

end DatabaseWriter

end KafkaReplication
