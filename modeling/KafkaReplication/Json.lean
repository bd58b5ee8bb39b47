import KafkaReplication.Misc.Printf

/-!
# JSON values

The values both programs exchange, with the operations of jsoncpp's `Json::Value` that
the source calls. An object is a `std::map`, so its members are kept in the order of
their names; the operations throw `Json::LogicError`, a `std::exception`, on values of
the wrong kind.
-/

namespace KafkaReplication
open Misc

/-- `Json::Value`. Integers are within the 64-bit ranges, reals are finite doubles. -/
inductive Json where
  | null
  | int (value : Int)
  | uint (value : Nat)
  | real (value : Rat)
  | string (value : Bytes)
  | bool (value : Bool)
  | array (values : List Json)
  | object (members : List (Bytes × Json))

/-- The parts of jsoncpp that turn values into text and back. -/
structure JsonCpp where
  /-- `Json::writeString` with an empty indentation. -/
  writeString : Json → Bytes
  /-- `Json::parseFromStream` with the default reader: a value, or none where the text is no JSON.
  The reader throws where values are nested beyond its `stackLimit`. -/
  parseFromStream : Bytes → Except Fault (Option Json)
  toStyledString : Json → Bytes

/-- Reading undoes writing on `json`. -/
def JsonCpp.RoundTrips (jsoncpp : JsonCpp) (json : Json) : Prop :=
  jsoncpp.parseFromStream (jsoncpp.writeString json) = .ok (some json)

namespace Json

/-- Put `value` under `name`, in the place of the member of that name if there is one. -/
def insertMember (name : Bytes) (value : Json) : List (Bytes × Json) → List (Bytes × Json)
  | [] => [(name, value)]
  | (k, v) :: rest =>
      if name = k then (name, value) :: rest
      else if name < k then (name, value) :: (k, v) :: rest
      else (k, v) :: insertMember name value rest

/-- `json[name] = value`; a null value becomes an object first. -/
def set (json : Json) (name : Bytes) (value : Json) : Except Fault Json :=
  match json with
  | null => .ok (object [(name, value)])
  | object members => .ok (object (insertMember name value members))
  | _ => .error (.exception
      "in Json::Value::resolveReference(key, end): requires objectValue")

/-- `json.find(name)`. -/
def find (json : Json) (name : Bytes) : Except Fault (Option Json) :=
  match json with
  | null => .ok none
  | object members => .ok (members.lookup name)
  | _ => .error (.exception
      "in Json::Value::find(begin, end): requires objectValue or nullValue")

/-- `json.isMember(name)`. -/
def isMember (json : Json) (name : Bytes) : Except Fault Bool :=
  (json.find name).map Option.isSome

/-- `json.get(name, other)`: the member of that name, or `other`. -/
def get (json : Json) (name : Bytes) (other : Json) : Except Fault Json :=
  (json.find name).map (·.getD other)

/-- `json[name]` on a constant value: null when the member is absent. -/
def index (json : Json) (name : Bytes) : Except Fault Json := json.get name null

/-- `json.append(value)`. -/
def append (json value : Json) : Except Fault Json :=
  match json with
  | null => .ok (array [value])
  | array values => .ok (array (values ++ [value]))
  | _ => .error (.exception "in Json::Value::append: requires arrayValue")

/-- `json.getMemberNames()`. -/
def getMemberNames (json : Json) : Except Fault (List Bytes) :=
  match json with
  | null => .ok []
  | object members => .ok (members.map Prod.fst)
  | _ => .error (.exception
      "in Json::Value::getMemberNames(), value must be objectValue")

/-- The text of a real value, which always shows that it is one. -/
def realText (value : Rat) : Bytes :=
  let text := formatG 17 value
  if chr '.' ∈ text ∨ chr 'e' ∈ text then text else text ++ str ".0"

/-- `json.asString()`. -/
def asString : Json → Except Fault Bytes
  | null => .ok []
  | int value => .ok (decimal value)
  | uint value => .ok (decimal value)
  | real value => .ok (realText value)
  | string value => .ok value
  | bool value => .ok (str (if value then "true" else "false"))
  | array _ | object _ => .error (.exception "Type is not convertible to string")

def isNull : Json → Bool
  | null => true
  | _ => false

def isString : Json → Bool
  | string _ => true
  | _ => false

def isBool : Json → Bool
  | bool _ => true
  | _ => false

/-- The integer a numeric value stands for, if it is one. -/
def integral? : Json → Option Int
  | int value => some value
  | uint value => some value
  | real value => if value.den = 1 then some value.num else none
  | _ => none

/-- `json.isInt()`: an integer of 32 bits, whatever the representation. -/
def isInt (json : Json) : Bool :=
  match json.integral? with
  | some n => decide (-2 ^ 31 ≤ n ∧ n < 2 ^ 31)
  | none => false

/-- `json.isInt64()`. -/
def isInt64 (json : Json) : Bool :=
  match json.integral? with
  | some n => decide (-2 ^ 63 ≤ n ∧ n < 2 ^ 63)
  | none => false

/-- `json.isDouble()`: any number. -/
def isDouble : Json → Bool
  | int _ | uint _ | real _ => true
  | _ => false

/-- `json.asDouble()` on a number. -/
def asDouble : Json → Rat
  | int value => nearestDouble value
  | uint value => nearestDouble value
  | real value => value
  | _ => 0

/-! ## Text -/

/-- A text without characters that JSON escapes, as a JSON string. -/
def quoted (text : Bytes) : Bytes := chr '"' :: (text ++ [chr '"'])

mutual

/-- What `Json::writeString` gives with an empty indentation, where no text needs escapes. -/
def compactText : Json → Bytes
  | null => str "null"
  | int value => decimal value
  | uint value => decimal value
  | real value => realText value
  | string value => quoted value
  | bool value => str (if value then "true" else "false")
  | array values => chr '[' :: (compactValues values ++ [chr ']'])
  | object members => chr '{' :: (compactMembers members ++ [chr '}'])

def compactValues : List Json → Bytes
  | [] => []
  | [value] => compactText value
  | value :: values => compactText value ++ chr ',' :: compactValues values

def compactMember : Bytes × Json → Bytes
  | (name, value) => quoted name ++ chr ':' :: compactText value

def compactMembers : List (Bytes × Json) → Bytes
  | [] => []
  | [member] => compactMember member
  | member :: members => compactMember member ++ chr ',' :: compactMembers members

end

/-! ## Members after an update -/

theorem lookup_cons_ite (key name : Bytes) (value : Json) (rest : List (Bytes × Json)) :
    List.lookup key ((name, value) :: rest) =
      if key = name then some value else rest.lookup key := by
  rw [List.lookup_cons]
  by_cases same : key = name
  · simp [same]
  · rw [beq_false_of_ne same, if_neg same]

theorem lookup_insertMember (name : Bytes) (value : Json) (members : List (Bytes × Json))
    (key : Bytes) :
    (insertMember name value members).lookup key =
      if key = name then some value else members.lookup key := by
  induction members with
  | nil => exact lookup_cons_ite key name value []
  | cons entry rest ih =>
    obtain ⟨k, v⟩ := entry
    simp only [insertMember]
    by_cases replaced : name = k
    · subst replaced
      rw [if_pos rfl, lookup_cons_ite, lookup_cons_ite]
      by_cases same : key = name <;> simp [same]
    · rw [if_neg replaced]
      by_cases before : name < k
      · rw [if_pos before, lookup_cons_ite]
      · rw [if_neg before, lookup_cons_ite, lookup_cons_ite, ih]
        by_cases head : key = k
        · have other : key ≠ name := fun same => replaced (same.symm.trans head)
          rw [if_pos head, if_pos head, if_neg other]
        · rw [if_neg head, if_neg head]

end Json

/-- jsoncpp where the only text it is asked to read is that of `json`, and no text needs escapes. -/
def JsonCpp.compact (json : Json) : JsonCpp where
  writeString := Json.compactText
  parseFromStream text := .ok (if text = json.compactText then some json else none)
  toStyledString := Json.compactText

theorem JsonCpp.compact_roundTrips (json : Json) : (JsonCpp.compact json).RoundTrips json :=
  congrArg Except.ok (if_pos rfl)

/-- jsoncpp where it is asked to read the texts of `jsons` only. -/
def JsonCpp.compactOf (jsons : List Json) : JsonCpp where
  writeString := Json.compactText
  parseFromStream text := .ok (jsons.find? (·.compactText = text))
  toStyledString := Json.compactText

end KafkaReplication
