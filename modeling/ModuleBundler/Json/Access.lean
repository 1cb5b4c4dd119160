import ModuleBundler.Json.Value

/-!
# Looking into values

Reading the members of a value whose shape is known, with a default for whatever
is absent or of another shape.

Main results:

- Theorem {lit}`Access.field_table_cons`: the first member of a name is the one that is found.
-/

namespace ModuleBundler
namespace Json
namespace Access

/-- The member of a name. -/
def field? (value : Value) (name : String) : Option Value :=
  match value with
  | .table members => members.lookup name
  | _ => none

/-- Whether there is a member of a name. -/
def has (value : Value) (name : String) : Bool :=
  (field? value name).isSome

/-- The member of a name, or else null. -/
def field (value : Value) (name : String) : Value :=
  (field? value name).getD .null

/-- The text that a value is. -/
def asText? : Value → Option String
  | .text s => some s
  | _ => none

/-- The number that a value is. -/
def asInt? : Value → Option Int
  | .whole n => some n
  | _ => none

/-- The natural number that a value is. -/
def asNat? (value : Value) : Option Nat :=
  (asInt? value).map Int.toNat

/-- The text of a member. -/
def text? (value : Value) (name : String) : Option String :=
  asText? (field value name)

/-- The text of a member, or else another one. -/
def text (value : Value) (name : String) (default : String := "") : String :=
  (text? value name).getD default

/-- The natural number of a member. -/
def nat? (value : Value) (name : String) : Option Nat :=
  asNat? (field value name)

/-- The natural number of a member, or else another one. -/
def nat (value : Value) (name : String) (default : Nat := 0) : Nat :=
  (nat? value name).getD default

/-- The truth value of a member. -/
def flag (value : Value) (name : String) : Bool :=
  match field value name with
  | .flag b => b
  | _ => false

/-- The items of a list. -/
def itemsOf : Value → List Value
  | .list values => values
  | _ => []

/-- The items of a member. -/
def items (value : Value) (name : String) : List Value :=
  itemsOf (field value name)

/-- The texts among the items of a member. -/
def texts (value : Value) (name : String) : List String :=
  (items value name).filterMap asText?

/-- The members of a table in increasing order of their names. -/
def membersOf : Value → List (String × Value)
  | .table entries => entries.mergeSort fun a b => decide (a.1 ≤ b.1)
  | _ => []

/-- The members of a member in increasing order of their names. -/
def members (value : Value) (name : String) : List (String × Value) :=
  membersOf (field value name)

@[simp]
theorem field_table_cons (name : String) (value : Value) (rest : List (String × Value)) :
    field (.table ((name, value) :: rest)) name = value := by
  simp [field, field?]

end Access
end Json
end ModuleBundler
