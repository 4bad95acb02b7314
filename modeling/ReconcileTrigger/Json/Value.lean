import ReconcileTrigger.Dict
import ReconcileTrigger.Json.Number

/-!
JSON documents. The members of an object are kept in ascending order of their keys, so equal
objects have equal member lists; `Value.WellFormed` says so for a whole document.
-/

namespace ReconcileTrigger.Json

inductive Value
  | null
  | bool (value : Bool)
  | number (value : Number)
  | string (value : String)
  | array (elements : List Value)
  | object (members : List (String × Value))

namespace Value

mutual

def same : Value → Value → Bool
  | .null, .null => true
  | .bool a, .bool b => a == b
  | .number a, .number b => a.same b
  | .string a, .string b => a == b
  | .array a, .array b => sameElements a b
  | .object a, .object b => sameMembers a b
  | _, _ => false

def sameElements : List Value → List Value → Bool
  | [], [] => true
  | a :: as, b :: bs => same a b && sameElements as bs
  | _, _ => false

def sameMembers : List (String × Value) → List (String × Value) → Bool
  | [], [] => true
  | (k, a) :: as, (l, b) :: bs => k == l && same a b && sameMembers as bs
  | _, _ => false

end

mutual

/-- Every object inside has its members in ascending order of their keys. -/
def WellFormed : Value → Prop
  | .array elements => WellFormedElements elements
  | .object members => SortedKeys members ∧ WellFormedMembers members
  | _ => True

def WellFormedElements : List Value → Prop
  | [] => True
  | v :: rest => WellFormed v ∧ WellFormedElements rest

def WellFormedMembers : List (String × Value) → Prop
  | [] => True
  | (_, v) :: rest => WellFormed v ∧ WellFormedMembers rest

end

/-- The object with these members, the last of equal keys winning. -/
def ofMembers (members : List (String × Value)) : Value :=
  .object (sortEntries members)

def ofDict (d : Dict Value) : Value :=
  .object d.entries

def ofInt (n : Int) : Value :=
  .number (.integer n)

def isObject : Value → Bool
  | .object _ => true
  | _ => false

def member? (key : String) : Value → Option Value
  | .object members => members.lookup key
  | _ => none

def string? : Value → Option String
  | .string s => some s
  | _ => none

def bool? : Value → Option Bool
  | .bool b => some b
  | _ => none

def array? : Value → Option (List Value)
  | .array elements => some elements
  | _ => none

theorem exists_object_of_member? {v part : Value} {key : String} (h : v.member? key = some part) :
    ∃ members, v = .object members ∧ members.lookup key = some part := by
  cases v with
  | object members => exact ⟨members, rfl, h⟩
  | _ => contradiction

theorem exists_object_of_isObject {v : Value} (h : v.isObject = true) :
    ∃ members, v = .object members := by
  cases v with
  | object members => exact ⟨members, rfl⟩
  | _ => contradiction

theorem string?_eq_some_iff {v : Value} {s : String} : v.string? = some s ↔ v = .string s := by
  cases v <;> simp [string?]

theorem bool?_eq_some_iff {v : Value} {b : Bool} : v.bool? = some b ↔ v = .bool b := by
  cases v <;> simp [bool?]

theorem array?_eq_some_iff {v : Value} {elements : List Value} :
    v.array? = some elements ↔ v = .array elements := by
  cases v <;> simp [array?]

end Value

end ReconcileTrigger.Json
