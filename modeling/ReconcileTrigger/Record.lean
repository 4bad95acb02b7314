/-!
Records in documents of any kind: named fields, some of them with a default.
-/

namespace ReconcileTrigger

abbrev Fields (ν : Type) := List (String × ν)

namespace Fields

variable {ν α : Type}

def required? (fields : Fields ν) (name : String) (read : ν → Option α) : Option α :=
  match fields.lookup name with
  | some v => read v
  | none => none

def optional? (fields : Fields ν) (name : String) (default : α) (read : ν → Option α) :
    Option α :=
  match fields.lookup name with
  | some v => read v
  | none => some default

/-- The fields with `name` bound to `value`, in place of an earlier value or at the end. -/
def put (fields : Fields ν) (name : String) (value : ν) : Fields ν :=
  match fields with
  | [] => [(name, value)]
  | (n, v) :: rest => if n = name then (name, value) :: rest else (n, v) :: put rest name value

end Fields

end ReconcileTrigger
