import ReconcileTrigger.Json.Value

/-!
Decisions with the log entries written on the way to them.
-/

namespace ReconcileTrigger

namespace Log

inductive Level
  | debug
  | info
  | error
  deriving DecidableEq

inductive FieldValue
  | text (value : String)
  | integer (value : Int)
  deriving DecidableEq

structure Entry where
  level : Level
  message : String
  fields : List (String × FieldValue)
  deriving DecidableEq

end Log

/-- A result together with the entries logged while it was found, the earliest first. -/
structure Logged (α : Type) where
  result : α
  entries : List Log.Entry

namespace Logged

variable {α β : Type}

protected def pure (a : α) : Logged α :=
  ⟨a, []⟩

protected def bind (x : Logged α) (f : α → Logged β) : Logged β :=
  let y := f x.result
  ⟨y.result, x.entries ++ y.entries⟩

instance : Monad Logged where
  pure := Logged.pure
  bind := Logged.bind

@[simp] theorem result_pure (a : α) : (pure a : Logged α).result = a := rfl

@[simp] theorem result_bind (x : Logged α) (f : α → Logged β) :
    (x >>= f).result = (f x.result).result := rfl

@[simp] theorem entries_pure (a : α) : (pure a : Logged α).entries = [] := rfl

@[simp] theorem entries_bind (x : Logged α) (f : α → Logged β) :
    (x >>= f).entries = x.entries ++ (f x.result).entries := rfl

@[simp] theorem result_map (f : α → β) (x : Logged α) : (f <$> x).result = f x.result := rfl

end Logged

namespace Log

def write (level : Level) (message : String) (fields : List (String × FieldValue)) :
    Logged Unit :=
  ⟨(), [⟨level, message, fields⟩]⟩

def debug (message : String) (fields : List (String × String)) : Logged Unit :=
  write .debug message (fields.map fun (name, value) => (name, .text value))

def info (message : String) (fields : List (String × String)) : Logged Unit :=
  write .info message (fields.map fun (name, value) => (name, .text value))

def error (message : String) (fields : List (String × String)) : Logged Unit :=
  write .error message (fields.map fun (name, value) => (name, .text value))

end Log

end ReconcileTrigger
