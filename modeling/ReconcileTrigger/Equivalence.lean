import ReconcileTrigger.Json.Value
import ReconcileTrigger.Quantity

/-!
Values that differ in their encoding only. Numbers are compared by their decimal value, texts as
quantities where both are quantities and at least one is written with a suffix, so that versions
such as `1.0` and `1` stay apart.
-/

namespace ReconcileTrigger.Json

/-- Both texts are quantities of the same amount, at least one of them with a suffix. -/
def sameQuantity (a b : String) : Bool :=
  match Quantity.ofChars? a.toList, Quantity.ofChars? b.toList with
  | some p, some q => (p.hasSuffix || q.hasSuffix) && p.sameAmount q
  | _, _ => false

/-- Both numbers have the same decimal value, that of their written forms. -/
def Number.sameValue (a b : Number) : Bool :=
  match Quantity.ofChars? a.chars, Quantity.ofChars? b.chars with
  | some p, some q => p.sameAmount q
  | _, _ => false

def Value.equivalent (old new : Value) : Bool :=
  old.same new ||
    match old, new with
    | .number a, .number b => a.sameValue b
    | .string a, .string b => sameQuantity a b
    | _, _ => false

end ReconcileTrigger.Json
