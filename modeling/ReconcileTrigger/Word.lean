/-!
The bounds of 64-bit words, written out so that linear arithmetic decides about them.
-/

namespace ReconcileTrigger.Word

def FitsSigned (n : Int) : Prop :=
  -9223372036854775808 ≤ n ∧ n ≤ 9223372036854775807

instance : DecidablePred FitsSigned := fun n => by
  unfold FitsSigned
  infer_instance

def FitsUnsigned (n : Nat) : Prop :=
  n ≤ 18446744073709551615

instance : DecidablePred FitsUnsigned := fun n => by
  unfold FitsUnsigned
  infer_instance

end ReconcileTrigger.Word
