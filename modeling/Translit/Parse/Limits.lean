/-!
# Limits of a parse

A parse may be held to a size of its input, to a number of entries that wait in a walk and to
input that is recognized throughout. A walk is also given a number of steps, for it need not end.
-/

namespace Translit

/-- The limits of a parse. For both sizes zero stands for none. -/
structure Limits where
  inputSize : Nat
  stackSize : Nat
  strict : Bool
  steps : Nat
deriving DecidableEq

/-- The limits where none are given: 100 MiB of input, any number of entries, input that is not
recognized is passed over, and more steps for a walk than there is time for. -/
def Limits.default : Limits := ⟨104857600, 0, false, 4611686018427387904⟩

instance : Inhabited Limits := ⟨.default⟩

end Translit
