/-!
# Results with warnings
-/

namespace NovelScript

/-- A value or the reason why there is none, and the warnings on the way. -/
structure Outcome (ε ω α : Type) where
  result : Except ε α
  warnings : List ω := []

end NovelScript
