/-!
# Identifiers of flow nodes

Identifiers are texts. Those of an analysis are numbered from one through all of it, whatever their
stem.
-/

namespace FlowShape

@[ext] structure Id where
  text : String
  deriving DecidableEq

namespace Id

/-- The identifier with a given number. -/
def numbered (stem : String) (number : Nat) : Id := ⟨stem ++ "_" ++ toString number⟩

/-- The identifier after `used` others. Each is for a node that was built, and no run builds
`2 ^ 64` nodes: numbers need no bound, and a counter of 64 bits does not overflow. -/
def next (used : Nat) (stem : String) : Id := numbered stem (used + 1)

end Id

end FlowShape
