/-!
# Text by bytes

Cuts of a text at byte offsets of its UTF-8 encoding. A cut inside a character gives nothing.
-/

namespace FlowShape.Text

/-- The text without its first `n` bytes. -/
def dropBytes : Nat → List Char → Option (List Char)
  | 0, cs => some cs
  | _ + 1, [] => none
  | n + 1, c :: cs => if c.utf8Size ≤ n + 1 then dropBytes (n + 1 - c.utf8Size) cs else none

/-- The first `n` bytes of a text. -/
def takeBytes : Nat → List Char → Option (List Char)
  | 0, _ => some []
  | _ + 1, [] => none
  | n + 1, c :: cs =>
    if c.utf8Size ≤ n + 1 then (takeBytes (n + 1 - c.utf8Size) cs).map (c :: ·) else none

/-- The bytes from `start` up to `stop`; empty when the offsets do not bound a piece of text. -/
def slice (start stop : Nat) (cs : List Char) : List Char :=
  if start ≤ stop then ((dropBytes start cs).bind (takeBytes (stop - start))).getD [] else []

end FlowShape.Text
