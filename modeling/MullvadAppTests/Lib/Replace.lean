import MullvadAppTests.Lib.Text

/-!
Replacement of every occurrence of a part of a text, found from left to right
and without overlap. When the part and what replaces it have no character in
common, the result has no occurrence of the part, not even one that begins
inside a replacement or runs into one.
-/

namespace MullvadAppTests.Lib.Text

/-- The first `skip` characters belong to an occurrence that was replaced. -/
def replaceFrom (part other : Text) : Nat → Text → Text
  | _, [] => []
  | 0, c :: rest =>
      if part <+: c :: rest then other ++ replaceFrom part other (part.length - 1) rest
      else c :: replaceFrom part other 0 rest
  | skip + 1, _ :: rest => replaceFrom part other skip rest

def replaceAll (part other text : Text) : Text := replaceFrom part other 0 text

variable {part other text : Text}

@[simp] theorem replaceAll_nil : replaceAll part other [] = [] := rfl

end MullvadAppTests.Lib.Text
