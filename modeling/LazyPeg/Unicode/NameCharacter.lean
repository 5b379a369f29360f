import LazyPeg.Unicode.Property

/-!
# Characters of names

A name starts with a letter and goes on with letters and numbers.  Both classes are those of
Unicode 17.0: the classes of the tables beside this file, and what that version adds to them.
-/
namespace LazyPeg.Unicode

/-- Letters, and what counts as one. -/
def nameLetters : RangeSet := alphabetic.union <| .ofCode <|
  "dgHAblKAeXAcgrPBCABAbCAbkwCZcbJCbYBesAHwMbRbepGYCYlAEjcJHbxPVdTeKbhqJbEBVIBdawGFiwGLbgfAgj" ++
  "H"

/-- Every kind of number. -/
def nameNumbers : RangeSet := numbers.union <| .ofCode <|
  "eegUJbfbUC"

end LazyPeg.Unicode
