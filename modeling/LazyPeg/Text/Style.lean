/-!
# Terminal styles

Messages for a terminal set words apart by colour and weight.  A styled text is the escape sequence
that sets the style, the text, and the sequence that resets it.  Where colours are off, and where
the style is plain, the text stands alone.
-/
namespace LazyPeg.Text

/-- The colours that messages use. -/
inductive Colour
  | red | green | yellow | blue
  deriving DecidableEq, Repr

/-- The number that selects a colour for the foreground. -/
def Colour.code : Colour → String
  | .red => "31"
  | .green => "32"
  | .yellow => "33"
  | .blue => "34"

/-- A weight and a foreground colour. -/
structure Style where
  bold : Bool
  colour : Option Colour
  deriving DecidableEq, Repr

namespace Style

/-- Heavy, in no particular colour. -/
def heavy : Style := ⟨true, none⟩

/-- A colour at normal weight. -/
def plainly (c : Colour) : Style := ⟨false, some c⟩

/-- A colour, heavy. -/
def heavily (c : Colour) : Style := ⟨true, some c⟩

/-- The sequence that ends every style. -/
def reset : String := "\x1b[0m"

/-- The sequence that begins a style: weight before colour. -/
def start (s : Style) : String :=
  "\x1b[" ++ ";".intercalate ((if s.bold then ["1"] else []) ++ (s.colour.map Colour.code).toList)
    ++ "m"

/-- Set a text in a style.  A reset inside the text ends the style there, so it is taken up again
right behind. -/
def paint (s : Style) (colours : Bool) (text : String) : String :=
  if colours ∧ (s.bold ∨ s.colour.isSome) then
    s.start ++ (reset ++ s.start).intercalate (text.splitOn reset) ++ reset
  else text

end Style

end LazyPeg.Text
