/-!
# Colored text

A terminal shows a piece of text in a color between two escape sequences: one
that turns the color on and one that resets it.  If the piece holds a reset of
its own, the color is turned on again after it.  Without color a piece is its
plain text.

* `Painted`: a piece of text with its color.
* `Painted.render`: the characters that are written for it.
-/

namespace ShardLoad

/-- How a piece of text stands out. -/
inductive Shade where
  | bold
  | red
  | green
  | yellow
  deriving Repr, DecidableEq

/-- The sequence that turns a color on. -/
def Shade.start : Shade → List Char
  | bold => ['\x1b', '[', '1', 'm']
  | red => ['\x1b', '[', '3', '1', 'm']
  | green => ['\x1b', '[', '3', '2', 'm']
  | yellow => ['\x1b', '[', '3', '3', 'm']

/-- The sequence that turns any color off. -/
def reset : List Char := ['\x1b', '[', '0', 'm']

/-- A text with a color turned on again after each reset in it. -/
def resume (start : List Char) : List Char → List Char
  | '\x1b' :: '[' :: '0' :: 'm' :: rest => reset ++ start ++ resume start rest
  | c :: rest => c :: resume start rest
  | [] => []

/-- A piece of text, with a color or without. -/
structure Painted where
  shade : Option Shade
  text : String
  deriving Repr, DecidableEq

namespace Painted

/-- Text without a color. -/
def plain (text : String) : Painted := ⟨none, text⟩

/-- Text in a color. -/
def shaded (shade : Shade) (text : String) : Painted := ⟨some shade, text⟩

/-- A count that is bad news unless it is zero. -/
def alarm (n : Nat) : Painted := if 0 < n then shaded .red (toString n) else plain (toString n)

/-- What is written for a piece, on a terminal with color or without. -/
def render (color : Bool) (p : Painted) : String :=
  match p.shade with
  | some shade =>
    if color then
      String.ofList (shade.start ++ resume shade.start p.text.toList ++ reset)
    else p.text
  | none => p.text

/-- The text of a count is its number. -/
@[simp] theorem text_alarm (n : Nat) : (alarm n).text = toString n := by
  unfold alarm
  split <;> rfl

end Painted

/-- A text filled up on the right to so many characters. -/
def padRight (fill : Char) (width : Nat) (s : String) : String :=
  String.ofList (s.toList ++ List.replicate (width - s.length) fill)

/-- A text filled up on the left to so many characters. -/
def padLeft (fill : Char) (width : Nat) (s : String) : String :=
  String.ofList (List.replicate (width - s.length) fill ++ s.toList)

end ShardLoad
