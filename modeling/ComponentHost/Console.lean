/-! # Console

  What the start of a host prints: titles in a box, numbered steps with the items under them, and a
  summary. Widths count characters; a title that is wider than its box is printed in full.
-/

namespace ComponentHost.Console

def boxWidth : Nat := 50

def line (s : String) : String := s ++ "\n"

/-- A number of equal characters. -/
def fill (n : Nat) (c : Char) : String := String.ofList (List.replicate n c)

/-- A text in the middle of a width; of an odd number of spaces the larger half is on the right. -/
def centered (width : Nat) (s : String) : String :=
  let space := width - s.length
  fill (space / 2) ' ' ++ s ++ fill (space - space / 2) ' '

def boxedTitle (title : String) : String :=
  let border := fill boxWidth '═'
  line ("╔" ++ border ++ "╗") ++ line ("║" ++ centered boxWidth title ++ "║")
    ++ line ("╚" ++ border ++ "╝")

def stepStart (step : Nat) (text : String) : String :=
  line ("→ Step " ++ toString step ++ ": " ++ text)

/-- A step has ended, having handled a number of items. -/
def stepComplete (step : Nat) (text : String) (count : Nat) : String :=
  line ("✓ Step " ++ toString step ++ ": " ++ text ++ " (" ++ toString count ++ " items)")

/-- An item of a step and how it fared. -/
def subTask (name status : String) : String := line ("   ├─ " ++ name ++ ": " ++ status)

def summary (singletons prototypes failed : Nat) : String :=
  line "" ++ boxedTitle "🎉 CONTAINER INITIALIZED"
    ++ line ("   📦 Definitions: " ++ toString (singletons + prototypes + failed))
    ++ line ("   🔒 Singletons created: " ++ toString singletons)
    ++ line ("   🔁 Prototypes (on demand): " ++ toString prototypes)
    ++ line ("   ⚠️  Failed: " ++ toString failed)
    ++ line ""

end ComponentHost.Console
