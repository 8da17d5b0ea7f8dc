import NestedSpec.Text.Blank

/-!
# Terminals and colours

Which terminal names stand for a terminal that shows colours, and the sequences that switch
colours on and off.
-/

namespace NestedSpec.Terminal

def colourFamilies : List String :=
  ["xterm", "screen", "tmux", "rxvt", "vt100", "vt220", "linux", "ansi", "cygwin", "putty",
    "konsole", "gnome", "alacritty", "kitty", "wezterm", "foot", "iterm", "eterm"]

/-- The terminals that show none, whatever their family. -/
def plainNames : List String := ["dumb", "unknown", "emacs"]

def belongsTo (name family : List Char) : Bool :=
  family.isPrefixOf name &&
    match name.drop family.length with
    | [] => true
    | mark :: rest => (mark = '-' || mark = '.' || mark = '+') && !rest.contains '\n'

def isPlain (name : String) : Bool :=
  plainNames.contains name || name.endsWith "-m" || name.endsWith "-mono"

def showsColour (name : Option String) : Bool :=
  match name with
  | none => false
  | some raw =>
    let trimmed := Text.trim raw
    colourFamilies.any (fun family => belongsTo trimmed.toList family.toList) && !isPlain trimmed

inductive Colour where
  | red
  | green
  | yellow
deriving Repr, DecidableEq

def Colour.number : Colour → String
  | .red => "1"
  | .green => "2"
  | .yellow => "3"

def reset : String := "\x1b[0m"

def begin (colour : Colour) : String :=
  "\x1b[3" ++ colour.number ++ "m"

def bold : String := "\x1b[1m"

end NestedSpec.Terminal
