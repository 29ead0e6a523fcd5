/-!
What the surroundings of a run decide: whether it is dumped, and whether diagnostics are in
color. None of it changes what a program does.
-/

set_option autoImplicit false

namespace Lox

structure Settings where
  /-- Tokens and tree are written out before each run. -/
  dump : Bool
  /-- Diagnostics are written in color. -/
  color : Bool
  deriving DecidableEq

/-- The settings that environment variables give, where diagnostics go to a terminal or not. A
variable that is empty counts as one that is not set. -/
def Settings.ofVariables (lookUp : String → Option String) (terminal : Bool) : Settings :=
  let isSet (name : String) : Bool := ((lookUp name).getD "") != ""
  { dump := isSet "LOXDEBUG"
    color := terminal && !isSet "NO_COLOR" && !isSet "ANSI_COLORS_DISABLED" }

end Lox
