import ReviewContext.Environment
import ReviewContext.Git.Commands
import ReviewContext.Web.Exchange

/-! # Machines

All that the program sees of the world it runs in. Git and the web are asked and keep a record of it; the
rest is only read.
-/

namespace ReviewContext

structure Machine where
  files : Files
  /-- The directory that the program runs in. -/
  here : Place
  environment : Environment
  input : List UInt8
  /-- Whether the output goes to a terminal. -/
  isTerminal : Bool
  git : Git.Commands
  server : Web.Server

namespace Machine

def rawValue? (machine : Machine) (name : String) : Option String :=
  (machine.environment.find? (·.1 == name)).map (·.2)

/-- Whether the output has colours: two variables say so whatever it goes to, and a third keeps them
from a terminal. -/
def coloured (machine : Machine) : Bool :=
  if ((machine.rawValue? "CLICOLOR_FORCE").any (· != "0")) then true
  else if (machine.rawValue? "NO_COLOR").isSome then false
  else machine.isTerminal && (machine.rawValue? "CLICOLOR").all (· != "0")

end Machine

end ReviewContext
