import MeshConsole.Text.Case

/-!
# Link quality labels

The gateway labels a link in several spellings, with blanks and in either case. Past this module
there are four qualities and three sources.
-/

namespace MeshConsole.Radio

inductive Quality where
  | good
  | warn
  | bad
  | unknown
  deriving Repr, DecidableEq

namespace Quality

def name : Quality → Text
  | .good => "good"
  | .warn => "warn"
  | .bad => "bad"
  | .unknown => "unknown"

/-- The place of a quality on the scale that trends are read from. -/
def score : Quality → Nat
  | .good => 3
  | .warn => 2
  | .bad => 1
  | .unknown => 0

/-- The quality that goes by exactly this name. -/
def ofName? (name : Text) : Option Quality :=
  [good, warn, bad, unknown].find? fun q => q.name == name

/-- The quality a gateway's label stands for. `fair` and `poor` are older names of `warn` and
`bad`; any other label is unknown. -/
def ofLabel (label : Text) : Quality :=
  let tag := Text.lower (Text.trimSpace label)
  if tag == "good" then .good
  else if tag == "warn" || tag == "fair" then .warn
  else if tag == "bad" || tag == "poor" then .bad
  else .unknown

end Quality

/-- The table of the coordinator that a batch was read from. -/
inductive Source where
  | mgmtLqi
  | neighborTable
  | unknown
  deriving Repr, DecidableEq

namespace Source

def name : Source → Text
  | .mgmtLqi => "mgmt_lqi"
  | .neighborTable => "neighbor_table"
  | .unknown => "unknown"

def ofLabel (label : Text) : Source :=
  let tag := Text.lower (Text.trimSpace label)
  if tag == "mgmt_lqi" then .mgmtLqi
  else if tag == "neighbor_table" then .neighborTable
  else .unknown

end Source

end MeshConsole.Radio
