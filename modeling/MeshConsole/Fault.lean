import MeshConsole.Gateway.Limits
import MeshConsole.Push.Message
import MeshConsole.Text.Quoted

/-!
# Faults

Why a call on the gateway failed. A fault keeps its cause; what the call was about is wrapped
around it, and shows in the text only.
-/

namespace MeshConsole

inductive Fault where
  /-- The gateway ran the job and reports a failure. -/
  | jobFailed (id : Int64) (type reason : Text)
  | jobTimeout
  | jobInProgress
  | invalidJobId
  /-- The gateway answered with an error status or an envelope that is not `ok`. -/
  | rejected (status : Int) (code message : Text)
  | limit (broken : Limit)
  | malformed (why : Push.Malformed)
  | canceled
  | deadline
  /-- A body that is no JSON of the wanted shape. -/
  | undecodable
  /-- An address from which no request can be built. -/
  | badUrl
  /-- The push socket failed. -/
  | socket
  | other (message : Text)
  | within (context : Text) (cause : Fault)
  /-- An exchange failed before there was an answer. -/
  | exchange (verb url : Text) (cause : Fault)
  deriving Repr, DecidableEq

namespace Fault

/-- The fault without what was wrapped around it. -/
def root : Fault → Fault
  | .within _ cause => cause.root
  | .exchange _ _ cause => cause.root
  | fault => fault

def message : Fault → Text
  | .jobFailed id type reason =>
    type ++ " job " ++ Text.ofInt id.toInt ++ " failed: " ++ reason
  | .jobTimeout => "job timed out"
  | .jobInProgress => "job of this type already in progress"
  | .invalidJobId => "job submission returned no valid job id"
  | .rejected _ _ message => message
  | .limit broken => ("invalid request: " : Text) ++ broken.message
  | .malformed why => why.message
  | .canceled => "context canceled"
  | .deadline => "context deadline exceeded"
  | .undecodable => "<json>"
  | .badUrl => "parse <url>"
  | .socket => "<socket>"
  | .other message => message
  | .within context cause => context ++ ": " ++ cause.message
  | .exchange verb url cause => verb ++ " " ++ url.quoted ++ ": " ++ cause.message

end Fault

end MeshConsole
