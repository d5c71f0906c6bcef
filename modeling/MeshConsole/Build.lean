import MeshConsole.Text.Basic

/-!
# Build information
-/

namespace MeshConsole.Build

def version : Text := "dev"

def commit : Text := "none"

def built : Text := "unknown"

/-- The line shown for the version. -/
def text : Text := version ++ ", commit " ++ commit ++ ", built " ++ built

end MeshConsole.Build
