import Persona.Text

/-!
# Versions

The library and the command line are released on their own.
-/

namespace Persona.Release

/-- The version of the library. -/
def library : Text := "v0.1.0-dev"

/-- The name under which the command line is called. -/
def toolName : Text := "callosum"

/-- The version of the command line. -/
def tool : Text := "dev"

end Persona.Release
