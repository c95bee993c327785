import MaddyWeb.Helper.Errors
import MaddyWeb.Library.Json

/-!
# Parameters of a request
-/

namespace MaddyWeb.Helper

open MaddyWeb.Library MaddyWeb.Helper.Errors

abbrev Params := List (String × Json)

/-- What `_params` raises: a name is unknown, or one is missing. -/
def paramsError (params : Params) (required optional : List String) : Option String :=
  if params.any fun field => !required.contains field.1 && !optional.contains field.1 then
    some "unknown operation parameter"
  else if required.any fun name => !params.any (·.1 == name) then
    some "missing operation parameter"
  else none

end MaddyWeb.Helper
