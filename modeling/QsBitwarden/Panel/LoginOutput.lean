import Mathlib.Data.List.DropRight
import QsBitwarden.Lib.Joined
import QsBitwarden.Lib.Js
import QsBitwarden.Lib.Utf16

/-! Owns what the panel keeps of the error output of an interactive login, and when the code
typed there cannot be read from it. It does not own the login. -/

namespace QsBitwarden.Panel.LoginOutput

open Lib Lib.Utf16 List

/-! ### Escape sequences -/

def trimUnits (text : Units) : Units := (text.dropWhile isSpaceUnit).rdropWhile isSpaceUnit

end QsBitwarden.Panel.LoginOutput
