namespace ScriptMachine

structure Config where
  /-- How many calls may be active. -/
  maxDepth : Nat := 1024
  /-- How many instructions one call of the host may run. -/
  instructionLimit : Option Nat := none
  /-- Whether fragments are verified when they are loaded. -/
  verifyFragments : Bool := true
  deriving DecidableEq, Inhabited

end ScriptMachine
