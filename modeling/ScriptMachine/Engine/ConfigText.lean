import ScriptMachine.Engine.Config
import ScriptMachine.Json.Basic

namespace ScriptMachine

namespace Config

def limit? : Json → Option (Option Nat)
  | .null => some none
  | v => v.nat?.map some

def ofJson? (v : Json) : Option Config := do
  match ← v.fields? ["max_call_depth", "instruction_limit", "verify_fragments"] with
  | [depth, limit, verify] =>
    let default : Config := {}
    return {
      maxDepth := ← depth.elim (some default.maxDepth) Json.nat?
      instructionLimit := ← limit.elim (some default.instructionLimit) limit?
      verifyFragments := ← verify.elim (some default.verifyFragments) Json.bool? }
  | _ => none

def parse (text : String) : Option Config := do
  ofJson? (← Json.parse text)

end Config

end ScriptMachine
