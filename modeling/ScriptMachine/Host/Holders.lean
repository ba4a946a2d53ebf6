import ScriptMachine.Engine.Machine
import ScriptMachine.Graph.Encoder
import ScriptMachine.Model.Release

namespace ScriptMachine

def Registry.holds (r : Registry) : List Cell :=
  Store.cellsOf (r.values.map Prod.snd)

def Encoder.holds (e : Encoder) : List Cell :=
  e.registry.holds ++ Store.cellsOf e.pending

def Frame.holds (f : Frame) : List Cell :=
  Store.cellsOf (.function f.function :: f.this :: f.locals.toList ++ f.constructing.toList)

/-- The built-in types, the globals, the active calls and their operands. -/
def Machine.roots (m : Machine) : List Cell :=
  Builtin.all.map (Store.typeCell ·.id) ++ Store.cellsOf m.globals.values ++
    m.frames.flatMap Frame.holds ++ Store.cellsOf m.stack

end ScriptMachine
