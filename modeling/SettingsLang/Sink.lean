import SettingsLang.Command

/-!
Sinks: where commands go. A log keeps them, a line writer keeps their text, and a limited sink
passes a number of them on and refuses all later ones.
-/

namespace SettingsLang

/-- A place that takes commands one by one, or refuses one and says why. -/
class Sink (σ : Type) where
  accept : σ → Command → Except String σ

/-- The commands taken so far, first to last. It refuses none. -/
structure CommandLog where
  commands : Array Command

namespace CommandLog

def empty : CommandLog := ⟨#[]⟩

def size (log : CommandLog) : Nat :=
  log.commands.size

def lines (log : CommandLog) : List String :=
  log.commands.toList.map Command.render

instance : Sink CommandLog where
  accept log command := .ok ⟨log.commands.push command⟩

end CommandLog

/-- The text of the commands taken so far. It refuses none. -/
structure LineWriter where
  text : String

namespace LineWriter

def empty : LineWriter := ⟨""⟩

/-- A command's text and a newline after it. -/
def line (command : Command) : String :=
  command.render ++ "\n"

instance : Sink LineWriter where
  accept writer command := .ok ⟨writer.text ++ line command⟩

def textOf (commands : List Command) : String :=
  commands.foldl (fun text command => text ++ line command) ""

end LineWriter

/-- A sink with room for a number of commands. -/
structure Limited (σ : Type) where
  inner : σ
  room : Nat

/-- Without room every command is refused, and the room does not come back. -/
instance {σ : Type} [Sink σ] : Sink (Limited σ) where
  accept sink command :=
    match sink.room with
    | 0 => .error "sink full"
    | room + 1 => (Sink.accept sink.inner command).map fun inner => ⟨inner, room⟩

end SettingsLang
