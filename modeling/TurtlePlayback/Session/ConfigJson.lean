import TurtlePlayback.Json.Reading
import TurtlePlayback.Json.Value
import TurtlePlayback.Session.Config

namespace TurtlePlayback.Session

open Canvas Playback Json

def loopModes : List (String × LoopMode) :=
  [("no_loop", .noLoop), ("wrap", .wrap), ("reverse", .reverse)]

/-- The name of a mode, alone or as the only field of an object and without a value. -/
def loopMode? : Tree → Option LoopMode
  | .string (some s) => loopModes.lookup s
  | .object [(some s, .null)] => loopModes.lookup s
  | _ => none

def loopModeName (m : LoopMode) : String :=
  match m with
  | .noLoop => "no_loop"
  | .wrap => "wrap"
  | .reverse => "reverse"

def viewport? (t : Tree) : Option Viewport := do
  let [width, height, ratio] ← t.record? ["width", "height", "pixel_ratio"] | none
  let d : Viewport := {}
  return {
    width := ← Tree.orDefault d.width Tree.word32? width
    height := ← Tree.orDefault d.height Tree.word32? height
    ratio := ← Tree.orDefault d.ratio Tree.real? ratio }

namespace Config

def fieldNames : List String :=
  ["loop_start", "loop_end", "loop_mode", "playback_speed", "autoplay", "visible", "viewport"]

def ofTree? (t : Tree) : Option (Config Float) := do
  let [start, stop, mode, speed, autoplay, visible, viewport] ← t.record? fieldNames | none
  let d : Config Float := default
  return {
    loopStart := ← Tree.orDefault d.loopStart Tree.real? start
    loopEnd := ← Tree.orDefault d.loopEnd Tree.real? stop
    loopMode := ← Tree.orDefault d.loopMode loopMode? mode
    speed := ← Tree.orDefault d.speed Tree.word32? speed
    autoplay := ← Tree.orDefault d.autoplay Tree.bool? autoplay
    visible := ← Tree.orDefault d.visible Tree.bool? visible
    viewport := ← Tree.orDefault d.viewport viewport? viewport }

def parse (source : String) : Except Failure (Config Float) :=
  match (Tree.parse? source).bind ofTree? with
  | none => .error ⟨.validation, "invalid player config"⟩
  | some c => c.validate.mapError ConfigFault.failure |>.map fun _ => c

def toJson (c : Config Float) : Json.Value :=
  .object [
    ("loop_start", .real c.loopStart), ("loop_end", .real c.loopEnd),
    ("loop_mode", .string (loopModeName c.loopMode)), ("playback_speed", .nat c.speed),
    ("autoplay", .bool c.autoplay), ("visible", .bool c.visible),
    ("viewport", .object [
      ("width", .nat c.viewport.width), ("height", .nat c.viewport.height),
      ("pixel_ratio", .real c.viewport.ratio)])]

def same (c d : Config Float) : Bool :=
  c.loopStart == d.loopStart && c.loopEnd == d.loopEnd && c.loopMode == d.loopMode &&
    c.speed == d.speed && c.autoplay == d.autoplay && c.visible == d.visible &&
    c.viewport.width == d.viewport.width && c.viewport.height == d.viewport.height &&
    c.viewport.ratio == d.viewport.ratio

end Config

end TurtlePlayback.Session
