namespace TurtlePlayback.Playback

structure Watched (α : Type) where
  value : α

def Watched.set {α : Type} [BEq α] (w : Watched α) (a : α) : Bool × Watched α :=
  if w.value == a then (false, w) else (true, ⟨a⟩)

end TurtlePlayback.Playback
