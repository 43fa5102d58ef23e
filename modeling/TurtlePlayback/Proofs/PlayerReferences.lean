import TurtlePlayback.Proofs.PlayerMoves
import TurtlePlayback.Proofs.ReferenceAccounts

namespace TurtlePlayback.Session

open Artifact Canvas Playback

theorem Move.accounted {h h' : Holdings} (move : Move h h') (ok : h.Accounted []) :
    h'.Accounted [] := by
  cases move with
  | clearCanvas => exact ok.noteClear
  | clearEnvironment => exact ok.clearEnvironment
  | clearActive => exact ok.clearActive
  | clearPending => exact ok.clearPending
  | promote => exact ok.promote .share
  | teardown => exact ok.teardown
  | compiled done => exact (ok.compiled done).storeCompiled
  | rejected failed => exact (ok.rejected failed).clearPending
  | started idle active done =>
    exact (ok.started (by simp [Slots.held, active]) done).setEnvironment
  | notStarted idle active failed => exact ok.notStarted (by simp [Slots.held, active]) failed
  | stepped running => exact ok.step (by simp [Slots.held, running])

theorem Moves.accounted {h h' : Holdings} (moves : Moves h h') (ok : h.Accounted []) :
    h'.Accounted [] :=
  moves.preserve Move.accounted ok

namespace Player

variable {τ σ : Type} [Time τ] [Surface σ]

theorem visited_accounted {p q : Player τ σ} {es : List (Edit τ)} (fresh : p.holdings = {})
    (visited : q ∈ p :: p.visitsAll es) : q.holdings.Accounted [] := by
  have moves : Moves p.holdings q.holdings := by
    rcases List.mem_cons.mp visited with rfl | later
    · exact .refl
    · exact visited_moves later
  rw [fresh] at moves
  exact moves.accounted .empty

/-- The slots that hold an image are as many as its references, and likewise for environments. No
call names a dead handle, and a player that is torn down or dropped leaves no reference. -/
theorem references_follow_slots {surface : σ} {c : Config τ} {p q : Player τ σ}
    {es : List (Edit τ)} (created : Player.create surface c = .ok p)
    (visited : q ∈ p :: p.visitsAll es) :
    (∀ i : Image, q.holdings.engine.refs .image i.number =
      [q.holdings.slots.pending, q.holdings.slots.active].count (some i)) ∧
    (∀ e : Running, q.holdings.engine.refs .environment e.number =
      if q.holdings.slots.environment = some e then 1 else 0) ∧
    Engine.Calls {} q.holdings.events q.holdings.engine ∧
    Engine.Calls {} q.drop.events q.drop.engine ∧
    ∀ k n, q.teardown.holdings.engine.refs k n = 0 ∧ q.drop.engine.refs k n = 0 := by
  obtain ⟨s, clock, r, made⟩ := create_eq created
  have ok : q.holdings.Accounted [] := visited_accounted (by rw [made]) visited
  have dropped : q.drop.Accounted [] := ok.teardown
  have none_left (k : ResourceKind) (n : Nat) : q.drop.engine.refs k n = 0 := by
    rw [dropped.counts, drop, Holdings.teardown_slots]
    simp [Slots.held]
  refine ⟨?_, ?_, ok.calls, dropped.calls, fun k n => ⟨none_left k n, none_left k n⟩⟩
  · intro i
    rw [ok.counts, List.append_nil]
    exact Slots.count_held_image _ i
  · intro e
    rw [ok.counts, List.append_nil]
    exact Slots.count_held_environment _ e

theorem references_follow_slots_session :
    ∃ p q : Player Float Recording,
      Player.create { resolution := ⟨512, 512⟩ } Config.default = .ok p ∧
      q ∈ p :: p.visitsAll [.setSource "forward(1)", .refresh 0.0, .setSource "forward(",
        .batch [.refresh 16.0, .stop, .batch [.load]], .teardown] ∧
      (∀ i : Image, q.holdings.engine.refs .image i.number =
        [q.holdings.slots.pending, q.holdings.slots.active].count (some i)) ∧
      ∀ k n, q.drop.engine.refs k n = 0 := by
  let p : Player Float Recording := opening { resolution := ⟨512, 512⟩ }
  let loaded := (p.edit (.setSource "forward(1)")).2
  let drawn := (loaded.edit (.refresh 0.0)).2
  let broken := (drawn.edit (.setSource "forward(")).2
  let stopped := ((broken.openBatch.edit (.refresh 16.0)).2.edit .stop).2
  have created : Player.create { resolution := ⟨512, 512⟩ } Config.default = .ok p :=
    create_opening rfl
  have visited : stopped ∈ p :: p.visitsAll [.setSource "forward(1)", .refresh 0.0,
      .setSource "forward(", .batch [.refresh 16.0, .stop, .batch [.load]], .teardown] := by
    simp [visitsAll, visits, stopped, broken, drawn, loaded]
  have balanced := references_follow_slots created visited
  exact ⟨p, stopped, created, visited, balanced.1, fun k n => (balanced.2.2.2.2 k n).2⟩

end Player

end TurtlePlayback.Session
