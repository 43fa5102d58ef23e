import TurtlePlayback.Proofs.JournalMoments
import TurtlePlayback.Proofs.PlayerMoves

namespace TurtlePlayback.Artifact

/-- At most one environment is alive. One that is in the slot was started from the active image,
which is alive, and from no other. -/
structure Moment.Attached (m : Moment) : Prop where
  single : m.engine.environments.live ≤ 1
  owned : ∀ r, m.slots.environment = some r → ∃ image, m.slots.active = some image ∧
    0 < m.engine.refs .image image.number ∧ .start image (some r) ∈ m.past ∧
    ∀ other, .start other (some r) ∈ m.past → other = image

def ofEnvironment (r : Reference) : Bool :=
  r.1 = .environment

theorem countP_image (image : Option Image) : (references image).countP ofEnvironment = 0 := by
  cases image <;> rfl

theorem Engine.Calls.last {g g' g'' : Engine} {events : List Event} {e : Event}
    (before : Calls g events g') (all : Calls g (events ++ [e]) g'') : Call g' e g'' := by
  generalize same : events ++ [e] = events' at all
  cases all with
  | nil => simp at same
  | snoc calls call =>
    obtain ⟨rfl, last⟩ := List.append_inj' same rfl
    obtain rfl := List.singleton_inj.mp last
    rw [← before.foldl_after, calls.foldl_after]
    exact call

namespace Holdings

structure Owns (h : Holdings) (loose : List Reference) : Prop where
  account : h.Accounted loose
  single : (h.slots.held ++ loose).countP ofEnvironment ≤ 1
  owned : ∀ r, h.slots.environment = some r → ∃ image, h.slots.active = some image ∧
    .start image (some r) ∈ h.events

structure Attached (h : Holdings) (loose : List Reference) : Prop extends h.Owns loose where
  moments : ∀ m ∈ momentsFrom {} [] h.journal.toList, m.Attached
  steps : ∀ record ∈ h.journal, ∀ r, record.event = .step r → record.slots.environment = some r

variable {h h' : Holdings} {loose : List Reference}

namespace Owns

theorem live_le_one (ok : h.Owns loose) : h.engine.environments.live ≤ 1 := by
  apply Table.live_le_one
  intro m n hm hn
  have held (k : Nat) (alive : 0 < h.engine.environments.refs k) :
      (ResourceKind.environment, k) ∈ (h.slots.held ++ loose).filter ofEnvironment := by
    have count : 0 < (h.slots.held ++ loose).count (.environment, k) := by
      rw [← ok.account.counts]
      exact alive
    exact List.mem_filter.mpr ⟨List.count_pos_iff.mp count, rfl⟩
  have short := ok.single
  rw [List.countP_eq_length_filter] at short
  have in_m := held m hm
  have in_n := held n hn
  match filtered : (h.slots.held ++ loose).filter ofEnvironment with
  | [] => simp [filtered] at in_m
  | [r] =>
    rw [filtered, List.mem_singleton] at in_m in_n
    exact congrArg Prod.snd (in_m.trans in_n.symm)
  | _ :: _ :: _ =>
    rw [filtered] at short
    simp at short

theorem present (ok : h.Owns loose) : h.present.Attached where
  single := ok.live_le_one
  owned := by
    intro r filled
    obtain ⟨image, active, started⟩ := ok.owned r filled
    have alive : 0 < h.engine.refs .image image.number :=
      ok.account.alive (List.mem_append_left _ (by simp [Slots.held, active, Handle.reference]))
    refine ⟨image, active, alive, started, ?_⟩
    intro other again
    have same := ok.account.calls.started_once again started rfl rfl
    exact (Event.start.inj same).1

end Owns

namespace Attached

theorem empty : Attached {} [] where
  account := .empty
  single := Nat.zero_le 1
  owned := nofun
  moments := nofun
  steps := by simp

theorem note {loose' : List Reference} {e : Event} {g : Engine} (ok : h.Attached loose)
    (account : (h.note e g).Accounted loose')
    (single : (h.slots.held ++ loose').countP ofEnvironment ≤ 1)
    (stepped : ∀ r, e = .step r → h.slots.environment = some r) : (h.note e g).Attached loose' := by
  have calls := account.calls
  rw [events_note] at calls
  have after : (h.note e g).Owns loose' := by
    refine ⟨account, single, ?_⟩
    intro r filled
    obtain ⟨image, active, started⟩ := ok.owned r filled
    rw [events_note]
    exact ⟨image, active, List.mem_append_left _ started⟩
  refine ⟨after, ?_, ?_⟩
  · have call : h.engine.Call e g := ok.account.calls.last calls
    rw [momentsFrom_note ok.account.calls call]
    intro m member
    simp only [List.mem_append, List.mem_cons, List.not_mem_nil, or_false] at member
    rcases member with before | rfl | rfl
    · exact ok.moments m before
    · exact ok.present
    · exact after.present
  · intro record member r same
    rcases Array.mem_push.mp member with before | rfl
    · exact ok.steps record before r same
    · exact stepped r same

theorem assign {s : Slots} {loose' : List Reference} (ok : h.Attached loose)
    (moved : (s.held ++ loose').Perm (h.slots.held ++ loose))
    (owned : ∀ r, s.environment = some r → ∃ image, s.active = some image ∧
      .start image (some r) ∈ h.events) : Attached { h with slots := s } loose' where
  account := ⟨fun k n => (ok.account.counts k n).trans (moved.count_eq (k, n)).symm, ok.account.calls⟩
  single := (moved.countP_eq ofEnvironment) ▸ ok.single
  owned := owned
  moments := ok.moments
  steps := ok.steps

theorem everywhere (ok : h.Attached loose) : ∀ m ∈ h.moments, m.Attached := by
  intro m member
  rw [Holdings.moments, List.mem_append, List.mem_singleton] at member
  rcases member with before | rfl
  · exact ok.moments m before
  · exact ok.present

theorem noteClear (ok : h.Attached loose) : h.noteClear.Attached loose :=
  ok.note ok.account.noteClear ok.single nofun

theorem compile (ok : h.Attached loose) (source : String) :
    (h.compile source).2.Attached (references (h.compile source).1.toOption ++ loose) := by
  apply ok.note (ok.account.compile source) ?_ nofun
  have old := ok.single
  simp only [List.countP_append, countP_image] at old ⊢
  omega

theorem start {image : Image} (ok : h.Attached [])
    (idle : h.slots.environment = none) (active : h.slots.active = some image) :
    (h.start image).2.Attached
      (references ((h.start image).1.toOption.map (·.environment))) := by
  have account : (h.start image).2.Accounted _ := ok.account.start (by simp [Slots.held, active])
  rw [List.append_nil] at account
  apply ok.note account ?_ (by simp)
  rw [Slots.held, idle]
  simp only [List.countP_append, countP_image, references_none, List.countP_nil]
  cases (h.start image).1.toOption.map (·.environment) with
  | none => exact Nat.zero_le 1
  | some r => exact Nat.le_refl 1

theorem step {r : Running} (ok : h.Attached loose) (running : h.slots.environment = some r) :
    (h.step r).2.Attached loose := by
  apply ok.note (ok.account.step (by simp [Slots.held, running])) ok.single
  rintro _ ⟨⟩
  exact running

theorem retain {image : Image} (ok : h.Attached loose)
    (owned : image.reference ∈ h.slots.held ++ loose) :
    (h.retain image).Attached (image.reference :: loose) := by
  apply ok.note (ok.account.retain owned) ?_ nofun
  have old := ok.single
  rw [List.countP_append] at old ⊢
  exact old

theorem release {k : ResourceKind} {r : Handle k} (ok : h.Attached (r.reference :: loose)) :
    (h.release r).Attached loose := by
  apply ok.note ok.account.release ?_ nofun
  have old := ok.single
  simp only [List.countP_append, List.countP_cons] at old ⊢
  omega

theorem releaseAny {k : ResourceKind} {r : Option (Handle k)}
    (ok : h.Attached (references r ++ loose)) : (h.releaseAny r).Attached loose := by
  cases r with
  | none => exact ok
  | some r => exact ok.release

theorem assignPending (image : Option Image) (ok : h.Attached (references image ++ loose)) :
    (h.assignPending image).Attached loose := by
  simp only [Holdings.assignPending]
  split
  · exact ok.releaseAny
  · apply releaseAny
    refine ok.assign (s := { h.slots with pending := image }) ?_ ok.owned
    rw [List.perm_iff_count]
    intro r
    simp only [Slots.held, List.count_append]
    omega

theorem assignActive (image : Option Image) (ok : h.Attached (references image ++ loose))
    (idle : h.slots.active = image ∨ h.slots.environment = none) :
    (h.assignActive image).2.Attached loose := by
  simp only [Holdings.assignActive]
  split
  · exact ok.releaseAny
  · apply releaseAny
    apply ok.assign ?_ ?_
    · rw [List.perm_iff_count]
      intro r
      simp only [Slots.held, List.count_append]
      omega
    · intro r filled
      rcases idle with same | empty
      · rw [← same]
        exact ok.owned r filled
      · rw [empty] at filled
        cases filled

theorem clearEnvironment (ok : h.Attached loose) : h.clearEnvironment.2.Attached loose := by
  simp only [Holdings.clearEnvironment]
  apply releaseAny
  refine ok.assign (s := { h.slots with environment := none }) ?_ (by simp)
  rw [List.perm_iff_count]
  intro r
  simp only [Slots.held, List.count_append, references_none, List.count_nil]
  omega

theorem setEnvironment {r : Running} {image : Image} (ok : h.Attached (r.reference :: loose))
    (active : h.slots.active = some image) (started : .start image (some r) ∈ h.events) :
    (h.setEnvironment r).Attached loose := by
  simp only [Holdings.setEnvironment]
  apply releaseAny
  apply ok.assign ?_ ?_
  · rw [List.perm_iff_count]
    intro r'
    simp only [Slots.held, List.count_append, List.count_cons, references_some, List.count_nil]
    omega
  · intro r' filled
    obtain rfl := Option.some.inj filled
    exact ⟨image, active, started⟩

theorem setActive (image : Option Image) (ok : h.Attached (references image ++ loose)) :
    (h.setActive image).2.Attached loose := by
  simp only [Holdings.setActive]
  split
  · next same => exact assignActive image ok (.inl same)
  · apply assignActive image ok.clearEnvironment
    rw [clearEnvironment_slots]
    exact .inr rfl

theorem promote (ok : h.Attached loose) : (h.promote .share).2.Attached loose := by
  simp only [Holdings.promote]
  split
  · exact ok
  · next image pending =>
    apply setActive (some image)
    exact ok.retain (by simp [Slots.held, pending])

theorem teardown (ok : h.Attached loose) : h.teardown.Attached loose := by
  have idle : h.clearEnvironment.2.slots.environment = none := by rw [clearEnvironment_slots]
  exact assignPending none (assignActive none ok.clearEnvironment (.inr idle))

end Attached

end Holdings

end TurtlePlayback.Artifact

namespace TurtlePlayback.Session

open Artifact Canvas Playback

theorem Move.attached {h h' : Holdings} (move : Move h h') (ok : h.Attached []) :
    h'.Attached [] := by
  cases move with
  | clearCanvas => exact ok.noteClear
  | clearEnvironment => exact ok.clearEnvironment
  | clearActive => exact ok.setActive none
  | clearPending => exact ok.assignPending none
  | promote => exact ok.promote
  | teardown => exact ok.teardown
  | @compiled h' source image done =>
    have result := ok.compile source
    rw [done] at result
    exact result.assignPending (some image)
  | @rejected h' source f failed =>
    have result := ok.compile source
    rw [failed] at result
    exact result.assignPending none
  | @started h' image s idle active done =>
    have result := ok.start idle active
    have noted := Holdings.start_eq h image
    rw [done] at result noted
    obtain ⟨answer, rfl⟩ := Prod.mk.inj noted
    refine result.setEnvironment active ?_
    rw [Holdings.events_note, ← answer]
    exact List.mem_append_right _ (List.mem_singleton_self _)
  | @notStarted h' image f idle active failed =>
    have result := ok.start idle active
    rw [failed] at result
    exact result
  | stepped running => exact ok.step running

namespace Player

variable {τ σ : Type} [Time τ] [Surface σ]

/-- At every moment between two calls at most one environment is alive, and the one in its slot was
started from the active image; and every step is one of the environment in the slot. -/
theorem environment_of_active {surface : σ} {c : Config τ} {p q : Player τ σ} {es : List (Edit τ)}
    (created : Player.create surface c = .ok p) (visited : q ∈ p :: p.visitsAll es) :
    ∀ h ∈ [q.holdings, q.drop], (∀ m ∈ h.moments, m.Attached) ∧
      ∀ record ∈ h.journal, ∀ r, record.event = .step r →
        record.slots.environment = some r := by
  obtain ⟨s, clock, resolution, made⟩ := create_eq created
  have moves : Moves p.holdings q.holdings := by
    rcases List.mem_cons.mp visited with rfl | later
    · exact .refl
    · exact visited_moves later
  have fresh : p.holdings = {} := by rw [made]
  have kept : q.holdings.Attached [] := moves.preserve Move.attached (fresh ▸ .empty)
  intro h member
  have ok : h.Attached [] := by
    simp only [List.mem_cons, List.not_mem_nil, or_false] at member
    rcases member with rfl | rfl
    · exact kept
    · exact kept.teardown
  exact ⟨ok.everywhere, ok.steps⟩

theorem environment_of_active_frame :
    ∃ p q : Player Float Recording, ∃ r : Running,
      Player.create { resolution := ⟨512, 512⟩ } Config.default = .ok p ∧
      q ∈ p :: p.visitsAll [.setSource "print(true)", .batch [.refresh 0.0, .setSource "print("]] ∧
      q.holdings.slots.environment = some r ∧ q.holdings.present ∈ q.holdings.moments ∧
      ∃ image, q.holdings.slots.active = some image ∧ .start image (some r) ∈ q.holdings.events := by
  let p : Player Float Recording := opening { resolution := ⟨512, 512⟩ }
  let loaded := (p.edit (.setSource "print(true)")).2
  let drawn := (loaded.openBatch.edit (.refresh 0.0)).2
  have created : Player.create { resolution := ⟨512, 512⟩ } Config.default = .ok p :=
    create_opening rfl
  have visited : drawn ∈ p :: p.visitsAll
      [.setSource "print(true)", .batch [.refresh 0.0, .setSource "print("]] := by
    simp [visitsAll, visits, drawn, loaded]
  have running : drawn.holdings.slots.environment = some ⟨1⟩ := by decide +kernel
  have now : drawn.holdings.present ∈ drawn.holdings.moments :=
    List.mem_append_right _ (List.mem_singleton_self _)
  have attached := (environment_of_active created visited drawn.holdings (List.mem_cons_self ..)).1
  obtain ⟨image, active, -, started, -⟩ := (attached _ now).owned ⟨1⟩ running
  exact ⟨p, drawn, ⟨1⟩, created, visited, running, now, image, active, started⟩

end Player

end TurtlePlayback.Session
