import TurtlePlayback.Proofs.FrameRequests
import TurtlePlayback.Session.Display

/-!
Requests and their answers. A scheduler has asked its host once for every frame that it has run and
once for the frame that it waits for. A display that answers every request, and nothing else, keeps
in step with the scheduler of its player, however often the player asks and in the middle of what.
-/

namespace TurtlePlayback.Playback.Scheduler

inductive Call (τ : Type)
  | schedule
  | beginFrame (now : τ)
  | finishFrame
  | onRefresh (now : τ) (calls : List (Call τ))

section

variable {τ : Type} [Time τ]

mutual

def call (s : Scheduler τ) : Call τ → Scheduler τ
  | .schedule => s.schedule.2
  | .beginFrame now => (s.beginFrame now).2
  | .finishFrame => s.finishFrame
  | .onRefresh now calls => (s.onRefresh now fun _ s => ((), s.callAll calls)).2

def callAll (s : Scheduler τ) : List (Call τ) → Scheduler τ
  | [] => s
  | c :: calls => (s.call c).callAll calls

end

end

variable {τ : Type} {s t u : Scheduler τ} {host : Host}

/-- Every request has become a frame but the one that waits, and the host has heard of each. -/
structure Matched (host : Host) (s : Scheduler τ) : Prop where
  requests : s.requests = s.frames + if s.pending then 1 else 0
  total : s.host.total = host.total + s.requests

namespace Matched

theorem empty (host : Host) : Matched host ({ host } : Scheduler τ) :=
  ⟨rfl, rfl⟩

theorem schedule (matched : s.Matched host) : s.schedule.2.Matched host := by
  obtain ⟨requests, total⟩ := matched
  by_cases waiting : s.pending = true
  · constructor
    · simp only [Scheduler.schedule, waiting] at requests ⊢
      split <;> simpa [waiting] using requests
    · simp only [Scheduler.schedule, waiting]
      split <;> exact total
  · constructor
    · simp only [Scheduler.schedule, waiting] at requests ⊢
      split <;> simpa using requests
    · simp only [Scheduler.schedule, waiting, Host.request]
      split <;> simp [total, Nat.add_assoc]

theorem beginFrame [Time τ] (matched : s.Matched host) (now : τ) :
    (s.beginFrame now).2.Matched host := by
  obtain ⟨requests, total⟩ := matched
  simp only [Scheduler.beginFrame]
  split
  · next waiting =>
    rw [if_pos waiting] at requests
    exact ⟨requests, total⟩
  · exact ⟨requests, total⟩

theorem finishFrame (matched : s.Matched host) : s.finishFrame.Matched host :=
  ⟨matched.requests, matched.total⟩

variable [Time τ]

mutual

theorem call {s : Scheduler τ} (matched : s.Matched host) (c : Call τ) :
    (s.call c).Matched host := by
  cases c with
  | schedule =>
    rw [Scheduler.call]
    exact matched.schedule
  | beginFrame now =>
    rw [Scheduler.call]
    exact matched.beginFrame now
  | finishFrame =>
    rw [Scheduler.call]
    exact matched.finishFrame
  | onRefresh now calls =>
    have begun := matched.beginFrame now
    rw [Scheduler.call, Scheduler.onRefresh]
    split
    · next idle =>
      rw [idle] at begun
      exact begun
    · next started =>
      rw [started] at begun
      exact (begun.callAll calls).finishFrame

theorem callAll {s : Scheduler τ} (matched : s.Matched host) (calls : List (Call τ)) :
    (s.callAll calls).Matched host := by
  cases calls with
  | nil =>
    rw [Scheduler.callAll]
    exact matched
  | cons c calls =>
    rw [Scheduler.callAll]
    exact (matched.call c).callAll calls

end

end Matched

def Scheduled (s t : Scheduler τ) : Prop :=
  t = s ∨ t = s.schedule.2

theorem schedule_schedule (s : Scheduler τ) : s.schedule.2.schedule.2 = s.schedule.2 := by
  by_cases inside : s.inFrame = true
  · by_cases waiting : s.pending = true <;> simp [schedule, inside, waiting]
  · by_cases waiting : s.pending = true <;> simp [schedule, inside, waiting]

theorem Scheduled.refl (s : Scheduler τ) : s.Scheduled s :=
  .inl rfl

theorem Scheduled.schedule (s : Scheduler τ) : s.Scheduled s.schedule.2 :=
  .inr rfl

theorem Scheduled.trans (h : s.Scheduled t) (k : t.Scheduled u) : s.Scheduled u := by
  rcases h with rfl | rfl
  · exact k
  · rcases k with rfl | rfl
    · exact .inr rfl
    · exact .inr s.schedule_schedule

structure Level (host : Host) (s : Scheduler τ) : Prop extends s.Matched host where
  requested : s.host.requested = s.pending

theorem Level.schedule (level : s.Level host) : s.schedule.2.Level host := by
  refine ⟨level.toMatched.schedule, ?_⟩
  have requested := level.requested
  by_cases waiting : s.pending = true
  · simp only [Scheduler.schedule, waiting] at requested ⊢
    split <;> simp [requested, waiting]
  · simp only [Scheduler.schedule, waiting, Host.request]
    split <;> rfl

theorem Level.scheduled (level : s.Level host) (later : s.Scheduled t) : t.Level host := by
  rcases later with rfl | rfl
  · exact level
  · exact level.schedule

theorem schedule_frames (s : Scheduler τ) : s.schedule.2.frames = s.frames := by
  simp only [Scheduler.schedule]
  split <;> split <;> rfl

theorem Scheduled.frames (later : s.Scheduled t) : t.frames = s.frames := by
  rcases later with rfl | rfl
  · rfl
  · exact s.schedule_frames

def taken (s : Scheduler τ) : Scheduler τ :=
  { s with host := s.host.take.2 }

theorem Level.taken_idle (level : s.Level host) (idle : s.host.requested = false) :
    s.taken.Level host := by
  refine ⟨⟨level.requests, level.total⟩, ?_⟩
  exact idle.symm.trans level.requested

theorem Level.taken_waiting [Time τ] (level : s.Level host) (waiting : s.host.requested = true)
    (now : τ) : ∃ elapsed t, s.taken.beginFrame now = (some elapsed, t) ∧ t.Level host ∧
      t.frames = s.frames + 1 := by
  have pending : s.taken.pending = true := level.requested.symm.trans waiting
  have matched : s.taken.Matched host := ⟨level.requests, level.total⟩
  have begun := matched.beginFrame now
  simp only [Scheduler.beginFrame, pending, ↓reduceIte] at begun ⊢
  exact ⟨_, _, rfl, ⟨begun, rfl⟩, rfl⟩

end TurtlePlayback.Playback.Scheduler

namespace TurtlePlayback.Session

open Canvas Playback Scheduler

namespace Player

variable {τ σ : Type}

theorem closeBatch_scheduled (p : Player τ σ) :
    p.scheduler.Scheduled p.closeBatch.scheduler := by
  simp only [closeBatch]
  split
  · split
    · exact .refl _
    · exact .schedule _
  · exact .refl _
  · exact .refl _

variable [Time τ]

theorem batch_asks (p : Player τ σ) {α : Type} (f : Player τ σ → α × Player τ σ) :
    (f p.openBatch).2.scheduler.Scheduled (p.batch f).2.scheduler := by
  simp only [batch]
  split
  · exact closeBatch_scheduled _
  · exact closeBatch_scheduled (f p.openBatch).2.markClock

theorem batch_scheduled {α : Type} {p : Player τ σ} {f : Player τ σ → α × Player τ σ}
    (body : p.scheduler.Scheduled (f p.openBatch).2.scheduler) :
    p.scheduler.Scheduled (p.batch f).2.scheduler :=
  body.trans (batch_asks p f)

theorem update_scheduled {p : Player τ σ} {f : Player τ σ → Player τ σ}
    (body : p.scheduler.Scheduled (f p.openBatch).scheduler) :
    p.scheduler.Scheduled (p.update f).scheduler :=
  batch_scheduled (f := fun p => ((), f p)) body

variable [Surface σ]

omit [Time τ] in
theorem applyViewport_scheduler (p : Player τ σ) (v : Viewport) (r : Resolution) :
    (p.applyViewport v r).2.scheduler = p.scheduler := by
  simp only [applyViewport]
  split
  · split <;> rfl
  · rfl

theorem runFrame_scheduled (p : Player τ σ) (elapsed : τ) :
    p.scheduler.Scheduled (p.runFrame elapsed).scheduler := by
  by_cases visible : p.visible.value = true
  · have same : (p.runFrame elapsed).scheduler = (p.tick elapsed).2.scheduler :=
      congrArg Control.scheduler (runFrame_control visible elapsed)
    rw [same]
    simp only [tick]
    split
    · exact .schedule _
    · exact .refl _
  · simp only [runFrame, visible]
    exact .refl _

theorem frame_scheduled (p : Player τ σ) (elapsed : τ) :
    p.scheduler.Scheduled (p.frame elapsed).scheduler :=
  update_scheduled (runFrame_scheduled p.openBatch elapsed)

mutual

theorem edit_scheduled (p : Player τ σ) (e : Edit τ) (quiet : e.isQuiet = true) :
    p.scheduler.Scheduled (p.edit e).2.scheduler := by
  cases e with
  | setSource s => exact update_scheduled (.refl _)
  | switchScript s => exact update_scheduled (.refl _)
  | setVisible b => exact update_scheduled (.refl _)
  | setViewport v =>
    simp only [edit, setViewport]
    split
    · exact .refl _
    · exact .refl _
    · apply batch_scheduled
      rw [applyViewport_scheduler]
      exact .refl _
  | setSpeed n =>
    simp only [edit, setSpeed]
    split
    · exact .refl _
    · exact update_scheduled (.refl _)
  | play => exact update_scheduled (.refl _)
  | pause => exact update_scheduled (.refl _)
  | playPause => exact update_scheduled (.refl _)
  | stop => exact update_scheduled (.schedule _)
  | restart => exact update_scheduled (.schedule _)
  | load =>
    simp only [edit, load]
    apply batch_scheduled
    split
    · exact .schedule _
    · exact .refl _
  | setBounds a b =>
    simp only [edit, setBounds]
    apply batch_scheduled
    split <;> exact .refl _
  | setMode m => exact update_scheduled (.refl _)
  | teardown => exact .refl _
  | frame elapsed => exact frame_scheduled p elapsed
  | refresh now => simp [Edit.isQuiet] at quiet
  | batch es =>
    rw [Edit.isQuiet] at quiet
    exact batch_scheduled (f := fun q => q.editAll es) (editAll_scheduled p.openBatch es quiet)

theorem editAll_scheduled (p : Player τ σ) (es : List (Edit τ)) (quiet : Edit.areQuiet es = true) :
    p.scheduler.Scheduled (p.editAll es).2.scheduler := by
  cases es with
  | nil => exact .refl _
  | cons e es =>
    rw [Edit.areQuiet, Bool.and_eq_true] at quiet
    exact (edit_scheduled p e quiet.1).trans (editAll_scheduled (p.edit e).2 es quiet.2)

end

end Player

variable {τ σ : Type} [Time τ] [Surface σ]

/-- From a display and its player to what becomes of them while nobody else answers the requests of
the player. Within a batch the display may be refreshed as well. -/
inductive Driven : Display τ → Player τ σ → Display τ → Player τ σ → Prop
  | start (d : Display τ) (p : Player τ σ) : Driven d p d p
  | edited {d d' : Display τ} {p q : Player τ σ} (e : Edit τ) (quiet : e.isQuiet = true) :
    Driven d p d' q → Driven d p d' (q.edit e).2
  | subscribed {d d' : Display τ} {p q : Player τ σ} (mask : ChangeSet) :
    Driven d p d' q → Driven d p d' (q.subscribe mask).2
  | unsubscribed {d d' : Display τ} {p q : Player τ σ} (id : Nat) :
    Driven d p d' q → Driven d p d' (q.unsubscribe id).2
  | refreshed {d d' : Display τ} {p q : Player τ σ} :
    Driven d p d' q → Driven d p (d'.refresh q).2.1 (d'.refresh q).2.2
  | ranFor {d d' : Display τ} {p q : Player τ σ} (seconds : τ) :
    Driven d p d' q → Driven d p (d'.runFor q seconds).2.1 (d'.runFor q seconds).2.2
  | ranFrames {d d' : Display τ} {p q : Player τ σ} (count : Nat) :
    Driven d p d' q → Driven d p (d'.runFrames q count).2.1 (d'.runFrames q count).2.2
  | opened {d d' : Display τ} {p q : Player τ σ} :
    Driven d p d' q → Driven d p d' q.openBatch
  | batched {d d' d'' : Display τ} {p q r : Player τ σ} :
    Driven d p d' q → Driven d' q.openBatch d'' r → Driven d p d'' (q.batch fun _ => ((), r)).2

namespace Display

variable {d : Display τ} {p : Player τ σ} {host : Host}

theorem refresh_taken {elapsed : τ} {s : Scheduler τ} (requested : p.scheduler.host.requested = true)
    (begun : p.scheduler.taken.beginFrame (d.now + d.interval) = (some elapsed, s)) :
    d.refresh p = (true, { d with now := d.now + d.interval },
      { Player.frame { p with scheduler := s } elapsed with
        scheduler := (Player.frame { p with scheduler := s } elapsed).scheduler.finishFrame }) := by
  simp only [Scheduler.taken, Host.take] at begun
  simp only [refresh, Host.take, requested, ↓reduceIte, Player.refresh, begun]

theorem refresh_level (level : p.scheduler.Level host) (d : Display τ) :
    (d.refresh p).1 = p.scheduler.host.requested ∧
      (d.refresh p).2.2.scheduler.Level host ∧
      (d.refresh p).2.2.scheduler.frames =
        p.scheduler.frames + if p.scheduler.host.requested then 1 else 0 := by
  cases requested : p.scheduler.host.requested with
  | false =>
    have idle := level.taken_idle requested
    simp only [refresh, Host.take, requested]
    exact ⟨rfl, idle, rfl⟩
  | true =>
    obtain ⟨elapsed, s, begun, level', frames⟩ :=
      level.taken_waiting requested (d.now + d.interval)
    have framed := Player.frame_scheduled { p with scheduler := s } elapsed
    have behind := level'.scheduled framed
    rw [refresh_taken requested begun]
    refine ⟨rfl, ⟨behind.toMatched.finishFrame, behind.requested⟩, ?_⟩
    exact framed.frames.trans frames

theorem runUntil_level (level : p.scheduler.Level host) (d : Display τ) (limit : τ)
    (summary : RunSummary τ) (n : Nat) :
    (d.runUntil limit p summary n).2.2.scheduler.Level host := by
  induction n generalizing d p summary with
  | zero => exact level
  | succ n ih =>
    simp only [runUntil]
    split
    · split
      · exact ih (refresh_level level d).2.1 _ _
      · exact level
    · exact level

theorem runFrames_level (level : p.scheduler.Level host) (d : Display τ) (count : Nat) :
    (d.runFrames p count).2.2.scheduler.Level host := by
  induction count generalizing d p with
  | zero => exact level
  | succ n ih =>
    have refreshed := (refresh_level level d).2.1
    simp only [runFrames]
    split
    · split
      · next ran =>
        rw [ran] at refreshed
        exact ih refreshed _
      · next idle =>
        rw [idle] at refreshed
        exact refreshed
    · exact level

end Display

theorem Driven.level {d d' : Display τ} {p q : Player τ σ} {host : Host} (driven : Driven d p d' q)
    (level : p.scheduler.Level host) : q.scheduler.Level host := by
  induction driven with
  | start => exact level
  | edited e quiet _ ih => exact (ih level).scheduled (Player.edit_scheduled _ e quiet)
  | subscribed mask _ ih => exact ih level
  | unsubscribed id _ ih => exact ih level
  | refreshed _ ih => exact (Display.refresh_level (ih level) _).2.1
  | ranFor seconds _ ih => exact Display.runUntil_level (ih level) _ _ _ _
  | ranFrames count _ ih => exact Display.runFrames_level (ih level) _ count
  | opened _ ih => exact ih level
  | batched _ _ ih inside => exact (inside (ih level)).scheduled (Player.batch_asks _ _)

/-- Of a scheduler that is used in any way, and of a player whose display alone answers it. -/
theorem requests_answered :
    (∀ (host : Host) (calls : List (Scheduler.Call τ)),
      let s := Scheduler.callAll { host } calls
      s.requests = s.frames + (if s.pending then 1 else 0) ∧
        s.host.total = host.total + s.requests) ∧
    ∀ {surface : σ} {c : Config τ} {p q : Player τ σ} {d d' : Display τ},
      Player.create surface c = .ok p → Driven d p d' q →
      q.scheduler.host.requested = q.scheduler.pending ∧
      (d'.refresh q).1 = q.scheduler.host.requested ∧
      (d'.refresh q).2.2.scheduler.frames =
        q.scheduler.frames + if q.scheduler.host.requested then 1 else 0 := by
  constructor
  · intro host calls
    have matched := (Scheduler.Matched.empty host).callAll calls
    exact ⟨matched.requests, matched.total⟩
  · intro surface c p q d d' created driven
    have fresh : p.scheduler.Level {} := by
      obtain ⟨s, clock, r, rfl⟩ := Player.create_eq created
      exact ⟨.empty {}, rfl⟩
    have level := driven.level fresh
    obtain ⟨delivers, -, frames⟩ := Display.refresh_level level d'
    exact ⟨level.requested, delivers, frames⟩

theorem requests_answered_inside :
    ∃ (p q : Player Float Recording) (d d' : Display Float),
      Player.create { resolution := ⟨512, 512⟩ } Config.default = .ok p ∧ Driven d p d' q ∧
      q.scheduler.frames = 2 ∧ q.scheduler.pending = false ∧
      q.scheduler.host.requested = q.scheduler.pending ∧
      (d'.refresh q).1 = q.scheduler.host.requested := by
  let p : Player Float Recording := Player.opening { resolution := ⟨512, 512⟩ }
  let d : Display Float := ⟨16.0, 0.0⟩
  let loaded := (p.edit (.setSource "print(true)")).2
  let inside := (d.refresh loaded.openBatch).2
  let paused := ((loaded.batch fun _ => ((), (inside.2.edit .pause).2)).2)
  let after := (inside.1.runFrames paused 9).2
  have created : Player.create { resolution := ⟨512, 512⟩ } Config.default = .ok p :=
    Player.create_opening rfl
  have driven : Driven d p after.1 after.2 := by
    apply Driven.ranFrames
    apply Driven.batched (.edited _ rfl (.start d p))
    exact .edited .pause rfl (.refreshed (.start d loaded.openBatch))
  have counts : after.2.scheduler.frames = 2 ∧ after.2.scheduler.pending = false := by
    decide +kernel
  obtain ⟨level, delivers, -⟩ := requests_answered.2 created driven
  exact ⟨p, after.2, d, after.1, created, driven, counts.1, counts.2, level, delivers⟩

end TurtlePlayback.Session
