import TurtlePlayback.Playback.Signal

/-!
Who is told of changes. Changes are marked as they happen; marks made in a batch come out together
when the outermost batch closes. Deliveries are kept in their order.
-/

namespace TurtlePlayback.Playback

structure Subscription where
  id : Nat
  mask : ChangeSet
  deriving DecidableEq, Repr

structure Delivery where
  subscriber : Nat
  changes : ChangeSet
  deriving DecidableEq, Repr

structure Observers where
  depth : Nat := 0
  pending : ChangeSet := .empty
  subscriptions : List Subscription := []
  nextId : Nat := 0
  deliveries : Array Delivery := #[]

inductive BatchFault
  | notBegun
  deriving DecidableEq, Repr

def BatchFault.message : BatchFault → String
  | notBegun => "end_batch without begin_batch"

namespace Observers

def subscribe (o : Observers) (mask : ChangeSet) : Nat × Observers :=
  (o.nextId, { o with
    nextId := o.nextId + 1, subscriptions := o.subscriptions ++ [⟨o.nextId, mask⟩] })

def unsubscribe (o : Observers) (id : Nat) : Bool × Observers :=
  let rest := o.subscriptions.filter (·.id != id)
  (rest.length != o.subscriptions.length, { o with subscriptions := rest })

def mark (o : Observers) (s : Signal) : Observers :=
  { o with pending := o.pending.insert s }

def markIf (o : Observers) (happened : Bool) (s : Signal) : Observers :=
  if happened then o.mark s else o

def inBatch (o : Observers) : Bool :=
  0 < o.depth

def beginBatch (o : Observers) : Observers :=
  { o with depth := o.depth + 1 }

def endBatch (o : Observers) : Except BatchFault (Option ChangeSet × Observers) :=
  match o.depth with
  | 0 => .error .notBegun
  | 1 => .ok (some o.pending, { o with depth := 0, pending := .empty })
  | n + 2 => .ok (none, { o with depth := n + 1 })

def notify (o : Observers) (changes : ChangeSet) : Observers :=
  let told := o.subscriptions.filter (·.mask.intersects changes)
  { o with deliveries := o.deliveries ++ (told.map (⟨·.id, changes⟩)).toArray }

def describe (o : Observers) : String :=
  s!"Observers \x7b depth: {o.depth}, pending: {o.pending.describe}, subscribers: {o.subscriptions.length} \x7d"

def describeId (id : Nat) : String :=
  s!"SubscriptionId({id})"

end Observers

end TurtlePlayback.Playback
