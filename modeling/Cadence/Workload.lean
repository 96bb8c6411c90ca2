import Cadence.FramePool
import Cadence.Lock.Shared
import Cadence.Lock.Inheriting
import Cadence.Memory.Bytes
import Cadence.Ring
import Cadence.TicketQueue

/-!
Workloads that many parties share. Each is one fair order of events among the many possible ones;
what it comes to is the same in all of them, which is the point of the structures under it.
-/

namespace Cadence.Workload

/-- Parties that count under one lock, round after round. -/
def countUnderLock (parties rounds : Nat) : SharedLock parties :=
  (List.range rounds).foldl (fun c _ =>
    (List.finRange parties).foldl (fun c i => ((c.acquire i .forever).1.add i 1).release i) c)
    (.start parties)

/-- The same under a lock of one program's threads. -/
def countUnderInheriting (parties rounds : Nat) : UInt64 :=
  let visit (s : InheritingLock × UInt64) (i : ThreadId) : InheritingLock × UInt64 :=
    match s.1.lock i with
    | (l, .yes) => ((l.drop i).1, s.2 + 1)
    | (l, _) => (l, s.2)
  ((List.range rounds).foldl (fun s _ => (List.range parties).foldl visit s) ({}, 0)).2

/-- An item by its producer and its place among the producer's items. -/
abbrev Item := Nat × Nat

/-- The items of all producers, who take turns. -/
def items (producers each : Nat) : List Item :=
  (List.range each).flatMap fun k => (List.range producers).map fun p => (p, k)

/-- A bounded queue as its users see it. -/
structure Channel (σ : Type) where
  offer : σ → Item → σ × Bool
  take : σ → σ × Option Item

/-- Offers items in order. Whenever one is refused, the consumer takes an item first. At the end the
consumer takes up to `room` more. -/
def relay {σ : Type} (ch : Channel σ) (room : Nat) (s : σ) (offered : List Item) :
    σ × List Item :=
  let takeOne (s : σ) (got : List Item) : σ × List Item :=
    match ch.take s with
    | (s, some item) => (s, item :: got)
    | (s, none) => (s, got)
  let (s, got) := offered.foldl (fun (s, got) item =>
    match ch.offer s item with
    | (s, true) => (s, got)
    | (s, false) =>
      let (s, got) := takeOne s got
      ((ch.offer s item).1, got)) (s, [])
  let (s, got) := (List.range room).foldl (fun (s, got) _ => takeOne s got) (s, got)
  (s, got.reverse)

/-- The places of the items that came from one producer. -/
def placesOf (producer : Nat) (got : List Item) : List Nat :=
  (got.filter (·.1 == producer)).map (·.2)

/-- Every producer's items arrived in the order they were offered. -/
def isInOrder (producers each : Nat) (got : List Item) : Bool :=
  (List.range producers).all fun p => placesOf p got == List.range each

def ring (c : Capacity) : Channel (Ring Item c) where
  offer r item :=
    match r.push item with
    | (r, .ok _) => (r, true)
    | (r, .error _) => (r, false)
  take r :=
    match r.pop with
    | (r, .ok item) => (r, some item)
    | (r, .error _) => (r, none)

def queue (c : Capacity) : Channel (TicketQueue Item c) where
  offer q item :=
    match q.enqueue item with
    | (q, .accepted) => (q, true)
    | (q, _) => (q, false)
  take q :=
    match q.dequeue with
    | (q, .ok item) => (q, some item)
    | (q, .error _) => (q, none)

/-- Bytes of a frame that carries one item. -/
def frameLen : Nat := 16

/-- An item travels through frames as two words. -/
def frames (c : Capacity) : Channel (FramePool frameLen c) where
  offer p item :=
    match p.write (FramePool.layOver 0 (Bytes.ofNat 8 item.1 ++ Bytes.ofNat 8 item.2) none) with
    | (p, .done _) => (p, true)
    | (p, _) => (p, false)
  take p :=
    match p.read (FramePool.copyOut none) with
    | (p, .ok (.returned frame)) =>
      let bytes := frame.toList
      (p, some (Bytes.toNat (bytes.take 8), Bytes.toNat (bytes.drop 8)))
    | (p, _) => (p, none)

/-- Offers until nothing more is accepted; nobody takes. Gives the count of accepted items. -/
def flood {σ : Type} (ch : Channel σ) (s : σ) (offered : List Item) : σ × Nat :=
  offered.foldl (fun (s, n) item =>
    match ch.offer s item with
    | (s, true) => (s, n + 1)
    | (s, false) => (s, n)) (s, 0)

end Cadence.Workload
