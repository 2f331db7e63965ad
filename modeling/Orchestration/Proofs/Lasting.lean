import Mathlib.Data.List.Basic
import Orchestration.Collection

/-! What lasts. If each single act of those on the bus keeps to something, so does a whole
reaction, and so does a publication with all that follows from it; if the passing of time keeps
to it, too, so does any wait. This is said of what holds of one world, and of relations between an
earlier and a later one. -/
namespace Orchestration

variable {η σ α : Type}

/-- Whatever it comes to see, a reaction publishes messages of this kind only and keeps its parts
in order, and joins or leaves topics only if it is free to. -/
def Reaction.Keeps (kind : Message → Prop) (kept : σ → Prop) (free : Prop) :
    Reaction η σ α → Prop
  | finish _ => True
  | look next => ∀ parts, kept parts → Keeps kind kept free (next parts)
  | keep parts next => kept parts ∧ Keeps kind kept free next
  | time next => ∀ t, Keeps kind kept free (next t)
  | count _ next => ∀ n, Keeps kind kept free (next n)
  | publish m next => kind m ∧ ∀ faults, Keeps kind kept free (next faults)
  | publishLater _ m next => kind m ∧ Keeps kind kept free next
  | subscribe _ _ next => free ∧ ∀ id, Keeps kind kept free (next id)
  | unsubscribe _ _ next => free ∧ ∀ found, Keeps kind kept free (next found)

theorem Reaction.keeps_true (r : Reaction η σ α) :
    r.Keeps (fun _ => True) (fun _ => True) True := by
  induction r with
  | finish answer => trivial
  | look next ih => exact fun parts _ => ih parts
  | keep parts next ih => exact ⟨trivial, ih⟩
  | time next ih => exact ih
  | count topic next ih => exact ih
  | publish m next ih => exact ⟨trivial, ih⟩
  | publishLater delay m next ih => exact ⟨trivial, ih⟩
  | subscribe topic handler next ih => exact ⟨trivial, ih⟩
  | unsubscribe topic id next ih => exact ⟨trivial, ih⟩

namespace World

variable {h : Handlers η σ} {kind : Message → Prop} {kept : σ → Prop} {free : Prop}

/-- Each single act leaves it as true as it was, those who are handed messages of this kind being
among those who act. -/
structure Lasting (h : Handlers η σ) (kind : Message → Prop) (kept : σ → Prop) (free : Prop)
    (P : World η σ → Prop) : Prop where
  parts : ∀ {w}, P w → kept w.parts
  reacts : ∀ {w}, P w → ∀ m, kind m → ∀ handler ∈ w.bus.handlers m.topic,
    (h.react handler m).Keeps kind kept free
  keep : ∀ {w}, P w → ∀ parts, kept parts → P { w with parts := parts }
  time : ∀ {w}, P w → P w.time.2
  accept : ∀ {w}, P w → ∀ m, kind m → P { w with bus := w.bus.accept m }
  setTimer : ∀ {w}, P w → ∀ delay m, kind m → P (w.setTimer delay m)
  join : free → ∀ {w}, P w → ∀ topic handler,
    P { w with bus := (w.bus.subscribe topic (some handler)).2 }
  leave : free → ∀ {w}, P w → ∀ topic id, P { w with bus := (w.bus.unsubscribe topic id).2 }

namespace Lasting

variable {P : World η σ → Prop} {w : World η σ} (lasts : Lasting h kind kept free P)
include lasts

theorem perform {publish : Message → World η σ → List Fault × World η σ}
    (publishes : ∀ m v, kind m → P v → P (publish m v).2) {r : Reaction η σ α}
    (keeps : r.Keeps kind kept free) (holds : P w) : P (perform publish r w).2 := by
  induction r generalizing w with
  | finish answer => exact holds
  | look next ih => exact ih _ (keeps _ (lasts.parts holds)) holds
  | keep parts next ih => exact ih keeps.2 (lasts.keep holds parts keeps.1)
  | time next ih => exact ih _ (keeps _) (lasts.time holds)
  | count topic next ih => exact ih _ (keeps _) holds
  | publish m next ih => exact ih _ (keeps.2 _) (publishes m w keeps.1 holds)
  | publishLater delay m next ih => exact ih keeps.2 (lasts.setTimer holds delay m keeps.1)
  | subscribe topic handler next ih =>
    exact ih _ (keeps.2 _) (lasts.join keeps.1 holds topic handler)
  | unsubscribe topic id next ih => exact ih _ (keeps.2 _) (lasts.leave keeps.1 holds topic id)

theorem publishWithin (depth : Nat) {m : Message} (own : kind m) (holds : P w) :
    P (publishWithin h depth m w).2 := by
  -- a handler publishes one level deeper
  induction depth generalizing m w with
  | zero => exact lasts.accept holds m own
  | succ depth ih =>
    refine List.foldlRecOn (motive := fun (turn : List Fault × World η σ) => P turn.2) _ _
      (lasts.accept holds m own) ?_
    intro turn before handler listens
    exact lasts.perform (fun m v own => ih own) (lasts.reacts holds m own handler listens) before

theorem publish {m : Message} (own : kind m) (holds : P w) : P (publish h m w).2 :=
  lasts.publishWithin h.nesting own holds

theorem call {r : Reaction η σ α} (keeps : r.Keeps kind kept free) (holds : P w) :
    P (call h r w).2 := lasts.perform (fun _ _ => lasts.publish) keeps holds

theorem fire {instant : Nat} (due : ∀ t ∈ w.timers, kind t.message)
    (lapsed : P { w with clock := instant, timers := w.timers.filter (instant < ·.due) }) :
    P (fire h instant w) := by
  refine List.foldlRecOn (motive := P) _ _ lapsed ?_
  intro v before t member
  exact lasts.publish (due t (List.mem_of_mem_filter member)) before

end Lasting

structure Enduring (h : Handlers η σ) (kind : Message → Prop) (kept : σ → Prop) (free : Prop)
    (P : World η σ → Prop) : Prop extends Lasting h kind kept free P where
  due : ∀ {w}, P w → ∀ t ∈ w.timers, kind t.message
  lapse : ∀ {w}, P w → ∀ instant,
    P { w with clock := instant, timers := w.timers.filter (instant < ·.due) }
  idle : ∀ {w}, P w → ∀ instant, P { w with clock := instant }

namespace Enduring

variable {P : World η σ → Prop} {w : World η σ} (endures : Enduring h kind kept free P)
include endures

theorem fire (instant : Nat) (holds : P w) : P (fire h instant w) :=
  endures.toLasting.fire (endures.due holds) (endures.lapse holds instant)

theorem passFrom (limit instant : Nat) (holds : P w) : P (passFrom h limit instant w) := by
  fun_induction World.passFrom h limit instant w with
  | case1 instant w _ next _ ih => exact ih (endures.fire next holds)
  | case2 => exact endures.idle holds limit
  | case3 => exact holds

theorem pass (span : Nat) (holds : P w) : P (pass h span w) := by
  unfold World.pass
  split
  · exact holds
  · exact endures.passFrom _ _ (endures.fire w.clock holds)

theorem gatherFrom (tasks : List String) (deadline instant : Nat) (gathered : Table TaskResult)
    (holds : P w) : P (gatherFrom h tasks deadline instant gathered w).2 := by
  fun_induction World.gatherFrom h tasks deadline instant gathered w with
  | case1 => exact holds
  | case2 instant gathered w _ _ _ next ih =>
    apply ih
    split
    · exact endures.fire next holds
    · exact endures.idle holds deadline
  | case3 => exact holds

theorem await (tasks : List String) (timeout : Nat) (holds : P w) :
    P (await h tasks timeout w).2 := by
  unfold World.await
  dsimp only
  split
  · exact holds
  · exact endures.gatherFrom _ _ _ _ (endures.fire w.clock holds)

end Enduring

structure Stepwise (R : World η σ → World η σ → Prop) : Prop where
  refl : ∀ w, R w w
  trans : ∀ {u v w}, R u v → R v w → R u w
  keep : ∀ (w : World η σ) parts, R w { w with parts := parts }
  time : ∀ w, R w w.time.2
  accept : ∀ (w : World η σ) m, R w { w with bus := w.bus.accept m }
  setTimer : ∀ w delay m, R w (w.setTimer delay m)
  join : ∀ (w : World η σ) topic handler,
    R w { w with bus := (w.bus.subscribe topic handler).2 }
  leave : ∀ (w : World η σ) topic id, R w { w with bus := (w.bus.unsubscribe topic id).2 }
  lapse : ∀ (w : World η σ) instant,
    R w { w with clock := instant, timers := w.timers.filter (instant < ·.due) }
  idle : ∀ (w : World η σ) instant, R w { w with clock := instant }

namespace Stepwise

variable {R : World η σ → World η σ → Prop} (steps : Stepwise R)
include steps

/-- Whatever is related to one world stays so. -/
theorem enduring (h : Handlers η σ) (v : World η σ) :
    Enduring h (fun _ => True) (fun _ => True) True (R v) where
  parts _ := trivial
  reacts _ _ _ _ _ := Reaction.keeps_true _
  keep before parts _ := steps.trans before (steps.keep _ parts)
  time before := steps.trans before (steps.time _)
  accept before m _ := steps.trans before (steps.accept _ m)
  setTimer before delay m _ := steps.trans before (steps.setTimer _ delay m)
  join _ _ before topic handler := steps.trans before (steps.join _ topic handler)
  leave _ _ before topic id := steps.trans before (steps.leave _ topic id)
  due _ _ _ := trivial
  lapse before instant := steps.trans before (steps.lapse _ instant)
  idle before instant := steps.trans before (steps.idle _ instant)

variable (h : Handlers η σ) (w : World η σ)

theorem publish (m : Message) : R w (publish h m w).2 :=
  (steps.enduring h w).publish trivial (steps.refl w)

theorem call (r : Reaction η σ α) : R w (call h r w).2 :=
  (steps.enduring h w).call r.keeps_true (steps.refl w)

theorem fire (instant : Nat) : R w (fire h instant w) :=
  (steps.enduring h w).fire instant (steps.refl w)

theorem pass (span : Nat) : R w (pass h span w) :=
  (steps.enduring h w).pass span (steps.refl w)

theorem await (tasks : List String) (timeout : Nat) : R w (await h tasks timeout w).2 :=
  (steps.enduring h w).await tasks timeout (steps.refl w)

end Stepwise

end World
end Orchestration
