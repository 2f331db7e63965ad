import Orchestration.Proofs.Lasting

/-! What those who answer cannot reach. A reaction, a publication with all that follows from
it, and the passing of time leave the records, the journal, the policy and the observations
held back as they are; gathering a round takes the observations of its session only. -/
namespace Orchestration.World

variable {η σ α : Type}

structure Undisturbed (v w : World η σ) : Prop where
  storage : w.storage = v.storage
  journal : w.journal = v.journal
  engine : w.engine = v.engine
  buffer : w.buffer = v.buffer

namespace Undisturbed

theorem refl (w : World η σ) : Undisturbed w w := ⟨rfl, rfl, rfl, rfl⟩

theorem before {u v w : World η σ} (second : Undisturbed v w) (first : Undisturbed u v) :
    Undisturbed u w :=
  ⟨second.storage.trans first.storage, second.journal.trans first.journal,
    second.engine.trans first.engine, second.buffer.trans first.buffer⟩

end Undisturbed

theorem undisturbed_stepwise : Stepwise (Undisturbed : World η σ → World η σ → Prop) where
  refl := .refl
  trans first second := second.before first
  keep _ _ := ⟨rfl, rfl, rfl, rfl⟩
  time _ := ⟨rfl, rfl, rfl, rfl⟩
  accept _ _ := ⟨rfl, rfl, rfl, rfl⟩
  setTimer _ _ _ := ⟨rfl, rfl, rfl, rfl⟩
  join _ _ _ := ⟨rfl, rfl, rfl, rfl⟩
  leave _ _ _ := ⟨rfl, rfl, rfl, rfl⟩
  lapse _ _ := ⟨rfl, rfl, rfl, rfl⟩
  idle _ _ := ⟨rfl, rfl, rfl, rfl⟩

theorem publish_undisturbed (h : Handlers η σ) (m : Message) (w : World η σ) :
    Undisturbed w (publish h m w).2 := undisturbed_stepwise.publish h w m

theorem call_undisturbed (h : Handlers η σ) (r : Reaction η σ α) (w : World η σ) :
    Undisturbed w (call h r w).2 := undisturbed_stepwise.call h w r

theorem pass_undisturbed (h : Handlers η σ) (span : Nat) (w : World η σ) :
    Undisturbed w (pass h span w) := undisturbed_stepwise.pass h w span

theorem collect_undisturbed (h : Handlers η σ) (session : String) (tasks : List String)
    (timeout : Nat) (policy : FanInPolicy) (w : World η σ) :
    Undisturbed { w with buffer := Table.erase w.buffer session }
      (collect h session tasks timeout policy w).2 := by
  unfold collect
  dsimp only
  split
  · exact .refl _
  · split
    · exact .refl _
    · have joined := undisturbed_stepwise.join
        { w with buffer := Table.erase w.buffer session } .result none
      exact (undisturbed_stepwise.leave _ _ _).before
        ((undisturbed_stepwise.await h _ _ _).before joined)

end Orchestration.World
