import ProofPanel.Proofs.Engine.Parts
import ProofPanel.Proofs.Run

/-!
# The engine's runs

A run starts with nothing accepted and meets one trigger after the other, each with the editor's
cursor at that moment and with the verdict that the backend gives if it is asked.
-/
namespace ProofPanel

/-- A trigger, with what the editor and the backend have to say to it. -/
structure Occasion where
  cursor : Option Cursor
  verdict : Verdict
  trigger : Trigger

namespace Engine

def start (selector : Selector) (config : Config) : Engine := { selector, config }

def meet (e : Engine) (o : Occasion) : Engine × List Effect :=
  let (e, effects, _) := e.step o.cursor o.verdict o.trigger
  (e, effects)

theorem meet_fst (e : Engine) (o : Occasion) :
    (e.meet o).1 = ((e.react o.cursor o.trigger).settle o.verdict).1 := rfl

theorem meet_snd (e : Engine) (o : Occasion) :
    (e.meet o).2 = (e.react o.cursor o.trigger).effects := rfl

/-- The verdict decides on nothing but the pending fetch. -/
theorem settle_engine (t : Turn) (verdict : Verdict) :
    ∃ pending, (t.settle verdict).1 = { t.engine with pending := pending } := by
  cases ha : t.asked with
  | none => exact ⟨t.engine.pending, by simp [Turn.settle, ha]⟩
  | some fetch =>
    cases verdict with
    | ok _ => exact ⟨some fetch, by simp [Turn.settle, ha]⟩
    | error err => exact ⟨t.engine.pending, by simp [Turn.settle, ha]⟩

def Live (e : Engine) : Prop := ∃ selector config occasions,
  (∀ o ∈ occasions, o.trigger ≠ .dispose) ∧ e = (run meet (start selector config) occasions).1

theorem meet_publishing {e : Engine} {o : Occasion} (ho : o.trigger ≠ .dispose) :
    (e.meet o).1.publishing = e.publishing := by
  obtain ⟨pending, hp⟩ := settle_engine (e.react o.cursor o.trigger) o.verdict
  rw [meet_fst, hp]
  refine (e.react_publishing o.cursor o.trigger).trans ?_
  cases ht : o.trigger with
  | dispose => exact absurd ht ho
  | _ => rfl

theorem Live.publishing {e : Engine} (h : e.Live) : e.publishing = true := by
  obtain ⟨selector, config, occasions, hlive, rfl⟩ := h
  have hall : Along meet (fun _ _ o => o.trigger ≠ .dispose) (start selector config) []
      occasions := along_of_forall (fun o ho _ _ => hlive o ho) _ _
  refine run_induction (motive := fun _ (e : Engine) _ => e.publishing = true) ?_ rfl hall
  intro _ e _ o he ho
  exact (meet_publishing ho).trans he

end Engine

end ProofPanel
