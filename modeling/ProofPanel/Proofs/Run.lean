import Mathlib.Data.List.Basic

/-!
# Runs

A machine takes inputs one after the other. Each changes its state and has outputs; what a machine
keeps at every input it keeps over a run.
-/
namespace ProofPanel

section Run
variable {σ ι ο : Type} (step : σ → ι → σ × List ο)

/-- The state after the inputs, with all outputs on the way. -/
def run (s : σ) : List ι → σ × List ο
  | [] => (s, [])
  | i :: rest =>
    let (s, outputs) := step s i
    let (s, more) := run s rest
    (s, outputs ++ more)

/-- Every input is admitted where it comes: in that state and after the outputs up to there. -/
def Along (admits : σ → List ο → ι → Prop) (s : σ) (past : List ο) : List ι → Prop
  | [] => True
  | i :: rest => admits s past i ∧ Along admits (step s i).1 (past ++ (step s i).2) rest

variable {step}

theorem along_of_forall {admits : σ → List ο → ι → Prop} {inputs : List ι}
    (h : ∀ i ∈ inputs, ∀ s past, admits s past i) (s : σ) (past : List ο) :
    Along step admits s past inputs := by
  induction inputs generalizing s past with
  | nil => trivial
  | cons i rest ih =>
    exact ⟨h i List.mem_cons_self s past, ih (fun j hj => h j (List.mem_cons_of_mem i hj)) _ _⟩

/-- What holds at the start and is kept by every admitted input holds after a run. It may speak of
the inputs and the outputs so far. -/
theorem run_induction {admits : σ → List ο → ι → Prop} {motive : List ι → σ → List ο → Prop}
    (next : ∀ before s past i, motive before s past → admits s past i →
      motive (before ++ [i]) (step s i).1 (past ++ (step s i).2))
    {s : σ} (start : motive [] s []) {inputs : List ι} (h : Along step admits s [] inputs) :
    motive inputs (run step s inputs).1 (run step s inputs).2 := by
  suffices ∀ (inputs before : List ι) (s : σ) (past : List ο), motive before s past →
      Along step admits s past inputs →
      motive (before ++ inputs) (run step s inputs).1 (past ++ (run step s inputs).2) by
    simpa using this inputs [] s [] start h
  intro inputs
  induction inputs with
  | nil =>
    intro before s past hm _
    simpa [run] using hm
  | cons i rest ih =>
    intro before s past hm hi
    have hn := ih _ _ _ (next before s past i hm hi.1) hi.2
    simpa [run] using hn

/-- What holds at the start and is kept by every input holds after a run, whatever the inputs. It
may speak of the inputs and the outputs so far. -/
theorem run_history {motive : List ι → σ → List ο → Prop}
    (next : ∀ before s past i, motive before s past →
      motive (before ++ [i]) (step s i).1 (past ++ (step s i).2))
    {s : σ} (start : motive [] s []) (inputs : List ι) :
    motive inputs (run step s inputs).1 (run step s inputs).2 := by
  have hall : Along step (fun _ _ _ => True) s [] inputs :=
    along_of_forall (fun _ _ _ _ => trivial) s []
  exact run_induction (fun before s past i hm _ => next before s past i hm) start hall

/-- So does what speaks of the outputs only. -/
theorem run_invariant {motive : σ → List ο → Prop}
    (next : ∀ s past i, motive s past → motive (step s i).1 (past ++ (step s i).2))
    {s : σ} (start : motive s []) (inputs : List ι) :
    motive (run step s inputs).1 (run step s inputs).2 :=
  run_history (motive := fun _ => motive) (fun _ => next) start inputs

theorem run_append (s : σ) (inputs more : List ι) :
    run step s (inputs ++ more) = ((run step (run step s inputs).1 more).1,
      (run step s inputs).2 ++ (run step (run step s inputs).1 more).2) := by
  induction inputs generalizing s with
  | nil => rfl
  | cons i rest ih => simp only [List.cons_append, run, ih, List.append_assoc]

/-- Machines that change state alike end a run alike, whatever they output. -/
theorem run_fst_congr {ο' : Type} {step' : σ → ι → σ × List ο'}
    (h : ∀ s i, (step s i).1 = (step' s i).1) (s : σ) (inputs : List ι) :
    (run step s inputs).1 = (run step' s inputs).1 := by
  induction inputs generalizing s with
  | nil => rfl
  | cons i rest ih =>
    simp only [run]
    rw [ih, h s i]

end Run

end ProofPanel
