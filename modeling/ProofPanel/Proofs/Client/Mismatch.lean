import ProofPanel.Client
import ProofPanel.Proofs.Json.Mismatch

/-!
# What is said of a message that is no response

Something is found wrong with just the messages that are no responses, so that the error for one
always says why.
-/
namespace ProofPanel

open Json (Judges)

theorem Severity.mem_names_iff (name : String) :
    name ∈ ["error", "warning", "information"] ↔ (Severity.named? name).isSome := by
  unfold Severity.named?
  split <;> simp_all

theorem Diagnostic.judges : Judges Diagnostic.check (Diagnostic.ofJson? .inMessage) :=
  .record _ (by decide) <|
    .field .text fun _ => .field (.whole _) fun _ => .field (.whole _) fun _ =>
    .field (.constant Severity.mem_names_iff) fun _ => .fieldOr _ .text fun _ =>
    .fieldOr _ .text fun _ => .fieldOr _ (.orNull (.whole _)) fun _ =>
    .fieldOr _ (.orNull (.whole _)) fun _ => .pure _

theorem Record.judges : Judges Record.check Record.ofJson? :=
  .record _ (by decide) <|
    .fieldOr _ (.orNull .text) fun _ => .fieldOr _ (.orNull .text) fun _ =>
    .fieldOr _ (.orNull .text) fun _ => .fieldOr _ (.orNull .text) fun _ => .pure _

theorem Task.judges : Judges Task.check Task.ofJson? :=
  .record _ (by decide) <|
    .field .text fun _ => .field (.whole _) fun _ => .field (.whole _) fun _ =>
    .field (.whole _) fun _ => .field (.whole _) fun _ => .fieldOr _ .text fun _ => .pure _

namespace Response

theorem judges : Judges check ofJson? := by
  refine .tagged _ _ fun name => ?_
  unfold variant?
  split
  · exact .inr ⟨_, _, rfl, rfl, .record _ (by decide) <|
      .field (.whole _) fun _ => .fieldOr _ (.orNull Record.judges) fun _ => .pure _⟩
  · exact .inr ⟨_, _, rfl, rfl, .record _ (by decide) <|
      .fieldOr _ (.orNull (.whole _)) fun _ => .field .text fun _ => .pure _⟩
  · exact .inr ⟨_, _, rfl, rfl, .record _ (by decide) <|
      .field (.each Diagnostic.judges) fun _ => .pure _⟩
  · exact .inr ⟨_, _, rfl, rfl, .record _ (by decide) <|
      .field .truth fun _ => .fieldOr _ (.each Task.judges) fun _ => .pure _⟩
  · rename_i hok herror hmessages htasks
    refine .inl ⟨List.lookup_eq_none_iff.mpr ?_, rfl⟩
    simpa [variantChecks] using ⟨hok, herror, hmessages, htasks⟩

end Response

/-- The error for a message that is no response says what is wrong with it. -/
theorem Client.notAResponse_eq {message : Json} (h : Response.ofJson? message = none) :
    ∃ fault, Response.check message = some fault ∧
      notAResponse message = .malformed ("backend message: " ++ fault) := by
  cases hc : Response.check message with
  | none =>
    have hsome := (Response.judges message).mp hc
    rw [h] at hsome
    cases hsome
  | some fault => exact ⟨fault, rfl, by rw [notAResponse, hc, Option.getD_some]⟩

end ProofPanel
