import ProofPanel.Client.Message
import ProofPanel.Json.Mismatch

/-!
# What is wrong with a response

In words, why a message of the backend is no response.
-/
namespace ProofPanel

open Json (Check)

def Diagnostic.check : Check := .record "struct DiagnosticMessage"
  [⟨"file_name", true, .text⟩, ⟨"pos_line", true, .whole "usize"⟩,
   ⟨"pos_col", true, .whole "usize"⟩,
   ⟨"severity", true, .constant ["error", "warning", "information"]⟩,
   ⟨"caption", false, .text⟩, ⟨"text", false, .text⟩,
   ⟨"end_pos_line", false, .orNull (.whole "usize")⟩,
   ⟨"end_pos_col", false, .orNull (.whole "usize")⟩]

def Record.check : Check := .record "struct InfoRecord"
  [⟨"state", false, .orNull .text⟩, ⟨"full-id", false, .orNull .text⟩,
   ⟨"type", false, .orNull .text⟩, ⟨"doc", false, .orNull .text⟩]

def Task.check : Check := .record "struct Task"
  [⟨"file_name", true, .text⟩, ⟨"pos_line", true, .whole "usize"⟩,
   ⟨"pos_col", true, .whole "usize"⟩, ⟨"end_pos_line", true, .whole "usize"⟩,
   ⟨"end_pos_col", true, .whole "usize"⟩, ⟨"desc", false, .text⟩]

namespace Response

def variantChecks : List (String × Check) :=
  [("ok", .record "struct variant ServerResponse::Ok"
     [⟨"seq_num", true, .whole "u64"⟩, ⟨"record", false, .orNull Record.check⟩]),
   ("error", .record "struct variant ServerResponse::Error"
     [⟨"seq_num", false, .orNull (.whole "u64")⟩, ⟨"message", true, .text⟩]),
   ("all_messages", .record "struct variant ServerResponse::AllMessages"
     [⟨"msgs", true, .each Diagnostic.check⟩]),
   ("current_tasks", .record "struct variant ServerResponse::CurrentTasks"
     [⟨"is_running", true, .truth⟩, ⟨"tasks", false, .each Task.check⟩])]

def check : Check := .tagged "internally tagged enum ServerResponse" "response" variantChecks

end Response

end ProofPanel
