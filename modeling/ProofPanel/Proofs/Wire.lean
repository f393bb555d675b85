import ProofPanel.Client.Message
import ProofPanel.Message
import ProofPanel.Proofs.Json.Fields
import ProofPanel.Snapshot

/-!
# The messages on the wire

Host, panel and backend read what the others write, all of it, and pass over members they do not
know.
-/
namespace ProofPanel

open Json

namespace Position

theorem tolerates : Tolerates ["line", "column"] toJson ofJson? := by
  refine Tolerates.record ?_ fun p => ⟨_, rfl, ?_⟩
  · exact .bind (.field _ (by decide)) fun _ => .bind (.field _ (by decide)) fun _ => .pure _
  · simp [Json.record]

end Position

namespace Location

theorem sees : Sees ["fileName", "line", "column"] fields :=
  .bind (.field _ (by decide)) fun _ => .bind (.field _ (by decide)) fun _ =>
    .bind (.field _ (by decide)) fun _ => .pure _

theorem tolerates : Tolerates ["fileName", "line", "column"] toJson ofJson? := by
  refine Tolerates.record sees fun p => ⟨_, rfl, ?_⟩
  simp [Json.record, fields, members, asString?]

end Location

namespace Diagnostic

theorem ofJson?_severity (setting : Setting) (s : Severity) :
    Severity.ofJson? setting s.toJson = some s := by
  cases s <;> rfl

theorem tolerates (setting : Setting) :
    Tolerates ["file_name", "pos_line", "pos_col", "severity", "caption", "text", "end_pos_line",
      "end_pos_col"] toJson (ofJson? setting) := by
  refine Tolerates.record ?_ fun d => ⟨_, rfl, ?_⟩
  · exact .bind (.field _ (by decide)) fun _ => .bind (.field _ (by decide)) fun _ =>
      .bind (.field _ (by decide)) fun _ => .bind (.field _ (by decide)) fun _ =>
      .bind (.fieldOr _ _ (by decide)) fun _ => .bind (.fieldOr _ _ (by decide)) fun _ =>
      .bind (.field? _ (by decide)) fun _ => .bind (.field? _ (by decide)) fun _ => .pure _
  · simp [Json.record, ofJson?_severity, Recovers.nat.getD_map]

end Diagnostic

namespace Config

theorem tolerates :
    Tolerates ["fontFamily", "fontSize", "infoViewStyle", "allErrorsOnLine"] toJson ofJson? := by
  refine Tolerates.record ?_ fun c => ⟨_, rfl, ?_⟩
  · exact .bind (.fieldOr _ _ (by decide)) fun _ => .bind (.fieldOr _ _ (by decide)) fun _ =>
      .bind (.fieldOr _ _ (by decide)) fun _ => .bind (.fieldOr _ _ (by decide)) fun _ => .pure _
  · simp [Json.record]

end Config

namespace Patch

theorem tolerates :
    Tolerates ["fontFamily", "fontSize", "infoViewStyle", "allErrorsOnLine"] toJson ofJson? := by
  refine Tolerates.record ?_ fun p => ⟨_, rfl, ?_⟩
  · exact .bind (.field? _ (by decide)) fun _ => .bind (.field? _ (by decide)) fun _ =>
      .bind (.field? _ (by decide)) fun _ => .bind (.field? _ (by decide)) fun _ => .pure _
  · simp [Json.record, Recovers.string.getD_map, Recovers.word32.getD_map, Recovers.bool.getD_map]

end Patch

namespace Snapshot

theorem tolerates :
    Tolerates ["stopped", "displayMode", "location", "goalState", "messages"] toJson ofJson? := by
  refine Tolerates.record ?_ fun s => ⟨_, rfl, ?_⟩
  · exact .bind (.field _ (by decide)) fun _ => .bind (.field _ (by decide)) fun _ =>
      .bind (.nullable _ (by decide)) fun _ => .bind (.nullable _ (by decide)) fun _ =>
      .bind (.field _ (by decide)) fun _ => .pure _
  · have hmode : Mode.ofJson? s.mode.toJson = some s.mode := by cases s.mode <;> rfl
    simp [Json.record, hmode, Location.tolerates.recovers.orNull_getD,
      Recovers.string.orNull_getD, Diagnostic.listToJson,
      (Diagnostic.tolerates .alone).recovers.listOf?]

end Snapshot

namespace Record

theorem tolerates : Tolerates ["state", "full-id", "type", "doc"] toJson ofJson? := by
  refine Tolerates.record ?_ fun r => ⟨_, rfl, ?_⟩
  · exact .bind (.field? _ (by decide)) fun _ => .bind (.field? _ (by decide)) fun _ =>
      .bind (.field? _ (by decide)) fun _ => .bind (.field? _ (by decide)) fun _ => .pure _
  · simp [Json.record, Recovers.string.getD_map]

end Record

namespace Task

theorem tolerates :
    Tolerates ["file_name", "pos_line", "pos_col", "end_pos_line", "end_pos_col", "desc"]
      toJson ofJson? := by
  refine Tolerates.record ?_ fun t => ⟨_, rfl, ?_⟩
  · exact .bind (.field _ (by decide)) fun _ => .bind (.field _ (by decide)) fun _ =>
      .bind (.field _ (by decide)) fun _ => .bind (.field _ (by decide)) fun _ =>
      .bind (.field _ (by decide)) fun _ => .bind (.fieldOr _ _ (by decide)) fun _ => .pure _
  · simp [Json.record]

end Task

namespace HostMessage

theorem tolerates :
    Tolerates ["command", "fileName", "line", "column", "config", "pins", "payload"]
      toJson ofJson? := by
  refine Tolerates.tagged (by decide) fun m => ?_
  cases m with
  | position l =>
    refine ⟨_, "position", _, rfl, ?_, rfl, ?_, ?_⟩
    · simp [Location.members]
    · exact .bind (.mono Location.sees (by decide)) fun _ => .pure _
    · simp [Json.record, Location.members, Location.fields]
  | configChanged p =>
    refine ⟨_, "on_config_change", _, rfl, ?_, rfl, ?_, ?_⟩
    · simp
    · exact .bind (.field _ (by decide)) fun _ => .pure _
    · simp [Json.record, (Patch.tolerates.recovers p).2]
  | syncPins pins =>
    refine ⟨_, "sync_pin", _, rfl, ?_, rfl, ?_, ?_⟩
    · simp
    · exact .bind (.field _ (by decide)) fun _ => .pure _
    · simp [Json.record, Location.tolerates.recovers.listOf?]
  | backendMessage payload =>
    refine ⟨_, "server_event", _, rfl, ?_, rfl, ?_, ?_⟩
    · simp
    · exact .bind (.field _ (by decide)) fun _ => .pure _
    · simp [Json.record]
  | backendFailure payload =>
    refine ⟨_, "server_error", _, rfl, ?_, rfl, ?_, ?_⟩
    · simp
    · exact .bind (.field _ (by decide)) fun _ => .pure _
    · simp [Json.record]
  | pause => exact ⟨_, "pause", _, rfl, rfl, rfl, .pure _, rfl⟩
  | «continue» => exact ⟨_, "continue", _, rfl, rfl, rfl, .pure _, rfl⟩
  | toggleUpdating => exact ⟨_, "toggle_updating", _, rfl, rfl, rfl, .pure _, rfl⟩
  | copyToComment => exact ⟨_, "copy_to_comment", _, rfl, rfl, rfl, .pure _, rfl⟩
  | togglePin => exact ⟨_, "toggle_pin", _, rfl, rfl, rfl, .pure _, rfl⟩
  | restart => exact ⟨_, "restart", _, rfl, rfl, rfl, .pure _, rfl⟩

end HostMessage

namespace PanelMessage

theorem tolerates : Tolerates ["command", "payload"] toJson ofJson? := by
  refine Tolerates.tagged (by decide) fun m => ?_
  cases m with
  | backendRequest payload =>
    refine ⟨_, "server_request", _, rfl, ?_, rfl, ?_, ?_⟩
    · simp
    · exact .bind (.field _ (by decide)) fun _ => .pure _
    · simp [Json.record]

end PanelMessage

namespace Request

theorem tolerates :
    Tolerates ["command", "seq_num", "file_name", "line", "column", "content"]
      toJson ofJson? := by
  refine Tolerates.tagged (by decide) fun r => ?_
  cases r with
  | info seq l =>
    refine ⟨_, "info", _, rfl, ?_, rfl, ?_, ?_⟩
    · simp
    · exact .bind (.field _ (by decide)) fun _ => .bind (.field _ (by decide)) fun _ =>
        .bind (.field _ (by decide)) fun _ => .bind (.field _ (by decide)) fun _ => .pure _
    · simp [Json.record]
  | sync seq fileName content =>
    refine ⟨_, "sync", _, rfl, ?_, rfl, ?_, ?_⟩
    · simp
    · exact .bind (.field _ (by decide)) fun _ => .bind (.field _ (by decide)) fun _ =>
        .bind (.field _ (by decide)) fun _ => .pure _
    · simp [Json.record]

end Request

namespace Response

theorem tolerates :
    Tolerates ["response", "seq_num", "record", "message", "msgs", "is_running", "tasks"]
      toJson ofJson? := by
  refine Tolerates.tagged (by decide) fun r => ?_
  cases r with
  | ok seq record =>
    refine ⟨_, "ok", _, rfl, ?_, rfl, ?_, ?_⟩
    · simp
    · exact .bind (.field _ (by decide)) fun _ => .bind (.field? _ (by decide)) fun _ => .pure _
    · simp [Json.record, Record.tolerates.recovers.getD_map]
  | error seq message =>
    refine ⟨_, "error", _, rfl, ?_, rfl, ?_, ?_⟩
    · simp
    · exact .bind (.field? _ (by decide)) fun _ => .bind (.field _ (by decide)) fun _ => .pure _
    · simp [Json.record, Recovers.nat.getD_map]
  | allMessages ds =>
    refine ⟨_, "all_messages", _, rfl, ?_, rfl, ?_, ?_⟩
    · simp
    · exact .bind (.field _ (by decide)) fun _ => .pure _
    · simp [Json.record, Diagnostic.listToJson, (Diagnostic.tolerates .inMessage).recovers.listOf?]
  | currentTasks status =>
    refine ⟨_, "current_tasks", _, rfl, ?_, rfl, ?_, ?_⟩
    · simp [Status.members]
    · exact .bind (.field _ (by decide)) fun _ => .bind (.fieldOr _ _ (by decide)) fun _ => .pure _
    · simp [Json.record, Status.members, Task.tolerates.recovers.listOf?]

end Response

/-- Every value on the wire is read back from the object it is written as, the end of a diagnostic's
range included. Members that someone adds to the object change nothing, as long as their keys are
neither the tag nor a field of the type or of one of its variants. -/
theorem wire_codecs_tolerate :
    Tolerates ["line", "column"] Position.toJson Position.ofJson? ∧
    Tolerates ["fileName", "line", "column"] Location.toJson Location.ofJson? ∧
    (∀ setting, Tolerates ["file_name", "pos_line", "pos_col", "severity", "caption", "text",
      "end_pos_line", "end_pos_col"] Diagnostic.toJson (Diagnostic.ofJson? setting)) ∧
    Tolerates ["fontFamily", "fontSize", "infoViewStyle", "allErrorsOnLine"]
      Config.toJson Config.ofJson? ∧
    Tolerates ["fontFamily", "fontSize", "infoViewStyle", "allErrorsOnLine"]
      Patch.toJson Patch.ofJson? ∧
    Tolerates ["stopped", "displayMode", "location", "goalState", "messages"]
      Snapshot.toJson Snapshot.ofJson? ∧
    Tolerates ["state", "full-id", "type", "doc"] Record.toJson Record.ofJson? ∧
    Tolerates ["file_name", "pos_line", "pos_col", "end_pos_line", "end_pos_col", "desc"]
      Task.toJson Task.ofJson? ∧
    Tolerates ["command", "fileName", "line", "column", "config", "pins", "payload"]
      HostMessage.toJson HostMessage.ofJson? ∧
    Tolerates ["command", "payload"] PanelMessage.toJson PanelMessage.ofJson? ∧
    Tolerates ["command", "seq_num", "file_name", "line", "column", "content"]
      Request.toJson Request.ofJson? ∧
    Tolerates ["response", "seq_num", "record", "message", "msgs", "is_running", "tasks"]
      Response.toJson Response.ofJson? :=
  ⟨Position.tolerates, Location.tolerates, Diagnostic.tolerates, Config.tolerates,
    Patch.tolerates, Snapshot.tolerates, Record.tolerates, Task.tolerates, HostMessage.tolerates,
    PanelMessage.tolerates, Request.tolerates, Response.tolerates⟩

/-- A reply with a record and two members that no reply has. -/
theorem wire_codecs_tolerate_reply :
    (∀ member ∈ [("elapsed", Json.int 12), ("zone", .null)], member.1 ∉
      ["response", "seq_num", "record", "message", "msgs", "is_running", "tasks"]) ∧
    Response.ofJson? (.obj [("elapsed", .int 12), ("record", .obj [("state", .str "⊢ P")]),
      ("response", .str "ok"), ("seq_num", .int 4), ("zone", .null)]) =
        some (.ok 4 (some { state := some "⊢ P" })) := by
  have hnew : ∀ member ∈ [("elapsed", Json.int 12), ("zone", .null)], member.1 ∉
      ["response", "seq_num", "record", "message", "msgs", "is_running", "tasks"] := by decide
  obtain ⟨-, -, -, -, -, -, -, -, -, -, -, hresponse⟩ := wire_codecs_tolerate
  obtain ⟨all, hall, -, hmore⟩ := hresponse (.ok 4 (some { state := some "⊢ P" }))
  cases hall
  exact ⟨hnew, hmore _ hnew⟩

end ProofPanel
