import Mathlib.Algebra.GroupWithZero.Nat
import Mathlib.Data.List.DropRight
import ProofPanel.Pipe.Connection
import ProofPanel.Proofs.Run

/-!
# Polling in any portions

What the reader and the writer leave is taken by polls, in whatever portions they find it. All
polls together come to the items that they have seen, up to the first end of the output: each of
them arrives once and in order, and the messages among them are counted. The connection is alive
until a poll sees the end or the owner disposes of it.
-/
namespace ProofPanel.Pipe

namespace Inbound

def isClosed : Inbound → Bool
  | .closed => true
  | _ => false

def isMessage : Inbound → Bool
  | .message _ => true
  | _ => false

def arrival : Inbound → Arrival
  | .message value => .message value
  | .malformed text => .failure (.json text)
  | .ioError text => .failure (.io text)
  | .closed => .failure closedError

end Inbound

/-- The items up to the first end of the output and including it. -/
def upToClosed : List Inbound → List Inbound
  | [] => []
  | i :: rest => if i.isClosed then [i] else i :: upToClosed rest

section
variable {items more : List Inbound}

theorem upToClosed_of_open (h : items.any Inbound.isClosed = false) :
    upToClosed (items ++ more) = items ++ upToClosed more := by
  induction items with
  | nil => rfl
  | cons i rest ih =>
    obtain ⟨hi, hrest⟩ := Bool.or_eq_false_iff.mp (List.any_cons.symm.trans h)
    rw [List.cons_append, upToClosed, hi, if_neg Bool.false_ne_true, ih hrest, List.cons_append]

theorem upToClosed_of_closed (h : items.any Inbound.isClosed = true) :
    upToClosed (items ++ more) = upToClosed items := by
  induction items with
  | nil => cases h
  | cons i rest ih =>
    rw [List.cons_append, upToClosed, upToClosed]
    cases hi : i.isClosed with
    | true => rfl
    | false =>
      rw [List.any_cons, hi, Bool.false_or] at h
      rw [if_neg Bool.false_ne_true, if_neg Bool.false_ne_true, ih h]

theorem take_eq (items : List Inbound) : ∃ left, take items =
    ((upToClosed items).countP Inbound.isMessage, (upToClosed items).map Inbound.arrival, left,
      !items.any Inbound.isClosed) ∧ (items.any Inbound.isClosed = false → left = []) := by
  induction items with
  | nil => exact ⟨[], rfl, fun _ => rfl⟩
  | cons i rest ih =>
    obtain ⟨left, htake, hleft⟩ := ih
    cases i with
    | closed => exact ⟨rest, rfl, nofun⟩
    | message value =>
      have hcount : (upToClosed (.message value :: rest)).countP Inbound.isMessage =
          (upToClosed rest).countP Inbound.isMessage + 1 := List.countP_cons_of_pos rfl
      exact ⟨left, by rw [take, htake, hcount]; rfl, hleft⟩
    | malformed text => exact ⟨left, by rw [take, htake]; rfl, hleft⟩
    | ioError text => exact ⟨left, by rw [take, htake]; rfl, hleft⟩

end

/-! ## What is done with a connection -/

inductive Act
  /-- The reader or the writer leaves an item. -/
  | leave (item : Inbound)
  | poll
  | dispose

namespace Act

def item? : Act → Option Inbound
  | leave item => some item
  | _ => none

def isPoll : Act → Bool
  | poll => true
  | _ => false

def isDispose : Act → Bool
  | dispose => true
  | _ => false

end Act

def left (acts : List Act) : List Inbound := acts.filterMap Act.item?

/-- The items that polls have seen: those left before the last poll, as far as the owner has not
disposed of the connection by then. -/
def seen (acts : List Act) : List Inbound :=
  left ((acts.takeWhile (!·.isDispose)).rdropWhile (!·.isPoll))

variable {acts : List Act} {a : Act}

theorem left_poll (acts : List Act) : left (acts ++ [.poll]) = left acts := by
  rw [left, List.filterMap_append]
  exact List.append_nil _

/-- Nothing is seen once the connection has been disposed of. -/
theorem seen_disposed (h : acts.any Act.isDispose = true) : seen (acts ++ [a]) = seen acts := by
  have hcut : ¬ (acts.takeWhile (!·.isDispose)).length = acts.length := by
    intro hlength
    have hself := (List.takeWhile_prefix (fun a : Act => !a.isDispose)).eq_of_length hlength
    obtain ⟨a, ha, hdispose⟩ := List.any_eq_true.mp h
    have hnot := List.takeWhile_eq_self_iff.mp hself a ha
    rw [hdispose] at hnot
    cases hnot
  rw [seen, List.takeWhile_append, if_neg hcut, seen]

theorem undisposed (h : acts.any Act.isDispose = false) :
    ∀ a ∈ acts, (!a.isDispose) = true := by
  simpa using h

theorem seen_other (h : a.isPoll = false) : seen (acts ++ [a]) = seen acts := by
  cases hd : acts.any Act.isDispose with
  | true => exact seen_disposed hd
  | false =>
    rw [seen, List.takeWhile_append_of_pos (undisposed hd), seen,
      List.takeWhile_eq_self_iff.mpr (undisposed hd)]
    cases a with
    | poll => cases h
    | dispose => rw [List.takeWhile_cons_of_neg Bool.false_ne_true, List.append_nil]
    | leave item =>
      rw [List.takeWhile_cons_of_pos rfl, List.takeWhile_nil,
        List.rdropWhile_concat_pos _ _ _ rfl]

theorem seen_poll (h : acts.any Act.isDispose = false) :
    seen (acts ++ [.poll]) = left acts := by
  rw [seen, List.takeWhile_append_of_pos (undisposed h), List.takeWhile_cons_of_pos rfl,
    List.takeWhile_nil, List.rdropWhile_concat_neg _ _ _ Bool.false_ne_true, left_poll]

theorem seen_prefix (acts : List Act) : seen acts <+: left acts :=
  ((List.rdropWhile_prefix _ _).trans (List.takeWhile_prefix _)).filterMap _

namespace Connection

def meet (c : Connection) : Act → Connection × List (Nat × List Arrival)
  | .leave item => (c.leave [item], [])
  | .poll =>
    let (c, count, arrivals) := c.poll
    (c, [(count, arrivals)])
  | .dispose => (c.dispose, [])

structure Accounts (acts : List Act) (c : Connection) (polls : List (Nat × List Arrival)) :
    Prop where
  arrivals : polls.flatMap (·.2) = (upToClosed (seen acts)).map Inbound.arrival
  count : (polls.map (·.1)).sum = (upToClosed (seen acts)).countP Inbound.isMessage
  alive : c.alive = (!acts.any Act.isDispose && !(seen acts).any Inbound.isClosed)
  waiting : c.alive = true → seen acts ++ c.waiting = left acts

variable {c : Connection} {polls : List (Nat × List Arrival)}

theorem Accounts.leave (h : Accounts acts c polls) (item : Inbound) :
    Accounts (acts ++ [.leave item]) (c.leave [item]) polls := by
  have hseen : seen (acts ++ [.leave item]) = seen acts := seen_other rfl
  have hleft : left (acts ++ [.leave item]) = left acts ++ [item] := List.filterMap_append
  have hdispose : (acts ++ [Act.leave item]).any Act.isDispose = acts.any Act.isDispose := by
    rw [List.any_append, List.any_cons, List.any_nil]
    exact Bool.or_false _
  refine ⟨by rw [hseen]; exact h.arrivals, by rw [hseen]; exact h.count,
    by rw [hseen, hdispose]; exact h.alive, fun halive => ?_⟩
  rw [hseen, hleft, ← h.waiting halive, List.append_assoc]
  rfl

theorem Accounts.dispose (h : Accounts acts c polls) :
    Accounts (acts ++ [.dispose]) c.dispose polls := by
  have hseen : seen (acts ++ [.dispose]) = seen acts := seen_other rfl
  have hdispose : (acts ++ [Act.dispose]).any Act.isDispose = true := by
    rw [List.any_append]
    exact Bool.or_true _
  refine ⟨by rw [hseen]; exact h.arrivals, by rw [hseen]; exact h.count, ?_, nofun⟩
  rw [hdispose]
  rfl

/-- A poll of a connection that is not alive sees nothing that counts. -/
theorem Accounts.poll_ended (h : Accounts acts c polls) (hc : c.alive = false) :
    Accounts (acts ++ [.poll]) c (polls ++ [(0, [])]) := by
  have hdispose : (acts ++ [Act.poll]).any Act.isDispose = acts.any Act.isDispose := by
    rw [List.any_append]
    exact Bool.or_false _
  have hseen : upToClosed (seen (acts ++ [.poll])) = upToClosed (seen acts) ∧
      c.alive = (!acts.any Act.isDispose && !(seen (acts ++ [.poll])).any Inbound.isClosed) := by
    cases hd : acts.any Act.isDispose with
    | true =>
      rw [seen_disposed hd, ← hd]
      exact ⟨rfl, h.alive⟩
    | false =>
      have hclosed : (seen acts).any Inbound.isClosed = true := by
        simpa [hd, hc] using h.alive
      obtain ⟨more, hmore⟩ := seen_prefix acts
      rw [seen_poll hd, ← hmore, upToClosed_of_closed hclosed, List.any_append, hclosed, hc]
      exact ⟨rfl, rfl⟩
  refine ⟨?_, ?_, by rw [hdispose]; exact hseen.2, fun halive => ?_⟩
  · rw [hseen.1, List.flatMap_append, h.arrivals]
    exact List.append_nil _
  · rw [hseen.1, List.map_append, List.sum_append, h.count]
    rfl
  · rw [hc] at halive
    cases halive

theorem Accounts.poll_alive (h : Accounts acts c polls) (hc : c.alive = true) :
    Accounts (acts ++ [.poll]) c.poll.1 (polls ++ [c.poll.2]) := by
  obtain ⟨hd, hopen⟩ : acts.any Act.isDispose = false ∧
      (seen acts).any Inbound.isClosed = false := by
    simpa [hc] using h.alive
  have hdispose : (acts ++ [Act.poll]).any Act.isDispose = false := by
    rw [List.any_append, hd]
    rfl
  have hseen : seen (acts ++ [.poll]) = seen acts ++ c.waiting :=
    (seen_poll hd).trans (h.waiting hc).symm
  have hself : upToClosed (seen acts) = seen acts := by
    calc upToClosed (seen acts) = upToClosed (seen acts ++ []) := by rw [List.append_nil]
      _ = seen acts ++ upToClosed [] := upToClosed_of_open hopen
      _ = seen acts := List.append_nil _
  obtain ⟨rest, htake, hrest⟩ := take_eq c.waiting
  have hpoll : c.poll = ({ c with waiting := rest, alive := !c.waiting.any Inbound.isClosed },
      (upToClosed c.waiting).countP Inbound.isMessage,
      (upToClosed c.waiting).map Inbound.arrival) := by
    rw [Connection.poll, if_pos hc, htake]
  rw [hpoll]
  refine ⟨?_, ?_, ?_, fun halive => ?_⟩
  · rw [hseen, upToClosed_of_open hopen, List.flatMap_append, h.arrivals, hself, List.map_append,
      List.flatMap_singleton]
  · rw [hseen, upToClosed_of_open hopen, List.map_append, List.sum_append, h.count, hself,
      List.countP_append, List.map_singleton, List.sum_singleton]
  · rw [hseen, hdispose, List.any_append, hopen]
    rfl
  · have hnone : c.waiting.any Inbound.isClosed = false := by simpa using halive
    rw [hseen, left_poll, hrest hnone, List.append_nil]
    exact h.waiting hc

theorem Accounts.meet (h : Accounts acts c polls) (a : Act) :
    Accounts (acts ++ [a]) (c.meet a).1 (polls ++ (c.meet a).2) := by
  cases a with
  | leave item =>
    rw [Connection.meet, List.append_nil]
    exact h.leave item
  | dispose =>
    rw [Connection.meet, List.append_nil]
    exact h.dispose
  | poll =>
    cases hc : c.alive with
    | true => exact h.poll_alive hc
    | false =>
      have hpoll : c.poll = (c, 0, []) := by rw [poll, hc, if_neg Bool.false_ne_true]
      rw [Connection.meet, hpoll]
      exact h.poll_ended hc

theorem run_accounts (acts : List Act) :
    Accounts acts (run meet {} acts).1 (run meet {} acts).2 :=
  run_history (fun _ _ _ a h => h.meet a) ⟨rfl, rfl, rfl, fun _ => rfl⟩ acts

/-- Items that are left in portions, with a poll after each. -/
def portioned (portions : List (List Inbound)) : List Act :=
  portions.flatMap fun items => items.map .leave ++ [.poll]

theorem left_portioned (portions : List (List Inbound)) :
    left (portioned portions) = portions.flatten := by
  induction portions with
  | nil => rfl
  | cons items rest ih =>
    have hitems : left (items.map .leave ++ [.poll]) = items := by
      rw [left, List.filterMap_append, List.filterMap_map]
      exact (List.append_nil _).trans List.filterMap_some
    rw [List.flatten_cons, ← ih]
    exact List.filterMap_append.trans (congrArg (· ++ left (portioned rest)) hitems)

theorem seen_portioned (portions : List (List Inbound)) :
    seen (portioned portions) = portions.flatten := by
  obtain rfl | ⟨before, items, rfl⟩ := portions.eq_nil_or_concat
  · rfl
  have hopen : (portioned before ++ items.map Act.leave).any Act.isDispose = false := by
    simp [portioned, Act.isDispose, Function.comp_def]
  have hpolled : portioned (before ++ [items]) =
      portioned before ++ items.map .leave ++ [.poll] := by
    rw [portioned, List.flatMap_append, List.flatMap_singleton, List.append_assoc]
    rfl
  rw [List.concat_eq_append, ← left_portioned, hpolled, seen_poll hopen, left_poll]

/-- However items and polls alternate, all polls together come to what has been seen, up to the
first end of the output: what arrives is one for each item, in order, and the counts add up to the
number of messages. The connection is alive as long as no poll has seen an end and the owner has not
disposed of it. So the same items come to the same in whatever portions they are seen. -/
theorem run_polls_eq_seen_upToClosed (acts : List Act) :
    let c := (run meet {} acts).1
    let polls := (run meet {} acts).2
    polls.flatMap (·.2) = (upToClosed (seen acts)).map Inbound.arrival ∧
    (polls.map (·.1)).sum = (upToClosed (seen acts)).countP Inbound.isMessage ∧
    (c.alive = true ↔ acts.all (!·.isDispose) ∧ (seen acts).all (!·.isClosed)) ∧
    ∀ portions : List (List Inbound),
      let polls := (run meet {} (portioned portions)).2
      polls.flatMap (·.2) = (upToClosed portions.flatten).map Inbound.arrival ∧
        (polls.map (·.1)).sum = (upToClosed portions.flatten).countP Inbound.isMessage := by
  intro c polls
  have h : Accounts acts c polls := run_accounts acts
  refine ⟨h.arrivals, h.count, ?_, fun portions => ?_⟩
  · rw [h.alive]
    simp
  · have hportions := run_accounts (portioned portions)
    rw [← seen_portioned]
    exact ⟨hportions.arrivals, hportions.count⟩

end Connection

end ProofPanel.Pipe
