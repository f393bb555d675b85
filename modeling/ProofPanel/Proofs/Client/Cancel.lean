import ProofPanel.Proofs.Client.Run

/-!
# Responses to cancelled fetches

The link may let anything arrive at any time, also while it takes a value. When a fetch has been
cancelled, a response that names one of its requests changes nothing any more. If it brings a
record it is dropped without a word; if it brings an error, that comes out as an error of the
backend that belongs to no request.
-/
namespace ProofPanel

namespace Client

inductive Move
  | make (wish : Wish) (link : Json → Delivery)
  | cancel (ticket : Ticket)
  | failPending (err : BackendError)
  | hear (a : Arrival)
  | dispose

def numbering (c : Client) : Move → Client × List (Nat × Purpose)
  | .make wish link => ((c.make link wish).client, [(c.nextSeq, wish.purpose)])
  | .cancel ticket => (c.cancel ticket, [])
  | .failPending err => ((c.failPending err).1, [])
  | .hear a => ((c.hear a).1, [])
  | .dispose => (c.dispose, [])

/-- The clients that hear the link: one between two moves, and one that is making a request and has
heard some of what arrives meanwhile. -/
inductive Hearing (c : Client) : Client → Prop
  | between : Hearing c c
  | making (wish : Wish) (heard : List Arrival) :
    Hearing c ((c.opened wish.purpose).hearAll heard).1

structure Given (c : Client) (seq : Nat) (admits : Purpose → Prop) : Prop where
  below : seq < c.nextSeq
  purpose : ∀ purpose, (seq, purpose) ∈ c.pending → admits purpose

variable {c : Client} {seq : Nat} {admits : Purpose → Prop}

/-! ## Numbers that have been given -/

theorem Given.sublist {d : Client} (h : c.Given seq admits) (hn : d.nextSeq = c.nextSeq)
    (hp : d.pending.Sublist c.pending) : d.Given seq admits where
  below := by rw [hn]; exact h.below
  purpose p hm := h.purpose p (hp.subset hm)

theorem Given.hears {d : Client} {news : List News} (h : c.Given seq admits)
    (hh : Hears c d news) : d.Given seq admits :=
  h.sublist hh.nextSeq hh.sublist

/-- No later request gets the number, since only the greatest one is given again. -/
theorem Given.opened (h : c.Given seq admits) (hlast : seq < maxSeq) (purpose : Purpose) :
    (c.opened purpose).Given seq admits where
  below := by
    have hbelow := h.below
    change seq < min (c.nextSeq + 1) maxSeq
    omega
  purpose p hm := by
    rcases mem_opened.mp hm with ⟨hold, _⟩ | hnew
    · exact h.purpose p hold
    · have hseq : seq = c.nextSeq := congrArg Prod.fst hnew
      exact absurd h.below (by omega)

theorem opened_given (hlast : c.nextSeq < maxSeq) (purpose : Purpose) :
    (c.opened purpose).Given c.nextSeq (· = purpose) where
  below := by
    change c.nextSeq < min (c.nextSeq + 1) maxSeq
    omega
  purpose p hm := by
    rcases mem_opened.mp hm with ⟨_, hne⟩ | hnew
    · exact absurd rfl hne
    · exact congrArg Prod.snd hnew

theorem Given.make {wish : Wish} (h : (c.opened wish.purpose).Given seq admits)
    (link : Json → Delivery) : (c.make link wish).client.Given seq admits := by
  obtain ⟨_, hnext, hsub⟩ := c.ask_keeps link wish.purpose (wish.request ·)
  rw [make_eq]
  exact h.sublist hnext hsub

theorem Given.next (h : c.Given seq admits) (hlast : seq < maxSeq) (m : Move) :
    (c.numbering m).1.Given seq admits := by
  cases m with
  | make wish link => exact (h.opened hlast wish.purpose).make link
  | cancel ticket => exact h.sublist rfl (c.cancel_sublist ticket)
  | failPending err => exact h.hears (c.failPending_hears err)
  | hear a => exact h.hears (c.hear_hears a)
  | dispose => exact h.sublist rfl (List.nil_sublist _)

theorem Given.later (h : c.Given seq admits) (hlast : seq < maxSeq) (moves : List Move) :
    (run numbering c moves).1.Given seq admits :=
  run_invariant (motive := fun (c : Client) _ => c.Given seq admits)
    (fun _ _ m hc => hc.next hlast m) h moves

theorem Given.hearing {d : Client} (h : c.Given seq admits) (hlast : seq < maxSeq)
    (hd : Hearing c d) : d.Given seq admits := by
  cases hd with
  | between => exact h
  | making wish heard => exact (h.opened hlast wish.purpose).hears (hearAll_hears _ heard)

/-- A number under which a request was made stays with its purpose. -/
theorem run_given (moves : List Move) {purpose : Purpose}
    (hm : (seq, purpose) ∈ (run numbering {} moves).2) (hlast : seq < maxSeq) :
    (run numbering {} moves).1.Given seq (· = purpose) := by
  refine run_invariant
    (motive := fun (c : Client) given => (seq, purpose) ∈ given → c.Given seq (· = purpose))
    ?_ (fun h => absurd h List.not_mem_nil) moves hm
  intro c given m hc hm
  rcases List.mem_append.mp hm with hold | hnew
  · exact (hc hold).next hlast m
  · cases m with
    | make wish link =>
      cases List.mem_singleton.mp hnew
      exact (opened_given hlast wish.purpose).make link
    | _ => cases hnew

theorem Given.cancel {ticket : Ticket} (h : c.Given seq (· = .info ticket)) :
    (c.cancel ticket).Given seq fun _ => False where
  below := h.below
  purpose p hm := by
    obtain ⟨hm, hne⟩ := List.mem_filter.mp hm
    rw [h.purpose p hm] at hne
    simp at hne

/-! ## Responses that name no open request -/

theorem Given.close_eq (h : c.Given seq fun _ => False) : c.close seq = (c, none) := by
  have hclosed : ∀ p ∈ c.pending, p.1 ≠ seq := by
    rintro ⟨n, purpose⟩ hm rfl
    exact h.purpose purpose hm
  have hnone : c.pending.find? (·.1 == seq) = none :=
    List.find?_eq_none.mpr fun p hp => by simpa using hclosed p hp
  refine Prod.ext (close_eq_self hclosed) ?_
  rw [close_snd, hnone]
  rfl

theorem Given.receive_ok (h : c.Given seq fun _ => False) (record : Option Record) :
    c.receive (.ok seq record) = (c, []) := by
  simp only [receive, h.close_eq]

theorem Given.receive_error (h : c.Given seq fun _ => False) (message : String) :
    c.receive (.error (some seq) message) = (c, c.publish [remoteError "backend" message]) := by
  simp only [receive, h.close_eq]

theorem hear_deaf (hl : c.listening = false) (a : Arrival) : c.hear a = (c, []) := by
  simp only [hear, hl, Bool.not_false, if_true]

/-! ## Disposing -/

theorem make_live (c : Client) (link : Json → Delivery) (wish : Wish) :
    (c.make link wish).client.listening = c.listening ∧
      (c.make link wish).client.publishing = c.publishing := by
  rw [make_eq]
  exact (c.ask_keeps link wish.purpose (wish.request ·)).1

/-- A client hears its link and is heard exactly until it is disposed. -/
theorem run_live (moves : List Move) :
    (.dispose ∉ moves → (run numbering {} moves).1.Ready) ∧
      (.dispose ∈ moves → (run numbering {} moves).1.listening = false) := by
  have hall : Along numbering (fun _ _ _ => True) ({} : Client) [] moves :=
    along_of_forall (fun _ _ _ _ => trivial) _ _
  refine run_induction (motive := fun moves c _ =>
    (.dispose ∉ moves → c.Ready) ∧ (.dispose ∈ moves → c.listening = false))
    ?_ ⟨fun _ => ⟨rfl, rfl⟩, fun h => absurd h List.not_mem_nil⟩ hall
  intro before c _ m ⟨hready, hdeaf⟩ _
  have keeps : ∀ d : Client, m ≠ .dispose →
      (d.listening = c.listening ∧ d.publishing = c.publishing) →
      (.dispose ∉ before ++ [m] → d.Ready) ∧ (.dispose ∈ before ++ [m] → d.listening = false) := by
    intro d hm hlive
    constructor
    · intro h
      have hc := hready fun hb => h (List.mem_append_left _ hb)
      exact ⟨hlive.1.trans hc.listening, hlive.2.trans hc.publishing⟩
    · intro h
      rcases List.mem_append.mp h with hb | hb
      · exact hlive.1.trans (hdeaf hb)
      · exact absurd (List.mem_singleton.mp hb).symm hm
  cases m with
  | make wish link => exact keeps _ nofun (c.make_live link wish)
  | cancel ticket => exact keeps _ nofun ⟨rfl, rfl⟩
  | failPending err => exact keeps _ nofun (c.failPending_hears err).live
  | hear a => exact keeps _ nofun (c.hear_hears a).live
  | dispose =>
    refine ⟨fun h => absurd ?_ h, fun _ => rfl⟩
    exact List.mem_append_right _ (List.mem_singleton.mpr rfl)

theorem Hearing.live {d : Client} (h : Hearing c d) :
    d.listening = c.listening ∧ d.publishing = c.publishing := by
  cases h with
  | between => exact ⟨rfl, rfl⟩
  | making wish heard => exact (hearAll_hears (c.opened wish.purpose) heard).live

/-! ## After a fetch has been cancelled -/

/-- Whatever happened before and after a fetch was cancelled: a response that names a request made
for it before then changes nothing, and no record comes out. But an error comes out, as one of the
backend. The greatest number is left out, as it is given again and again when it is reached. -/
theorem run_cancelled (before after : List Move) {seq : Nat} {ticket : Ticket} {d : Client}
    (given : (seq, .info ticket) ∈ (run numbering {} before).2) (hlast : seq < maxSeq)
    (hd : Hearing (run numbering {} (before ++ .cancel ticket :: after)).1 d) :
    (∀ value record, Response.ofJson? value = some (.ok seq record) →
      d.hear (.message value) = (d, [])) ∧
    ∀ value message, Response.ofJson? value = some (.error (some seq) message) →
      (.dispose ∉ before ++ after →
        d.hear (.message value) = (d, [remoteError "backend" message])) ∧
      (.dispose ∈ before ++ after → d.hear (.message value) = (d, [])) := by
  obtain ⟨hready, hdeaf⟩ := run_live (before ++ .cancel ticket :: after)
  have hdisposed : Move.dispose ∈ before ++ .cancel ticket :: after ↔
      Move.dispose ∈ before ++ after := by simp
  have hgone : d.Given seq fun _ => False := by
    rw [run_append] at hd
    exact ((run_given before given hlast).cancel.later hlast after).hearing hlast hd
  have hlive := hd.live
  refine ⟨fun value record hv => ?_, fun value message hv => ⟨fun hm => ?_, fun hm => ?_⟩⟩
  · cases hl : d.listening with
    | false => exact hear_deaf hl _
    | true =>
      have hheard : d.hear (.message value) = d.receive (.ok seq record) := by
        simp only [hear, hl, hv]
        rfl
      rw [hheard, hgone.receive_ok]
  · have hc := hready (mt hdisposed.mp hm)
    have hr : d.Ready := ⟨hlive.1.trans hc.listening, hlive.2.trans hc.publishing⟩
    rw [hear_message hr hv, hgone.receive_error, publish, if_pos hr.publishing]
  · exact hear_deaf (hlive.1.trans (hdeaf (hdisposed.mpr hm))) _

/-- A fetch is cancelled, and the record and the error that come for it are heard after another
fetch has been asked for. -/
theorem run_cancelled_late :
    let l : Location := ⟨"/a.lean", 3, 5⟩
    let before : List Move := [.make (.info 7 l) fun _ => {}]
    let after : List Move := [.make (.info 8 l) fun _ => {}]
    let d := (run numbering {} (before ++ .cancel 7 :: after)).1
    (1, .info 7) ∈ (run numbering {} before).2 ∧ 1 < maxSeq ∧ Hearing d d ∧
      d.hear (.message (Response.ok 1 none).toJson) = (d, []) ∧
      d.hear (.message (Response.error (some 1) "late").toJson) =
        (d, [remoteError "backend" "late"]) := by
  intro l before after d
  have given : (1, .info 7) ∈ (run numbering {} before).2 := by
    unfold before l
    decide +kernel
  have hlast : 1 < maxSeq := by decide
  obtain ⟨hok, herror⟩ := run_cancelled before after given hlast .between
  exact ⟨given, hlast, .between, hok _ none rfl, (herror _ "late" rfl).1 (by simp [before, after])⟩

/-- An error that comes for a cancelled fetch is told as one that belongs to no request. -/
theorem run_cancelled_heard :
    let l : Location := ⟨"/a.lean", 3, 5⟩
    let moves : List Move := [.make (.info 1 l) fun _ => {}, .cancel 1]
    let response := Response.error (some 1) "late"
    (1, .info 1) ∈ (run numbering {} moves).2 ∧
      Response.ofJson? response.toJson = some response ∧
      ((run numbering {} moves).1.hear (.message response.toJson)).2 ≠ [] := by
  intro l moves response
  refine ⟨?_, rfl, ?_⟩
  · unfold moves l
    decide +kernel
  · unfold moves l response
    decide +kernel

end Client

end ProofPanel
