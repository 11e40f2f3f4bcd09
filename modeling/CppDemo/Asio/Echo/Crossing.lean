import CppDemo.Asio.Echo.Conversation
import Mathlib.Algebra.Order.BigOperators.Group.List
import Mathlib.Algebra.Order.Ring.Nat
import Mathlib.Data.List.TakeWhile
import Mathlib.Tactic.Ring

/-!
# No buffer is large enough

A response is longer than what it answers, and the client reads once for each line. If its reads
give it one byte each, then what it has not read yet becomes more with every response, until the
streams are full. So however much room there is, a client with enough lines does not get to the end
of its input: sooner or later both ends wait in a write for the other one to read.

Source: `asio/allocation/client.cpp`, lines 48–117, `asio/allocation/allocation.cpp`, lines 115–149,
and `asio/buffer/reference_counted_buffer.cpp`, lines 132–165.

## Main definitions

* `Conversation.Tally` : how much there is of everything.

## Main results

* `Conversation.Ledger.hasQuit_eq_false` : a client with enough lines does not come to their end.
* `Conversation.crossed_of_run` : every run that goes on as long as it can ends with both ends
  waiting.
-/

namespace CppDemo.Asio.Echo.Conversation

open Transition

variable {doWrite : Connection → Nat → Bytes → Connection × Bytes} {requestRoom replyRoom : Nat}
  {s t : Conversation} {a : Action} {lines : List Bytes}

/-- How much there is of everything, if the client gets one byte at a time. -/
structure Tally (requestRoom replyRoom : Nat) (s : Conversation) : Prop where
  texts : ∀ text ∈ s.texts, text.length ≤ requestRoom
  toClient : s.toClient.length ≤ replyRoom
  unsent : s.unsent.length ≤ requestRoom + 33
  printed : s.printed.flatten.length = s.printed.length

theorem tally_start (hexact : Exact doWrite requestRoom) (data : Vector UInt8 dataSize)
    (daytime : Daytime) (lines : List Bytes) :
    (start doWrite data daytime lines).Tally requestRoom replyRoom where
  texts := nofun
  toClient := Nat.zero_le _
  unsent := by
    rw [hexact.unsent_start, length_reply, daytime.size, List.length_nil]
    omega
  printed := rfl

theorem Tally.step (h : s.Tally requestRoom replyRoom) (hledger : s.Ledger requestRoom lines)
    (hexact : Exact doWrite requestRoom) (hslow : a.isSlow = true)
    (hstep : Conversation.step doWrite requestRoom replyRoom s a = some t) :
    t.Tally requestRoom replyRoom := by
  cases move_of_step hstep with
  | @readSome piece rest haction hclient hpiece htoClient =>
    have htoClient' := h.toClient
    have hone : piece.length = 1 := by
      rw [haction] at hslow
      simpa [Action.isSlow] using hslow
    rw [htoClient, List.length_append] at htoClient'
    refine { h with
      toClient := Nat.le_trans (Nat.le_add_left _ _) htoClient'
      printed := ?_ }
    simp [h.printed, hone]
  | @send piece rest hwaiting hpiece hunsent hroom =>
    have hunsent' := h.unsent
    rw [hunsent, List.length_append] at hunsent'
    exact { h with
      toClient := by rwa [List.length_append]
      unsent := Nat.le_trans (Nat.le_add_left _ _) hunsent' }
  | @readDone text rest daytime session hwaiting htext htoServer hsize hsession =>
    have hroom := hledger.room
    rw [htoServer, List.length_append] at hroom
    have htextRoom : text.length ≤ requestRoom := Nat.le_trans (Nat.le_add_right _ _) hroom
    refine { h with
      texts := fun other hother ↦ ?_
      unsent := ?_ }
    · rcases List.mem_append.mp hother with hother | hother
      · exact h.texts other hother
      · rwa [List.mem_singleton.mp hother]
    · rw [hsession, hledger.response_eq hexact htoServer hsize, length_reply, daytime.size]
      omega
  | _ => exact { h with }

/-! ### Counting bytes -/

/-- A response has 33 bytes more than what it answers. -/
theorem length_flatten_of_answers {texts responses : List Bytes}
    (h : List.Forall₂ Answers texts responses) :
    responses.flatten.length = texts.flatten.length + 33 * texts.length := by
  induction h with
  | nil => rfl
  | cons hanswers _ ih =>
    obtain ⟨daytime, rfl⟩ := hanswers
    simp only [List.flatten_cons, List.length_append, List.length_cons, length_reply, daytime.size,
      ih]
    omega

/-- What is written of lines of one byte are the lines. -/
theorem length_flatten_of_pieces {taken written : List Bytes}
    (h : List.Forall₂ PieceOf taken written) (htaken : ∀ line ∈ taken, line.length = 1) :
    written.flatten.length = taken.length := by
  induction h with
  | nil => rfl
  | @cons line piece _ _ hpiece _ ih =>
    obtain ⟨hline, htaken⟩ := List.forall_mem_cons.mp htaken
    have hpos := List.length_pos_iff.mpr hpiece.1
    have hle := hpiece.2.length_le
    rw [List.flatten_cons, List.length_append, ih htaken, List.length_cons]
    omega

theorem length_flatten_le {texts : List Bytes} {room : Nat}
    (h : ∀ text ∈ texts, text.length ≤ room) : texts.flatten.length ≤ texts.length * room := by
  have hle : (texts.map List.length).sum ≤ (texts.map List.length).length * room :=
    List.sum_le_card_nsmul _ room (by simpa using h)
  rwa [List.length_map, ← List.length_flatten] at hle

/-- A client that gets one byte at a time does not come to the end of enough lines: the server would
have had to answer with more bytes than the client has read and the streams have room for. -/
theorem Ledger.hasQuit_eq_false (h : s.Ledger requestRoom lines)
    (htally : s.Tally requestRoom replyRoom) (hlines : ∀ line ∈ lines, line.length = 1)
    (hlong : requestRoom * (2 * requestRoom + replyRoom + 34) < 33 * lines.length) :
    s.client.hasQuit = false := by
  by_contra hquit
  rw [Bool.not_eq_false] at hquit
  obtain ⟨taken, hpieces, -, -, htaken⟩ := h.written
  have hall : taken = lines := by
    rw [htaken hquit, List.takeWhile_eq_self_iff]
    intro line hline
    have hone := hlines line hline
    simpa using List.length_pos_iff.mp (hone ▸ Nat.one_pos)
  rw [hall] at hpieces
  have hreads : s.client.reads = false := by
    cases hcases : s.client.reads with
    | false => rfl
    | true => exact absurd (lines_of_reads hcases).2 (by simp [hquit])
  -- What has been written, and what has been answered of it.
  have hasked := congrArg List.length h.asked
  rw [List.length_append, length_flatten_of_pieces hpieces hlines] at hasked
  have hroom := h.room
  have hanswered := length_flatten_le htally.texts
  -- What has been sent, and what has been read of it.
  have hprinted := h.turns
  rw [hreads, ← hpieces.length_eq] at hprinted
  have hreceived := congrArg List.length h.received
  rw [List.length_append, List.length_append, htally.printed, length_flatten_of_answers h.served,
    List.flatten_cons, List.nil_append, List.length_cons] at hreceived
  have htoClient := htally.toClient
  have hunsent := htally.unsent
  have hcount : 33 * s.texts.length ≤ 2 * requestRoom + replyRoom + 1 := by
    simp only [Bool.false_eq_true, if_false] at hprinted
    omega
  have hfew := Nat.mul_le_mul_right requestRoom hcount
  have hbound : 33 * lines.length ≤ requestRoom * (2 * requestRoom + replyRoom + 34) := by
    calc 33 * lines.length ≤ 33 * (s.texts.length * requestRoom) + 33 * requestRoom := by omega
      _ = 33 * s.texts.length * requestRoom + 33 * requestRoom := by rw [Nat.mul_assoc]
      _ ≤ (2 * requestRoom + replyRoom + 1) * requestRoom + 33 * requestRoom := by omega
      _ = requestRoom * (2 * requestRoom + replyRoom + 34) := by ring
  omega

/-! ### Runs -/

section Runs

variable {data : Vector UInt8 dataSize} {daytime : Daytime} {as : List Action}

theorem ledger_tally_of_run (hexact : Exact doWrite requestRoom) (hslow : ∀ a ∈ as, a.isSlow = true)
    (hrun : run (Conversation.step doWrite requestRoom replyRoom)
      (start doWrite data daytime lines) as = some s) :
    s.Ledger requestRoom lines ∧ s.Tally requestRoom replyRoom :=
  run_invariant_along (C := fun _ a ↦ a.isSlow = true)
    (P := fun s ↦ s.Ledger requestRoom lines ∧ s.Tally requestRoom replyRoom)
    (fun _ _ _ h ha hstep ↦ ⟨h.1.step hexact hstep, h.2.step h.1 hexact ha hstep⟩)
    (along_of_mem (fun a ha _ ↦ hslow a ha) _) hrun
    ⟨ledger_start hexact data daytime lines, tally_start hexact data daytime lines⟩

/-- However much room there is, a client with enough lines of one byte that gets one byte at a time
never quits, and when nobody can go on, both ends wait in a write for the other one to read. -/
theorem crossed_of_run (hexact : Exact doWrite requestRoom) (hrequest : 0 < requestRoom)
    (hreply : 0 < replyRoom) (hlines : ∀ line ∈ lines, line.length = 1)
    (hlong : requestRoom * (2 * requestRoom + replyRoom + 34) < 33 * lines.length)
    (hslow : ∀ a ∈ as, a.isSlow = true)
    (hrun : run (Conversation.step doWrite requestRoom replyRoom)
      (start doWrite data daytime lines) as = some s) :
    s.client.hasQuit = false ∧
      (Stuck (Conversation.step doWrite requestRoom replyRoom) (fun a ↦ a.isSlow = true) s →
        s.Crossed requestRoom replyRoom) := by
  obtain ⟨hledger, htally⟩ := ledger_tally_of_run hexact hslow hrun
  have hopen := hledger.hasQuit_eq_false htally hlines hlong
  refine ⟨hopen, fun hstuck ↦ ?_⟩
  rcases hledger.over_or_crossed (fun _ h ↦ h) hstuck hrequest hreply with hover | hcrossed
  · rw [hover.client] at hopen
    exact absurd hopen nofun
  · exact hcrossed

/-- Room for one byte in each direction is not enough for two lines. -/
theorem crossed_of_run_bothFull :
    ∃ s, run (Conversation.step Connection.doWriteShared 1 1)
        (start Connection.doWriteShared Session.zeroData Session.epochDaytime
          [ascii "a", ascii "b"]) bothFull = some s ∧
      (∀ line ∈ [ascii "a", ascii "b"], line.length = 1) ∧
      (∀ a ∈ bothFull, a.isSlow = true) ∧ s.client.hasQuit = false ∧
      (Stuck (Conversation.step Connection.doWriteShared 1 1) (fun a ↦ a.isSlow = true) s →
        s.Crossed 1 1) := by
  obtain ⟨s, hs⟩ : ∃ s, run (Conversation.step Connection.doWriteShared 1 1)
      (start Connection.doWriteShared Session.zeroData Session.epochDaytime
        [ascii "a", ascii "b"]) bothFull = some s := ⟨_, rfl⟩
  exact ⟨s, hs, by decide, by decide,
    crossed_of_run (exact_doWriteShared 1) Nat.one_pos Nat.one_pos (by decide) (by decide)
      (by decide) hs⟩

end Runs

end CppDemo.Asio.Echo.Conversation
