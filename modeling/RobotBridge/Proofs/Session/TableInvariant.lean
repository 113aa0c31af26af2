import RobotBridge.Proofs.Session.Run

/-! The subscription table in every state that it can reach: who waits where, what a listing
shows, and that an entry that ends leaves nobody unanswered. -/
namespace RobotBridge.Session.Table
open Entry (Live Turn answerAll release)

variable {t : Table}

/-- A listing shows each live entry once, in order. -/
private theorem WellFormed.states (h : t.WellFormed) :
    t.states.Pairwise (fun a b => a.1 < b.1) ∧
      (∀ c state, (c, state) ∈ t.states ↔ ∃ entry, (c, entry) ∈ t.entries ∧ entry.machine.state = state) ∧
      ∀ p ∈ t.states, p.2 ≠ .closed := by
  refine ⟨List.pairwise_map.mpr h.ascending, fun c state => ?_, fun p hp => ?_⟩
  · simp only [Table.states, List.mem_map, Prod.exists, Prod.mk.injEq]
    exact ⟨fun ⟨_, entry, hm, hc, hs⟩ => ⟨entry, hc ▸ hm, hs⟩,
      fun ⟨entry, hm, hs⟩ => ⟨c, entry, hm, rfl, hs⟩⟩
  · obtain ⟨q, hq, rfl⟩ := List.mem_map.mp hp
    exact (h.live q hq).state_ne_closed

private theorem Change.listed {input : Input} {t' : Table} {out : List Output}
    (hc : Change t input t' out) {call : Nat} {listing : List (String × SubscriptionState)}
    (hm : .listed call (.ok listing) ∈ out) : listing = t.states := by
  cases hc with
  | opens | absent | stray => simp at hm
  | turn hr he ht => cases ht <;> simp [answerAll, release] at hm
  | list hr => simp_all
  | stop hr hs => cases input <;> simp [close, farewell, Entry.finish, answerAll] at hm
  | refuse hr => cases input <;> simp [refusal] at hm

private theorem channelOf?_mem {k : Nat} {c : String} {entry : Entry}
    (h : t.channelOf? k = some (c, entry)) : (c, entry) ∈ t.entries :=
  List.mem_of_find?_eq_some h

private theorem early_ne_ended (s u : String) :
    "connection closed with code " ++ s ++ u ≠ "subscription ended" := by
  intro h
  have h := congrArg (fun v : String => v.toList.head?) h
  simp at h

private theorem answered_ended_turn {c d : String} {entry : Entry} {o : Option Entry} {input : Input}
    {out : List Output} (ht : Turn c entry input o out) {n : Nat}
    (hm : .answered n (.error (.connection d "subscription ended")) ∈ out) :
    ∃ k, input = .event k (.failed "subscription ended") := by
  cases ht with
  | @fail k _ ns reason =>
    obtain ⟨_, _, rfl⟩ : n ∈ ns ∧ d = c ∧ "subscription ended" = reason := by simpa using hm
    exact ⟨k, rfl⟩
  | @shut _ _ ns code =>
    obtain ⟨_, _, he⟩ : n ∈ ns ∧ d = c ∧ "subscription ended" = Subscription.closedEarly code := by
      simpa using hm
    exact absurd he.symm (early_ne_ended _ _)
  | reject hf => rcases Notice.ofFrame_error hf with rfl | ⟨_, rfl⟩ <;> simp at hm
  | _ => simp at hm

private theorem Change.answered_ended {input : Input} {t' : Table} {out : List Output}
    (hc : Change t input t' out) {n : Nat} {d : String}
    (hm : .answered n (.error (.connection d "subscription ended")) ∈ out) :
    ∃ k, input = .event k (.failed "subscription ended") := by
  cases hc with
  | opens | absent | stray | list => simp at hm
  | turn hr he ht => exact answered_ended_turn ht hm
  | stop hr hs => cases input <;> simp [close, farewell, Entry.finish, answerAll] at hm
  | refuse hr => cases input <;> simp [refusal] at hm

/-- In every table that inputs can lead to, each entry belongs to its channel, holds a connection of
its own that was opened before, has not closed, and is waited for exactly as its state says. Listings
show just these entries, in order. An entry that an event ends answers no call beyond what its
machine settled, and no caller is told that the subscription ended unless a transport failed so. -/
theorem reachable_invariant (inputs : List Input) :
    let t := ({} : Table).after inputs
    (∀ c entry, (c, entry) ∈ t.entries →
      entry.machine.channel = c ∧ entry.connection < t.nextConnection ∧
      entry.machine.state ≠ .closed ∧
      (entry.subscribers ≠ [] ↔ entry.machine.state = .connecting) ∧
      (entry.unsubscribers ≠ [] ↔ entry.machine.state = .closing)) ∧
    (t.entries.map fun p => p.2.connection).Nodup ∧
    (∀ input call listing, .listed call (.ok listing) ∈ (t.step input).2 →
      listing.Pairwise (fun a b => a.1 < b.1) ∧
      (∀ c state, (c, state) ∈ listing ↔
        ∃ entry, (c, entry) ∈ t.entries ∧ entry.machine.state = state) ∧
      ∀ p ∈ listing, p.2 ≠ .closed) ∧
    (∀ k e c entry, t.channelOf? k = some (c, entry) → (entry.heed e).1.machine.state = .closed →
      t.onEvent k e =
        (t.remove c, (entry.heed e).2 ++ [.released entry.owner, .dropped entry.connection])) ∧
    ∀ input call c, .answered call (.error (.connection c "subscription ended")) ∈ (t.step input).2 →
      ∃ k, input = .event k (.failed "subscription ended") := by
  have h := wellFormed_after inputs
  refine ⟨fun c entry hm => ?_, h.distinct, fun input call listing hm => ?_,
    fun k e c entry hk hend => ?_, fun input call c hm => (step_change h input).answered_ended hm⟩
  · have hl := h.live _ hm
    exact ⟨hl.channel, h.fresh _ hm, hl.state_ne_closed, hl.subscribers_iff, hl.unsubscribers_iff⟩
  · rw [(step_change h input).listed hm]
    exact h.states
  · have hl := h.live _ (channelOf?_mem hk)
    rw [onEvent_of_channelOf? hk, if_pos hend]
    rcases hl.heed_cases e with ht | ⟨he, _⟩
    · exact absurd hend (ht.live hl).state_ne_closed
    · rw [he, Entry.finish_ended, Entry.release]

end RobotBridge.Session.Table
