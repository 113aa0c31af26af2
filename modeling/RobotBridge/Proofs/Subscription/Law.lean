import Mathlib.Data.List.Induction
import RobotBridge.Subscription

/-! The law of subscriptions, for any list of events and unsubscribe requests, also such as no
transport brings: the life goes one way, and each call is answered, the connection closed and a frame
passed on at one place of it. -/
namespace RobotBridge

def SubscriptionState.rank : SubscriptionState → Nat
  | connecting => 0
  | active => 1
  | closing => 2
  | closed => 3

namespace Subscription

variable {c : String} {state state' : SubscriptionState} {input : Input} {asked out : List Action}

/-! ### One step -/

/-- All that an input can make of a machine: its state afterwards, and what is asked for. -/
inductive Turn (c : String) : SubscriptionState → Input → SubscriptionState → List Action → Prop
  | greet : Turn c .connecting (.event .opened) .connecting [.send (Envelope.subscribe c).encode]
  | refuse : Turn c .connecting .unsubscribe .connecting []
  | accept {text : String} {envelope : Envelope} : interpret c text = .ok envelope →
      Turn c .connecting (.event (.message text)) .active [.deliver envelope, .settleSubscribe (.ok ())]
  | reject {text : String} {error : CallError} : interpret c text = .error error →
      Turn c .connecting (.event (.message text)) .closed
        [.close CloseCode.normal, .settleSubscribe (.error error)]
  | fail {reason : String} : Turn c .connecting (.event (.failed reason)) .closed
      [.settleSubscribe (.error (.connection c reason))]
  | shut {code : UInt16} : Turn c .connecting (.event (.closed code)) .closed
      [.settleSubscribe (.error (.connection c (closedEarly code)))]
  | pass {s : SubscriptionState} {text : String} {envelope : Envelope} : s = .active ∨ s = .closing →
      interpret c text = .ok envelope → Turn c s (.event (.message text)) s [.deliver envelope]
  | report {s : SubscriptionState} {text : String} {error : CallError} : s = .active ∨ s = .closing →
      interpret c text = .error error → Turn c s (.event (.message text)) s [.deliverError error]
  | reopen {s : SubscriptionState} : s = .active ∨ s = .closing → Turn c s (.event .opened) s []
  | leave : Turn c .active .unsubscribe .closing [.close CloseCode.normal]
  | attend : Turn c .closing .unsubscribe .closing []
  | snap {reason : String} : Turn c .active (.event (.failed reason)) .closed
      [.deliverError (.connection c reason)]
  | expire {code : UInt16} : Turn c .active (.event (.closed code)) .closed []
  | part {e : Event} : e.isTerminal → Turn c .closing (.event e) .closed [.settleUnsubscribe]
  | late {i : Input} : Turn c .closed i .closed []

theorem onPush_turn (c : String) (hstate : state = .active ∨ state = .closing) (text : String) :
    ∃ out, (⟨c, state⟩ : Subscription).onPush text = (⟨c, state⟩, out) ∧
      Turn c state (.event (.message text)) state out := by
  cases hf : interpret c text with
  | ok envelope => exact ⟨_, by simp [onPush, hf], .pass hstate hf⟩
  | error error => exact ⟨_, by simp [onPush, hf], .report hstate hf⟩

theorem onFirstMessage_turn (c text : String) :
    ∃ state' out, (⟨c, .connecting⟩ : Subscription).onFirstMessage text = (⟨c, state'⟩, out) ∧
      Turn c .connecting (.event (.message text)) state' out := by
  cases hf : interpret c text with
  | ok envelope => exact ⟨.active, _, by simp [onFirstMessage, hf], .accept hf⟩
  | error error => exact ⟨.closed, _, by simp [onFirstMessage, hf], .reject hf⟩

theorem step_turn (c : String) (state : SubscriptionState) (input : Input) :
    ∃ state' out, (⟨c, state⟩ : Subscription).step input = (⟨c, state'⟩, out) ∧ Turn c state input state' out := by
  cases state with
  | connecting =>
    cases input with
    | unsubscribe => exact ⟨_, _, rfl, .refuse⟩
    | event e =>
      cases e with
      | opened => exact ⟨_, _, rfl, .greet⟩
      | message text => exact onFirstMessage_turn c text
      | closed code => exact ⟨_, _, rfl, .shut⟩
      | failed reason => exact ⟨_, _, rfl, .fail⟩
  | active =>
    cases input with
    | unsubscribe => exact ⟨_, _, rfl, .leave⟩
    | event e =>
      cases e with
      | opened => exact ⟨_, _, rfl, .reopen (.inl rfl)⟩
      | message text => exact ⟨_, onPush_turn c (.inl rfl) text⟩
      | closed code => exact ⟨_, _, rfl, .expire⟩
      | failed reason => exact ⟨_, _, rfl, .snap⟩
  | closing =>
    cases input with
    | unsubscribe => exact ⟨_, _, rfl, .attend⟩
    | event e =>
      cases e with
      | opened => exact ⟨_, _, rfl, .reopen (.inr rfl)⟩
      | message text => exact ⟨_, onPush_turn c (.inr rfl) text⟩
      | closed code => exact ⟨_, _, rfl, .part rfl⟩
      | failed reason => exact ⟨_, _, rfl, .part rfl⟩
  | closed => cases input <;> exact ⟨_, _, rfl, .late⟩

/-- The step itself, as one of these turns. -/
theorem turn_step (c : String) (state : SubscriptionState) (input : Input) :
    Turn c state input ((⟨c, state⟩ : Subscription).step input).1.state
      ((⟨c, state⟩ : Subscription).step input).2 := by
  obtain ⟨state', out, hstep, ht⟩ := step_turn c state input
  rw [hstep]
  exact ht

theorem Turn.rank_le (h : Turn c state input state' out) : state.rank ≤ state'.rank := by
  cases h with
  | pass | report | reopen => exact Nat.le_refl _
  | _ => decide

theorem Turn.settles (h : Turn c state input state' out) :
    (∃ result, .settleSubscribe result ∈ out) ↔ state = .connecting ∧ state' ≠ .connecting := by
  cases h with
  | pass hs | report hs | reopen hs => rcases hs with rfl | rfl <;> simp
  | _ => simp

/-- A subscribe call is told that all is well exactly when the machine is active from then on. -/
theorem Turn.result {result : Except CallError Unit} (h : Turn c state input state' out)
    (hr : .settleSubscribe result ∈ out) : result = .ok () ↔ state' = .active := by
  cases h with
  | accept | reject | fail | shut => simp_all
  | _ => simp at hr

theorem Turn.releases (h : Turn c state input state' out) :
    .settleUnsubscribe ∈ out ↔ state = .closing ∧ state' = .closed := by
  cases h with
  | pass hs | report hs | reopen hs => rcases hs with rfl | rfl <;> simp
  | _ => simp

theorem Turn.closes (h : Turn c state input state' out) (code : UInt16) :
    .close code ∈ out ↔ code = CloseCode.normal ∧ (state = .active ∧ input = .unsubscribe ∨
      state = .connecting ∧ ∃ text error, input = .event (.message text) ∧ interpret c text = .error error) := by
  cases h with
  | pass hs | report hs | reopen hs => rcases hs with rfl | rfl <;> simp
  | accept hf | reject hf => simp [hf]
  | _ => simp

theorem Turn.delivers (h : Turn c state input state' out) :
    out.any (· matches .deliver _ | .deliverError _) ↔
      (∃ text, input = .event (.message text) ∧ (state = .active ∨ state = .closing ∨
        state = .connecting ∧ ∃ envelope, interpret c text = .ok envelope)) ∨
      state = .active ∧ ∃ reason, input = .event (.failed reason) := by
  cases h with
  | pass hs | report hs | reopen hs => rcases hs with rfl | rfl <;> simp
  | accept hf | reject hf => simp [hf]
  | @part e he => cases e <;> simp_all [Event.isTerminal]
  | _ => simp

theorem Turn.delivers_one (h : Turn c state input state' out) :
    out.countP (· matches .deliver _ | .deliverError _) ≤ 1 := by
  cases h <;> simp

theorem Turn.leaves (h : Turn c .connecting input state' out) :
    state' = .connecting ↔ input = .unsubscribe ∨ input = .event .opened := by
  cases h with
  | pass hs | report hs | reopen hs => simp at hs
  | _ => simp

theorem Turn.ends (h : Turn c state input state' out) (hstate : state = .active ∨ state = .closing) :
    state' = .closed ↔ ∃ e, input = .event e ∧ e.isTerminal := by
  cases h with
  | pass hs | report hs | reopen hs => rcases hs with rfl | rfl <;> simp [Event.isTerminal]
  | part he => simp [he]
  | _ => simp_all [Event.isTerminal]

/-! ### A run -/

theorem run_append (s : Subscription) (inputs later : List Input) :
    s.run (inputs ++ later) =
      (((s.run inputs).1.run later).1, (s.run inputs).2 ++ ((s.run inputs).1.run later).2) := by
  induction inputs generalizing s with
  | nil => rfl
  | cons input inputs ih => simp only [List.cons_append, run, ih]

theorem run_closed (c : String) (later : List Input) :
    (⟨c, .closed⟩ : Subscription).run later = (⟨c, .closed⟩, later.map fun _ => []) := by
  induction later with
  | nil => rfl
  | cons input later ih =>
    have hstep : (⟨c, .closed⟩ : Subscription).step input = (⟨c, .closed⟩, []) := by
      cases input <;> rfl
    rw [run, hstep]
    simp only [ih, List.map_cons]

/-- The life goes one way: no input leads back. -/
theorem rank_le_run (c : String) (state : SubscriptionState) (later : List Input) :
    state.rank ≤ ((⟨c, state⟩ : Subscription).run later).1.state.rank := by
  induction later generalizing state with
  | nil => exact Nat.le_refl _
  | cons input later ih =>
    obtain ⟨state', out, hstep, ht⟩ := step_turn c state input
    rw [run, hstep]
    exact Nat.le_trans ht.rank_le (ih state')

structure Tally (state : SubscriptionState) (asked : List Action) : Prop where
  settled : asked.countP (· matches .settleSubscribe _) = if state = .connecting then 0 else 1
  released : asked.countP (· matches .settleUnsubscribe) ≤ if state = .closed then 1 else 0
  closed : asked.countP (· matches .close _) ≤ if state = .connecting ∨ state = .active then 0 else 1

/-- What one step adds is what its two states differ by, or less. -/
theorem Turn.adds (h : Turn c state input state' out) :
    (if state = .connecting then 0 else 1) + out.countP (· matches .settleSubscribe _) =
        (if state' = .connecting then 0 else 1) ∧
      (if state = .closed then 1 else 0) + out.countP (· matches .settleUnsubscribe) ≤
        (if state' = .closed then 1 else 0) ∧
      (if state = .connecting ∨ state = .active then 0 else 1) + out.countP (· matches .close _) ≤
        if state' = .connecting ∨ state' = .active then 0 else 1 := by
  cases h with
  | pass hs | report hs | reopen hs => rcases hs with rfl | rfl <;> simp
  | _ => simp

theorem Tally.turn (h : Tally state asked) (ht : Turn c state input state' out) :
    Tally state' (asked ++ out) := by
  obtain ⟨hsettled, hreleased, hclosed⟩ := ht.adds
  constructor
  · rw [List.countP_append, h.settled, hsettled]
  · rw [List.countP_append]
    exact Nat.le_trans (Nat.add_le_add_right h.released _) hreleased
  · rw [List.countP_append]
    exact Nat.le_trans (Nat.add_le_add_right h.closed _) hclosed

/-- By induction on the run, at its end. -/
theorem tally (c : String) (inputs : List Input) :
    ∃ state asked, ((new c).run inputs).1 = ⟨c, state⟩ ∧ ((new c).run inputs).2.flatten = asked ∧
      Tally state asked := by
  induction inputs using List.reverseRecOn with
  | nil => exact ⟨.connecting, [], rfl, rfl, by simp, by simp, by simp⟩
  | append_singleton inputs input ih =>
    obtain ⟨state, asked, hstate, hasked, htally⟩ := ih
    obtain ⟨state', out, hstep, ht⟩ := step_turn c state input
    refine ⟨state', asked ++ out, ?_, ?_, htally.turn ht⟩
    · rw [run_append, hstate]
      simp only [run, hstep]
    · rw [run_append, hstate]
      simp only [run, hstep, List.flatten_append, hasked, List.flatten_cons, List.flatten_nil, List.append_nil]

/-! ### The law -/

/-- What holds of a subscription to `c` that has asked for some actions so far. -/
structure Lawful (c : String) (s : Subscription) (asked : List Action) : Prop where
  onward : ∀ later, s.state.rank ≤ (s.run later).1.state.rank
  /-- Only a greeting and a request that is refused leave a new subscription as it was. -/
  leaves : s.state = .connecting → ∀ input,
    ((s.step input).1.state = .connecting ↔ input = .unsubscribe ∨ input = .event .opened)
  /-- The end of the connection ends the subscription. -/
  ends : s.state = .active ∨ s.state = .closing → ∀ input,
    ((s.step input).1.state = .closed ↔ ∃ e, input = .event e ∧ e.isTerminal)
  settledOnce : asked.countP (· matches .settleSubscribe _) = if s.state = .connecting then 0 else 1
  settles : ∀ input, (∃ result, .settleSubscribe result ∈ (s.step input).2) ↔
    s.state = .connecting ∧ (s.step input).1.state ≠ .connecting
  result : ∀ input result, .settleSubscribe result ∈ (s.step input).2 →
    (result = .ok () ↔ (s.step input).1.state = .active)
  releasedOnce : asked.countP (· matches .settleUnsubscribe) ≤ 1
  releases : ∀ input, .settleUnsubscribe ∈ (s.step input).2 ↔
    s.state = .closing ∧ (s.step input).1.state = .closed
  closedOnce : asked.countP (· matches .close _) ≤ 1
  /-- By an unsubscribe request, or by a first message that is an error or no envelope. -/
  closes : ∀ input code, .close code ∈ (s.step input).2 ↔ code = CloseCode.normal ∧
    (s.state = .active ∧ input = .unsubscribe ∨ s.state = .connecting ∧
      ∃ text error, input = .event (.message text) ∧ interpret c text = .error error)
  delivers : ∀ input, (s.step input).2.any (· matches .deliver _ | .deliverError _) ↔
    (∃ text, input = .event (.message text) ∧ (s.state = .active ∨ s.state = .closing ∨
      s.state = .connecting ∧ ∃ envelope, interpret c text = .ok envelope)) ∨
    s.state = .active ∧ ∃ reason, input = .event (.failed reason)
  deliversOne : ∀ input, (s.step input).2.countP (· matches .deliver _ | .deliverError _) ≤ 1
  refused : ∀ error, s.unsubscribe = .error error → s.state = .connecting ∧ s.step .unsubscribe = (s, [])
  stays : s.state = .closed → ∀ later, s.run later = (s, later.map fun _ => [])

/-- The law of subscriptions, after every list of events and unsubscribe requests. -/
theorem subscription_lawful (c : String) (inputs : List Input) :
    Lawful c ((new c).run inputs).1 ((new c).run inputs).2.flatten := by
  obtain ⟨state, asked, hstate, hasked, h⟩ := tally c inputs
  rw [hstate, hasked]
  have ht := turn_step c state
  constructor
  case onward => exact rank_le_run c state
  case leaves =>
    intro hs input
    obtain rfl : state = .connecting := hs
    exact (ht input).leaves
  case ends =>
    intro hs input
    exact (ht input).ends hs
  case settledOnce => exact h.settled
  case settles => exact fun input => (ht input).settles
  case result => exact fun input result => (ht input).result
  case releasedOnce => exact Nat.le_trans h.released (by split <;> decide)
  case releases => exact fun input => (ht input).releases
  case closedOnce => exact Nat.le_trans h.closed (by split <;> decide)
  case closes => exact fun input => (ht input).closes
  case delivers => exact fun input => (ht input).delivers
  case deliversOne => exact fun input => (ht input).delivers_one
  case refused =>
    intro error herror
    cases state with
    | connecting => exact ⟨rfl, rfl⟩
    | active | closing | closed => simp [unsubscribe] at herror
  case stays =>
    intro hs later
    obtain rfl : state = .closed := hs
    exact run_closed c later

end Subscription

end RobotBridge
