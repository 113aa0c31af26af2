import RobotBridge.Session.Table

/-! The life of one entry: the forms it can have, and all that an input can make of it.
Waiting calls go with the form, so an entry that ends has none left to answer. -/
namespace RobotBridge.Session

def Notice.ofFrame (channel text : String) : Notice :=
  match Envelope.decode text with
  | .ok envelope =>
    if envelope.kind = .error then .error (.remote channel envelope.errorText) else .message envelope
  | .error _ => .error (.protocol channel)

theorem Notice.interpret_eq (c text : String) :
    Subscription.interpret c text =
      match ofFrame c text with
      | .message envelope => .ok envelope
      | .error failure => .error failure := by
  unfold Subscription.interpret ofFrame
  cases Envelope.decode text with
  | error _ => rfl
  | ok envelope => dsimp only; split <;> rfl

theorem Notice.ofFrame_error {c text : String} {failure : CallError}
    (h : ofFrame c text = .error failure) :
    failure = .protocol c ∨ ∃ message, failure = .remote c message := by
  unfold ofFrame at h
  split at h
  · split at h
    · exact .inr ⟨_, (Notice.error.inj h).symm⟩
    · contradiction
  · exact .inl (Notice.error.inj h).symm

namespace Entry
open Table (Input Output)

/-- No message has come; the calls that asked for one wait. -/
@[match_pattern] abbrev connecting (c : String) (k owner : Nat) (calls : List Nat) : Entry :=
  ⟨k, ⟨c, .connecting⟩, owner, calls, []⟩

/-- Messages come and nobody waits. -/
@[match_pattern] abbrev active (c : String) (k owner : Nat) : Entry :=
  ⟨k, ⟨c, .active⟩, owner, [], []⟩

/-- The end is asked for, and the calls that asked wait. -/
@[match_pattern] abbrev closing (c : String) (k owner : Nat) (calls : List Nat) : Entry :=
  ⟨k, ⟨c, .closing⟩, owner, [], calls⟩

inductive Live (c : String) : Entry → Prop
  | connecting {k owner : Nat} {calls : List Nat} : calls ≠ [] → Live c (.connecting c k owner calls)
  | active {k owner : Nat} : Live c (.active c k owner)
  | closing {k owner : Nat} {calls : List Nat} : calls ≠ [] → Live c (.closing c k owner calls)

def heed (entry : Entry) (e : Event) : Entry × List Output :=
  { entry with machine := (entry.machine.onEvent e).1 }.performAll (entry.machine.onEvent e).2

def release (k owner : Nat) : List Output := [.released owner, .dropped k]

/-- All that an input for its channel or its connection can make of a live entry: the entry after
it, if it still lives, and the outputs. -/
inductive Turn (c : String) : Entry → Input → Option Entry → List Output → Prop
  | join {k o n ns} : Turn c (.connecting c k o ns) (.subscribe n c)
      (some (.connecting c k o (ns ++ [n]))) [.released n]
  | again {k o n} : Turn c (.active c k o) (.subscribe n c)
      (some (.active c k o)) [.answered n (.ok ()), .released n]
  | refuse {k o n ns} : Turn c (.closing c k o ns) (.subscribe n c) (some (.closing c k o ns))
      [.answered n (.error (.invalidState c "cannot subscribe while unsubscribing")), .released n]
  | early {k o n ns} : Turn c (.connecting c k o ns) (.unsubscribe n c) (some (.connecting c k o ns))
      [.answered n (.error (.invalidState c "cannot unsubscribe while connecting"))]
  | leave {k o n} : Turn c (.active c k o) (.unsubscribe n c)
      (some (.closing c k o [n])) [.command k (.close CloseCode.normal)]
  | attend {k o n ns} : Turn c (.closing c k o ns) (.unsubscribe n c)
      (some (.closing c k o (ns ++ [n]))) []
  | greet {k o ns} : Turn c (.connecting c k o ns) (.event k .opened)
      (some (.connecting c k o ns)) [.command k (.send (Envelope.subscribe c).encode)]
  | accept {k o ns text envelope} : Notice.ofFrame c text = .message envelope →
      Turn c (.connecting c k o ns) (.event k (.message text))
        (some (.active c k o)) (.handled o (.message envelope) :: answerAll ns (.ok ()))
  | reject {k o ns text error} : Notice.ofFrame c text = .error error →
      Turn c (.connecting c k o ns) (.event k (.message text)) none
        (.command k (.close CloseCode.normal) :: answerAll ns (.error error) ++ release k o)
  | fail {k o ns reason} : Turn c (.connecting c k o ns) (.event k (.failed reason)) none
      (answerAll ns (.error (.connection c reason)) ++ release k o)
  | shut {k o ns code} : Turn c (.connecting c k o ns) (.event k (.closed code)) none
      (answerAll ns (.error (.connection c (Subscription.closedEarly code))) ++ release k o)
  | reopen {entry} : Live c entry → entry.machine.state ≠ .connecting →
      Turn c entry (.event entry.connection .opened) (some entry) []
  | push {entry text} : Live c entry → entry.machine.state ≠ .connecting →
      Turn c entry (.event entry.connection (.message text))
        (some entry) [.handled entry.owner (.ofFrame c text)]
  | snap {k o reason} : Turn c (.active c k o) (.event k (.failed reason)) none
      (.handled o (.error (.connection c reason)) :: release k o)
  | expire {k o code} : Turn c (.active c k o) (.event k (.closed code)) none (release k o)
  | part {k o ns e} : e.isTerminal → Turn c (.closing c k o ns) (.event k e) none
      (answerAll ns (.ok ()) ++ release k o)

variable {c : String} {entry : Entry}

theorem Live.channel (h : Live c entry) : entry.machine.channel = c := by cases h <;> rfl

theorem Live.state_ne_closed (h : Live c entry) : entry.machine.state ≠ .closed := by
  cases h <;> simp

theorem Live.subscribers_iff (h : Live c entry) :
    entry.subscribers ≠ [] ↔ entry.machine.state = .connecting := by
  cases h with
  | connecting hn => simpa using hn
  | active => simp
  | closing _ => simp

theorem Live.unsubscribers_iff (h : Live c entry) :
    entry.unsubscribers ≠ [] ↔ entry.machine.state = .closing := by
  cases h with
  | connecting _ => simp
  | active => simp
  | closing hn => simpa using hn

theorem Turn.live {input : Input} {entry' : Entry} {out : List Output}
    (h : Live c entry) (ht : Turn c entry input (some entry') out) : Live c entry' := by
  cases ht with
  | join => exact .connecting (by simp)
  | leave => exact .closing (by simp)
  | attend => exact .closing (by simp)
  | accept _ => exact .active
  | again | refuse | early | greet | reopen | push => exact h

theorem Turn.connection {input : Input} {entry' : Entry} {out : List Output}
    (ht : Turn c entry input (some entry') out) : entry'.connection = entry.connection := by
  cases ht <;> rfl

theorem Turn.owner {input : Input} {entry' : Entry} {out : List Output}
    (ht : Turn c entry input (some entry') out) : entry'.owner = entry.owner := by
  cases ht <;> rfl

abbrev ended (c : String) (k owner : Nat) : Entry := ⟨k, ⟨c, .closed⟩, owner, [], []⟩

theorem finish_ended (c : String) (k owner : Nat) (error : CallError) :
    (ended c k owner).finish error = release k owner := rfl

private theorem heed_accept {k o : Nat} {ns : List Nat} {text : String} {envelope : Envelope}
    (hf : Notice.ofFrame c text = .message envelope) :
    (connecting c k o ns).heed (.message text) =
      (active c k o, .handled o (.message envelope) :: answerAll ns (.ok ())) := by
  simp [heed, Subscription.onEvent, Subscription.onFirstMessage, Notice.interpret_eq, hf, performAll, perform]

private theorem heed_reject {k o : Nat} {ns : List Nat} {text : String} {error : CallError}
    (hf : Notice.ofFrame c text = .error error) :
    (connecting c k o ns).heed (.message text) =
      (ended c k o, .command k (.close CloseCode.normal) :: answerAll ns (.error error)) := by
  simp [heed, Subscription.onEvent, Subscription.onFirstMessage, Notice.interpret_eq, hf, performAll, perform]

private theorem heed_fail {k o : Nat} {ns : List Nat} (reason : String) :
    (connecting c k o ns).heed (.failed reason) =
      (ended c k o, answerAll ns (.error (.connection c reason))) := by
  simp [heed, Subscription.onEvent, performAll, perform]

private theorem heed_shut {k o : Nat} {ns : List Nat} (code : UInt16) :
    (connecting c k o ns).heed (.closed code) =
      (ended c k o, answerAll ns (.error (.connection c (Subscription.closedEarly code)))) := by
  simp [heed, Subscription.onEvent, performAll, perform]

private theorem heed_part {k o : Nat} {ns : List Nat} {e : Event} (he : e.isTerminal) :
    (closing c k o ns).heed e = (ended c k o, answerAll ns (.ok ())) := by
  cases e with
  | opened | message => simp [Event.isTerminal] at he
  | closed | failed => simp [heed, Subscription.onEvent, performAll, perform]

private theorem heed_push (h : Live c entry) (hs : entry.machine.state ≠ .connecting) (text : String) :
    entry.heed (.message text) = (entry, [.handled entry.owner (.ofFrame c text)]) := by
  cases h with
  | connecting _ => exact absurd rfl hs
  | active | closing =>
    cases hf : Notice.ofFrame c text <;>
      simp [heed, Subscription.onEvent, Subscription.onPush, Notice.interpret_eq, hf, performAll, perform]

/-- An entry that an event does not end lives on; one that it ends has answered everyone. -/
theorem Live.heed_cases (h : Live c entry) (e : Event) :
    Turn c entry (.event entry.connection e) (some (entry.heed e).1) (entry.heed e).2 ∨
      ((entry.heed e).1 = ended c entry.connection entry.owner ∧
        Turn c entry (.event entry.connection e) none
          ((entry.heed e).2 ++ release entry.connection entry.owner)) := by
  cases h with
  | connecting hn =>
    cases e with
    | opened => exact .inl .greet
    | message text =>
      cases hf : Notice.ofFrame c text with
      | message envelope => rw [heed_accept hf]; exact .inl (.accept hf)
      | error error => rw [heed_reject hf]; exact .inr ⟨rfl, .reject hf⟩
    | closed code => rw [heed_shut]; exact .inr ⟨rfl, .shut⟩
    | failed reason => rw [heed_fail]; exact .inr ⟨rfl, .fail⟩
  | active =>
    cases e with
    | opened => exact .inl (.reopen .active (by simp))
    | message text =>
      rw [heed_push .active (by simp)]
      exact .inl (.push .active (by simp))
    | closed code => exact .inr ⟨rfl, .expire⟩
    | failed reason => exact .inr ⟨rfl, .snap⟩
  | closing hn =>
    cases e with
    | opened => exact .inl (.reopen (.closing hn) (by simp))
    | message text =>
      rw [heed_push (.closing hn) (by simp)]
      exact .inl (.push (.closing hn) (by simp))
    | closed code => rw [heed_part rfl]; exact .inr ⟨rfl, .part rfl⟩
    | failed reason => rw [heed_part rfl]; exact .inr ⟨rfl, .part rfl⟩

end Entry

end RobotBridge.Session
