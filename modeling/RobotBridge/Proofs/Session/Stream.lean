import RobotBridge.Proofs.Session.Life

/-! The stream of a handler: what it is given over the life of one subscription, as a function of
what its connection yields and of the unsubscribe requests in between. -/
namespace RobotBridge.Session
open Subscription (Input Action)

def event? : Input → Option Event
  | .event e => some e
  | .unsubscribe => none

def isEnd : Input → Bool
  | .event e => e.isTerminal
  | .unsubscribe => false

def frame? : Input → Option String
  | .event (.message text) => some text
  | _ => none

@[simp] theorem isEnd_event (e : Event) : isEnd (.event e) = e.isTerminal := rfl

@[simp] theorem isEnd_unsubscribe : isEnd .unsubscribe = false := rfl

@[simp] theorem frame?_message (text : String) : frame? (.event (.message text)) = some text := rfl

@[simp] theorem frame?_opened : frame? (.event .opened) = none := rfl

@[simp] theorem frame?_unsubscribe : frame? .unsubscribe = none := rfl

/-- The last call of a handler: told of a failure while nobody has asked for the end. -/
def lastWords (c : String) (since : List Input) : Option Input → List Notice
  | some (.event (.failed reason)) =>
    if since.any (· matches .unsubscribe) then [] else [.error (.connection c reason)]
  | _ => []

/-- The calls of a handler. Inputs after the end do not count. The first frame decides: if it holds
an envelope that reports no error, that envelope and then each later frame are passed on in order. -/
def stream (c : String) (inputs : List Input) : List Notice :=
  match (inputs.takeWhile (!isEnd ·)).dropWhile (frame? · |>.isNone) with
  | .event (.message text) :: later =>
    match Notice.ofFrame c text with
    | .message envelope =>
      .message envelope :: (later.filterMap frame?).map (.ofFrame c) ++
        lastWords c later (inputs.find? isEnd)
    | .error _ => []
  | _ => []

theorem stream_unsubscribe (c : String) (inputs : List Input) :
    stream c (.unsubscribe :: inputs) = stream c inputs := by
  simp [stream, List.dropWhile_cons]

theorem stream_opened (c : String) (inputs : List Input) :
    stream c (.event .opened :: inputs) = stream c inputs := by
  simp [stream, Event.isTerminal, List.dropWhile_cons]

theorem stream_reject {c text : String} {failure : CallError} (hf : Notice.ofFrame c text = .error failure)
    (inputs : List Input) : stream c (.event (.message text) :: inputs) = [] := by
  simp [stream, Event.isTerminal, hf]

theorem stream_end {e : Event} (he : e.isTerminal) (c : String) (inputs : List Input) :
    stream c (.event e :: inputs) = [] := by
  simp [stream, he]

def notice? : Action → Option Notice
  | .deliver envelope => some (.message envelope)
  | .deliverError error => some (.error error)
  | _ => none

def delivered (s : Subscription) (inputs : List Input) : List Notice :=
  (s.run inputs).2.flatten.filterMap notice?

theorem delivered_cons (s : Subscription) (input : Input) (inputs : List Input) :
    delivered s (input :: inputs) =
      (s.step input).2.filterMap notice? ++ delivered (s.step input).1 inputs := by
  simp [delivered, Subscription.run]

theorem delivered_append (s : Subscription) (xs ys : List Input) :
    delivered s (xs ++ ys) = delivered s xs ++ delivered (s.run xs).1 ys := by
  induction xs generalizing s with
  | nil => rfl
  | cons x xs ih => simp [delivered_cons, ih, Subscription.run]

theorem run_closed (c : String) (inputs : List Input) :
    ((⟨c, .closed⟩ : Subscription).run inputs).1 = ⟨c, .closed⟩ := by
  induction inputs with
  | nil => rfl
  | cons input inputs ih => cases input <;> exact ih

theorem delivered_closed (c : String) (inputs : List Input) :
    delivered ⟨c, .closed⟩ inputs = [] := by
  induction inputs with
  | nil => rfl
  | cons input inputs ih =>
    rw [delivered_cons]
    cases input <;> simpa [Subscription.step, Subscription.onEvent, Subscription.unsubscribe] using ih

theorem onPush_eq (s : Subscription) (text : String) :
    (s.onPush text).1 = s ∧ (s.onPush text).2.filterMap notice? = [.ofFrame s.channel text] := by
  cases hf : Notice.ofFrame s.channel text <;>
    simp [Subscription.onPush, Notice.interpret_eq, hf, notice?]

private theorem delivered_closing (c : String) (inputs : List Input) :
    delivered ⟨c, .closing⟩ inputs =
      ((inputs.takeWhile (!isEnd ·)).filterMap frame?).map (.ofFrame c) := by
  induction inputs with
  | nil => rfl
  | cons input inputs ih =>
    rw [delivered_cons]
    cases input with
    | unsubscribe => simpa [Subscription.step, Subscription.unsubscribe, List.filterMap_cons] using ih
    | event e =>
      cases e with
      | opened =>
        simpa [Subscription.step, Subscription.onEvent, Event.isTerminal, List.filterMap_cons] using ih
      | message text =>
        obtain ⟨hs, hd⟩ := onPush_eq ⟨c, .closing⟩ text
        simp [Subscription.step, Subscription.onEvent, Event.isTerminal, hs, hd, ih]
      | closed code | failed reason =>
        simp [Subscription.step, Subscription.onEvent, Event.isTerminal, notice?, delivered_closed]

private theorem lastWords_unsubscribe (c : String) (since : List Input) (last : Option Input) :
    lastWords c (.unsubscribe :: since) last = [] := by
  unfold lastWords
  split <;> simp

private theorem delivered_active (c : String) (inputs : List Input) :
    delivered ⟨c, .active⟩ inputs =
      ((inputs.takeWhile (!isEnd ·)).filterMap frame?).map (.ofFrame c) ++
        lastWords c (inputs.takeWhile (!isEnd ·)) (inputs.find? isEnd) := by
  induction inputs with
  | nil => rfl
  | cons input inputs ih =>
    rw [delivered_cons]
    cases input with
    | unsubscribe =>
      have hs : (⟨c, .active⟩ : Subscription).step .unsubscribe =
          (⟨c, .closing⟩, [.close CloseCode.normal]) := rfl
      simp [hs, delivered_closing, notice?, lastWords_unsubscribe, List.filterMap_cons]
    | event e =>
      cases e with
      | opened =>
        simp [Subscription.step, Subscription.onEvent, Event.isTerminal, List.filterMap_cons, lastWords, ih]
      | message text =>
        obtain ⟨hs, hd⟩ := onPush_eq ⟨c, .active⟩ text
        simp [Subscription.step, Subscription.onEvent, Event.isTerminal, hs, hd, ih, lastWords]
      | closed code | failed reason =>
        simp [Subscription.step, Subscription.onEvent, Event.isTerminal, notice?, delivered_closed,
          List.find?_cons, lastWords]

/-- The handler of a machine that starts is given the stream, whatever comes in whatever order. -/
theorem delivered_new (c : String) (inputs : List Input) :
    delivered (.new c) inputs = stream c inputs := by
  rw [Subscription.new]
  induction inputs with
  | nil => rfl
  | cons input inputs ih =>
    rw [delivered_cons]
    cases input with
    | unsubscribe => simpa [Subscription.step, Subscription.unsubscribe, stream_unsubscribe] using ih
    | event e =>
      cases e with
      | opened =>
        simpa [Subscription.step, Subscription.onEvent, stream_opened, notice?, List.filterMap_cons] using ih
      | message text =>
        cases hf : Notice.ofFrame c text <;>
          simp [Subscription.step, Subscription.onEvent, Subscription.onFirstMessage, Notice.interpret_eq,
            hf, stream, Event.isTerminal, notice?, delivered_active, delivered_closed]
      | closed code | failed reason =>
        rw [stream_end rfl]
        simp [Subscription.step, Subscription.onEvent, notice?, List.filterMap_cons, delivered_closed]

end RobotBridge.Session
