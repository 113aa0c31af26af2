import RobotBridge.Session.Basic
import Mathlib.Data.List.Induction

/-! What an exchange makes of the events of its connection: the frame that it sends, the close that
it asks for and the reply that its caller gets, as functions of the list of events. -/
namespace RobotBridge.Exchange

@[simp] def Action.command? : Action → Option Command
  | .send text => some (.send text)
  | .close code => some (.close code)
  | .settle _ => none

@[simp] def Action.outcome? : Action → Option Outcome
  | .settle outcome => some outcome
  | .send _ | .close _ => none

def commands (actions : List Action) : List Command := actions.filterMap Action.command?

def outcomes (actions : List Action) : List Outcome := actions.filterMap Action.outcome?

@[simp] theorem commands_nil : commands [] = [] := rfl

@[simp] theorem outcomes_nil : outcomes [] = [] := rfl

@[simp] theorem commands_cons (action : Action) (actions : List Action) :
    commands (action :: actions) = action.command?.toList ++ commands actions := by
  cases action <;> rfl

@[simp] theorem outcomes_cons (action : Action) (actions : List Action) :
    outcomes (action :: actions) = action.outcome?.toList ++ outcomes actions := by
  cases action <;> rfl

@[simp] theorem commands_append (xs ys : List Action) : commands (xs ++ ys) = commands xs ++ commands ys :=
  List.filterMap_append

@[simp] theorem outcomes_append (xs ys : List Action) : outcomes (xs ++ ys) = outcomes xs ++ outcomes ys :=
  List.filterMap_append

def after (x : Exchange) (es : List Event) : Exchange := (x.run (es.map .event)).1

def asked (x : Exchange) (es : List Event) : List Action := (x.run (es.map .event)).2.flatten

@[simp] theorem after_nil (x : Exchange) : x.after [] = x := rfl

@[simp] theorem after_cons (x : Exchange) (e : Event) (es : List Event) :
    x.after (e :: es) = (x.onEvent e).1.after es := rfl

@[simp] theorem asked_nil (x : Exchange) : x.asked [] = [] := rfl

@[simp] theorem asked_cons (x : Exchange) (e : Event) (es : List Event) :
    x.asked (e :: es) = (x.onEvent e).2 ++ (x.onEvent e).1.asked es := rfl

theorem after_append (x : Exchange) (es fs : List Event) : x.after (es ++ fs) = (x.after es).after fs := by
  induction es generalizing x with
  | nil => rfl
  | cons e es ih => exact ih _

theorem asked_append (x : Exchange) (es fs : List Event) :
    x.asked (es ++ fs) = x.asked es ++ (x.after es).asked fs := by
  induction es generalizing x with
  | nil => rfl
  | cons e es ih => simp [ih]

theorem after_snoc (x : Exchange) (es : List Event) (e : Event) :
    x.after (es ++ [e]) = ((x.after es).onEvent e).1 := after_append x es [e]

theorem asked_snoc (x : Exchange) (es : List Event) (e : Event) :
    x.asked (es ++ [e]) = x.asked es ++ ((x.after es).onEvent e).2 := by
  simp [asked_append]

/-! ### Until the outcome -/

def frame (x : Exchange) : String :=
  match x.operation with
  | .request => (Envelope.request x.channel).encode
  | .publish dtype data => (Envelope.publish x.channel dtype data).encode

/-- A machine that has just been made, after events that brought no outcome. -/
def standing (x : Exchange) (es : List Event) : Exchange :=
  { x with phase := if .opened ∈ es then .awaiting else .opening }

variable {x : Exchange} {es : List Event}

/-- The machine phase by phase. -/
theorem onEvent_eq (x : Exchange) (e : Event) : x.onEvent e =
    match x.phase with
    | .opening =>
      match e with
      | .opened => x.onOpened
      | .message _ => (x, [])
      | .closed code => x.settle (.failed (.connection x.channel (closedEarly code)))
      | .failed reason => x.settle (.failed (.connection x.channel reason))
    | .awaiting =>
      match e with
      | .opened => (x, [])
      | .message text => x.settleWithClose (outcomeOf x.channel text)
      | .closed code => x.settle (.failed (.connection x.channel (closedEarly code)))
      | .failed reason => x.settle (.failed (.connection x.channel reason))
    | .settled => (x, []) := by
  obtain ⟨_, _, phase⟩ := x
  cases phase <;> cases e <;> rfl

/-- An outcome leaves no further frame to send; a connection that has not ended is closed. -/
private theorem onEvent_standing (hx : .opened ∈ es → x.operation = .request) (e : Event) :
    ((x.standing es).onEvent e).2 = (if .opened ∉ es ∧ e = .opened then [.send x.frame] else []) ∧
        ((x.standing es).onEvent e).1 = x.standing (es ++ [e]) ∧ e.isTerminal = false ∧
        (e = .opened → x.operation = .request) ∨
      ∃ outcome, ((x.standing es).onEvent e).2 =
        (if .opened ∉ es ∧ e = .opened then [.send x.frame] else []) ++
          (if e.isTerminal then [] else [.close CloseCode.normal]) ++ [.settle outcome] := by
  obtain ⟨c, operation, _⟩ := x
  by_cases ho : .opened ∈ es
  · obtain rfl : operation = .request := hx ho
    cases e <;> simp [standing, onEvent_eq, settleWithClose, settle, Event.isTerminal, ho]
  · cases operation <;> cases e <;>
      simp [standing, onEvent_eq, onOpened, settleWithClose, settle, Event.isTerminal, frame, ho]

structure Undecided (x : Exchange) (es : List Event) : Prop where
  silent : outcomes (x.asked es) = []
  state : x.after es = x.standing es
  sent : commands (x.asked es) = if .opened ∈ es then [.send x.frame] else []
  live : ∀ e ∈ es, e.isTerminal = false
  request : .opened ∈ es → x.operation = .request

theorem undecided (hx : x.phase = .opening) (h : outcomes (x.asked es) = []) : Undecided x es := by
  induction es using List.reverseRecOn with
  | nil => exact ⟨rfl, by simp [standing, ← hx], rfl, by simp, by simp⟩
  | append_singleton es e ih =>
    rw [asked_snoc, outcomes_append] at h
    obtain ⟨hold, hnew⟩ := List.append_eq_nil_iff.mp h
    have u := ih hold
    rw [u.state] at hnew
    rcases onEvent_standing u.request e with ⟨ha, hs, he, hr⟩ | ⟨outcome, ha⟩
    · refine ⟨by rw [asked_snoc, outcomes_append, u.state, hold, hnew]; rfl, by rw [after_snoc, u.state, hs],
        ?_, ?_, ?_⟩
      · rw [asked_snoc, commands_append, u.state, u.sent, ha]
        by_cases ho : .opened ∈ es <;> by_cases heo : e = .opened <;> simp [ho, heo, eq_comm]
      · simpa [or_imp, forall_and] using ⟨u.live, he⟩
      · simpa [or_imp, forall_and, @eq_comm _ Event.opened] using ⟨u.request, hr⟩
    · simp [ha] at hnew

/-- The event that brings the outcome is the last that matters: after it everything has been said. -/
theorem Undecided.decides (u : Undecided x es) {e : Event} (h : outcomes (x.asked (es ++ [e])) ≠ []) :
    ∃ outcome, outcomes ((x.after es).onEvent e).2 = [outcome] ∧
      commands (x.asked (es ++ [e])) = (if .opened ∈ es ++ [e] then [.send x.frame] else []) ++
        if e.isTerminal then [] else [.close CloseCode.normal] := by
  rw [asked_snoc, outcomes_append, u.silent] at h
  rw [asked_snoc, commands_append, u.sent]
  rw [u.state] at h ⊢
  rcases onEvent_standing u.request e with ⟨ha, -⟩ | ⟨outcome, ha⟩
  · rw [ha] at h
    split at h <;> simp at h
  · refine ⟨outcome, ?_, ?_⟩ <;> rw [ha] <;> by_cases ho : .opened ∈ es <;> by_cases heo : e = .opened <;>
      cases e <;> simp_all [Event.isTerminal]

theorem Undecided.onTimeout (u : Undecided x es) (after : Duration) :
    ((x.after es).onTimeout after).2 =
      [.close CloseCode.normal, .settle (.failed (.timeout x.channel after))] := by
  have hs : (x.standing es).isSettled = false := by
    unfold standing isSettled
    split <;> rfl
  rw [u.state, Exchange.onTimeout, if_neg (by simp [hs])]
  rfl

/-! ### What callers are told -/

/-- Only a response is what a request asks for. -/
def response (channel text : String) : Except CallError Envelope :=
  match Envelope.decode text with
  | .error _ => .error (.protocol channel)
  | .ok envelope =>
    match envelope.kind with
    | .response => .ok envelope
    | .error => .error (.remote channel envelope.errorText)
    | _ => .error (.protocol channel)

def answer (channel : String) : Event → Option (Except CallError Envelope)
  | .opened => none
  | .message text => some (response channel text)
  | .closed code => some (.error (.connection channel (closedEarly code)))
  | .failed reason => some (.error (.connection channel reason))

/-- Messages before the opening say nothing; after that the first event that says something counts. -/
def requestReply (channel : String) (es : List Event) : Option (Except CallError Envelope) :=
  (es.dropWhile fun | .message _ => true | _ => false).findSome? (answer channel)

/-- The opening or the end of the connection, whichever comes first, is what counts for a publish. -/
def publishReply (channel : String) (es : List Event) : Option (Except CallError Unit) :=
  es.findSome? fun
    | .opened => some (.ok ())
    | .message _ => none
    | .closed code => some (.error (.connection channel (closedEarly code)))
    | .failed reason => some (.error (.connection channel reason))

open Session (requestResult publishResult)

private theorem asked_settled (hx : x.phase = .settled) (es : List Event) : x.asked es = [] := by
  induction es with
  | nil => rfl
  | cons e es ih => simp [onEvent_eq, hx, ih]

private theorem requestResult_outcomeOf (c text : String) :
    requestResult c (outcomeOf c text) = response c text := by
  unfold outcomeOf response
  cases Envelope.decode text with
  | error _ => rfl
  | ok envelope => cases hk : envelope.kind <;> simp [hk, requestResult]

private theorem awaiting_replies (c : String) (es : List Event) :
    (outcomes (asked ⟨c, .request, .awaiting⟩ es)).map (requestResult c) =
      (es.findSome? (answer c)).toList := by
  induction es with
  | nil => rfl
  | cons e es ih =>
    have hs := asked_settled (x := ⟨c, .request, .settled⟩) rfl es
    cases e with
    | opened => simpa [onEvent_eq, answer, List.findSome?_cons] using ih
    | message text =>
      simp [onEvent_eq, answer, settleWithClose, hs, requestResult_outcomeOf, List.findSome?_cons]
    | closed | failed => simp [onEvent_eq, answer, settle, hs, requestResult, List.findSome?_cons]

theorem request_replies (c : String) (es : List Event) :
    (outcomes ((request c).asked es)).map (requestResult c) = (requestReply c es).toList := by
  induction es with
  | nil => rfl
  | cons e es ih =>
    have hs := asked_settled (x := ⟨c, .request, .settled⟩) rfl es
    cases e with
    | opened => simpa [request, onEvent_eq, onOpened, requestReply, answer,
        List.findSome?_cons] using awaiting_replies c es
    | message text => simpa [request, onEvent_eq, requestReply] using ih
    | closed | failed =>
      simp [request, onEvent_eq, settle, hs, requestReply, answer, requestResult, List.findSome?_cons]

theorem publish_replies (c dtype : String) (data : Json) (es : List Event) :
    (outcomes ((publish c dtype data).asked es)).map (publishResult c) = (publishReply c es).toList := by
  have hs := asked_settled (x := ⟨c, .publish dtype data, .settled⟩) rfl
  induction es with
  | nil => rfl
  | cons e es ih =>
    cases e with
    | opened => simp [publish, onEvent_eq, onOpened, settleWithClose, hs, publishReply, publishResult]
    | message text => simpa [publish, onEvent_eq, publishReply, List.findSome?_cons] using ih
    | closed | failed => simp [publish, onEvent_eq, settle, hs, publishReply, publishResult]

end RobotBridge.Exchange
