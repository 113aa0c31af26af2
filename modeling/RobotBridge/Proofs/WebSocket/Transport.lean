import RobotBridge.WebSocket.Transport

/-! What a transport tells, for every order of its inputs: a failed handshake, or that it opened, the texts
that came, and at most one terminal event. -/
namespace RobotBridge.WebSocket

/-! ### What inputs mean for the events told -/

def Input.isHandshake : Input → Bool
  | .connected | .refused _ | .unreachable _ | .connectTimeout => true
  | .send .. | .close .. | .abandoned _ | .received _ | .closeTimeout => false

def Input.failure? (connectTimeout : Duration) : Input → Option String
  | .unreachable reason => some reason
  | .connectTimeout => some ("connect timed out after " ++ connectTimeout.text)
  | _ => none

def Input.message? : Input → Option Event
  | .received (.text text) => some (.message text)
  | _ => none

def Input.command? : Input → Option Command
  | .send text _ => some (.send text)
  | .close code _ => some (.close code)
  | _ => none

inductive Ending where
  | told (e : Event)
  /-- A close frame with this code went out on command. -/
  | closing (code : UInt16)
  /-- Nothing more is told. -/
  | quiet

def Input.ending? : Input → Option Ending
  | .send _ (.error reason) => some (.told (.failed reason))
  | .close code true => some (.closing code)
  | .close _ false => some (.told (.closed CloseCode.abnormal))
  | .abandoned _ => some .quiet
  | .received (.close status) => some (.told (closedBy status))
  | .received .ended => some (.told (.closed CloseCode.abnormal))
  | .received (.broken reason) => some (.told (.failed reason))
  | _ => none

/-- The wait for the answer to a close frame is over. -/
def Input.endsWait : Input → Bool
  | .received (.close _) | .received .ended | .received (.broken _) | .closeTimeout => true
  | _ => false

def messages (inputs : List Input) : List Event := inputs.filterMap Input.message?

/-- Every course of a task, with its phase and all that it tells. -/
inductive Tells (connectTimeout : Duration) : List Input → Phase → List Event → Prop
  | connecting {idle : List Input} :
      (∀ i ∈ idle, i.isHandshake = false) → Tells connectTimeout idle .connecting []
  /-- The handshake has failed. -/
  | failed {idle rest : List Input} {i : Input} {reason : String} :
      (∀ i ∈ idle, i.isHandshake = false) → i.failure? connectTimeout = some reason →
      Tells connectTimeout (idle ++ i :: rest) .finished [.failed reason]
  /-- The session had gone when the connection opened. -/
  | refused {idle rest : List Input} {written : Bool} {p : Phase} :
      (∀ i ∈ idle, i.isHandshake = false) → p = .leaving ∨ p = .finished →
      Tells connectTimeout (idle ++ .refused written :: rest) p [.opened]
  | pumping {idle flow : List Input} :
      (∀ i ∈ idle, i.isHandshake = false) → (∀ i ∈ flow, i.ending?.isNone) →
      Tells connectTimeout (idle ++ .connected :: flow) .pumping (.opened :: messages flow)
  /-- The server has closed or gone, or a frame could not be written. -/
  | ended {idle flow rest : List Input} {i : Input} {e : Event} :
      (∀ i ∈ idle, i.isHandshake = false) → (∀ i ∈ flow, i.ending?.isNone) →
      i.ending? = some (.told e) →
      Tells connectTimeout (idle ++ .connected :: flow ++ i :: rest) .finished
        (.opened :: messages flow ++ [e])
  /-- No command was left and none could come. -/
  | quiet {idle flow rest : List Input} {i : Input} {p : Phase} :
      (∀ i ∈ idle, i.isHandshake = false) → (∀ i ∈ flow, i.ending?.isNone) →
      i.ending? = some .quiet → p = .leaving ∨ p = .finished →
      Tells connectTimeout (idle ++ .connected :: flow ++ i :: rest) p (.opened :: messages flow)
  /-- The answer to a close frame is awaited. -/
  | closing {idle flow wait : List Input} {i : Input} {code : UInt16} :
      (∀ i ∈ idle, i.isHandshake = false) → (∀ i ∈ flow, i.ending?.isNone) →
      i.ending? = some (.closing code) → (∀ i ∈ wait, i.endsWait = false) →
      Tells connectTimeout (idle ++ .connected :: flow ++ i :: wait) (.closing code)
        (.opened :: messages flow ++ messages wait)
  | closed {idle flow wait rest : List Input} {i j : Input} {code : UInt16} :
      (∀ i ∈ idle, i.isHandshake = false) → (∀ i ∈ flow, i.ending?.isNone) →
      i.ending? = some (.closing code) → (∀ i ∈ wait, i.endsWait = false) → j.endsWait →
      Tells connectTimeout (idle ++ .connected :: flow ++ i :: wait ++ j :: rest) .finished
        (.opened :: messages flow ++ messages wait ++ [.closed code])

section Transport

variable (connectTimeout : Duration) {inputs : List Input} {p : Phase} {es : List Event}

open Transport (react)

theorem react_finished (i : Input) : react connectTimeout .finished i = (.finished, []) := by
  cases i <;> rfl

theorem react_over (h : p = .leaving ∨ p = .finished) (i : Input) :
    ((react connectTimeout p i).1 = .leaving ∨ (react connectTimeout p i).1 = .finished) ∧
      (react connectTimeout p i).2 = [] := by
  rcases h with rfl | rfl
  · unfold react
    split <;> simp_all
  · rw [react_finished]
    simp

theorem react_pumping (i : Input) :
    match i.ending? with
    | none => react connectTimeout .pumping i = (.pumping, i.message?.toList)
    | some (.told e) => react connectTimeout .pumping i = (.finished, [e])
    | some (.closing code) => react connectTimeout .pumping i = (.closing code, [])
    | some .quiet => ((react connectTimeout .pumping i).1 = .leaving ∨
        (react connectTimeout .pumping i).1 = .finished) ∧ (react connectTimeout .pumping i).2 = [] := by
  cases i with
  | send text written => cases written <;> rfl
  | close code written => cases written <;> rfl
  | abandoned written => cases written <;> simp [Input.ending?, react]
  | received message => cases message <;> rfl
  | _ => rfl

theorem react_closing (code : UInt16) (i : Input) :
    react connectTimeout (.closing code) i =
      if i.endsWait then (.finished, [.closed code]) else (.closing code, i.message?.toList) := by
  cases i with
  | received message => cases message <;> rfl
  | _ => rfl

@[simp] theorem messages_snoc (inputs : List Input) (i : Input) :
    messages (inputs ++ [i]) = messages inputs ++ i.message?.toList := by
  rw [messages, messages, List.filterMap_append]
  cases h : i.message? <;> simp [h]

variable {connectTimeout}

private theorem forall_mem_snoc {α : Type} {P : α → Prop} {as : List α} {a : α} (h : ∀ b ∈ as, P b)
    (ha : P a) : ∀ b ∈ as ++ [a], P b :=
  List.forall_mem_append.mpr ⟨h, List.forall_mem_singleton.mpr ha⟩

/-- The first thing that the transport learns of the handshake decides what the task tells. -/
theorem Tells.step_connecting (hidle : ∀ i ∈ inputs, i.isHandshake = false) (i : Input) :
    Tells connectTimeout (inputs ++ [i]) (react connectTimeout .connecting i).1
      (react connectTimeout .connecting i).2 := by
  cases i with
  | connected => exact .pumping hidle (List.forall_mem_nil _)
  | refused written =>
    cases written with
    | true => exact .refused hidle (.inl rfl)
    | false => exact .refused hidle (.inr rfl)
  | unreachable reason => exact .failed hidle rfl
  | connectTimeout => exact .failed hidle rfl
  | _ => exact .connecting (forall_mem_snoc hidle rfl)

theorem Tells.step_pumping {idle flow : List Input} (hidle : ∀ i ∈ idle, i.isHandshake = false)
    (hflow : ∀ i ∈ flow, i.ending?.isNone) (i : Input) :
    Tells connectTimeout (idle ++ .connected :: flow ++ [i]) (react connectTimeout .pumping i).1
      (.opened :: messages flow ++ (react connectTimeout .pumping i).2) := by
  have hreact := react_pumping connectTimeout i
  cases hi : i.ending? with
  | none =>
    simp only [hi] at hreact
    rw [hreact, List.append_assoc, List.cons_append, List.cons_append, ← messages_snoc]
    exact .pumping hidle (forall_mem_snoc hflow (Option.isNone_iff_eq_none.mpr hi))
  | some ending =>
    cases ending with
    | told e =>
      simp only [hi] at hreact
      rw [hreact]
      exact .ended hidle hflow hi
    | closing code =>
      simp only [hi] at hreact
      rw [hreact]
      exact .closing hidle hflow hi (List.forall_mem_nil _)
    | quiet =>
      simp only [hi] at hreact
      rw [hreact.2, List.append_nil]
      exact .quiet hidle hflow hi hreact.1

/-- Nothing is told before the handshake has come out. -/
theorem Tells.eq_nil (h : Tells connectTimeout inputs .connecting es) : es = [] := by
  cases h with
  | connecting => rfl
  | refused _ hp | quiet _ _ _ hp => exact hp.elim Phase.noConfusion Phase.noConfusion

theorem Tells.step (h : Tells connectTimeout inputs p es) (i : Input) :
    Tells connectTimeout (inputs ++ [i]) (react connectTimeout p i).1
      (es ++ (react connectTimeout p i).2) := by
  cases h with
  | connecting hidle => exact step_connecting hidle i
  | failed hidle hfail =>
    rw [react_finished, List.append_nil, List.append_assoc, List.cons_append]
    exact .failed hidle hfail
  | refused hidle hp =>
    obtain ⟨hover, hnone⟩ := react_over connectTimeout hp i
    rw [hnone, List.append_nil, List.append_assoc, List.cons_append]
    exact .refused hidle hover
  | pumping hidle hflow => exact step_pumping hidle hflow i
  | ended hidle hflow hi =>
    rw [react_finished, List.append_nil, List.append_assoc, List.cons_append]
    exact .ended hidle hflow hi
  | quiet hidle hflow hi hp =>
    obtain ⟨hover, hnone⟩ := react_over connectTimeout hp i
    rw [hnone, List.append_nil, List.append_assoc, List.cons_append]
    exact .quiet hidle hflow hi hover
  | closing hidle hflow hi hwait =>
    rw [react_closing]
    split
    · next hj => exact .closed hidle hflow hi hwait hj
    · next hj =>
      have hgrown : Tells connectTimeout _ _ _ :=
        .closing hidle hflow hi (forall_mem_snoc hwait (eq_false_of_ne_true hj))
      simpa using hgrown
  | closed hidle hflow hi hwait hj =>
    rw [react_finished, List.append_nil, List.append_assoc, List.cons_append]
    exact .closed hidle hflow hi hwait hj

end Transport

/-! ### How a trace ends -/

theorem ending_isTerminal {i : Input} {e : Event} (h : i.ending? = some (.told e)) : e.isTerminal := by
  unfold Input.ending? at h
  split at h <;> cases h <;> rfl

theorem messages_live (inputs : List Input) : (messages inputs).any Event.isTerminal = false := by
  induction inputs with
  | nil => rfl
  | cons i inputs ih =>
    rw [messages, List.filterMap_cons]
    split
    · exact ih
    · next e hi =>
      have hlive : e.isTerminal = false := by
        unfold Input.message? at hi
        split at hi <;> cases hi
        rfl
      rw [List.any_cons, hlive]
      exact ih

section

variable {connectTimeout : Duration} {inputs : List Input} {es : List Event}

/-- A task that is over has told one terminal event, the last, or none. -/
theorem Tells.over (h : Tells connectTimeout inputs .finished es) :
    (∃ fs e, es = fs ++ [e] ∧ e.isTerminal ∧ fs.any Event.isTerminal = false) ∨
      es.any Event.isTerminal = false := by
  cases h with
  | failed => exact .inl ⟨[], _, rfl, rfl, rfl⟩
  | refused => exact .inr rfl
  | @ended idle flow rest i e hidle hflow hi =>
    exact .inl ⟨_, e, rfl, ending_isTerminal hi, messages_live flow⟩
  | @quiet idle flow => exact .inr (messages_live flow)
  | @closed idle flow wait =>
    refine .inl ⟨_, _, rfl, rfl, ?_⟩
    rw [List.any_append, messages_live wait, Bool.or_false]
    exact messages_live flow

theorem Tells.leaving (h : Tells connectTimeout inputs .leaving es) :
    es.any Event.isTerminal = false := by
  cases h with
  | refused => rfl
  | @quiet idle flow => exact messages_live flow

end

end RobotBridge.WebSocket
