import RobotBridge.Proofs.Exchange.Reply

/-! The law of one-shot exchanges, for any list of events and timeouts, also such as no transport
brings: what may be asked for and in which order, what settles an exchange, and with which outcome. -/
namespace RobotBridge.Exchange

def fresh (c : String) (operation : Operation) : Exchange := ⟨c, operation, .opening⟩

example (c : String) : request c = fresh c .request := rfl

example (c dtype : String) (data : Json) : publish c dtype data = fresh c (.publish dtype data) := rfl

section Law

variable {c : String} {operation : Operation} {inputs : List Input} {input : Input} {phase phase' : Phase}
  {asked out : List Action}

/-! ### One step -/

/-- All that an input can make of a machine: its phase afterwards, and what is asked for. -/
inductive Turn (c : String) (operation : Operation) : Phase → Input → Phase → List Action → Prop
  | early {text : String} : Turn c operation .opening (.event (.message text)) .opening []
  | ask : operation = .request →
      Turn c operation .opening (.event .opened) .awaiting [.send (fresh c operation).frame]
  | tell : operation ≠ .request → Turn c operation .opening (.event .opened) .settled
      [.send (fresh c operation).frame, .close CloseCode.normal, .settle .published]
  | repeated : Turn c operation .awaiting (.event .opened) .awaiting []
  | reply {text : String} : Turn c operation .awaiting (.event (.message text)) .settled
      [.close CloseCode.normal, .settle (outcomeOf c text)]
  | fail {p : Phase} {reason : String} : p ≠ .settled → Turn c operation p (.event (.failed reason)) .settled
      [.settle (.failed (.connection c reason))]
  | shut {p : Phase} {code : UInt16} : p ≠ .settled → Turn c operation p (.event (.closed code)) .settled
      [.settle (.failed (.connection c (closedEarly code)))]
  | expire {p : Phase} {after : Duration} : p ≠ .settled → Turn c operation p (.timeout after) .settled
      [.close CloseCode.normal, .settle (.failed (.timeout c after))]
  | late {i : Input} : Turn c operation .settled i .settled []

theorem step_turn (c : String) (operation : Operation) (phase : Phase) (input : Input) :
    ∃ phase' out, (⟨c, operation, phase⟩ : Exchange).step input = (⟨c, operation, phase'⟩, out) ∧
      Turn c operation phase input phase' out := by
  cases phase with
  | opening =>
    cases input with
    | timeout after => exact ⟨_, _, rfl, .expire (by decide)⟩
    | event e =>
      cases e with
      | opened =>
        cases operation with
        | request => exact ⟨_, _, rfl, .ask rfl⟩
        | publish dtype data => exact ⟨_, _, rfl, .tell Operation.noConfusion⟩
      | message text => exact ⟨_, _, rfl, .early⟩
      | closed code => exact ⟨_, _, rfl, .shut (by decide)⟩
      | failed reason => exact ⟨_, _, rfl, .fail (by decide)⟩
  | awaiting =>
    cases input with
    | timeout after => exact ⟨_, _, rfl, .expire (by decide)⟩
    | event e =>
      cases e with
      | opened => exact ⟨_, _, rfl, .repeated⟩
      | message text => exact ⟨_, _, rfl, .reply⟩
      | closed code => exact ⟨_, _, rfl, .shut (by decide)⟩
      | failed reason => exact ⟨_, _, rfl, .fail (by decide)⟩
  | settled => cases input <;> exact ⟨_, _, rfl, .late⟩

/-- The step itself, as one of these turns. -/
theorem turn_step (c : String) (operation : Operation) (phase : Phase) (input : Input) :
    Turn c operation phase input ((⟨c, operation, phase⟩ : Exchange).step input).1.phase
      ((⟨c, operation, phase⟩ : Exchange).step input).2 := by
  obtain ⟨phase', out, hstep, ht⟩ := step_turn c operation phase input
  rw [hstep]
  exact ht

/-- What settles an exchange that is not settled, given whether its connection has opened. -/
def Input.Decides (operation : Operation) (opened : Prop) : Input → Prop
  | .timeout _ | .event (.closed _) | .event (.failed _) => True
  | .event (.message _) => opened
  | .event .opened => operation ≠ .request

/-- Settled by one of these, an exchange leaves a connection that is to be closed. -/
def Input.Closes (operation : Operation) : Input → Prop
  | .timeout _ | .event (.message _) => True
  | .event .opened => operation ≠ .request
  | .event (.closed _) | .event (.failed _) => False

theorem Turn.closes {outcome : Outcome} (h : Turn c operation phase input phase' out)
    (hsettle : .settle outcome ∈ out) (code : UInt16) :
    .close code ∈ out ↔ code = CloseCode.normal ∧ input.Closes operation := by
  cases h with
  | early | ask | repeated | late => simp at hsettle
  | tell hop => simp [Input.Closes, hop]
  | reply | expire => simp [Input.Closes]
  | fail | shut => simp [Input.Closes]

theorem Turn.sends (h : Turn c operation phase input phase' out) (text : String) :
    .send text ∈ out ↔ phase = .opening ∧ input = .event .opened ∧ text = (fresh c operation).frame := by
  cases h with
  | ask | tell => simp
  | early | repeated | reply | late => simp
  | fail | shut | expire => simp

/-! ### A run -/

theorem run_append (x : Exchange) (inputs later : List Input) :
    x.run (inputs ++ later) =
      (((x.run inputs).1.run later).1, (x.run inputs).2 ++ ((x.run inputs).1.run later).2) := by
  induction inputs generalizing x with
  | nil => rfl
  | cons input inputs ih => simp only [List.cons_append, run, ih]

theorem run_settled (c : String) (operation : Operation) (later : List Input) :
    (⟨c, operation, .settled⟩ : Exchange).run later = (⟨c, operation, .settled⟩, later.map fun _ => []) := by
  induction later with
  | nil => rfl
  | cons input later ih =>
    have hstep : (⟨c, operation, .settled⟩ : Exchange).step input = (⟨c, operation, .settled⟩, []) := by
      cases input <;> rfl
    rw [run, hstep]
    simp only [ih, List.map_cons]

def FirstReply (inputs : List Input) (text : String) : Prop :=
  ∃ before mid later, inputs = before ++ .event .opened :: mid ++ .event (.message text) :: later ∧
    .event .opened ∉ before ∧ ∀ other, .event (.message other) ∉ mid

theorem FirstReply.append {text : String} (h : FirstReply inputs text) (later : List Input) :
    FirstReply (inputs ++ later) text := by
  obtain ⟨before, mid, rest, rfl, hbefore, hmid⟩ := h
  exact ⟨before, mid, rest ++ later, by simp, hbefore, hmid⟩

inductive Brings (c : String) (operation : Operation) (inputs : List Input) : Outcome → Prop
  | published : operation ≠ .request → Brings c operation inputs .published
  | replied {text : String} {outcome : Outcome} : operation = .request → FirstReply inputs text →
      outcomeOf c text = outcome → Brings c operation inputs outcome
  | lost {reason : String} : Brings c operation inputs (.failed (.connection c reason))
  | expired {after : Duration} : Brings c operation inputs (.failed (.timeout c after))

theorem Brings.append {outcome : Outcome} (h : Brings c operation inputs outcome) (later : List Input) :
    Brings c operation (inputs ++ later) outcome := by
  cases h with
  | published hop => exact .published hop
  | replied hop hreply hmeans => exact .replied hop (hreply.append later) hmeans
  | lost => exact .lost
  | expired => exact .expired

def ordered (text : Option String) (code : Option UInt16) (outcome : Option Outcome) : List Action :=
  (text.map .send).toList ++ (code.map .close).toList ++ (outcome.map .settle).toList

/-- Where a machine stands after some inputs, and all that it has asked for by then. -/
inductive Stands (c : String) (operation : Operation) (inputs : List Input) : Phase → List Action → Prop
  | opening : .event .opened ∉ inputs → Stands c operation inputs .opening (ordered none none none)
  | awaiting (before mid : List Input) : operation = .request → inputs = before ++ .event .opened :: mid →
      .event .opened ∉ before → (∀ text, .event (.message text) ∉ mid) →
      Stands c operation inputs .awaiting (ordered (some (fresh c operation).frame) none none)
  | settled (text : Option String) (code : Option UInt16) {outcome : Outcome} : Brings c operation inputs outcome →
      Stands c operation inputs .settled (ordered text code (some outcome))

/-- What one step makes of it. -/
theorem Stands.turn (h : Stands c operation inputs phase asked) (ht : Turn c operation phase input phase' out) :
    Stands c operation (inputs ++ [input]) phase' (asked ++ out) := by
  cases h with
  | opening hnever =>
    cases ht with
    | early => exact .opening (by simpa using hnever)
    | ask hop => exact .awaiting inputs [] hop rfl hnever (by simp)
    | tell hop => exact .settled (some _) (some _) (.published hop)
    | fail | shut => exact .settled none none .lost
    | expire => exact .settled none (some _) .expired
  | awaiting before mid hop hsplit hbefore hmid =>
    cases ht with
    | repeated =>
      refine .awaiting before (mid ++ [.event .opened]) hop (by simp [hsplit]) hbefore ?_
      intro text hmem
      simpa using hmid text (by simpa using hmem)
    | reply =>
      refine .settled (some _) (some _) (.replied hop ?_ rfl)
      exact ⟨before, mid, [], by simp [hsplit], hbefore, hmid⟩
    | fail | shut => exact .settled (some _) none .lost
    | expire => exact .settled (some _) (some _) .expired
  | settled _ _ hbrings =>
    cases ht with
    | late => exact (List.append_nil _).symm ▸ .settled _ _ (hbrings.append [input])
    | fail hphase | shut hphase | expire hphase => exact absurd rfl hphase

/-- By induction on the run, at its end. -/
theorem stands (c : String) (operation : Operation) (inputs : List Input) :
    ∃ phase asked, ((fresh c operation).run inputs).1 = ⟨c, operation, phase⟩ ∧
      ((fresh c operation).run inputs).2.flatten = asked ∧ Stands c operation inputs phase asked := by
  induction inputs using List.reverseRecOn with
  | nil => exact ⟨.opening, _, rfl, rfl, .opening List.not_mem_nil⟩
  | append_singleton inputs input ih =>
    obtain ⟨phase, asked, hstate, hasked, hstands⟩ := ih
    obtain ⟨phase', out, hstep, hturn⟩ := step_turn c operation phase input
    refine ⟨phase', asked ++ out, ?_, ?_, hstands.turn hturn⟩
    · rw [run_append, hstate]
      simp only [run, hstep]
    · rw [run_append, hstate]
      simp only [run, hstep, List.flatten_append, hasked, List.flatten_cons, List.flatten_nil, List.append_nil]

theorem settle_mem_ordered {text : Option String} {code : Option UInt16} {outcome : Option Outcome} {o : Outcome} :
    .settle o ∈ ordered text code outcome ↔ outcome = some o := by
  cases text <;> cases code <;> cases outcome <;> simp [ordered, eq_comm]

theorem Stands.ordered (h : Stands c operation inputs phase asked) :
    ∃ text code outcome, asked = Exchange.ordered text code outcome := by
  cases h with
  | opening => exact ⟨none, none, none, rfl⟩
  | awaiting => exact ⟨some _, none, none, rfl⟩
  | settled => exact ⟨_, _, some _, rfl⟩

theorem Stands.settled_iff (h : Stands c operation inputs phase asked) :
    phase = .settled ↔ ∃ outcome, .settle outcome ∈ asked := by
  cases h with
  | opening | awaiting => simp [settle_mem_ordered]
  | settled => simp [settle_mem_ordered]

theorem Stands.brings {outcome : Outcome} (h : Stands c operation inputs phase asked)
    (ho : .settle outcome ∈ asked) : Brings c operation inputs outcome := by
  cases h with
  | opening | awaiting => simp [settle_mem_ordered] at ho
  | settled _ _ hbrings =>
    obtain rfl := Option.some.inj (settle_mem_ordered.mp ho)
    exact hbrings

theorem Stands.opened_iff (h : Stands c operation inputs phase asked) (hphase : phase ≠ .settled) :
    .event .opened ∈ inputs ↔ phase = .awaiting := by
  cases h with
  | opening hnever => simp [hnever]
  | awaiting _ _ _ hsplit => simp [hsplit]
  | settled => exact absurd rfl hphase

/-- An exchange that has no outcome gets one by what decides, and by nothing else. -/
theorem Stands.decides (h : Stands c operation inputs phase asked) (hphase : phase ≠ .settled)
    (ht : Turn c operation phase input phase' out) :
    (∃ outcome, .settle outcome ∈ out) ↔ input.Decides operation (.event .opened ∈ inputs) := by
  rw [h.opened_iff hphase]
  cases ht with
  | early => simp [Input.Decides]
  | ask hop => simp [Input.Decides, hop]
  | tell hop => simp [Input.Decides, hop]
  | repeated =>
    cases h with
    | awaiting _ _ hop => simp [Input.Decides, hop]
  | reply | fail | shut | expire => simp [Input.Decides]
  | late => exact absurd rfl hphase

/-- A frame goes out once, when the connection first opens. -/
theorem Stands.sends (h : Stands c operation inputs phase asked)
    (ht : Turn c operation phase input phase' out) (text : String) :
    .send text ∈ out ↔ phase ≠ .settled ∧ input = .event .opened ∧ .event .opened ∉ inputs ∧
      text = (fresh c operation).frame := by
  rw [ht.sends]
  cases h with
  | opening hnever => simp [hnever]
  | awaiting _ _ _ hsplit => simp [hsplit]
  | settled => simp

theorem Stands.early (h : Stands c operation inputs phase asked) (hnever : .event .opened ∉ inputs)
    (text : String) :
    (⟨c, operation, phase⟩ : Exchange).step (.event (.message text)) = (⟨c, operation, phase⟩, []) := by
  cases h with
  | opening => rfl
  | awaiting _ _ _ hsplit => simp [hsplit] at hnever
  | settled => rfl

theorem Stands.repeated (h : Stands c operation inputs phase asked) (honce : .event .opened ∈ inputs) :
    (⟨c, operation, phase⟩ : Exchange).step (.event .opened) = (⟨c, operation, phase⟩, []) := by
  cases h with
  | opening hnever => exact absurd honce hnever
  | awaiting => rfl
  | settled => rfl

theorem outcomeOf_ne_published (c text : String) : outcomeOf c text ≠ .published := by
  unfold outcomeOf
  split
  · simp
  · split <;> simp

theorem outcomeOf_eq_responded {text : String} {envelope : Envelope}
    (h : outcomeOf c text = .responded envelope) :
    envelope.kind = .response ∧ Envelope.decode text = .ok envelope := by
  unfold outcomeOf at h
  split at h
  · contradiction
  · next hdecode =>
    split at h
    · next hkind =>
      obtain rfl := Outcome.responded.inj h
      exact ⟨hkind, hdecode⟩
    · contradiction
    · contradiction

/-! ### The law -/

/-- What holds of an exchange after some inputs, given all that it has asked for by then. -/
structure Lawful (c : String) (operation : Operation) (inputs : List Input) (x : Exchange)
    (asked : List Action) : Prop where
  /-- At most one frame, one close and one outcome, in this order. -/
  order : ∃ text code outcome, asked = ordered text code outcome
  settled : x.isSettled ↔ ∃ outcome, .settle outcome ∈ asked
  stays : x.isSettled → ∀ later, x.run later = (x, later.map fun _ => [])
  decides : x.isSettled = false → ∀ input,
    (∃ outcome, .settle outcome ∈ (x.step input).2) ↔ input.Decides operation (.event .opened ∈ inputs)
  closes : ∀ input outcome, .settle outcome ∈ (x.step input).2 →
    ∀ code, .close code ∈ (x.step input).2 ↔ code = CloseCode.normal ∧ input.Closes operation
  /-- The frame goes out when the connection first opens. -/
  sends : ∀ input text, .send text ∈ (x.step input).2 ↔ x.isSettled = false ∧
    input = .event .opened ∧ .event .opened ∉ inputs ∧ text = (fresh c operation).frame
  early : .event .opened ∉ inputs → ∀ text, x.step (.event (.message text)) = (x, [])
  repeated : .event .opened ∈ inputs → x.step (.event .opened) = (x, [])
  request : operation = .request → .settle .published ∉ asked
  publish : operation ≠ .request → ∀ outcome, .settle outcome ∈ asked → outcome = .published ∨
    (∃ reason, outcome = .failed (.connection c reason)) ∨ ∃ after, outcome = .failed (.timeout c after)
  responded : ∀ envelope, .settle (.responded envelope) ∈ asked → envelope.kind = .response ∧
    ∃ text, FirstReply inputs text ∧ Envelope.decode text = .ok envelope

/-- The law of one-shot exchanges, after every list of events and timeouts. -/
theorem exchange_lawful (c : String) (operation : Operation) (inputs : List Input) :
    Lawful c operation inputs ((fresh c operation).run inputs).1 ((fresh c operation).run inputs).2.flatten := by
  obtain ⟨phase, asked, hstate, hasked, h⟩ := stands c operation inputs
  have hsettled : (⟨c, operation, phase⟩ : Exchange).isSettled ↔ phase = .settled := by simp [isSettled]
  have hopen : (⟨c, operation, phase⟩ : Exchange).isSettled = false ↔ phase ≠ .settled := by simp [isSettled]
  have ht := turn_step c operation phase
  rw [hstate, hasked]
  constructor
  case order => exact h.ordered
  case settled => rw [hsettled, h.settled_iff]
  case stays =>
    intro hover later
    rw [hsettled.mp hover]
    exact run_settled c operation later
  case decides =>
    intro hunsettled input
    exact h.decides (hopen.mp hunsettled) (ht input)
  case closes => exact fun input outcome ho => (ht input).closes ho
  case sends =>
    intro input text
    rw [hopen]
    exact h.sends (ht input) text
  case early => exact h.early
  case repeated => exact h.repeated
  case request =>
    intro hop ho
    cases h.brings ho with
    | published hpublish => exact hpublish hop
    | replied _ _ hmeans => exact outcomeOf_ne_published c _ hmeans
  case publish =>
    intro hop outcome ho
    cases h.brings ho with
    | published => exact .inl rfl
    | replied hrequest => exact absurd hrequest hop
    | lost => exact .inr (.inl ⟨_, rfl⟩)
    | expired => exact .inr (.inr ⟨_, rfl⟩)
  case responded =>
    intro envelope ho
    cases h.brings ho with
    | replied _ hreply hmeans =>
      obtain ⟨hkind, hdecode⟩ := outcomeOf_eq_responded hmeans
      exact ⟨hkind, _, hreply, hdecode⟩

end Law

end RobotBridge.Exchange
