import RobotBridge.Proofs.Session.Waiting

/-! One call among all others in a session: everything that an act or a move can be to it, and what it puts
on its way to the table. -/
namespace RobotBridge

def Script.resumed {α : Type} (s : Session α) : Script α → Session.Stage α
  | .finish a => .done a
  | .request channel next =>
    .exchanging s.lines.length (.request channel) (s.clock + s.timeout.nanoseconds) fun outcome =>
      next (Session.requestResult channel outcome)
  | .publish channel dtype data next =>
    .exchanging s.lines.length (.publish channel dtype data) (s.clock + s.timeout.nanoseconds) fun outcome =>
      next (Session.publishResult channel outcome)
  | .subscribe _ next | .unsubscribe _ next => .waiting next
  | .list next => .listing next
  | .shutdown next => .stopping next
  | .print _ next => .ready (next ())
  | .stream limit render next => .streaming limit 0 render next

def Script.input? {α : Type} (id : Nat) : Script α → Option Session.Table.Input
  | .subscribe channel _ => some (.subscribe id channel)
  | .unsubscribe channel _ => some (.unsubscribe id channel)
  | .list _ => some (.list id)
  | .shutdown _ => some (.shutdown id)
  | _ => none

def Script.texts {α : Type} : Script α → List String
  | .print texts _ => texts
  | _ => []

namespace Session
open Table (Input Output noticesTo)

variable {α : Type}

def Move.call? : Move → Option Nat
  | .resume id | .take id | .expire id | .look id => some id
  | _ => none

@[simp] def Effect.text? : Effect α → Option String
  | .printed text => some text
  | _ => none

def Move.texts (m : Move) (id : Nat) (effects : List (Effect α)) : List String :=
  if m.call? = some id then effects.filterMap Effect.text? else []

def Act.script? (s : Session α) : Act α → Option (Script α)
  | .call script => if s.attached then some script else none
  | _ => none

variable {s s' : Session α} {m : Move} {effects : List (Effect α)} {id : Nat}

/-! ### One call in an act -/

theorem stage?_of_call? {c : CallState α} (h : s.call? id = some c) : s.stage? id = some c.stage := by
  rw [stage?, h, Option.map_some]

theorem call?_setCall (s : Session α) (j id : Nat) (f : CallState α → CallState α) :
    (s.setCall j f).call? id = if j = id then (s.call? id).map f else s.call? id := by
  simp only [call?, setCall, List.getElem?_modify]
  split <;> simp

theorem call?_act (s : Session α) (a : Act α) (id : Nat) :
    (s.act a).call? id =
      if id = s.calls.length then (a.script? s).map (⟨.ready ·, [], false⟩) else s.call? id := by
  have hnone (hid : id = s.calls.length) : s.call? id = none := by
    rw [call?, hid, List.getElem?_eq_none (Nat.le_refl _)]
  cases a with
  | call script =>
    unfold act Act.script?
    dsimp only
    split
    · by_cases hid : id = s.calls.length
      · rw [if_pos hid, call?, hid, List.getElem?_concat_length]
        rfl
      · rw [if_neg hid, call?, call?, List.getElem?_append]
        split
        · rfl
        · rw [List.getElem?_eq_none (by simp; omega), List.getElem?_eq_none (by omega)]
    · split
      · next hid => exact hnone hid
      · rfl
  | emit | dropTransport | advance | detach =>
    simp only [Act.script?, Option.map_none]
    split
    · next hid => exact hnone hid
    · rfl

theorem commands_act (s : Session α) (a : Act α) : (s.act a).commands = s.commands := by
  cases a with
  | call script =>
    unfold act
    dsimp only
    split <;> rfl
  | emit | dropTransport | advance | detach => rfl

/-! ### One call and the table -/

def Table.freed (n : Nat) (outputs : List Output) : Bool :=
  outputs.any fun
    | .released m => m = n
    | _ => false

theorem Table.freed_append (n : Nat) (xs ys : List Output) : freed n (xs ++ ys) = (freed n xs || freed n ys) :=
  List.any_append

def CallState.tell (id : Nat) (c : CallState α) (output : Output) : CallState α :=
  { stage := c.stage.tell id output
    inbox := c.inbox ++ noticesTo id [output]
    released := c.released || Table.freed id [output] }

theorem CallState.foldl_tell (id : Nat) (c : CallState α) (outputs : List Output) :
    outputs.foldl (tell id) c =
      { stage := outputs.foldl (Stage.tell id) c.stage
        inbox := c.inbox ++ noticesTo id outputs
        released := c.released || Table.freed id outputs } := by
  induction outputs generalizing c with
  | nil => simp [noticesTo, Table.notices, Table.freed]
  | cons output outputs ih =>
    have hnotices := Table.noticesTo_append id [output] outputs
    have hfreed := Table.freed_append id [output] outputs
    rw [List.singleton_append] at hnotices hfreed
    rw [List.foldl_cons, ih, List.foldl_cons, hnotices, hfreed, tell, List.append_assoc, Bool.or_assoc]

theorem call?_applyOutput (s : Session α) (output : Output) (id : Nat) :
    (s.applyOutput output).1.call? id = (s.call? id).map (CallState.tell id · output) := by
  cases output with
  | opened => simp [CallState.tell, Stage.tell, noticesTo, Table.freed, applyOutput, openLine, call?]
  | command | dropped =>
    simp only [applyOutput, onTableLine]
    split <;> simp [CallState.tell, Stage.tell, noticesTo, Table.freed, setLine, call?]
  | handled n | released n | answered n | listed n | stopped n =>
    rw [applyOutput, call?_setCall]
    split
    · next hn => simp [CallState.tell, Stage.tell, noticesTo, Table.freed, hn]
    · next hn => simp [CallState.tell, Stage.tell, noticesTo, Table.freed, hn]

/-- What the outputs of the table make of a call. -/
theorem call?_applyOutputs (s : Session α) (outputs : List Output) (id : Nat) :
    (s.applyOutputs outputs).1.call? id = (s.call? id).map (outputs.foldl (CallState.tell id)) := by
  induction outputs generalizing s with
  | nil => exact Option.map_id'.symm
  | cons output outputs ih =>
    have hrest := ih (s.applyOutput output).1
    rw [call?_applyOutput, Option.map_map] at hrest
    exact hrest

theorem call?_handle {rest : Session α} (ht : rest.table = s.table) (hc : rest.calls = s.calls) (input : Input)
    (id : Nat) : (rest.handle input).1.call? id =
      (s.call? id).map ((s.table.step input).2.foldl (CallState.tell id)) := by
  rw [handle_eq ht, call?_applyOutputs]
  simp only [call?, hc]

/-! ### One call in a move -/

/-- All that a move can be to one call, with what the call prints. -/
inductive Conduct (s : Session α) (id : Nat) (c : CallState α) : Move → CallState α → List String → Prop
  | apart {m : Move} : m.call? ≠ some id → s.inputOf? m = none → Conduct s id c m c []
  | told {m : Move} {input} : m.call? = none → s.inputOf? m = some input →
      Conduct s id c m ((s.table.step input).2.foldl (CallState.tell id) c) []
  | resumes {script} : c.stage = .ready script →
      Conduct s id c (.resume id) { c with stage := script.resumed s } script.texts
  | exchanges {m : Move} {n x deadline next stage} : c.stage = .exchanging n x deadline next →
      m = .take id ∨ m = .expire id →
      (∃ x', stage = .exchanging n x' deadline next) ∨ (∃ outcome, stage = .ready (next outcome)) →
      Conduct s id c m { c with stage } []
  | skips {limit seen render next e rest} : c.stage = .streaming limit seen render next →
      c.inbox = .error e :: rest → Conduct s id c (.look id) { c with inbox := rest } []
  | prints {limit seen render next envelope rest} : c.stage = .streaming limit seen render next →
      c.inbox = .message envelope :: rest →
      Conduct s id c (.look id)
        { c with
          inbox := rest
          stage := if limit.any (· ≤ seen + 1) then .ready (next true)
            else .streaming limit (seen + 1) render next }
        [render envelope]
  | ends {limit seen render next} : c.stage = .streaming limit seen render next → c.inbox = [] → c.released →
      Conduct s id c (.look id) { c with stage := .ready (next false) } []

/-! ### What one call asks the table for -/

def own (id : Nat) (inputs : List Input) : List Input := inputs.filter fun i => i.call? = some id

theorem own_append (id : Nat) (xs ys : List Input) : own id (xs ++ ys) = own id xs ++ own id ys :=
  List.filter_append ..

def issued? (s : Session α) : Move → Option Input
  | .resume j =>
    match s.stage? j with
    | some (.ready script) => script.input? j
    | _ => none
  | _ => none

theorem issued?_resume {script : Script α} (hs : s.stage? id = some (.ready script)) :
    s.issued? (.resume id) = script.input? id := by
  rw [issued?, hs]

/-- What the table handles was put on its way before. -/
theorem issued?_eq_none {input : Input} (h : s.inputOf? m = some input) : s.issued? m = none := by
  cases m with
  | command | event | abandon => rfl
  | resume | take | expire | look | forward => contradiction

/-! ### All that a move can come to -/

inductive Performed (s : Session α) (m : Move) : Session α → List (Effect α) → Prop
  | does {rest : Session α} {id c f effects} : m.call? = some id → s.call? id = some c → rest.calls = s.calls →
      rest.commands = s.commands ++ (s.issued? m).toList →
      Conduct s id c m (f c) (effects.filterMap Effect.text?) → Performed s m (rest.setCall id f) effects
  | forwards {s' n effects} : m = .forward n → s'.calls = s.calls → s'.commands = s.commands → Performed s m s' effects
  | handles {rest : Session α} {input effects} : m.call? = none → s.inputOf? m = some input →
      rest.table = s.table → rest.calls = s.calls →
      (s.commands = input :: rest.commands ∨ (s.commands = rest.commands ∧ input.call? = none)) →
      Performed s m (rest.handle input).1 effects

private theorem resume_performed {script : Script α} (hs : s.stage? id = some (.ready script)) :
    Performed s (.resume id) (s.resume id script).1 (s.resume id script).2 := by
  obtain ⟨c, hc, hcs⟩ := stage?_eq_some hs
  have does {rest : Session α} {effects : List (Effect α)} (hcalls : rest.calls = s.calls)
      (hcommands : rest.commands = s.commands ++ (script.input? id).toList)
      (htexts : effects.filterMap Effect.text? = script.texts) :
      Performed s (.resume id) (rest.setStage id (script.resumed s)) effects :=
    .does rfl hc hcalls (issued?_resume hs ▸ hcommands) (htexts ▸ .resumes hcs)
  cases script with
  | finish | request | publish | stream => exact does rfl (List.append_nil _).symm rfl
  | subscribe | unsubscribe | list | shutdown => exact does rfl rfl rfl
  | print texts next =>
    refine does rfl (List.append_nil _).symm ?_
    simp [Script.texts, resume, List.filterMap_map, Function.comp_def]

private theorem exchange_performed {rest : Session α} {n deadline : Nat} {x : Exchange}
    {next : Exchange.Outcome → Script α} {stage : Stage α} (hm : m = .take id ∨ m = .expire id)
    (hs : s.stage? id = some (.exchanging n x deadline next)) (hcalls : rest.calls = s.calls)
    (hcommands : rest.commands = s.commands)
    (hstage : (∃ x', stage = .exchanging n x' deadline next) ∨ ∃ outcome, stage = .ready (next outcome)) :
    Performed s m (rest.setStage id stage) [] := by
  obtain ⟨c, hc, hcs⟩ := stage?_eq_some hs
  have hissued : s.issued? m = none := by rcases hm with rfl | rfl <;> rfl
  refine .does (by rcases hm with rfl | rfl <;> rfl) hc hcalls ?_ (.exchanges hcs hm hstage)
  rw [hissued, hcommands, Option.toList_none, List.append_nil]

private theorem continueExchange_performed {n deadline : Nat} {x : Exchange} {next : Exchange.Outcome → Script α}
    (hm : m = .take id ∨ m = .expire id) (hs : s.stage? id = some (.exchanging n x deadline next)) (p : Line)
    (y : Exchange) (actions : List Exchange.Action) :
    Performed s m (s.continueExchange id n p y deadline next actions) [] := by
  unfold continueExchange
  obtain ⟨p, outcome⟩ := performExchange p actions
  cases outcome with
  | some outcome => exact exchange_performed hm hs rfl rfl (.inr ⟨outcome, rfl⟩)
  | none => exact exchange_performed hm hs rfl rfl (.inl ⟨y, rfl⟩)

private theorem takeEvent_performed {n deadline : Nat} {x : Exchange} {next : Exchange.Outcome → Script α}
    (hs : s.stage? id = some (.exchanging n x deadline next)) (h : s.takeEvent id n x deadline next = some s') :
    Performed s (.take id) s' [] := by
  unfold takeEvent at h
  split at h
  · obtain rfl := Option.some.inj h
    exact continueExchange_performed (.inl rfl) hs ..
  · obtain rfl := Option.some.inj h
    exact exchange_performed (.inl rfl) hs rfl rfl (.inr ⟨_, rfl⟩)
  · contradiction
  · contradiction

private theorem expire_performed {n deadline : Nat} {x : Exchange} {next : Exchange.Outcome → Script α}
    (hs : s.stage? id = some (.exchanging n x deadline next)) (h : s.expire id n x deadline next = some s') :
    Performed s (.expire id) s' [] := by
  unfold expire at h
  split at h
  · contradiction
  · split at h
    · obtain rfl := Option.some.inj h
      exact continueExchange_performed (.inr rfl) hs ..
    · contradiction

private theorem look_performed {seen : Nat} {c : CallState α} {limit : Option Nat} {render : Envelope → String}
    {next : Bool → Script α} (hc : s.call? id = some c) (hs : c.stage = .streaming limit seen render next)
    (h : s.look id c limit seen render next = some (s', effects)) : Performed s (.look id) s' effects := by
  have does {f : CallState α → CallState α} {effects : List (Effect α)}
      (hf : Conduct s id c (.look id) (f c) (effects.filterMap Effect.text?)) :
      Performed s (.look id) (s.setCall id f) effects := .does rfl hc rfl (List.append_nil _).symm hf
  unfold look at h
  split at h
  · next hi =>
    obtain ⟨rfl, rfl⟩ := Prod.mk.inj (Option.some.inj h)
    exact does (.skips hs hi)
  · next hi =>
    obtain ⟨rfl, rfl⟩ := Prod.mk.inj (Option.some.inj h)
    exact does (.prints hs hi)
  · next hi =>
    split at h
    · next hr =>
      obtain ⟨rfl, rfl⟩ := Prod.mk.inj (Option.some.inj h)
      exact does (.ends hs hi hr)
    · contradiction

private theorem forward_performed {n : Nat} (h : s.forward n = some s') : Performed s (.forward n) s' [] := by
  unfold forward at h
  split at h
  · split at h
    · split at h
      · split at h <;> · obtain rfl := Option.some.inj h; exact .forwards rfl rfl rfl
      · contradiction
    · contradiction
  · contradiction

theorem perform_performed (h : s.perform m = some (s', effects)) : Performed s m s' effects := by
  cases m with
  | resume j =>
    simp only [perform] at h
    split at h
    · next hs =>
      have hp := resume_performed hs
      rwa [Option.some.inj h] at hp
    · contradiction
  | take j =>
    simp only [perform] at h
    split at h
    · next hs =>
      obtain ⟨_, ht, heq⟩ := Option.map_eq_some_iff.mp h
      obtain ⟨rfl, rfl⟩ := Prod.mk.inj heq
      exact takeEvent_performed hs ht
    · contradiction
  | expire j =>
    simp only [perform] at h
    split at h
    · next hs =>
      obtain ⟨_, ht, heq⟩ := Option.map_eq_some_iff.mp h
      obtain ⟨rfl, rfl⟩ := Prod.mk.inj heq
      exact expire_performed hs ht
    · contradiction
  | look j =>
    simp only [perform] at h
    split at h
    · next hc =>
      split at h
      · next hs => exact look_performed hc hs h
      · contradiction
    · contradiction
  | forward n =>
    obtain ⟨_, ht, heq⟩ := Option.map_eq_some_iff.mp h
    obtain ⟨rfl, rfl⟩ := Prod.mk.inj heq
    exact forward_performed ht
  | command =>
    simp only [perform] at h
    split at h
    · next input rest hc =>
      obtain ⟨rfl, rfl⟩ := Prod.mk.inj (Option.some.inj h)
      exact .handles rfl (by simp [inputOf?, hc]) rfl rfl (.inl hc)
    · contradiction
  | event =>
    simp only [perform] at h
    split at h
    · next he =>
      obtain ⟨rfl, rfl⟩ := Prod.mk.inj (Option.some.inj h)
      exact .handles rfl (by simp [inputOf?, he]) rfl rfl (.inr ⟨rfl, rfl⟩)
    · contradiction
  | abandon =>
    simp only [perform] at h
    split at h
    · obtain ⟨rfl, rfl⟩ := Prod.mk.inj (Option.some.inj h)
      exact .handles rfl rfl rfl rfl (.inr ⟨rfl, rfl⟩)
    · contradiction

private theorem inputOf?_of_call? (h : m.call? = some id) : s.inputOf? m = none := by
  cases m with
  | resume | take | expire | look => rfl
  | forward | command | event | abandon => contradiction

/-- What a move is to one call: nothing if there is no such call. -/
def Conducts (s : Session α) (id : Nat) (m : Move) (s' : Session α) (texts : List String) : Prop :=
  (s.call? id = none ∧ s'.call? id = none ∧ texts = []) ∨
    ∃ c c', s.call? id = some c ∧ s'.call? id = some c' ∧ Conduct s id c m c' texts

/-- What a call of another move, or the table, is to a call. -/
private theorem conducts_of_other {f : CallState α → CallState α} (hf : s'.call? id = (s.call? id).map f)
    (hm : m.call? ≠ some id) (h : ∀ c, Conduct s id c m (f c) []) : Conducts s id m s' (m.texts id effects) := by
  rw [Move.texts, if_neg hm]
  cases hc : s.call? id with
  | none => exact .inl ⟨hc, by rw [hf, hc, Option.map_none], rfl⟩
  | some c => exact .inr ⟨c, f c, hc, by rw [hf, hc, Option.map_some], h c⟩

private theorem conducts_apart (hf : s'.call? id = s.call? id) (hm : m.call? ≠ some id) (hi : s.inputOf? m = none) :
    Conducts s id m s' (m.texts id effects) :=
  conducts_of_other (by rw [hf, Option.map_id']) hm fun _ => .apart hm hi

theorem perform_conducts (h : s.perform m = some (s', effects)) (id : Nat) :
    Conducts s id m s' (m.texts id effects) := by
  cases perform_performed h with
  | @does rest j c f _ hm hc hcalls _ hconduct =>
    have hcall : (rest.setCall j f).call? id = if j = id then (s.call? id).map f else s.call? id := by
      rw [call?_setCall, call?, hcalls, ← call?]
    split at hcall
    · next hj =>
      subst hj
      rw [Move.texts, if_pos hm]
      exact .inr ⟨c, f c, hc, by rw [hcall, hc, Option.map_some], hconduct⟩
    · next hj => exact conducts_apart hcall (by simpa [hm] using hj) (inputOf?_of_call? hm)
  | forwards hm hcalls _ =>
    subst hm
    exact conducts_apart (by rw [call?, call?, hcalls]) (by simp [Move.call?]) rfl
  | handles hm hi htable hcalls _ =>
    exact conducts_of_other (call?_handle htable hcalls _ id) (by simp [hm]) fun _ => .told hm hi

/-- What has been put on its way to the table waits until it is handled, in order. -/
theorem perform_commands (h : s.perform m = some (s', effects)) (id : Nat) :
    own id (s.inputOf? m).toList ++ own id s'.commands = own id s.commands ++ own id (s.issued? m).toList := by
  cases perform_performed h with
  | @does rest j _ f _ hm _ _ hcommands _ =>
    have hsame : (rest.setCall j f).commands = rest.commands := rfl
    rw [inputOf?_of_call? hm, hsame, hcommands, own_append]
    rfl
  | forwards hm _ hcommands =>
    subst hm
    simp [inputOf?, issued?, hcommands, own]
  | @handles rest input _ _ hi htable _ hrest =>
    have hcommands : (rest.handle input).1.commands = rest.commands := by
      rw [handle_eq htable]
      exact (applied_outputs _ _).commands
    rw [hi, issued?_eq_none hi, hcommands, ← own_append]
    rcases hrest with heq | ⟨heq, hnone⟩
    · simp [heq, own]
    · have hother : input.call? ≠ some id := by
        rw [hnone]
        exact (Option.some_ne_none id).symm
      have hdrop : own id (input :: rest.commands) = own id rest.commands :=
        List.filter_cons_of_neg (mt of_decide_eq_true hother)
      simpa [heq, own] using hdrop

theorem own_issued_of_ne (s : Session α) (hm : m ≠ .resume id) : own id (s.issued? m).toList = [] := by
  unfold issued?
  split
  · next j =>
    have hj : j ≠ id := fun hj => hm (hj ▸ rfl)
    split
    · next script _ => cases script <;> simp [Script.input?, own, hj]
    · rfl
  · rfl

/-! ### How many calls there are -/

theorem call?_eq_none (s : Session α) (id : Nat) : s.call? id = none ↔ s.calls.length ≤ id :=
  List.getElem?_eq_none_iff

theorem calls_length_act (s : Session α) (a : Act α) :
    (s.act a).calls.length = s.calls.length + (a.script? s).toList.length := by
  cases a with
  | call script =>
    unfold act Act.script?
    dsimp only
    split <;> simp
  | emit | dropTransport | advance | detach => rfl

theorem call?_of_act {a : Act α} (h : (s.act a).call? id = none) : s.call? id = none := by
  rw [call?_eq_none, calls_length_act] at h
  rw [call?_eq_none]
  omega

/-- A move makes no call and takes none away. -/
theorem call?_perform (h : s.perform m = some (s', effects)) (id : Nat) :
    s'.call? id = none ↔ s.call? id = none := by
  rcases perform_conducts h id with ⟨hnone, hnone', -⟩ | ⟨c, c', hc, hc', -⟩
  · simp [hnone, hnone']
  · simp [hc, hc']

theorem calls_length_perform (h : s.perform m = some (s', effects)) : s'.calls.length = s.calls.length := by
  have hiff (id : Nat) : s'.calls.length ≤ id ↔ s.calls.length ≤ id := by
    rw [← call?_eq_none, ← call?_eq_none]
    exact call?_perform h id
  exact Nat.le_antisymm ((hiff _).mpr (Nat.le_refl _)) ((hiff _).mp (Nat.le_refl _))

/-! ### What the table says -/

def outputsOf (s : Session α) (m : Move) : List Output :=
  match s.inputOf? m with
  | some input => (s.table.step input).2
  | none => []

theorem outputsOf_eq {input : Input} (h : s.inputOf? m = some input) :
    s.outputsOf m = (s.table.step input).2 := by rw [outputsOf, h]

end Session

end RobotBridge
