import RobotBridge.Proofs.Session.Occurrence
import RobotBridge.Proofs.Session.Replies

/-! Calls that wait for the table: each has asked for something that is on its way to the table, or
waits in an entry of it. -/
namespace RobotBridge.Session
open Table (Input Output Change answers answersTo)

variable {α : Type}

/-! ### Stages in which a call waits for the table -/

/-- How a call that waits for the table goes on if the session is closed. -/
def Stage.refused? : Stage α → Option (Script α)
  | .waiting next => some (next (.error .sessionClosed))
  | .listing next => some (next (.error .sessionClosed))
  | .stopping next => some (next ())
  | _ => none

def Stage.isAsking (stage : Stage α) : Bool := stage.refused?.isSome

inductive Stage.Asks (id : Nat) : Stage α → Input → Prop
  | waiting {next i} : i.call? = some id → Asks id (.waiting next) i
  | listing {next} : Asks id (.listing next) (.list id)
  | stopping {next} : Asks id (.stopping next) (.shutdown id)

inductive Stage.AnsweredBy (id : Nat) : Stage α → Output → Prop
  | answered {next result} : AnsweredBy id (.waiting next) (.answered id result)
  | listed {next result} : AnsweredBy id (.listing next) (.listed id result)
  | stopped {next} : AnsweredBy id (.stopping next) (.stopped id)

def Stage.tell (id : Nat) (stage : Stage α) : Output → Stage α
  | .answered n result => if n = id then stage.answer result else stage
  | .listed n result => if n = id then stage.answerList result else stage
  | .stopped n => if n = id then stage.answerStop else stage
  | _ => stage

/-- If the output is an answer, it says that the session is closed. -/
def Table.Output.Refuses : Output → Prop
  | .answered _ result => result = .error .sessionClosed
  | .listed _ result => result = .error .sessionClosed
  | _ => True

section Stages

variable {id : Nat} {stage : Stage α} {script : Script α} {output : Output} {outputs : List Output}

theorem Stage.tell_of_not_answered (h : ¬stage.AnsweredBy id output) : stage.tell id output = stage := by
  cases output with
  | answered n result | listed n result | stopped n =>
    rw [tell]
    split
    · next hn =>
      subst hn
      cases stage <;> first | rfl | exact absurd (by constructor) h
    · rfl
  | _ => rfl

theorem Stage.not_asking_tell (h : stage.AnsweredBy id output) : (stage.tell id output).isAsking = false := by
  cases h <;> simp [tell, answer, answerList, answerStop, isAsking, refused?]

theorem Stage.tell_refused (h : stage.AnsweredBy id output) (ho : output.Refuses)
    (hs : stage.refused? = some script) : stage.tell id output = .ready script := by
  cases h <;> cases ho <;> cases hs <;> simp [tell, answer, answerList, answerStop]

theorem Stage.isAsking_of_answered (h : stage.AnsweredBy id output) : stage.isAsking := by
  cases h <;> rfl

/-- What the table says leaves a call that does not wait for it as it is. -/
theorem Stage.foldl_tell_of_not_asking (h : stage.isAsking = false) (outputs : List Output) :
    outputs.foldl (tell id) stage = stage := by
  induction outputs with
  | nil => rfl
  | cons output outputs ih =>
    have hno : ¬stage.AnsweredBy id output := fun ha => ne_true_of_eq_false h (isAsking_of_answered ha)
    rw [List.foldl_cons, tell_of_not_answered hno, ih]

/-- A call that still waits after some outputs was not answered. -/
theorem Stage.foldl_tell_asking (h : (outputs.foldl (tell id) stage).isAsking) :
    outputs.foldl (tell id) stage = stage ∧ ∀ output ∈ outputs, ¬stage.AnsweredBy id output := by
  induction outputs with
  | nil => exact ⟨rfl, fun _ hm => absurd hm List.not_mem_nil⟩
  | cons output outputs ih =>
    rw [List.foldl_cons] at h ⊢
    have hno : ¬stage.AnsweredBy id output := fun ha => by
      have hidle := not_asking_tell ha
      rw [foldl_tell_of_not_asking hidle] at h
      exact ne_true_of_eq_false hidle h
    rw [tell_of_not_answered hno] at h ⊢
    obtain ⟨hsame, hrest⟩ := ih h
    exact ⟨hsame, List.forall_mem_cons.mpr ⟨hno, hrest⟩⟩

theorem Stage.foldl_tell_of_not_answered (h : ∀ output ∈ outputs, ¬stage.AnsweredBy id output) :
    outputs.foldl (tell id) stage = stage := by
  induction outputs with
  | nil => rfl
  | cons output outputs ih =>
    rw [List.foldl_cons, tell_of_not_answered (h _ List.mem_cons_self)]
    exact ih fun o hm => h o (List.mem_cons_of_mem _ hm)

/-- A call that waits for a closed session is told so, or waits on. -/
theorem Stage.foldl_tell_refused (h : ∀ output ∈ outputs, output.Refuses)
    (hs : stage.refused? = some script) :
    outputs.foldl (tell id) stage = stage ∨ outputs.foldl (tell id) stage = .ready script := by
  induction outputs with
  | nil => exact .inl rfl
  | cons output outputs ih =>
    rw [List.foldl_cons]
    by_cases ha : stage.AnsweredBy id output
    · rw [tell_refused ha (h _ List.mem_cons_self) hs]
      exact .inr (foldl_tell_of_not_asking rfl outputs)
    · rw [tell_of_not_answered ha]
      exact ih fun o hm => h o (List.mem_cons_of_mem _ hm)

/-- A call that is answered by a closed session is told so. -/
theorem Stage.foldl_tell_answered (h : ∀ output ∈ outputs, output.Refuses)
    (hs : stage.refused? = some script) (ha : ∃ output ∈ outputs, stage.AnsweredBy id output) :
    outputs.foldl (tell id) stage = .ready script := by
  refine (foldl_tell_refused h hs).resolve_left fun hsame => ?_
  obtain ⟨output, hm, hanswered⟩ := ha
  have hasking : (outputs.foldl (tell id) stage).isAsking := by
    rw [hsame]
    exact isAsking_of_answered hanswered
  exact (foldl_tell_asking hasking).2 output hm hanswered

/-- A call that waits goes on with the first answer to it. -/
theorem Stage.foldl_tell_waiting (next : Except CallError Unit → Script α) (outputs : List Output) :
    outputs.foldl (tell id) (.waiting next) = match answersTo id outputs with
      | [] => .waiting next
      | answer :: _ => .ready (next answer) := by
  induction outputs with
  | nil => rfl
  | cons output outputs ih =>
    have happ := Table.answersTo_append id [output] outputs
    rw [List.singleton_append] at happ
    rw [List.foldl_cons, happ]
    by_cases ha : ∃ answer, output = .answered id answer
    · obtain ⟨answer, rfl⟩ := ha
      have hone : answersTo id [.answered id answer] = [answer] := by simp [answersTo]
      rw [hone, tell, if_pos rfl]
      exact foldl_tell_of_not_asking rfl outputs
    · have hnone : answersTo id [output] = [] := by
        refine List.eq_nil_iff_forall_not_mem.mpr fun answer hm => ha ⟨answer, ?_⟩
        exact (List.mem_singleton.mp (Table.mem_answersTo.mp hm)).symm
      have hno : ¬(Stage.waiting next).AnsweredBy id output := by
        rintro ⟨⟩
        exact ha ⟨_, rfl⟩
      rw [hnone, List.nil_append, tell_of_not_answered hno, ih]

end Stages

variable {s s' s'' : Session α} {id : Nat} {stage : Stage α}

theorem stage?_setCall (s : Session α) (id j : Nat) (f : CallState α → CallState α) :
    (s.setCall id f).stage? j = if id = j then (s.call? j).map fun c => (f c).stage else s.stage? j := by
  simp only [stage?, call?, setCall, List.getElem?_modify]
  split <;> simp [Function.comp_def]

theorem stage?_applyOutput (s : Session α) (output : Output) (id : Nat) :
    (s.applyOutput output).1.stage? id = (s.stage? id).map (Stage.tell id · output) := by
  cases output with
  | opened => exact Option.map_id'.symm
  | command | dropped =>
    simp only [applyOutput, onTableLine, Stage.tell, Option.map_id']
    split <;> rfl
  | handled | released | answered | listed | stopped =>
    simp only [applyOutput, stage?_setCall, Stage.tell]
    split <;> simp [stage?, Function.comp_def]

/-- What the outputs of the table make of a call's stage. -/
theorem stage?_applyOutputs (s : Session α) (outputs : List Output) (id : Nat) :
    (s.applyOutputs outputs).1.stage? id = (s.stage? id).map (outputs.foldl (Stage.tell id)) := by
  induction outputs generalizing s with
  | nil => exact Option.map_id'.symm
  | cons output outputs ih =>
    have hrest := ih (s.applyOutput output).1
    rw [stage?_applyOutput, Option.map_map] at hrest
    exact hrest

theorem stage?_handle (s : Session α) (commands : List Input) (events : List (Nat × Event)) (input : Input)
    (id : Nat) : ({ s with commands, events }.handle input).1.stage? id =
      (s.stage? id).map ((s.table.step input).2.foldl (Stage.tell id)) := by
  have htable : ({ s with commands, events } : Session α).table = s.table := rfl
  rw [handle_eq htable, stage?_applyOutputs]
  rfl

/-! ### What moves are to calls that wait for the table -/

def Waits (s : Session α) (id : Nat) : Prop := ∃ next, s.stage? id = some (.waiting next)

/-- Nothing changes for the table, all that is on its way to it stays so, calls that wait for it wait on,
and what begins to wait is on its way. -/
structure Patient (s s' : Session α) : Prop where
  table : s'.table = s.table
  commands : ∀ i ∈ s.commands, i ∈ s'.commands
  stays : ∀ id stage, stage.isAsking → s.stage? id = some stage → s'.stage? id = some stage
  asks : ∀ id stage, stage.isAsking → s'.stage? id = some stage →
    s.stage? id = some stage ∨ ∃ i ∈ s'.commands, stage.Asks id i

theorem Patient.trans (h : Patient s s') (h' : Patient s' s'') : Patient s s'' where
  table := h'.table.trans h.table
  commands i hi := h'.commands i (h.commands i hi)
  stays id stage ha hs := h'.stays id stage ha (h.stays id stage ha hs)
  asks id stage ha hs := by
    rcases h'.asks id stage ha hs with hs | hi
    · rcases h.asks id stage ha hs with hs | ⟨i, hi, hasks⟩
      · exact .inl hs
      · exact .inr ⟨i, h'.commands i hi, hasks⟩
    · exact .inr hi

/-- Nothing changes but what no call waits for. -/
theorem patient_of_stage?_eq (ht : s'.table = s.table) (hc : ∀ i ∈ s.commands, i ∈ s'.commands)
    (hs : s'.stage? = s.stage?) : Patient s s' :=
  ⟨ht, hc, fun id _ _ h => (congrFun hs id).trans h, fun id _ _ h => .inl ((congrFun hs id).symm.trans h)⟩

theorem patient_setLine (s : Session α) (n : Nat) (f : Line → Line) : Patient s (s.setLine n f) :=
  patient_of_stage?_eq rfl (fun _ => id) rfl

theorem patient_openLine (s : Session α) (owner : Owner) : Patient s (s.openLine owner) :=
  patient_of_stage?_eq rfl (fun _ => id) rfl

theorem patient_setCall {f : CallState α → CallState α}
    (hf : ∀ c, s.call? id = some c →
      (f c).stage = c.stage ∨ (f c).stage.isAsking = false ∧ c.stage.isAsking = false) :
    Patient s (s.setCall id f) := by
  have hsame (j : Nat) (stage : Stage α) (ha : stage.isAsking) :
      (s.setCall id f).stage? j = some stage ↔ s.stage? j = some stage := by
    rw [stage?_setCall]
    split
    · next hj =>
      subst hj
      rw [stage?]
      cases hc : s.call? id with
      | none => rfl
      | some c =>
        rcases hf c hc with heq | ⟨hnew, hold⟩
        · simp [heq]
        · have hne {other : Stage α} (h : other.isAsking = false) : other ≠ stage := by
            rintro rfl
            exact ne_true_of_eq_false h ha
          simp [hne hnew, hne hold]
    · rfl
  exact ⟨rfl, fun _ hi => hi, fun j stage ha h => (hsame j stage ha).mpr h,
    fun j stage ha h => .inl ((hsame j stage ha).mp h)⟩

/-- A call that does not wait for the table comes to another stage in which it does not. -/
theorem patient_setStage {old new : Stage α} (hs : s.stage? id = some old) (hold : old.isAsking = false)
    (hnew : new.isAsking = false) : Patient s (s.setStage id new) := by
  refine patient_setCall fun c hc => .inr ⟨hnew, ?_⟩
  obtain ⟨c', hc', rfl⟩ := stage?_eq_some hs
  obtain rfl := Option.some.inj (hc.symm.trans hc')
  exact hold

theorem patient_enqueue {old stage : Stage α} {input : Input} (hs : s.stage? id = some old)
    (hold : old.isAsking = false) (h : stage.Asks id input) : Patient s (s.enqueue id input stage) := by
  have hstage (j : Nat) : (s.enqueue id input stage).stage? j =
      if id = j then (s.call? j).map fun _ => stage else s.stage? j := stage?_setCall _ id j _
  refine ⟨rfl, fun _ => List.mem_append_left _, fun j other ha hj => ?_, fun j other ha hj => ?_⟩
  · rw [hstage, if_neg, hj]
    rintro rfl
    obtain rfl := Option.some.inj (hs.symm.trans hj)
    exact ne_true_of_eq_false hold ha
  · rw [hstage] at hj
    split at hj
    · next hid =>
      subst hid
      obtain ⟨_, -, rfl⟩ := Option.map_eq_some_iff.mp hj
      exact .inr ⟨input, List.mem_append_right _ List.mem_cons_self, h⟩
    · exact .inl hj

theorem patient_endExchange {old : Stage α} {line : Nat} {next : Exchange.Outcome → Script α}
    (hs : s.stage? id = some old) (hold : old.isAsking = false) (outcome : Exchange.Outcome) :
    Patient s (s.endExchange id line next outcome) :=
  (patient_setLine s line _).trans (patient_setStage hs hold rfl)

theorem patient_continueExchange {old : Stage α} {line deadline : Nat} {next : Exchange.Outcome → Script α}
    (hs : s.stage? id = some old) (hold : old.isAsking = false) (p : Line) (exchange : Exchange)
    (actions : List Exchange.Action) :
    Patient s (s.continueExchange id line p exchange deadline next actions) := by
  unfold continueExchange
  obtain ⟨p, outcome⟩ := performExchange p actions
  cases outcome with
  | some outcome =>
    exact (patient_setLine s line fun _ => p).trans
      (patient_endExchange (s := s.setLine line fun _ => p) hs hold outcome)
  | none => exact (patient_setLine s line fun _ => p).trans (patient_setStage hs hold rfl)

private theorem patient_resume {script : Script α} (hs : s.stage? id = some (.ready script)) :
    Patient s (s.resume id script).1 := by
  cases script with
  | request | publish => exact (patient_openLine s _).trans (patient_setStage hs rfl rfl)
  | subscribe | unsubscribe => exact patient_enqueue hs rfl (.waiting rfl)
  | list => exact patient_enqueue hs rfl .listing
  | shutdown => exact patient_enqueue hs rfl .stopping
  | finish | print | stream => exact patient_setStage hs rfl rfl

private theorem patient_takeEvent {line deadline : Nat} {exchange : Exchange}
    {next : Exchange.Outcome → Script α} (hs : s.stage? id = some (.exchanging line exchange deadline next))
    (h : s.takeEvent id line exchange deadline next = some s') : Patient s s' := by
  unfold takeEvent at h
  split at h
  · obtain rfl := Option.some.inj h
    exact patient_continueExchange hs rfl ..
  · obtain rfl := Option.some.inj h
    exact patient_endExchange hs rfl _
  · contradiction
  · contradiction

private theorem patient_expire {line deadline : Nat} {exchange : Exchange}
    {next : Exchange.Outcome → Script α} (hs : s.stage? id = some (.exchanging line exchange deadline next))
    (h : s.expire id line exchange deadline next = some s') : Patient s s' := by
  unfold expire at h
  split at h
  · contradiction
  · split at h
    · obtain rfl := Option.some.inj h
      exact patient_continueExchange hs rfl ..
    · contradiction

private theorem patient_look {seen : Nat} {c : CallState α} {limit : Option Nat}
    {render : Envelope → String} {next : Bool → Script α} {effects : List (Effect α)}
    (hc : s.call? id = some c) (hs : c.stage = .streaming limit seen render next)
    (h : s.look id c limit seen render next = some (s', effects)) : Patient s s' := by
  unfold look at h
  split at h
  · obtain ⟨rfl, -⟩ := Prod.mk.inj (Option.some.inj h)
    exact patient_setCall fun _ _ => .inl rfl
  · obtain ⟨rfl, -⟩ := Prod.mk.inj (Option.some.inj h)
    refine patient_setCall fun c' hc' => .inr ⟨?_, ?_⟩
    · dsimp only
      split <;> rfl
    · obtain rfl := Option.some.inj (hc.symm.trans hc')
      rw [hs]
      rfl
  · split at h
    · obtain ⟨rfl, -⟩ := Prod.mk.inj (Option.some.inj h)
      have hstage : s.stage? id = some (.streaming limit seen render next) := by
        rw [stage?, hc, Option.map_some, hs]
      exact patient_setStage hstage rfl rfl
    · contradiction

private theorem patient_forward {n : Nat} (h : s.forward n = some s') : Patient s s' := by
  unfold forward at h
  split at h
  · split at h
    · split at h
      · split at h
        · obtain rfl := Option.some.inj h
          exact patient_of_stage?_eq rfl (fun _ => id) rfl
        · obtain rfl := Option.some.inj h
          exact patient_setLine ..
      · contradiction
    · contradiction
  · contradiction

theorem patient_act (s : Session α) (a : Act α) : Patient s (s.act a) := by
  cases a with
  | call script =>
    unfold act
    dsimp only
    split
    · have hgrown (j : Nat) : stage? { s with calls := s.calls ++ [⟨.ready script, [], false⟩] } j =
          if j = s.calls.length then some (.ready script) else s.stage? j := by
        rw [stage?, stage?, call?, call?, List.getElem?_append]
        split
        · next hlt => rw [if_neg (Nat.ne_of_lt hlt)]
        · next hge =>
          split
          · next heq => simp [heq]
          · next hne =>
            rw [List.getElem?_eq_none (by simp; omega), List.getElem?_eq_none (by omega)]
      refine ⟨rfl, fun _ => id, fun j stage ha hj => ?_, fun j stage ha hj => .inl ?_⟩
      · rw [hgrown, if_neg, hj]
        rintro rfl
        simp [stage?, call?] at hj
      · rw [hgrown] at hj
        split at hj
        · obtain rfl := Option.some.inj hj
          contradiction
        · exact hj
    · exact patient_of_stage?_eq rfl (fun _ => id) rfl
  | emit line e => exact patient_setLine s line fun p => (p.emit e).1
  | dropTransport line => exact patient_setLine s line Line.dropTransport
  | advance | detach => exact patient_of_stage?_eq rfl (fun _ => id) rfl

/-- All that a move can be to calls that wait for the table: nothing, or the table handles an input. -/
inductive Advance (s : Session α) (m : Move) : Session α → List (Effect α) → Prop
  | patient {s' effects} : s.inputOf? m = none → Patient s s' → Advance s m s' effects
  | handles {commands events input} : s.inputOf? m = some input →
      (∀ i ∈ s.commands, i = input ∨ i ∈ commands) →
      Advance s m ({ s with commands, events }.handle input).1 ({ s with commands, events }.handle input).2

theorem perform_advance {m : Move} {effects : List (Effect α)} (h : s.perform m = some (s', effects)) :
    Advance s m s' effects := by
  cases m with
  | resume id =>
    simp only [perform] at h
    split at h
    · next hs =>
      have hp := patient_resume hs
      rw [Option.some.inj h] at hp
      exact .patient rfl hp
    · contradiction
  | take id =>
    simp only [perform] at h
    split at h
    · next hs =>
      obtain ⟨_, ht, heq⟩ := Option.map_eq_some_iff.mp h
      obtain ⟨rfl, -⟩ := Prod.mk.inj heq
      exact .patient rfl (patient_takeEvent hs ht)
    · contradiction
  | expire id =>
    simp only [perform] at h
    split at h
    · next hs =>
      obtain ⟨_, ht, heq⟩ := Option.map_eq_some_iff.mp h
      obtain ⟨rfl, -⟩ := Prod.mk.inj heq
      exact .patient rfl (patient_expire hs ht)
    · contradiction
  | look id =>
    simp only [perform] at h
    split at h
    · next c hc =>
      split at h
      · next hs => exact .patient rfl (patient_look hc hs h)
      · contradiction
    · contradiction
  | forward n =>
    obtain ⟨_, ht, heq⟩ := Option.map_eq_some_iff.mp h
    obtain ⟨rfl, -⟩ := Prod.mk.inj heq
    exact .patient rfl (patient_forward ht)
  | command =>
    simp only [perform] at h
    split at h
    · next input rest hc =>
      have ha : Advance s .command (handle { s with commands := rest } input).1
          (handle { s with commands := rest } input).2 :=
        .handles (by simp [inputOf?, hc]) fun i hi => List.mem_cons.mp (hc ▸ hi)
      rwa [Option.some.inj h] at ha
    · contradiction
  | event =>
    simp only [perform] at h
    split at h
    · next k e rest _ he =>
      have ha : Advance s .event (handle { s with events := rest } (.event k e)).1
          (handle { s with events := rest } (.event k e)).2 :=
        .handles (by simp [inputOf?, he]) fun _ => .inr
      rwa [Option.some.inj h] at ha
    · contradiction
  | abandon =>
    simp only [perform] at h
    split at h
    · have ha : Advance s .abandon (s.handle .abandoned).1 (s.handle .abandoned).2 :=
        .handles rfl fun _ => .inr
      rwa [Option.some.inj h] at ha
    · contradiction

/-! ### In every session -/

/-- Each call that waits for the table has asked for something that is on its way to it, or waits in an
entry. -/
def Awaited (s : Session α) : Prop :=
  ∀ id stage, stage.isAsking → s.stage? id = some stage →
    (∃ i ∈ s.commands, stage.Asks id i) ∨ (∃ next, stage = .waiting next) ∧ id ∈ Table.calls s.table.pending

private theorem Awaited.patient (h : Awaited s) (hp : Patient s s') : Awaited s' := by
  intro id stage ha hs
  rcases hp.asks id stage ha hs with hs | hi
  · rw [hp.table]
    refine (h id stage ha hs).imp_left fun ⟨i, hi, hasks⟩ => ⟨i, hp.commands i hi, hasks⟩
  · exact .inl hi

/-- A subscribe or unsubscribe call that is handled, or that waits in an entry, is answered or waits. -/
private theorem answered_or_pending {t : Table} (hwf : t.WellFormed) {input : Input}
    {next : Except CallError Unit → Script α}
    (h : id ∈ Table.calls t.pending ∨ input.call? = some id) :
    (∃ output ∈ (t.step input).2, (Stage.waiting next).AnsweredBy id output) ∨
      id ∈ Table.calls (t.step input).1.pending := by
  have hperm := (Table.step_change hwf input).calls_perm hwf
  have hm : id ∈ Table.calls t.pending ++ input.call?.toList :=
    List.mem_append.mpr (h.imp_right Option.mem_toList.mpr)
  refine (List.mem_append.mp (hperm.subset hm)).imp_left fun hm => ?_
  obtain ⟨⟨_, r⟩, hr, rfl⟩ := List.mem_map.mp hm
  exact ⟨_, Table.mem_answers.mp hr, .answered⟩

/-- What a call has asked for is answered when it is handled, or the call waits in an entry. -/
private theorem answered_or_waits {t : Table} (hwf : t.WellFormed) {input : Input} {stage : Stage α}
    (h : stage.Asks id input) :
    (∃ output ∈ (t.step input).2, stage.AnsweredBy id output) ∨
      (∃ next, stage = .waiting next) ∧ id ∈ Table.calls (t.step input).1.pending := by
  cases h with
  | waiting hcall => exact (answered_or_pending hwf (.inr hcall)).imp_right fun hm => ⟨⟨_, rfl⟩, hm⟩
  | listing =>
    have hlisted : ∃ result, .listed id result ∈ (t.step (.list id)).2 := by
      unfold Table.step
      cases t.running <;> exact ⟨_, List.mem_singleton_self _⟩
    obtain ⟨result, hm⟩ := hlisted
    exact .inl ⟨_, hm, .listed⟩
  | stopping =>
    have hstopped : .stopped id ∈ (t.step (.shutdown id)).2 := by
      unfold Table.step
      cases t.running with
      | true => exact List.mem_append_right _ (List.mem_singleton_self _)
      | false => exact List.mem_singleton_self _
    exact .inl ⟨_, hstopped, .stopped⟩

/-- No call gets lost when the table handles an input. -/
private theorem Awaited.handle (h : Awaited s) (hwf : s.table.WellFormed) {commands : List Input}
    {events : List (Nat × Event)} {input : Input}
    (hcommands : ∀ i ∈ s.commands, i = input ∨ i ∈ commands) :
    Awaited ({ s with commands, events }.handle input).1 := by
  intro id stage ha hs
  have htable : ({ s with commands, events } : Session α).table = s.table := rfl
  have applied := applied_outputs { s with commands, events, table := (s.table.step input).1 }
    (s.table.step input).2
  rw [handle_eq htable, applied.commands, applied.table]
  rw [stage?_handle] at hs
  obtain ⟨old, hold, rfl⟩ := Option.map_eq_some_iff.mp hs
  obtain ⟨hsame, hno⟩ := Stage.foldl_tell_asking ha
  rw [hsame] at ha ⊢
  rcases h id old ha hold with ⟨i, hi, hasks⟩ | ⟨⟨next, rfl⟩, hm⟩
  · rcases hcommands i hi with rfl | hi
    · exact .inr ((answered_or_waits hwf hasks).resolve_left fun ⟨o, ho, hanswered⟩ => hno o ho hanswered)
    · exact .inl ⟨i, hi, hasks⟩
  · refine .inr ⟨⟨next, rfl⟩, ?_⟩
    exact (answered_or_pending hwf (.inl hm)).resolve_left fun ⟨o, ho, hanswered⟩ => hno o ho hanswered

theorem Logged.awaited {timeout : Duration} {log : Log α} (h : Logged timeout s log) : Awaited s := by
  induction h with
  | start =>
    intro id stage _ hs
    simp [stage?, call?] at hs
  | act a _ ih => exact ih.patient (patient_act _ a)
  | move hl hm ih =>
    obtain ⟨_, hr⟩ := hl.reached
    cases perform_advance hm with
    | patient _ hp => exact ih.patient hp
    | handles _ hcommands => exact ih.handle (hr.consistent.table ▸ Table.wellFormed_after _) hcommands

end RobotBridge.Session
