import RobotBridge.Proofs.Session.Change

/-! Runs of a table over many inputs, and the answers among what it says. -/
namespace RobotBridge.Session.Table
open Entry (answerAll release)

def after (t : Table) (inputs : List Input) : Table := (t.run inputs).1

def said (t : Table) (inputs : List Input) : List Output := (t.run inputs).2.flatten

variable {t : Table}

@[simp] theorem after_nil (t : Table) : t.after [] = t := rfl

@[simp] theorem after_cons (t : Table) (input : Input) (inputs : List Input) :
    t.after (input :: inputs) = (t.step input).1.after inputs := rfl

@[simp] theorem said_nil (t : Table) : t.said [] = [] := rfl

@[simp] theorem said_cons (t : Table) (input : Input) (inputs : List Input) :
    t.said (input :: inputs) = (t.step input).2 ++ (t.step input).1.said inputs := rfl

@[simp] theorem after_append (t : Table) (xs ys : List Input) :
    t.after (xs ++ ys) = (t.after xs).after ys := by
  induction xs generalizing t with
  | nil => rfl
  | cons x xs ih => exact ih _

@[simp] theorem said_append (t : Table) (xs ys : List Input) :
    t.said (xs ++ ys) = t.said xs ++ (t.after xs).said ys := by
  induction xs generalizing t with
  | nil => rfl
  | cons x xs ih => simp [ih]

theorem WellFormed.step (h : t.WellFormed) (input : Input) : (t.step input).1.WellFormed :=
  (step_change h input).wellFormed h

theorem WellFormed.after (h : t.WellFormed) (inputs : List Input) : (t.after inputs).WellFormed := by
  induction inputs generalizing t with
  | nil => exact h
  | cons input inputs ih => exact ih (h.step input)

theorem wellFormed_after (inputs : List Input) : (({} : Table).after inputs).WellFormed :=
  wellFormed_empty.after inputs

theorem Change.stopped {input : Input} {t' : Table} {out : List Output} (hc : Change t input t' out)
    (h : input.isStop ∨ t.running = false) : t'.running = false := by
  cases hc with
  | stop => rfl
  | refuse hr => exact hr
  | turn hr he ht => simp [hr, not_isStop_of_turn ht] at h
  | opens hr | absent hr | stray hr | list hr => simp [hr, Input.isStop] at h

theorem Change.running {input : Input} {t' : Table} {out : List Output} (hc : Change t input t' out)
    (hr : t.running) (hi : input.isStop = false) : t'.running := by
  cases hc with
  | opens | turn => simpa using hr
  | absent | stray | list => exact hr
  | stop _ hs => simp [hi] at hs
  | refuse hs => simp [hs] at hr

theorem Change.running_of {input : Input} {t' : Table} {out : List Output} (hc : Change t input t' out)
    (hr : t'.running) : t.running := by
  cases hs : t.running with
  | true => rfl
  | false => rw [hc.stopped (.inr hs)] at hr; contradiction

theorem WellFormed.running_after (h : t.WellFormed) (hr : t.running) {inputs : List Input}
    (hi : ∀ input ∈ inputs, input.isStop = false) : (t.after inputs).running := by
  induction inputs generalizing t with
  | nil => exact hr
  | cons input inputs ih =>
    have hr' := (step_change h input).running hr (hi input List.mem_cons_self)
    exact ih (h.step input) hr' fun i hm => hi i (List.mem_cons_of_mem _ hm)

theorem WellFormed.stays_stopped (h : t.WellFormed) (hr : t.running = false) (inputs : List Input) :
    (t.after inputs).running = false := by
  induction inputs generalizing t with
  | nil => exact hr
  | cons input inputs ih => exact ih (h.step input) ((step_change h input).stopped (.inr hr))

theorem WellFormed.stopped_after (h : t.WellFormed) {inputs : List Input}
    (hi : ∃ input ∈ inputs, input.isStop) : (t.after inputs).running = false := by
  obtain ⟨input, hm, hs⟩ := hi
  obtain ⟨before, later, rfl⟩ := List.append_of_mem hm
  have h' := h.after before
  rw [after_append, after_cons]
  exact (h'.step input).stays_stopped ((step_change h' input).stopped (.inl hs)) later

theorem WellFormed.running_of_after (h : t.WellFormed) {inputs : List Input}
    (hr : (t.after inputs).running) : t.running := by
  cases hs : t.running with
  | true => rfl
  | false =>
    rw [h.stays_stopped hs] at hr
    contradiction

/-! ### Answers -/

theorem filterMap_cons_eq {α β : Type} (f : α → Option β) (a : α) (l : List α) :
    (a :: l).filterMap f = (f a).toList ++ l.filterMap f := by
  rw [List.filterMap_cons]
  cases f a <;> rfl

@[simp] def Output.answer? : Output → Option (Nat × Except CallError Unit)
  | .answered n result => some (n, result)
  | _ => none

def answers (outputs : List Output) : List (Nat × Except CallError Unit) :=
  outputs.filterMap Output.answer?

@[simp] theorem answered_mem_answerAll {calls : List Nat} {n : Nat} {r q : Except CallError Unit} :
    .answered n r ∈ answerAll calls q ↔ n ∈ calls ∧ r = q := by
  simp only [answerAll, List.mem_map, Output.answered.injEq]
  exact ⟨fun ⟨_, hm, hn, hr⟩ => ⟨hn ▸ hm, hr.symm⟩, fun ⟨hm, hr⟩ => ⟨n, hm, rfl, hr.symm⟩⟩

@[simp] theorem answered_notMem_release {k owner n : Nat} {r : Except CallError Unit} :
    .answered n r ∉ release k owner := by simp [release]

@[simp] theorem answered_notMem_farewell {input : Input} {n : Nat} {r : Except CallError Unit} :
    .answered n r ∉ farewell input := by cases input <;> simp [farewell]

theorem answered_mem_close {n : Nat} {r : Except CallError Unit} :
    .answered n r ∈ t.close.2 ↔
      (∃ p ∈ t.entries, n ∈ p.2.subscribers ∨ n ∈ p.2.unsubscribers) ∧ r = .error .sessionClosed := by
  simp only [close, Entry.finish, List.mem_flatMap, List.mem_cons, List.mem_append,
    answered_mem_answerAll, reduceCtorEq, false_or, or_false, List.not_mem_nil]
  exact ⟨fun ⟨p, hp, hn, hr⟩ => ⟨⟨p, hp, hn⟩, hr⟩, fun ⟨⟨p, hp, hn⟩, hr⟩ => ⟨p, hp, hn, hr⟩⟩

theorem mem_answers {outputs : List Output} {n : Nat} {result : Except CallError Unit} :
    (n, result) ∈ answers outputs ↔ .answered n result ∈ outputs := by
  rw [answers, List.mem_filterMap]
  constructor
  · rintro ⟨output, hm, ho⟩
    cases output <;> simp_all
  · exact fun hm => ⟨_, hm, rfl⟩

@[simp] theorem answers_nil : answers [] = [] := rfl

@[simp] theorem answers_cons (output : Output) (outputs : List Output) :
    answers (output :: outputs) = output.answer?.toList ++ answers outputs := filterMap_cons_eq ..

@[simp] theorem answers_append (xs ys : List Output) : answers (xs ++ ys) = answers xs ++ answers ys :=
  List.filterMap_append

@[simp] theorem answers_answerAll (calls : List Nat) (result : Except CallError Unit) :
    answers (answerAll calls result) = calls.map fun n => (n, result) := by
  simp [answers, answerAll, List.filterMap_map, Function.comp_def, List.filterMap_eq_map']

theorem answers_flatMap {α : Type} (l : List α) (f : α → List Output) :
    answers (l.flatMap f) = l.flatMap fun a => answers (f a) := List.filterMap_flatMap ..

@[simp] theorem answers_release (k owner : Nat) : answers (release k owner) = [] := rfl

theorem answers_close (t : Table) :
    answers t.close.2 = t.entries.flatMap fun p =>
      (p.2.subscribers ++ p.2.unsubscribers).map fun n => (n, .error .sessionClosed) := by
  simp [close, answers_flatMap, Entry.finish]

end RobotBridge.Session.Table
