import RobotBridge.Proofs.Session.Connection

/-! From the opening of a connection to the event that decides it: who opened it, who joins, and
what they are told. -/
namespace RobotBridge.Session.Table
open Entry (Turn answerAll)

variable {t t' : Table} {input : Input} {out : List Output} {c : String} {k call : Nat}

/-! ### Who opened a connection -/

theorem Change.origin (h : t.WellFormed) (hc : Change t input t' out) {entry : Entry}
    (hm : (c, entry) ∈ t'.entries) :
    (∃ old, (c, old) ∈ t.entries ∧ old.owner = entry.owner ∧ old.connection = entry.connection) ∨
      (input = .subscribe entry.owner c ∧ out = [.opened entry.connection c]) := by
  cases hc with
  | @opens n d _ _ =>
    rcases (mem_place h.ascending).mp hm with ⟨(rfl : c = d), ho⟩ | ⟨_, hm⟩
    · obtain rfl : _ = entry := Option.some.inj ho
      exact .inr ⟨rfl, rfl⟩
    · exact .inl ⟨entry, hm, rfl, rfl⟩
  | @turn d old o _ _ _ hd ht =>
    rcases (mem_place h.ascending).mp hm with ⟨rfl, ho⟩ | ⟨_, hm⟩
    · subst ho
      exact .inl ⟨old, h.mem_of_entryOf? hd, ht.owner.symm, ht.connection.symm⟩
    · exact .inl ⟨entry, hm, rfl, rfl⟩
  | stop => simp at hm
  | absent | stray | list | refuse => exact .inl ⟨entry, hm, rfl, rfl⟩

/-- Connection `k` of a channel is opened when a subscribe call is handled after some inputs. -/
def Opens (before : List Input) (call : Nat) (c : String) (k : Nat) : Prop :=
  .opened k c ∈ ((({} : Table).after before).step (.subscribe call c)).2

theorem WellFormed.opener (h : t.WellFormed) {inputs : List Input} {entry : Entry}
    (hm : (c, entry) ∈ (t.after inputs).entries) :
    (∃ old, (c, old) ∈ t.entries ∧ old.owner = entry.owner ∧ old.connection = entry.connection) ∨
      ∃ before later, inputs = before ++ .subscribe entry.owner c :: later ∧
        ((t.after before).step (.subscribe entry.owner c)).2 = [.opened entry.connection c] := by
  induction inputs generalizing t with
  | nil => exact .inl ⟨entry, hm, rfl, rfl⟩
  | cons input inputs ih =>
    rcases ih (h.step input) hm with ⟨old, hold, ho, hk⟩ | ⟨before, later, rfl, hout⟩
    · rcases (step_change h input).origin h hold with ⟨older, hm', ho', hk'⟩ | ⟨hin, hout⟩
      · exact .inl ⟨older, hm', ho'.trans ho, hk'.trans hk⟩
      · rw [ho] at hin
        rw [hin, hk] at hout
        exact .inr ⟨[], inputs, by rw [hin]; rfl, hout⟩
    · exact .inr ⟨input :: before, later, rfl, hout⟩

/-- Each entry of a run was opened by a subscribe call for its channel, its owner. -/
theorem opener {inputs : List Input} {entry : Entry}
    (hm : (c, entry) ∈ (({} : Table).after inputs).entries) :
    ∃ before later, inputs = before ++ .subscribe entry.owner c :: later ∧
      Opens before entry.owner c entry.connection := by
  rcases wellFormed_empty.opener hm with ⟨_, hold, _⟩ | ⟨before, later, hin, hout⟩
  · exact absurd hold List.not_mem_nil
  · refine ⟨before, later, hin, ?_⟩
    rw [Opens, hout]
    exact List.mem_cons_self

/-- What it takes for a subscribe call to open a connection, and the entry that it makes. -/
theorem WellFormed.opened (h : t.WellFormed) (ho : .opened k c ∈ (t.step (.subscribe call c)).2) :
    t.running ∧ t.entryOf? c = none ∧ k = t.nextConnection ∧
      (t.step (.subscribe call c)).2 = [.opened k c] ∧
      (t.step (.subscribe call c)).1.entryOf? c = some (.connecting c k call [call]) := by
  have hc := step_change h (.subscribe call c)
  generalize t.step (.subscribe call c) = r at ho hc
  obtain ⟨t', out⟩ := r
  cases hc with
  | opens hr he =>
    obtain rfl : k = t.nextConnection := by simpa using ho
    exact ⟨hr, he, rfl, rfl, entryOf?_place_self h.ascending c (some _)⟩
  | turn hr he ht => cases ht <;> simp at ho
  | stop hr hs => simp [Input.isStop] at hs
  | refuse => simp at ho

/-! ### Until the deciding event -/

def joiners (c : String) (inputs : List Input) : List Nat :=
  inputs.filterMap fun
    | .subscribe n d => if d = c then some n else none
    | _ => none

/-- What the first event that counts makes of a subscription, if it is one: the first message or the
end of the connection. -/
def verdict (c : String) : Event → Option (Except CallError Envelope)
  | .opened => none
  | .message text =>
    match Notice.ofFrame c text with
    | .message envelope => some (.ok envelope)
    | .error failure => some (.error failure)
  | .closed code => some (.error (.connection c (Subscription.closedEarly code)))
  | .failed reason => some (.error (.connection c reason))

def eventsIn (inputs : List Input) : List (Nat × Event) := inputs.filterMap Input.event?

theorem eventsIn_cons (input : Input) (inputs : List Input) :
    eventsIn (input :: inputs) = input.event?.toList ++ eventsIn inputs := filterMap_cons_eq ..

theorem eventsIn_append (xs ys : List Input) : eventsIn (xs ++ ys) = eventsIn xs ++ eventsIn ys :=
  List.filterMap_append

def eventsOf (k : Nat) (events : List (Nat × Event)) : List Event :=
  events.filterMap fun p => if p.1 = k then some p.2 else none

theorem eventsOf_append (k : Nat) (xs ys : List (Nat × Event)) :
    eventsOf k (xs ++ ys) = eventsOf k xs ++ eventsOf k ys := List.filterMap_append

theorem eventsOf_seen (c : String) (k : Nat) (inputs : List Input) :
    (seen c k inputs).filterMap event? = eventsOf k (eventsIn inputs) := by
  rw [seen, eventsIn, eventsOf, List.filterMap_filterMap, List.filterMap_filterMap]
  congr 1
  funext input
  cases input with
  | unsubscribe n d => by_cases hd : d = c <;> simp [Input.view?, Input.event?, event?, hd]
  | event j e => by_cases hj : j = k <;> simp [Input.view?, Input.event?, event?, hj]
  | subscribe | list | shutdown | abandoned => rfl

theorem verdict_eq_none {e : Event} : verdict c e = none ↔ e = .opened := by
  cases e with
  | message text => cases hf : Notice.ofFrame c text <;> simp [verdict, hf]
  | opened | closed | failed => simp [verdict]

private theorem Change.connecting (h : t.WellFormed) (hc : Change t input t' out) (hr : t'.running)
    {calls : List Nat} (he : t.entryOf? c = some (.connecting c k call calls))
    (hu : ∀ e ∈ eventsOf k input.event?.toList, verdict c e = none) :
    t'.entryOf? c = some (.connecting c k call (calls ++ joiners c [input])) := by
  rcases hc.frame h hr he with ⟨o, ht, rfl⟩ | ⟨hno, he'⟩
  · rw [entryOf?_place_self h.ascending]
    cases ht with
    | join | early | greet => simp [joiners]
    | accept hf | reject hf => simp [Input.event?, eventsOf, verdict, hf] at hu
    | fail | shut => simp [Input.event?, eventsOf, verdict] at hu
    | reopen _ hs | push _ hs => exact absurd rfl hs
  · rw [he']
    cases input <;> simp_all [joiners, Input.touches]

/-- Until an event decides, those who subscribe join the call that opened the connection. -/
theorem WellFormed.connecting_after (h : t.WellFormed) {calls : List Nat}
    (he : t.entryOf? c = some (.connecting c k call calls)) {inputs : List Input}
    (hu : ∀ e ∈ eventsOf k (eventsIn inputs), verdict c e = none) (hr : (t.after inputs).running) :
    (t.after inputs).entryOf? c = some (.connecting c k call (calls ++ joiners c inputs)) := by
  induction inputs generalizing t calls with
  | nil => simpa [joiners] using he
  | cons input inputs ih =>
    rw [eventsIn_cons, eventsOf_append] at hu
    have hrun := (h.step input).running_of_after hr
    have he' := (step_change h input).connecting h hrun he fun e hm => hu e (List.mem_append_left _ hm)
    have hrest := ih (h.step input) he' (fun e hm => hu e (List.mem_append_right _ hm)) hr
    rw [← List.singleton_append, joiners, List.filterMap_append, ← List.append_assoc]
    exact hrest

/-- The deciding event answers the calls that wait, after an envelope has been given to the handler,
or it ends the entry. -/
theorem Change.decides (h : t.WellFormed) {e : Event} (hc : Change t (.event k e) t' out)
    (hr : t'.running) {calls : List Nat} (he : t.entryOf? c = some (.connecting c k call calls))
    {v : Except CallError Envelope} (hv : verdict c e = some v) :
    match v with
    | .ok envelope => out = .handled call (.message envelope) :: answerAll calls (.ok ()) ∧
        t'.entryOf? c = some (.active c k call)
    | .error failure => answers out = calls.map (·, .error failure) ∧ t'.entryOf? c = none := by
  rcases hc.frame h hr he with ⟨o, ht, rfl⟩ | ⟨hno, _⟩
  · rw [entryOf?_place_self h.ascending]
    cases ht with
    | greet => simp [verdict] at hv
    | accept hf =>
      obtain rfl : .ok _ = v := by simpa [verdict, hf] using hv
      exact ⟨rfl, rfl⟩
    | reject hf =>
      obtain rfl : .error _ = v := by simpa [verdict, hf] using hv
      simp
    | fail | shut =>
      obtain rfl : .error _ = v := by simpa [verdict] using hv
      simp
    | reopen _ hs | push _ hs => exact absurd rfl hs
  · exact absurd rfl hno

end RobotBridge.Session.Table
