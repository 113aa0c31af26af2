import RobotBridge.Proofs.Session.Run
import RobotBridge.Proofs.Session.Stream

/-! One connection among all others of a table: what reaches its machine, and what its handler is
given, do not depend on the rest. -/
namespace RobotBridge.Session
open Table (Input Output)

namespace Table

def Input.touches (c : String) (k : Nat) : Input → Prop
  | .subscribe _ d | .unsubscribe _ d => d = c
  | .event j _ => j = k
  | .list _ | .shutdown _ | .abandoned => False

def Input.view? (c : String) (k : Nat) : Input → Option Subscription.Input
  | .unsubscribe _ d => if d = c then some .unsubscribe else none
  | .event j e => if j = k then some (.event e) else none
  | _ => none

def seen (c : String) (k : Nat) (inputs : List Input) : List Subscription.Input :=
  inputs.filterMap (Input.view? c k)

def Input.event? : Input → Option (Nat × Event)
  | .event k e => some (k, e)
  | _ => none

def Input.connection? (input : Input) : Option Nat := input.event?.map Prod.fst

@[simp] def Output.notice? : Output → Option (Nat × Notice)
  | .handled n notice => some (n, notice)
  | _ => none

def notices (outputs : List Output) : List (Nat × Notice) := outputs.filterMap Output.notice?

@[simp] theorem notices_nil : notices [] = [] := rfl

@[simp] theorem notices_cons (output : Output) (outputs : List Output) :
    notices (output :: outputs) = output.notice?.toList ++ notices outputs := filterMap_cons_eq ..

@[simp] theorem notices_append (xs ys : List Output) : notices (xs ++ ys) = notices xs ++ notices ys :=
  List.filterMap_append

@[simp] theorem notices_answerAll (calls : List Nat) (result : Except CallError Unit) :
    notices (Entry.answerAll calls result) = [] := by
  simp [notices, Entry.answerAll, List.filterMap_eq_nil_iff]

@[simp] theorem notices_release (k owner : Nat) : notices (Entry.release k owner) = [] := rfl

@[simp] theorem notices_close (t : Table) : notices t.close.2 = [] := by
  have hnone (p : String × Entry) : notices (.command p.2.connection (.close CloseCode.normal) ::
      p.2.finish .sessionClosed) = [] := by simp [Entry.finish]
  rw [notices, close, List.filterMap_flatMap]
  exact List.flatMap_eq_nil_iff.mpr fun p _ => hnone p

@[simp] theorem notices_farewell (input : Input) : notices (farewell input) = [] := by
  cases input <;> rfl

@[simp] theorem notices_refusal (input : Input) : notices (refusal input) = [] := by
  cases input <;> rfl

theorem view?_of_not_touches {c : String} {k : Nat} {input : Input} (h : ¬input.touches c k) :
    input.view? c k = none := by
  cases input <;> simp_all [Input.touches, Input.view?]

theorem connection?_of_not_touches {c : String} {k : Nat} {input : Input} (h : ¬input.touches c k) :
    input.connection? ≠ some k := by
  cases input <;> simp_all [Input.touches, Input.connection?, Input.event?]

end Table

namespace Entry

variable {c : String} {entry : Entry} {o : Option Entry} {input : Input} {out : List Output}

theorem Turn.touches (ht : Turn c entry input o out) : input.touches c entry.connection := by
  cases ht <;> rfl

theorem Turn.not_touches (ht : Turn c entry input o out) {d : String} {k : Nat} (hd : c ≠ d)
    (hk : entry.connection ≠ k) : ¬input.touches d k := by
  cases ht <;> assumption

/-- The machine of an entry goes on with what it sees; one that closes loses its entry. -/
theorem Turn.machine (ht : Turn c entry input o out) :
    let next := (entry.machine.run (input.view? c entry.connection).toList).1
    o.elim (next.state = .closed) fun entry' => entry'.machine = next := by
  cases ht with
  | join | again | refuse => rfl
  | early | leave | attend =>
    simp [Input.view?, Subscription.run, Subscription.step, Subscription.unsubscribe]
  | greet | fail | shut | snap | expire =>
    simp [Input.view?, Subscription.run, Subscription.step, Subscription.onEvent]
  | accept hf | reject hf =>
    simp [Input.view?, Subscription.run, Subscription.step, Subscription.onEvent,
      Subscription.onFirstMessage, Notice.interpret_eq, hf]
  | reopen hl hs | push hl hs =>
    cases hl with
    | connecting _ => exact absurd rfl hs
    | active | closing _ =>
      simp [Input.view?, Subscription.run, Subscription.step, Subscription.onEvent, onPush_eq]
  | @part _ _ _ e he =>
    cases e <;>
      simp_all [Input.view?, Subscription.run, Subscription.step, Subscription.onEvent, Event.isTerminal]

/-- The handler of an entry is given what the machine delivers, and no other handler is called. -/
theorem Turn.notices (ht : Turn c entry input o out) :
    Table.notices out =
      (delivered entry.machine (input.view? c entry.connection).toList).map (entry.owner, ·) := by
  cases ht with
  | join | again | refuse => rfl
  | early | leave | attend =>
    simp [Input.view?, delivered, notice?, Subscription.run, Subscription.step, Subscription.unsubscribe]
  | greet | fail | shut | snap | expire =>
    simp [Input.view?, delivered, notice?, List.filterMap_cons, Subscription.run, Subscription.step,
      Subscription.onEvent]
  | accept hf | reject hf =>
    simp [Input.view?, delivered, notice?, Subscription.run, Subscription.step, Subscription.onEvent,
      Subscription.onFirstMessage, Notice.interpret_eq, hf]
  | reopen hl hs | push hl hs =>
    cases hl with
    | connecting _ => exact absurd rfl hs
    | active | closing _ =>
      simp [Input.view?, delivered, Subscription.run, Subscription.step, Subscription.onEvent, onPush_eq]
  | @part _ _ _ e he =>
    cases e <;>
      simp_all [Input.view?, delivered, notice?, Subscription.run, Subscription.step, Subscription.onEvent,
        Event.isTerminal]

end Entry

namespace Table
open Entry (Turn)

variable {t t' : Table} {input : Input} {out : List Output} {c : String} {k call : Nat}

/-! ### What one input does -/

theorem WellFormed.connection_ne (h : t.WellFormed) {entry : Entry} (he : t.entryOf? c = some entry)
    {p : String × Entry} (hp : p ∈ t.entries) (hne : p.1 ≠ c) : p.2.connection ≠ entry.connection := by
  have hd := ((entries_perm h.ascending he).map fun p => p.2.connection).nodup_iff.mp h.distinct
  intro heq
  have hmem : p ∈ (t.remove c).entries := List.mem_filter.mpr ⟨hp, by simpa using hne⟩
  exact (List.nodup_cons.mp hd).1 (List.mem_map.mpr ⟨p, hmem, heq⟩)

/-- While the table runs, an entry takes its turn or is left as it is. -/
theorem Change.frame (h : t.WellFormed) (hc : Change t input t' out) (hr : t'.running) {entry : Entry}
    (he : t.entryOf? c = some entry) :
    (∃ o, Turn c entry input o out ∧ t' = t.place c o) ∨
      (¬input.touches c entry.connection ∧ t'.entryOf? c = some entry) := by
  cases hc with
  | @opens n d _ hd =>
    have hne : c ≠ d := by rintro rfl; simp [he] at hd
    refine .inr ⟨hne.symm, ?_⟩
    have hp := entryOf?_place h.ascending d c (some (.connecting d t.nextConnection n [n]))
    rwa [if_neg hne, he] at hp
  | @absent n d _ hd =>
    have hne : c ≠ d := by rintro rfl; simp [he] at hd
    exact .inr ⟨hne.symm, he⟩
  | @turn d other o _ _ _ hd ht =>
    by_cases hcd : c = d
    · subst hcd
      obtain rfl := Option.some.inj (he.symm.trans hd)
      exact .inl ⟨o, ht, rfl⟩
    · have hm := h.mem_of_entryOf? hd
      refine .inr ⟨ht.not_touches (Ne.symm hcd) (h.connection_ne he hm (Ne.symm hcd)), ?_⟩
      rw [entryOf?_place h.ascending, if_neg hcd, he]
  | stray _ hk => exact .inr ⟨fun heq => hk _ (h.mem_of_entryOf? he) heq.symm, he⟩
  | list => exact .inr ⟨id, he⟩
  | stop => contradiction
  | refuse hs => simp [hs] at hr

theorem Change.nextConnection_le (hc : Change t input t' out) : t.nextConnection ≤ t'.nextConnection := by
  cases hc with
  | opens => exact Nat.le_succ _
  | turn => exact Nat.le_of_eq (place_nextConnection ..).symm
  | absent | stray | list | stop | refuse => exact Nat.le_refl _

theorem Change.opened_lt (hc : Change t input t' out) (hk : .opened k c ∈ out) :
    k < t'.nextConnection := by
  cases hc with
  | opens =>
    obtain ⟨rfl, _⟩ : k = t.nextConnection ∧ _ := by simpa using hk
    exact Nat.lt_succ_self _
  | absent | stray | list => simp at hk
  | turn _ _ ht => cases ht <;> simp [Entry.answerAll, Entry.release] at hk
  | stop => cases input <;> simp [close, Entry.finish, Entry.answerAll, farewell] at hk
  | refuse => cases input <;> simp [refusal] at hk

/-- A connection that was opened and is gone never comes back. -/
theorem Change.gone (h : t.WellFormed) (hc : Change t input t' out) (hk : k < t.nextConnection)
    (hno : ∀ p ∈ t.entries, p.2.connection ≠ k) : ∀ p ∈ t'.entries, p.2.connection ≠ k := by
  cases hc with
  | @opens n d =>
    intro p hp
    rcases (mem_place h.ascending).mp hp with ⟨_, ho⟩ | ⟨_, hp⟩
    · rw [← Option.some.inj ho]
      exact (Nat.ne_of_lt hk).symm
    · exact hno p hp
  | @turn d entry o _ _ _ hd ht =>
    intro p hp
    rcases (mem_place h.ascending).mp hp with ⟨_, ho⟩ | ⟨_, hp⟩
    · subst ho
      rw [ht.connection]
      exact hno _ (h.mem_of_entryOf? hd)
    · exact hno p hp
  | stop => exact fun p hp => absurd hp (List.not_mem_nil)
  | absent | stray | list | refuse => exact hno

/-- A handler is called when an event of the connection that it was given for is handled. -/
theorem Change.of_notice (hc : Change t input t' out) {n : Nat} {notice : Notice}
    (hm : (n, notice) ∈ notices out) :
    ∃ d entry, t.entryOf? d = some entry ∧ entry.owner = n ∧ input.connection? = some entry.connection := by
  cases hc with
  | opens | absent | stray | list => simp at hm
  | @turn d entry o _ _ _ hd ht =>
    refine ⟨d, entry, hd, ?_⟩
    cases ht <;> simp_all [Input.connection?, Input.event?]
  | stop | refuse => simp at hm

/-! ### What a run does -/

/-- A connection of a channel that a call opened runs this machine, or has ended with it. -/
inductive Tracks (t : Table) (c : String) (k call : Nat) : Subscription → Prop
  | holds {entry} : t.entryOf? c = some entry → entry.connection = k → entry.owner = call →
      Tracks t c k call entry.machine
  | ended {s} : s.state = .closed → k < t.nextConnection → (∀ p ∈ t.entries, p.2.connection ≠ k) →
      Tracks t c k call s

def heard (k : Nat) (t : Table) : List Input → List (Nat × Notice)
  | [] => []
  | input :: rest =>
    (if input.connection? = some k then notices (t.step input).2 else []) ++
      heard k (t.step input).1 rest

theorem heard_append (k : Nat) (t : Table) (xs ys : List Input) :
    heard k t (xs ++ ys) = heard k t xs ++ heard k (t.after xs) ys := by
  induction xs generalizing t with
  | nil => rfl
  | cons x xs ih => simp [heard, ih]

theorem seen_cons (c : String) (k : Nat) (input : Input) (inputs : List Input) :
    seen c k (input :: inputs) = (input.view? c k).toList ++ seen c k inputs := filterMap_cons_eq ..

/-- Only events make a machine deliver. -/
private theorem delivered_of_connection?_ne {s : Subscription} (h : input.connection? ≠ some k) :
    delivered s (input.view? c k).toList = [] := by
  cases input with
  | unsubscribe n d =>
    by_cases hd : d = c
    · obtain ⟨d, state⟩ := s
      cases state <;>
        simp [Input.view?, hd, delivered, Subscription.run, Subscription.step, Subscription.unsubscribe,
          notice?, List.filterMap_cons]
    · simp [Input.view?, hd, delivered, Subscription.run]
  | event j e =>
    have hj : j ≠ k := fun hj => h (congrArg some hj)
    simp [Input.view?, hj, delivered, Subscription.run]
  | subscribe | list | shutdown | abandoned => rfl

private theorem Tracks.step {s : Subscription} (h : t.WellFormed) (hk : Tracks t c k call s)
    (hc : Change t input t' out) (hr : t'.running) :
    Tracks t' c k call (s.run (input.view? c k).toList).1 ∧
      (if input.connection? = some k then notices out else []) =
        (delivered s (input.view? c k).toList).map (call, ·) := by
  cases hk with
  | @holds entry he hek ho =>
    subst hek ho
    rcases hc.frame h hr he with ⟨o, ht, rfl⟩ | ⟨hno, he'⟩
    · refine ⟨?_, ?_⟩
      · have hm := ht.machine
        cases o with
        | some entry' =>
          rw [← show entry'.machine = _ from hm]
          refine .holds ?_ ht.connection ht.owner
          rw [entryOf?_place_self h.ascending]
        | none =>
          refine .ended hm (h.fresh _ (h.mem_of_entryOf? he)) fun p hp => ?_
          rcases (mem_place h.ascending).mp hp with ⟨_, ho⟩ | ⟨hne, hp⟩
          · contradiction
          · exact h.connection_ne he hp hne
      · split
        · exact ht.notices
        · next hne => rw [delivered_of_connection?_ne hne, List.map_nil]
    · rw [view?_of_not_touches hno, if_neg (connection?_of_not_touches hno)]
      exact ⟨.holds he' rfl rfl, rfl⟩
  | ended hs hlt hno =>
    obtain ⟨d, state⟩ := s
    cases hs
    have hnone : (if input.connection? = some k then notices out else []) = [] := by
      split
      · next hin =>
        refine List.eq_nil_iff_forall_not_mem.mpr fun ⟨n, notice⟩ hm => ?_
        obtain ⟨d, entry, he, _, hk⟩ := hc.of_notice hm
        exact hno _ (h.mem_of_entryOf? he) (Option.some.inj (hk.symm.trans hin))
      · rfl
    rw [run_closed, hnone, delivered_closed]
    exact ⟨.ended rfl (Nat.lt_of_lt_of_le hlt hc.nextConnection_le) (hc.gone h hlt hno), rfl⟩

/-- What is heard on a connection is what its machine delivers, whatever else the table handles. -/
theorem Tracks.heard {s : Subscription} (h : t.WellFormed) (hk : Tracks t c k call s)
    {inputs : List Input} (hr : (t.after inputs).running) :
    heard k t inputs = (delivered s (seen c k inputs)).map (call, ·) := by
  induction inputs generalizing t s with
  | nil => rfl
  | cons input inputs ih =>
    have hrun := (h.step input).running_of_after hr
    obtain ⟨hk', hout⟩ := hk.step h (step_change h input) hrun
    rw [Table.heard, hout, ih (h.step input) hk' hr, seen_cons, delivered_append, List.map_append]

end Table

end RobotBridge.Session
