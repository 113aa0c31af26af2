import RobotBridge.Proofs.Session.Run

/-! Replies to subscribe and unsubscribe calls: what a table has taken in is what it has answered
and what still waits in its entries. -/
namespace RobotBridge.Session
open Table (Input Output answers)

namespace Table

@[simp] def Input.call? : Input → Option Nat
  | .subscribe n _ | .unsubscribe n _ => some n
  | _ => none

def calls (inputs : List Input) : List Nat := inputs.filterMap Input.call?

@[simp] theorem calls_nil : calls [] = [] := rfl

@[simp] theorem calls_cons (input : Input) (inputs : List Input) :
    calls (input :: inputs) = input.call?.toList ++ calls inputs := filterMap_cons_eq ..

@[simp] theorem calls_append (xs ys : List Input) : calls (xs ++ ys) = calls xs ++ calls ys :=
  List.filterMap_append

def answersTo (n : Nat) (outputs : List Output) : List (Except CallError Unit) :=
  ((answers outputs).filter fun a => a.1 = n).map Prod.snd

theorem mem_answersTo {n : Nat} {r : Except CallError Unit} {outputs : List Output} :
    r ∈ answersTo n outputs ↔ .answered n r ∈ outputs := by
  rw [← mem_answers, answersTo]
  simp

theorem answersTo_append (n : Nat) (xs ys : List Output) :
    answersTo n (xs ++ ys) = answersTo n xs ++ answersTo n ys := by
  simp [answersTo]

end Table

/-- The calls that wait for an entry, each as it was made: one for each place in its two lists. -/
def Entry.waiting (c : String) (entry : Entry) : List Input :=
  entry.subscribers.map (.subscribe · c) ++ entry.unsubscribers.map (.unsubscribe · c)

def Table.pending (t : Table) : List Input := t.entries.flatMap fun p => p.2.waiting p.1

namespace Entry
open Table (calls)

@[simp] theorem calls_waiting (c : String) (entry : Entry) :
    calls (entry.waiting c) = entry.subscribers ++ entry.unsubscribers := by
  simp [calls, waiting, List.filterMap_map, Function.comp_def]

variable {c : String} {entry : Entry} {o : Option Entry} {input : Input} {out : List Output}

/-- No turn loses a call or answers one twice. -/
theorem Turn.calls_perm (ht : Turn c entry input o out) :
    (calls (entry.waiting c) ++ input.call?.toList).Perm
      ((answers out).map Prod.fst ++ calls (o.elim [] (waiting c))) := by
  cases ht <;> simp [Function.comp_def]

theorem Turn.mem_waiting (ht : Turn c entry input o out) {w : Input} (hw : w ∈ o.elim [] (waiting c)) :
    w ∈ entry.waiting c ∨ w = input := by
  cases ht <;> simp_all [waiting]

/-- Calls that wait in one list of an entry are answered together and alike. -/
theorem Turn.answered_cases (ht : Turn c entry input o out) {n : Nat} {r : Except CallError Unit}
    (hm : .answered n r ∈ out) :
    input.call? = some n ∨
      (n ∈ entry.subscribers ∧ ∀ m ∈ entry.subscribers, .answered m r ∈ out) ∨
      (n ∈ entry.unsubscribers ∧ ∀ m ∈ entry.unsubscribers, .answered m r ∈ out) := by
  cases ht <;> simp_all

end Entry

namespace Table
open Entry (Turn waiting)

variable {t t' : Table} {input : Input} {out : List Output}

/-! ### What one input does -/

private theorem WellFormed.pending_place (h : t.WellFormed) (c : String) (o : Option Entry) :
    (t.place c o).pending.Perm (o.elim [] (waiting c) ++ (t.remove c).pending) := by
  have hp := (place_perm h.ascending c o).flatMap_right fun p => p.2.waiting p.1
  rw [List.flatMap_append] at hp
  cases o with
  | none => exact hp
  | some entry => simpa [pending] using hp

private theorem WellFormed.pending_entry (h : t.WellFormed) {c : String} {entry : Entry}
    (he : t.entryOf? c = some entry) : t.pending.Perm (entry.waiting c ++ (t.remove c).pending) := by
  simpa [place_self h.ascending he] using h.pending_place c (some entry)

private theorem WellFormed.pending_absent (h : t.WellFormed) {c : String} (he : t.entryOf? c = none) :
    (t.remove c).pending = t.pending := by
  rw [pending, remove_entries h.ascending he, pending]

private theorem pending_of_entries (h : t.entries = []) : t.pending = [] := by
  rw [pending, h, List.flatMap_nil]

theorem calls_pending (t : Table) :
    calls t.pending = t.entries.flatMap fun p => p.2.subscribers ++ p.2.unsubscribers := by
  rw [calls, pending, List.filterMap_flatMap]
  exact congrArg (t.entries.flatMap ·) (funext fun p => Entry.calls_waiting p.1 p.2)

/-- No input loses a call or answers one twice. -/
theorem Change.calls_perm (h : t.WellFormed) (hc : Change t input t' out) :
    (calls t.pending ++ input.call?.toList).Perm ((answers out).map Prod.fst ++ calls t'.pending) := by
  cases hc with
  | @opens n c hr he =>
    have hp := (h.pending_place c (some (.connecting c t.nextConnection n [n]))).filterMap Input.call?
    rw [h.pending_absent he, List.filterMap_append] at hp
    exact (List.perm_append_comm.trans hp.symm)
  | absent => exact List.perm_append_comm
  | @turn c entry o _ _ hr he ht =>
    have hold : (calls t.pending).Perm (calls (entry.waiting c) ++ calls (t.remove c).pending) := by
      rw [← calls_append]
      exact (h.pending_entry he).filterMap _
    have hnew : (calls (t.place c o).pending).Perm
        (calls (o.elim [] (waiting c)) ++ calls (t.remove c).pending) := by
      rw [← calls_append]
      exact (h.pending_place c o).filterMap _
    calc
      List.Perm _ (calls (entry.waiting c) ++ calls (t.remove c).pending ++ input.call?.toList) :=
        hold.append_right _
      List.Perm _ (calls (entry.waiting c) ++ input.call?.toList ++ calls (t.remove c).pending) := by
        rw [List.append_assoc, List.append_assoc]
        exact List.perm_append_comm.append_left _
      List.Perm _ ((answers out).map Prod.fst ++ calls (o.elim [] (waiting c)) ++
          calls (t.remove c).pending) := ht.calls_perm.append_right _
      List.Perm _ _ := by
        rw [List.append_assoc]
        exact hnew.symm.append_left _
  | stray | list => simp
  | stop hr hs =>
    rw [calls_pending, pending_of_entries rfl]
    cases input <;>
      simp_all [Input.isStop, answers_close, farewell, List.map_flatMap, Function.comp_def]
  | refuse hr =>
    rw [pending_of_entries (h.stopped hr)]
    cases input <;> simp [refusal]

theorem Change.mem_pending (h : t.WellFormed) (hc : Change t input t' out) {w : Input}
    (hw : w ∈ t'.pending) : w ∈ t.pending ∨ w = input := by
  cases hc with
  | @opens n c hr he =>
    have hw := (h.pending_place c (some (.connecting c t.nextConnection n [n]))).subset hw
    rw [h.pending_absent he] at hw
    simpa [waiting, or_comm] using hw
  | @turn c entry o _ _ hr he ht =>
    rcases List.mem_append.mp ((h.pending_place c o).subset hw) with hw | hw
    · refine (ht.mem_waiting hw).imp_left fun hw => ?_
      exact (h.pending_entry he).symm.subset (List.mem_append_left _ hw)
    · exact .inl ((h.pending_entry he).symm.subset (List.mem_append_right _ hw))
  | stop => simp [pending] at hw
  | absent | stray | list | refuse => exact .inl hw

theorem mem_pending_subscribe {c : String} {entry : Entry} {n : Nat} (hm : (c, entry) ∈ t.entries)
    (hn : n ∈ entry.subscribers) : .subscribe n c ∈ t.pending :=
  List.mem_flatMap.mpr ⟨_, hm, List.mem_append_left _ (List.mem_map_of_mem hn)⟩

theorem mem_pending_unsubscribe {c : String} {entry : Entry} {n : Nat} (hm : (c, entry) ∈ t.entries)
    (hn : n ∈ entry.unsubscribers) : .unsubscribe n c ∈ t.pending :=
  List.mem_flatMap.mpr ⟨_, hm, List.mem_append_right _ (List.mem_map_of_mem hn)⟩

/-- A stopping table and a stopped one have one answer for all. -/
theorem Change.answered_sessionClosed (hc : Change t input t' out)
    (h : input.isStop ∨ t.running = false) {n : Nat} {r : Except CallError Unit}
    (hm : .answered n r ∈ out) : r = .error .sessionClosed := by
  cases hc with
  | stop hr hs =>
    rcases List.mem_append.mp hm with hm | hm
    · exact (answered_mem_close.mp hm).2
    · simp at hm
  | refuse hr => cases input <;> simp_all [refusal]
  | turn hr he ht => simp [hr, not_isStop_of_turn ht] at h
  | opens hr | absent hr | stray hr | list hr => simp [hr, Input.isStop] at h

/-! ### What a run does -/

/-- Calls that come in are answered or wait, none twice and none not at all. -/
theorem WellFormed.calls_perm (h : t.WellFormed) (inputs : List Input) :
    (calls t.pending ++ calls inputs).Perm
      ((answers (t.said inputs)).map Prod.fst ++ calls (t.after inputs).pending) := by
  induction inputs generalizing t with
  | nil => simp
  | cons input inputs ih =>
    have hstep := (step_change h input).calls_perm h
    have hrest := ih (h.step input)
    rw [calls_cons, said_cons, answers_append, List.map_append, List.append_assoc, ← List.append_assoc]
    refine (hstep.append_right _).trans ?_
    rw [List.append_assoc]
    exact hrest.append_left _

theorem WellFormed.mem_pending_after (h : t.WellFormed) {inputs : List Input} {w : Input}
    (hw : w ∈ (t.after inputs).pending) : w ∈ t.pending ∨ w ∈ inputs := by
  induction inputs generalizing t with
  | nil => exact .inl hw
  | cons input inputs ih =>
    rcases ih (h.step input) hw with hw | hw
    · rcases (step_change h input).mem_pending h hw with hw | rfl
      · exact .inl hw
      · exact .inr List.mem_cons_self
    · exact .inr (List.mem_cons_of_mem _ hw)

theorem mem_of_mem_pending {inputs : List Input} {w : Input}
    (hw : w ∈ (({} : Table).after inputs).pending) : w ∈ inputs := by
  simpa [pending_of_entries] using wellFormed_empty.mem_pending_after hw

/-- Only calls that came in are answered. -/
theorem mem_calls_of_answered {inputs : List Input} {n : Nat} {r : Except CallError Unit}
    (hm : .answered n r ∈ ({} : Table).said inputs) : n ∈ calls inputs := by
  have hp := wellFormed_empty.calls_perm inputs
  rw [pending_of_entries rfl, calls_nil, List.nil_append] at hp
  exact hp.symm.subset (List.mem_append_left _ (List.mem_map_of_mem (mem_answers.mpr hm)))

private theorem filter_eq_singleton {α : Type} {f : α → Option Nat} {l : List α}
    (h : (l.filterMap f).Nodup) {a : α} {n : Nat} (ha : a ∈ l) (hn : f a = some n) :
    l.filter (fun x => f x = some n) = [a] := by
  induction l with
  | nil => simp at ha
  | cons x l ih =>
    rw [List.filterMap_cons] at h
    rcases List.mem_cons.mp ha with rfl | ha
    · rw [hn] at h
      have hno : ∀ y ∈ l, f y ≠ some n := fun y hy he =>
        (List.nodup_cons.mp h).1 (List.mem_filterMap.mpr ⟨y, hy, he⟩)
      rw [List.filter_cons_of_pos (by simpa using hn)]
      exact congrArg _ (List.filter_eq_nil_iff.mpr fun y hy => by simpa using hno y hy)
    · cases hx : f x with
      | none =>
        rw [hx] at h
        rw [List.filter_cons_of_neg (by simp [hx]), ih h ha]
      | some m =>
        rw [hx] at h
        have hne : m ≠ n := fun he =>
          (List.nodup_cons.mp h).1 (List.mem_filterMap.mpr ⟨a, ha, he ▸ hn⟩)
        rw [List.filter_cons_of_neg (by simpa [hx] using hne), ih (List.nodup_cons.mp h).2 ha]

theorem eq_of_call? {inputs : List Input} (h : (calls inputs).Nodup) {v w : Input} {n : Nat}
    (hv : v ∈ inputs) (hw : w ∈ inputs) (hvn : v.call? = some n) (hwn : w.call? = some n) : v = w := by
  have he := (filter_eq_singleton h hv hvn).symm.trans (filter_eq_singleton h hw hwn)
  exact List.singleton_inj.mp he

private theorem answersTo_eq {outputs : List Output} (h : ((answers outputs).map Prod.fst).Nodup)
    {n : Nat} {r : Except CallError Unit} (hm : .answered n r ∈ outputs) : answersTo n outputs = [r] := by
  rw [← List.filterMap_eq_map] at h
  have he := filter_eq_singleton h (mem_answers.mpr hm) rfl
  simp only [Function.comp_apply, Option.some.injEq] at he
  rw [answersTo, he, List.map_singleton]

theorem answered_once {inputs : List Input} (h : (calls inputs).Nodup) {n : Nat}
    {r r' : Except CallError Unit} (hr : .answered n r ∈ ({} : Table).said inputs)
    (hr' : .answered n r' ∈ ({} : Table).said inputs) : r = r' := by
  have hp := wellFormed_empty.calls_perm inputs
  rw [pending_of_entries rfl, calls_nil, List.nil_append] at hp
  have hans := (List.nodup_append.mp (hp.nodup_iff.mp h)).1
  exact List.singleton_inj.mp ((answersTo_eq hans hr).symm.trans (answersTo_eq hans hr'))

theorem notMem_of_call? {xs ys : List Input} {v w : Input} {n : Nat}
    (h : (calls (xs ++ v :: ys)).Nodup) (hv : v.call? = some n) (hw : w.call? = some n) : w ∉ xs ++ ys := by
  have hp : (calls (xs ++ v :: ys)).Perm (calls (v :: (xs ++ ys))) := List.perm_middle.filterMap _
  rw [hp.nodup_iff, calls_cons, hv] at h
  exact fun hm => (List.nodup_cons.mp h).1 (List.mem_filterMap.mpr ⟨w, hm, hw⟩)

private theorem eq_nil_of_call? {v w : Input} {xs ys zs : List Input} {n : Nat}
    (h : (calls (v :: xs)).Nodup) (he : v :: xs = zs ++ w :: ys) (hv : v.call? = some n)
    (hw : w.call? = some n) : zs = [] := by
  cases zs with
  | nil => rfl
  | cons z zs =>
    rw [List.cons_append] at he
    obtain ⟨_, rfl⟩ := List.cons.inj he
    rw [calls_cons, calls_append, calls_cons, hv, hw] at h
    simp at h

/-- A call comes in at one place. -/
theorem split_eq_of_call? {xs ys xs' ys' : List Input} {v w : Input} {n : Nat}
    (h : (calls (xs ++ v :: ys)).Nodup) (he : xs ++ v :: ys = xs' ++ w :: ys')
    (hv : v.call? = some n) (hw : w.call? = some n) : xs = xs' ∧ v = w ∧ ys = ys' := by
  have hnil : xs = xs' := by
    rcases List.append_eq_append_iff.mp he with ⟨zs, rfl, hz⟩ | ⟨zs, rfl, hz⟩
    · rw [calls_append] at h
      rw [eq_nil_of_call? (List.nodup_append.mp h).2.1 hz hv hw, List.append_nil]
    · rw [he, calls_append] at h
      rw [eq_nil_of_call? (List.nodup_append.mp h).2.1 hz hw hv, List.append_nil]
  subst hnil
  exact ⟨rfl, List.cons.inj (List.append_cancel_left he)⟩

/-- A call that came in has one answer and waits nowhere, or has none and waits in one place. -/
private theorem settled_or_waits (inputs : List Input) (h : (calls inputs).Nodup) {input : Input}
    (hm : input ∈ inputs) {n : Nat} (hn : input.call? = some n) :
    ((∃ r, answersTo n (({} : Table).said inputs) = [r]) ∧
        ∀ w ∈ (({} : Table).after inputs).pending, w.call? ≠ some n) ∨
      (answersTo n (({} : Table).said inputs) = [] ∧
        (({} : Table).after inputs).pending.filter (fun w => w.call? = some n) = [input]) := by
  have hp := wellFormed_empty.calls_perm inputs
  rw [pending_of_entries rfl, calls_nil, List.nil_append] at hp
  obtain ⟨hans, hwait, hdisj⟩ := List.nodup_append.mp (hp.nodup_iff.mp h)
  have hin : n ∈ calls inputs := List.mem_filterMap.mpr ⟨input, hm, hn⟩
  rcases List.mem_append.mp (hp.subset hin) with ha | hc
  · obtain ⟨⟨m, r⟩, hr, rfl⟩ := List.mem_map.mp ha
    refine .inl ⟨⟨r, answersTo_eq hans (mem_answers.mp hr)⟩, fun w hw he => ?_⟩
    exact hdisj m ha m (List.mem_filterMap.mpr ⟨w, hw, he⟩) rfl
  · obtain ⟨w, hw, he⟩ := List.mem_filterMap.mp hc
    obtain rfl := eq_of_call? h (mem_of_mem_pending hw) hm he hn
    refine .inr ⟨?_, filter_eq_singleton hwait hw he⟩
    rw [answersTo, List.map_eq_nil_iff, List.filter_eq_nil_iff]
    rintro ⟨m, r⟩ hr hmn
    obtain rfl : m = n := by simpa using hmn
    exact hdisj m (List.mem_map_of_mem hr) m (List.mem_filterMap.mpr ⟨w, hw, he⟩) rfl

/-- The calls that wait and one that comes in are all different. -/
private theorem nodup_pending (inputs : List Input) {input : Input}
    (h : (calls (inputs ++ [input])).Nodup) :
    (calls ((({} : Table).after inputs).pending ++ [input])).Nodup := by
  have hp := wellFormed_empty.calls_perm inputs
  rw [pending_of_entries rfl, calls_nil, List.nil_append] at hp
  rw [calls_append, (hp.append_right _).nodup_iff, List.append_assoc] at h
  rw [calls_append]
  exact (List.nodup_append.mp h).2.1

private theorem WellFormed.eq_of_mem (h : t.WellFormed) {c : String} {entry entry' : Entry}
    (hm : (c, entry) ∈ t.entries) (hm' : (c, entry') ∈ t.entries) : entry = entry' := by
  rw [← entryOf?_eq_some_iff h.ascending] at hm hm'
  exact Option.some.inj (hm.symm.trans hm')

/-- Calls that wait in one list of one entry are answered in the same step and alike. -/
private theorem Change.answered_together (h : t.WellFormed) (hc : Change t input t' out)
    (hn : (calls (t.pending ++ [input])).Nodup) {c : String} {entry : Entry}
    (hm : (c, entry) ∈ t.entries) {n : Nat} {r : Except CallError Unit} (hr : .answered n r ∈ out) :
    (n ∈ entry.subscribers → ∀ m ∈ entry.subscribers, .answered m r ∈ out) ∧
      (n ∈ entry.unsubscribers → ∀ m ∈ entry.unsubscribers, .answered m r ∈ out) := by
  have hnew (hi : input.call? = some n) {w : Input} (hw : w ∈ t.pending) : w.call? ≠ some n := by
    rw [calls_append] at hn
    exact fun he => (List.nodup_append.mp hn).2.2 n (List.mem_filterMap.mpr ⟨w, hw, he⟩) n
      (List.mem_filterMap.mpr ⟨input, List.mem_singleton_self _, hi⟩) rfl
  have hsame {v w : Input} (hv : v ∈ t.pending) (hw : w ∈ t.pending) (hvn : v.call? = some n)
      (hwn : w.call? = some n) : v = w :=
    eq_of_call? hn (List.mem_append_left _ hv) (List.mem_append_left _ hw) hvn hwn
  cases hc with
  | opens | stray | list => simp at hr
  | absent =>
    obtain ⟨rfl, rfl⟩ : _ ∧ _ := by simpa using hr
    exact ⟨fun hs => absurd rfl (hnew rfl (mem_pending_subscribe hm hs)),
      fun hs => absurd rfl (hnew rfl (mem_pending_unsubscribe hm hs))⟩
  | turn hrun he ht =>
    have hm' := h.mem_of_entryOf? he
    rcases ht.answered_cases hr with hi | ⟨hs', hall⟩ | ⟨hs', hall⟩
    · exact ⟨fun hs => absurd rfl (hnew hi (mem_pending_subscribe hm hs)),
        fun hs => absurd rfl (hnew hi (mem_pending_unsubscribe hm hs))⟩
    · refine ⟨fun hs => ?_, fun hs => ?_⟩
      · cases hsame (mem_pending_subscribe hm hs) (mem_pending_subscribe hm' hs') rfl rfl
        exact h.eq_of_mem hm' hm ▸ hall
      · cases hsame (mem_pending_unsubscribe hm hs) (mem_pending_subscribe hm' hs') rfl rfl
    · refine ⟨fun hs => ?_, fun hs => ?_⟩
      · cases hsame (mem_pending_subscribe hm hs) (mem_pending_unsubscribe hm' hs') rfl rfl
      · cases hsame (mem_pending_unsubscribe hm hs) (mem_pending_unsubscribe hm' hs') rfl rfl
        exact h.eq_of_mem hm' hm ▸ hall
  | stop hrun hs =>
    rcases List.mem_append.mp hr with hr | hr
    · obtain rfl := (answered_mem_close.mp hr).2
      exact ⟨fun _ m hs => List.mem_append_left _ (answered_mem_close.mpr ⟨⟨_, hm, .inl hs⟩, rfl⟩),
        fun _ m hs => List.mem_append_left _ (answered_mem_close.mpr ⟨⟨_, hm, .inr hs⟩, rfl⟩)⟩
    · simp at hr
  | refuse hrun => simp [h.stopped hrun] at hm

private theorem WellFormed.said_stopped (h : t.WellFormed) (hr : t.running = false)
    (inputs : List Input) {n : Nat} {r : Except CallError Unit} (hm : .answered n r ∈ t.said inputs) :
    r = .error .sessionClosed := by
  induction inputs generalizing t with
  | nil => simp at hm
  | cons input inputs ih =>
    rcases List.mem_append.mp (said_cons t input inputs ▸ hm) with hm | hm
    · exact (step_change h input).answered_sessionClosed (.inr hr) hm
    · exact ih (h.step input) ((step_change h input).stopped (.inr hr)) hm

/-- A call that comes in has a number of its own. Then each subscribe and unsubscribe call is
answered once and waits nowhere, or is not answered and waits in one place, with the entry of its
channel. Calls that wait in one list of an entry are answered in the same step and alike. When the
table has stopped all calls are answered, also those that come later: one that was not answered
before is told that the session is closed. -/
theorem reply_conservation (inputs : List Input) (h : (calls inputs).Nodup) :
    (∀ input ∈ inputs, ∀ n, input.call? = some n →
      ((∃ r, answersTo n (({} : Table).said inputs) = [r]) ∧
          ∀ w ∈ (({} : Table).after inputs).pending, w.call? ≠ some n) ∨
        (answersTo n (({} : Table).said inputs) = [] ∧
          (({} : Table).after inputs).pending.filter (fun w => w.call? = some n) = [input])) ∧
    (∀ before input rest, inputs = before ++ input :: rest →
      ∀ c entry, (c, entry) ∈ (({} : Table).after before).entries →
      ∀ n r, .answered n r ∈ ((({} : Table).after before).step input).2 →
        (n ∈ entry.subscribers → ∀ m ∈ entry.subscribers,
          .answered m r ∈ ((({} : Table).after before).step input).2) ∧
        (n ∈ entry.unsubscribers → ∀ m ∈ entry.unsubscribers,
          .answered m r ∈ ((({} : Table).after before).step input).2)) ∧
    ∀ before stop queued, inputs = before ++ stop :: queued → stop.isStop →
      ∀ input ∈ inputs, ∀ n, input.call? = some n →
        ∃ r, answersTo n (({} : Table).said inputs) = [r] ∧
          (answersTo n (({} : Table).said before) = [] → r = .error .sessionClosed) := by
  refine ⟨fun input hm n hn => settled_or_waits inputs h hm hn, ?_, ?_⟩
  · rintro before input rest rfl c entry hm n r hr
    have h : (calls (before ++ [input])).Nodup := by
      rw [List.append_cons, calls_append] at h
      exact (List.nodup_append.mp h).1
    exact (step_change (wellFormed_after before) input).answered_together (wellFormed_after before)
      (nodup_pending before h) hm hr
  · rintro before stop queued rfl hstop input hm n hn
    have hwf := wellFormed_after before
    have hnext := (step_change hwf stop).stopped (.inl hstop)
    have hend := (hwf.step stop).stays_stopped hnext queued
    rcases settled_or_waits _ h hm hn with ⟨⟨r, hr⟩, _⟩ | ⟨_, hw⟩
    · refine ⟨r, hr, fun hnone => ?_⟩
      rw [said_append, answersTo_append, hnone, List.nil_append] at hr
      have hmem : .answered n r ∈ (({} : Table).after before).said (stop :: queued) :=
        mem_answersTo.mp (hr ▸ List.mem_singleton_self r)
      rcases List.mem_append.mp (said_cons _ _ _ ▸ hmem) with hmem | hmem
      · exact (step_change hwf stop).answered_sessionClosed (.inl hstop) hmem
      · exact (hwf.step stop).said_stopped hnext queued hmem
    · rw [after_append, after_cons, pending_of_entries (((hwf.step stop).after queued).stopped hend)] at hw
      simp at hw

/-- Two calls wait for one entry when the table is told to stop, and a third comes after that. -/
theorem replies_when_stopped :
    let before : List Input := [.subscribe 0 "A", .subscribe 1 "A", .event 0 .opened]
    let inputs := before ++ .shutdown 2 :: [.unsubscribe 3 "A"]
    (calls inputs).Nodup ∧
      (∀ w ∈ (({} : Table).after inputs).pending, w.call? ≠ some 3) ∧
      .answered 1 (.error .sessionClosed) ∈ ((({} : Table).after before).step (.shutdown 2)).2 ∧
      answersTo 1 (({} : Table).said inputs) = [.error .sessionClosed] := by
  intro before inputs
  have h : (calls inputs).Nodup := by decide
  obtain ⟨hone, htogether, hall⟩ := reply_conservation inputs h
  refine ⟨h, ?_, ?_, ?_⟩
  · rcases hone (.unsubscribe 3 "A") (by simp [inputs]) 3 rfl with ⟨_, hw⟩ | ⟨hnone, _⟩
    · exact hw
    · have hthird : answersTo 3 (({} : Table).said inputs) = [.error .sessionClosed] := rfl
      exact absurd (hthird.symm.trans hnone) (List.cons_ne_nil _ _)
  · exact (htogether before (.shutdown 2) [.unsubscribe 3 "A"] rfl "A" (.connecting "A" 0 0 [0, 1])
      List.mem_cons_self 0 (.error .sessionClosed) (.tail _ (.head _))).1 List.mem_cons_self 1 (.tail _ (.head _))
  · obtain ⟨r, hr, hclosed⟩ := hall before (.shutdown 2) [.unsubscribe 3 "A"] rfl rfl (.subscribe 1 "A")
      (by simp [inputs, before]) 1 rfl
    rw [hr, hclosed rfl]

end Table

end RobotBridge.Session
