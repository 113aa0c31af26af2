import RobotBridge.Proofs.Session.Opening

/-! What one handler is given in a run of a table. -/
namespace RobotBridge.Session.Table

variable {t : Table} {input : Input} {inputs : List Input} {c : String} {k call : Nat}

theorem mem_said {output : Output} :
    output ∈ t.said inputs ↔
      ∃ before input later, inputs = before ++ input :: later ∧ output ∈ ((t.after before).step input).2 := by
  constructor
  · intro hm
    induction inputs generalizing t with
    | nil => exact absurd hm List.not_mem_nil
    | cons input inputs ih =>
      rcases List.mem_append.mp (said_cons t input inputs ▸ hm) with hm | hm
      · exact ⟨[], input, inputs, rfl, hm⟩
      · obtain ⟨before, i, later, rfl, hi⟩ := ih hm
        exact ⟨input :: before, i, later, rfl, hi⟩
  · rintro ⟨before, input, later, rfl, hm⟩
    rw [said_append, said_cons]
    exact List.mem_append_right _ (List.mem_append_left _ hm)

theorem mem_notices {outputs : List Output} {n : Nat} {notice : Notice} :
    (n, notice) ∈ notices outputs ↔ .handled n notice ∈ outputs := by
  rw [notices, List.mem_filterMap]
  constructor
  · rintro ⟨output, hm, ho⟩
    cases output <;> simp_all
  · exact fun hm => ⟨_, hm, rfl⟩

/-- A handler that is called was given by the call that opened the connection whose event is handled. -/
theorem opener_of_handled {n : Nat} {notice : Notice}
    (hm : .handled n notice ∈ (({} : Table).said inputs)) :
    ∃ before c later input rest k, inputs = before ++ .subscribe n c :: (later ++ input :: rest) ∧
      Opens before n c k ∧ input.connection? = some k ∧
      .handled n notice ∈
        ((({} : Table).after (before ++ .subscribe n c :: later)).step input).2 := by
  obtain ⟨first, input, rest, rfl, hi⟩ := mem_said.mp hm
  have h := wellFormed_after first
  obtain ⟨c, entry, he, rfl, hk⟩ := (step_change h input).of_notice (mem_notices.mpr hi)
  obtain ⟨before, later, rfl, ho⟩ := opener (h.mem_of_entryOf? he)
  exact ⟨before, c, later, input, rest, _, by simp, ho, hk, hi⟩

def noticesTo (n : Nat) (outputs : List Output) : List Notice :=
  ((notices outputs).filter fun p => p.1 = n).map Prod.snd

theorem noticesTo_append (n : Nat) (xs ys : List Output) :
    noticesTo n (xs ++ ys) = noticesTo n xs ++ noticesTo n ys := by
  simp [noticesTo]

theorem noticesTo_eq_nil {n : Nat} {outputs : List Output} :
    noticesTo n outputs = [] ↔ ∀ notice, .handled n notice ∉ outputs := by
  simp only [noticesTo, List.map_eq_nil_iff, List.filter_eq_nil_iff, Prod.forall, mem_notices,
    decide_eq_true_eq]
  exact ⟨fun h notice hm => h n notice hm rfl, fun h m notice hm he => h notice (he ▸ hm)⟩

/-- A handler whose call holds one connection only hears of that connection. -/
private theorem noticesTo_said_eq (h : t.WellFormed)
    (hown : ∀ p ∈ t.entries, p.2.owner = call → p.2.connection = k)
    (hno : ∀ d, .subscribe call d ∉ inputs) :
    noticesTo call (t.said inputs) = ((heard k t inputs).filter fun p => p.1 = call).map Prod.snd := by
  induction inputs generalizing t with
  | nil => rfl
  | cons input inputs ih =>
    have hc := step_change h input
    have hown' : ∀ p ∈ (t.step input).1.entries, p.2.owner = call → p.2.connection = k := by
      rintro ⟨d, entry⟩ hp rfl
      rcases hc.origin h hp with ⟨old, hold, ho, hk⟩ | ⟨rfl, _⟩
      · exact hk ▸ hown _ hold ho
      · exact absurd List.mem_cons_self (hno d)
    have hrest := ih (h.step input) hown' fun d hd => hno d (List.mem_cons_of_mem _ hd)
    rw [said_cons, noticesTo_append, hrest, heard, List.filter_append, List.map_append]
    congr 1
    split
    · rfl
    · next hne =>
      refine noticesTo_eq_nil.mpr fun notice hm => ?_
      obtain ⟨d, entry, he, ho, hk⟩ := hc.of_notice (mem_notices.mpr hm)
      exact hne (hown _ (h.mem_of_entryOf? he) ho ▸ hk)

variable {before later : List Input}

theorem Opens.tracks (ho : Opens before call c k) :
    Tracks (({} : Table).after (before ++ [.subscribe call c])) c k call (.new c) := by
  obtain ⟨_, _, _, _, he⟩ := (wellFormed_after before).opened ho
  rw [after_append]
  exact .holds he rfl rfl

/-- While the table runs, what is heard on a connection is the stream of its opener. -/
theorem Opens.heard_eq (ho : Opens before call c k)
    (hr : (({} : Table).after (before ++ .subscribe call c :: later)).running) :
    heard k (({} : Table).after (before ++ [.subscribe call c])) later =
      (stream c (seen c k later)).map (call, ·) := by
  rw [List.append_cons, after_append] at hr
  rw [ho.tracks.heard (wellFormed_after _) hr, delivered_new]

/-- A call that subscribes once and opens a connection has its handler called with the stream. -/
theorem Opens.noticesTo_eq (ho : Opens before call c k)
    (hr : (({} : Table).after (before ++ .subscribe call c :: later)).running)
    (hone : ∀ d, .subscribe call d ∉ before ++ later) :
    noticesTo call (({} : Table).said (before ++ .subscribe call c :: later)) =
      stream c (seen c k later) := by
  have h := wellFormed_after before
  obtain ⟨_, _, _, hout, _⟩ := h.opened ho
  have hfirst : noticesTo call (({} : Table).said before) = [] := by
    refine noticesTo_eq_nil.mpr fun notice hm => ?_
    obtain ⟨_, d, _, _, _, _, rfl, _⟩ := opener_of_handled hm
    exact hone d (by simp)
  have hown : ∀ p ∈ (({} : Table).after (before ++ [.subscribe call c])).entries,
      p.2.owner = call → p.2.connection = k := by
    rintro ⟨d, entry⟩ hp rfl
    rw [after_append] at hp
    rcases (step_change h _).origin h hp with ⟨old, hold, hoo, _⟩ | ⟨_, heq⟩
    · obtain ⟨xs, ys, rfl, _⟩ := opener hold
      exact absurd (by simp [hoo]) (hone d)
    · have hopened := hout.symm.trans heq
      simp_all
  rw [List.append_cons, said_append, said_append, said_cons, hout, noticesTo_append, noticesTo_append,
    hfirst, noticesTo_said_eq (wellFormed_after _) hown
      (fun d hd => hone d (List.mem_append_right _ hd)), ho.heard_eq hr]
  simp [noticesTo, List.filter_map, Function.comp_def]

/-! ### The deciding event -/

/-- Either no event of a connection has decided, or a first one has. -/
theorem undecided_or_decided (c : String) (k : Nat) (inputs : List Input) :
    (∀ e ∈ eventsOf k (eventsIn inputs), verdict c e = none) ∨
      ∃ mid e rest v, inputs = mid ++ .event k e :: rest ∧
        (∀ e ∈ eventsOf k (eventsIn mid), verdict c e = none) ∧ verdict c e = some v := by
  induction inputs with
  | nil => exact .inl fun _ hm => absurd hm List.not_mem_nil
  | cons input inputs ih =>
    by_cases hd : ∀ e ∈ eventsOf k input.event?.toList, verdict c e = none
    · have hcons {mid : List Input} (hu : ∀ e ∈ eventsOf k (eventsIn mid), verdict c e = none) :
          ∀ e ∈ eventsOf k (eventsIn (input :: mid)), verdict c e = none := by
        intro e hm
        rw [eventsIn_cons, eventsOf_append] at hm
        exact (List.mem_append.mp hm).elim (hd e) (hu e)
      rcases ih with hu | ⟨mid, e, rest, v, rfl, hu, hv⟩
      · exact .inl (hcons hu)
      · exact .inr ⟨input :: mid, e, rest, v, rfl, hcons hu, hv⟩
    · cases input with
      | event j e =>
        by_cases hj : j = k
        · subst hj
          have hv : verdict c e ≠ none := by simpa [Input.event?, eventsOf] using hd
          obtain ⟨v, hv⟩ := Option.ne_none_iff_exists'.mp hv
          exact .inr ⟨[], e, inputs, v, rfl, fun _ hm => absurd hm List.not_mem_nil, hv⟩
        · simp [Input.event?, eventsOf, hj] at hd
      | subscribe | unsubscribe | list | shutdown | abandoned => simp [Input.event?, eventsOf] at hd

variable {mid : List Input} {e : Event}

/-- Nothing is delivered before an event decides. -/
theorem stream_undecided (hu : ∀ e ∈ eventsOf k (eventsIn mid), verdict c e = none) (rest : List Input) :
    stream c (seen c k (mid ++ rest)) = stream c (seen c k rest) := by
  induction mid with
  | nil => rfl
  | cons input mid ih =>
    rw [eventsIn_cons, eventsOf_append] at hu
    have hrest := ih fun e hm => hu e (List.mem_append_right _ hm)
    rw [List.cons_append, seen_cons]
    cases input with
    | unsubscribe n d =>
      by_cases hd : d = c
      · simpa [Input.view?, hd, stream_unsubscribe] using hrest
      · simpa [Input.view?, hd] using hrest
    | event j e =>
      by_cases hj : j = k
      · have he : e = .opened := by
          simpa [Input.event?, eventsOf, hj, verdict_eq_none] using hu e (by simp [Input.event?, eventsOf, hj])
        simpa [Input.view?, hj, he, stream_opened] using hrest
      · simpa [Input.view?, hj] using hrest
    | subscribe | list | shutdown | abandoned => exact hrest

theorem stream_eq_nil (hu : ∀ e ∈ eventsOf k (eventsIn mid), verdict c e = none) :
    stream c (seen c k mid) = [] := by
  have hs := stream_undecided hu []
  rwa [List.append_nil] at hs

/-- A connection that is decided against delivers nothing. -/
theorem stream_rejected (hu : ∀ e ∈ eventsOf k (eventsIn mid), verdict c e = none) {failure : CallError}
    (hv : verdict c e = some (.error failure)) (rest : List Input) :
    stream c (seen c k (mid ++ .event k e :: rest)) = [] := by
  rw [stream_undecided hu, seen_cons]
  simp only [Input.view?, if_pos, Option.toList_some, List.singleton_append]
  cases e with
  | opened => simp [verdict] at hv
  | message text =>
    cases hf : Notice.ofFrame c text with
    | message envelope => simp [verdict, hf] at hv
    | error => exact stream_reject hf _
  | closed | failed => exact stream_end rfl c _

/-- The deciding event answers the call that opened the connection and all that joined it. -/
theorem Opens.decides (ho : Opens before call c k) {rest : List Input} {v : Except CallError Envelope}
    (hu : ∀ e ∈ eventsOf k (eventsIn mid), verdict c e = none) (hv : verdict c e = some v)
    (hr : (({} : Table).after (before ++ .subscribe call c :: (mid ++ .event k e :: rest))).running) :
    let t := ({} : Table).after (before ++ .subscribe call c :: mid)
    match v with
    | .ok envelope => (t.step (.event k e)).2 =
        .handled call (.message envelope) :: Entry.answerAll (call :: joiners c mid) (.ok ())
    | .error failure => answers (t.step (.event k e)).2 = (call :: joiners c mid).map (·, .error failure) ∧
        (t.step (.event k e)).1.entryOf? c = none := by
  have h := wellFormed_after before
  have h' := wellFormed_after (before ++ .subscribe call c :: mid)
  obtain ⟨_, _, _, _, he⟩ := h.opened ho
  rw [← List.cons_append, ← List.append_assoc, after_append, after_cons] at hr
  have hstep := (h'.step _).running_of_after hr
  have hmid := h'.running_of_after (show (Table.after _ [.event k e]).running from hstep)
  have hentry := (h.step _).connecting_after he hu (by simpa using hmid)
  have hdec := (step_change h' (.event k e)).decides h' hstep (by simpa using hentry) hv
  cases v with
  | ok envelope => exact hdec.1
  | error failure => exact hdec

/-! ### Events of opened connections -/

/-- Events come only of connections that the table has opened. -/
def Timely (t : Table) : List Input → Prop
  | [] => True
  | input :: rest => (∀ k, input.connection? = some k → k < t.nextConnection) ∧ Timely (t.step input).1 rest

theorem timely_append {xs ys : List Input} :
    Timely t (xs ++ ys) ↔ Timely t xs ∧ Timely (t.after xs) ys := by
  induction xs generalizing t with
  | nil => simp [Timely]
  | cons x xs ih => simp [Timely, ih, and_assoc]

theorem WellFormed.nextConnection_le_after (h : t.WellFormed) (inputs : List Input) :
    t.nextConnection ≤ (t.after inputs).nextConnection := by
  induction inputs generalizing t with
  | nil => exact Nat.le_refl _
  | cons input inputs ih =>
    exact Nat.le_trans (step_change h input).nextConnection_le (ih (h.step input))

private theorem WellFormed.eventsOf_eq_nil (h : t.WellFormed) (ht : Timely t inputs)
    (hk : (t.after inputs).nextConnection ≤ k) : eventsOf k (eventsIn inputs) = [] := by
  induction inputs generalizing t with
  | nil => rfl
  | cons input inputs ih =>
    have hrest : eventsOf k (eventsIn inputs) = [] := ih (h.step input) ht.2 hk
    have hle := Nat.le_trans (h.nextConnection_le_after (input :: inputs)) hk
    have hne : input.connection? ≠ some k := fun hin => Nat.not_lt.mpr hle (ht.1 k hin)
    rw [eventsIn_cons, eventsOf_append, hrest, List.append_nil]
    cases input <;> simp_all [Input.event?, eventsOf, Input.connection?]

/-- The events of a connection come after its opening. -/
theorem Opens.eventsOf_eq (ho : Opens before call c k)
    (ht : Timely {} (before ++ .subscribe call c :: later)) :
    eventsOf k (eventsIn (before ++ .subscribe call c :: later)) = eventsOf k (eventsIn later) := by
  obtain ⟨_, _, rfl, _, _⟩ := (wellFormed_after before).opened ho
  have hnone := wellFormed_empty.eventsOf_eq_nil (timely_append.mp ht).1 (Nat.le_refl _)
  rw [eventsIn_append, eventsOf_append, hnone, List.nil_append]
  rfl

end RobotBridge.Session.Table
