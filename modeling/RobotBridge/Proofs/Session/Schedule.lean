import RobotBridge.Proofs.Session.Delivery
import RobotBridge.Session.Basic

/-! Whole sessions under any schedule of acts and moves: what the table has handled, what ports have
yielded, and what was seen from outside. -/
namespace RobotBridge.Session
open Table (Input notices Timely)

variable {α : Type}

structure History (α : Type) where
  /-- What the table has handled. -/
  inputs : List Table.Input := []
  /-- What the ports of subscriptions have yielded, by the table's numbers for their connections. -/
  yields : List (Nat × Event) := []
  effects : List (Effect α) := []

def inputOf? (s : Session α) : Move → Option Input
  | .command => s.commands.head?
  | .event => s.events.head?.map fun p => .event p.1 p.2
  | .abandon => some .abandoned
  | _ => none

def yieldOf? (s : Session α) : Move → Option (Nat × Event)
  | .forward n =>
    match s.lines[n]? with
    | some (.table k, p) =>
      match p.nextEvent.2 with
      | .ready e => some (k, e)
      | _ => none
    | _ => none
  | _ => none

def History.extend (h : History α) (s : Session α) (m : Move) (effects : List (Effect α)) : History α :=
  ⟨h.inputs ++ (s.inputOf? m).toList, h.yields ++ (s.yieldOf? m).toList, h.effects ++ effects⟩

/-- The sessions that one with a time limit can come to, in any order of acts and moves. -/
inductive Reached (timeout : Duration) : Session α → History α → Prop
  | start : Reached timeout { timeout } {}
  | act {s h} (a : Act α) : Reached timeout s h → Reached timeout (s.act a) h
  | move {s s' h m effects} : Reached timeout s h → s.perform m = some (s', effects) →
      Reached timeout s' (h.extend s m effects)

@[simp] def Effect.notice? : Effect α → Option (Nat × Notice)
  | .handled n notice => some (n, notice)
  | _ => none

/-! ### What moves leave alone -/

def owners (s : Session α) : List Owner := s.lines.map Prod.fst

/-- Nothing that concerns the table has changed, but calls may be on their way to it. -/
structure Quiet (s s' : Session α) : Prop where
  table : s'.table = s.table
  events : s'.events = s.events
  commands : ∀ i ∈ s'.commands, i ∈ s.commands ∨ i.event? = none
  owners : ∀ k, .table k ∈ s'.owners → .table k ∈ s.owners

variable {s s' s'' : Session α}

theorem Quiet.refl (s : Session α) : Quiet s s := ⟨rfl, rfl, fun _ => .inl, fun _ => id⟩

theorem Quiet.trans (h : Quiet s s') (h' : Quiet s' s'') : Quiet s s'' where
  table := h'.table.trans h.table
  events := h'.events.trans h.events
  commands i hi := (h'.commands i hi).elim (h.commands i) .inr
  owners k hk := h.owners k (h'.owners k hk)

theorem owners_setLine (s : Session α) (n : Nat) (f : Line → Line) :
    (s.setLine n f).owners = s.owners := by
  simp only [owners, setLine]
  induction s.lines generalizing n with
  | nil => simp
  | cons line lines ih => cases n <;> simp [ih]

theorem quiet_setLine (s : Session α) (n : Nat) (f : Line → Line) : Quiet s (s.setLine n f) :=
  ⟨rfl, rfl, fun _ => .inl, fun _ hk => owners_setLine s n f ▸ hk⟩

theorem quiet_setCall (s : Session α) (id : Nat) (f : CallState α → CallState α) :
    Quiet s (s.setCall id f) :=
  ⟨rfl, rfl, fun _ => .inl, fun _ hk => hk⟩

theorem quiet_setStage (s : Session α) (id : Nat) (stage : Stage α) : Quiet s (s.setStage id stage) :=
  quiet_setCall s id _

theorem quiet_openLine (s : Session α) (call : Nat) : Quiet s (s.openLine (.call call)) :=
  ⟨rfl, rfl, fun _ => .inl, fun k hk => by simpa [owners, openLine] using hk⟩

theorem quiet_enqueue (s : Session α) (id : Nat) {input : Input} (hi : input.event? = none)
    (stage : Stage α) : Quiet s (s.enqueue id input stage) := by
  refine ⟨rfl, rfl, fun i hm => ?_, fun _ hk => hk⟩
  rcases List.mem_append.mp (show i ∈ s.commands ++ [input] from hm) with hm | hm
  · exact .inl hm
  · exact .inr (List.mem_singleton.mp hm ▸ hi)

theorem quiet_endExchange (s : Session α) (id line : Nat) (next : Exchange.Outcome → Script α)
    (outcome : Exchange.Outcome) : Quiet s (s.endExchange id line next outcome) :=
  (quiet_setLine s line _).trans (quiet_setStage _ id _)

theorem quiet_continueExchange (s : Session α) (id line : Nat) (p : Line) (exchange : Exchange)
    (deadline : Nat) (next : Exchange.Outcome → Script α) (actions : List Exchange.Action) :
    Quiet s (s.continueExchange id line p exchange deadline next actions) := by
  unfold continueExchange
  obtain ⟨p, outcome⟩ := performExchange p actions
  cases outcome with
  | some outcome => exact (quiet_setLine s line _).trans (quiet_endExchange _ id line next outcome)
  | none => exact (quiet_setLine s line _).trans (quiet_setStage _ id _)

private theorem quiet_resume (s : Session α) (id : Nat) (script : Script α) :
    Quiet s (s.resume id script).1 ∧ (s.resume id script).2.filterMap Effect.notice? = [] := by
  cases script with
  | finish a => exact ⟨quiet_setStage s id _, rfl⟩
  | request channel next => exact ⟨(quiet_openLine s id).trans (quiet_setStage _ id _), rfl⟩
  | publish channel dtype data next => exact ⟨(quiet_openLine s id).trans (quiet_setStage _ id _), rfl⟩
  | subscribe | unsubscribe | list | shutdown => exact ⟨quiet_enqueue s id rfl _, rfl⟩
  | print texts next =>
    refine ⟨quiet_setStage s id _, ?_⟩
    simp [resume, List.filterMap_eq_nil_iff]
  | stream limit render next => exact ⟨quiet_setStage s id _, rfl⟩

private theorem quiet_takeEvent {id line deadline : Nat} {exchange : Exchange}
    {next : Exchange.Outcome → Script α} (h : s.takeEvent id line exchange deadline next = some s') :
    Quiet s s' := by
  unfold takeEvent at h
  split at h
  · obtain rfl := Option.some.inj h
    exact quiet_continueExchange ..
  · obtain rfl := Option.some.inj h
    exact quiet_endExchange ..
  · contradiction
  · contradiction

private theorem quiet_expire {id line deadline : Nat} {exchange : Exchange}
    {next : Exchange.Outcome → Script α} (h : s.expire id line exchange deadline next = some s') :
    Quiet s s' := by
  unfold expire at h
  split at h
  · contradiction
  · split at h
    · obtain rfl := Option.some.inj h
      exact quiet_continueExchange ..
    · contradiction

private theorem quiet_look {id seen : Nat} {c : CallState α} {limit : Option Nat}
    {render : Envelope → String} {next : Bool → Script α} {effects : List (Effect α)}
    (h : s.look id c limit seen render next = some (s', effects)) :
    Quiet s s' ∧ effects.filterMap Effect.notice? = [] := by
  unfold look at h
  split at h
  · obtain ⟨rfl, rfl⟩ := Prod.mk.inj (Option.some.inj h)
    exact ⟨quiet_setCall .., rfl⟩
  · obtain ⟨rfl, rfl⟩ := Prod.mk.inj (Option.some.inj h)
    exact ⟨quiet_setCall .., rfl⟩
  · split at h
    · obtain ⟨rfl, rfl⟩ := Prod.mk.inj (Option.some.inj h)
      exact ⟨quiet_setStage .., rfl⟩
    · contradiction

theorem quiet_act (s : Session α) (a : Act α) : Quiet s (s.act a) := by
  cases a with
  | call script =>
    unfold act
    dsimp only
    split
    · exact ⟨rfl, rfl, fun _ => .inl, fun _ => id⟩
    · exact .refl s
  | emit line e => exact quiet_setLine s line fun p => (p.emit e).1
  | dropTransport line => exact quiet_setLine s line Line.dropTransport
  | advance | detach => exact ⟨rfl, rfl, fun _ => .inl, fun _ => id⟩

/-! ### What the table says -/

/-- The outputs of the table, carried out: they open lines, and handlers are called in order. -/
structure Applied (s : Session α) (outputs : List Table.Output) (r : Session α × List (Effect α)) :
    Prop where
  table : r.1.table = s.table
  events : r.1.events = s.events
  commands : r.1.commands = s.commands
  owners : ∀ k, .table k ∈ r.1.owners → .table k ∈ s.owners ∨ ∃ c, .opened k c ∈ outputs
  notices : r.2.filterMap Effect.notice? = notices outputs

private theorem applied_onTableLine (s : Session α) (k : Nat) (f : Line → Line)
    {output : Table.Output} (hn : output.notice? = none) : Applied s [output] (s.onTableLine k f, []) := by
  have hnone : notices [output] = [] := by
    rw [Table.notices_cons, hn]
    rfl
  unfold onTableLine
  split
  · exact ⟨rfl, rfl, rfl, fun _ hk => .inl (owners_setLine s _ f ▸ hk), hnone.symm⟩
  · exact ⟨rfl, rfl, rfl, fun _ => .inl, hnone.symm⟩

private theorem applied_output (s : Session α) (output : Table.Output) :
    Applied s [output] (s.applyOutput output) := by
  cases output with
  | opened k c =>
    refine ⟨rfl, rfl, rfl, fun j hj => ?_, rfl⟩
    have hj : .table j ∈ s.owners ∨ j = k := by simpa [owners, applyOutput, openLine] using hj
    exact hj.imp_right fun hjk => ⟨c, by simp [hjk]⟩
  | command k | dropped k => exact applied_onTableLine s k _ rfl
  | handled | answered | listed | stopped | released => exact ⟨rfl, rfl, rfl, fun _ => .inl, rfl⟩

theorem applied_outputs (s : Session α) (outputs : List Table.Output) :
    Applied s outputs (s.applyOutputs outputs) := by
  induction outputs generalizing s with
  | nil => exact ⟨rfl, rfl, rfl, fun _ => .inl, rfl⟩
  | cons output outputs ih =>
    have ha := applied_output s output
    have hrest := ih (s.applyOutput output).1
    refine ⟨hrest.table.trans ha.table, hrest.events.trans ha.events, hrest.commands.trans ha.commands,
      fun k hk => ?_, ?_⟩
    · rcases hrest.owners k hk with hk | ⟨c, hk⟩
      · exact (ha.owners k hk).imp_right fun ⟨c, hc⟩ =>
          ⟨c, List.mem_singleton.mp hc ▸ List.mem_cons_self⟩
      · exact .inr ⟨c, List.mem_cons_of_mem _ hk⟩
    · rw [applyOutputs, List.filterMap_append, ha.notices, hrest.notices, ← Table.notices_append]
      rfl

/-! ### What a move does -/

/-- All that a move can be to the table: nothing, an event on its way, or an input that it handles. -/
inductive Progress (s : Session α) (m : Move) : Session α → List (Effect α) → Prop
  | quiet {s' effects} : s.inputOf? m = none → s.yieldOf? m = none → Quiet s s' →
      effects.filterMap Effect.notice? = [] → Progress s m s' effects
  | yields {s' k e} : s.inputOf? m = none → s.yieldOf? m = some (k, e) → .table k ∈ s.owners →
      Quiet { s with events := s.events ++ if s.table.running then [(k, e)] else [] } s' →
      Progress s m s' []
  | handles {rest : Session α} {input} : s.inputOf? m = some input → s.yieldOf? m = none →
      rest.table = s.table → rest.owners = s.owners → (∀ i ∈ rest.commands, i ∈ s.commands) →
      (rest.events = s.events ∧ (input ∈ s.commands ∨ input = .abandoned) ∨
        ∃ k e, input = .event k e ∧ s.events = (k, e) :: rest.events) →
      Progress s m (rest.handle input).1 (rest.handle input).2

private theorem forward_progress {n : Nat} (h : s.forward n = some s') : Progress s (.forward n) s' [] := by
  unfold forward at h
  split at h
  · next k p hline =>
    split at h
    · split at h
      · next q e hnext =>
        have hy : s.yieldOf? (.forward n) = some (k, e) := by simp [yieldOf?, hline, hnext]
        have hk : .table k ∈ s.owners :=
          List.mem_map.mpr ⟨_, List.mem_of_getElem? hline, rfl⟩
        split at h
        · next hr =>
          obtain rfl := Option.some.inj h
          refine .yields rfl hy hk ?_
          rw [if_pos hr]
          exact quiet_setLine { s with events := s.events ++ [(k, e)] } n fun _ => q
        · next hr =>
          obtain rfl := Option.some.inj h
          refine .yields rfl hy hk ?_
          rw [if_neg hr, List.append_nil]
          exact quiet_setLine s n fun _ => q.dropEvents
      · contradiction
    · contradiction
  · contradiction

theorem perform_progress {m : Move} {effects : List (Effect α)} (h : s.perform m = some (s', effects)) :
    Progress s m s' effects := by
  cases m with
  | resume id =>
    simp only [perform] at h
    split at h
    · next script _ =>
      obtain ⟨hq, he⟩ := quiet_resume s id script
      rw [Option.some.inj h] at hq he
      exact .quiet rfl rfl hq he
    · contradiction
  | take id =>
    simp only [perform] at h
    split at h
    · obtain ⟨_, hs, heq⟩ := Option.map_eq_some_iff.mp h
      obtain ⟨rfl, rfl⟩ := Prod.mk.inj heq
      exact .quiet rfl rfl (quiet_takeEvent hs) rfl
    · contradiction
  | expire id =>
    simp only [perform] at h
    split at h
    · obtain ⟨_, hs, heq⟩ := Option.map_eq_some_iff.mp h
      obtain ⟨rfl, rfl⟩ := Prod.mk.inj heq
      exact .quiet rfl rfl (quiet_expire hs) rfl
    · contradiction
  | look id =>
    simp only [perform] at h
    split at h
    · split at h
      · obtain ⟨hq, he⟩ := quiet_look h
        exact .quiet rfl rfl hq he
      · contradiction
    · contradiction
  | forward n =>
    obtain ⟨_, hs, heq⟩ := Option.map_eq_some_iff.mp h
    obtain ⟨rfl, rfl⟩ := Prod.mk.inj heq
    exact forward_progress hs
  | command =>
    simp only [perform] at h
    split at h
    · next input rest hc =>
      have hp : Progress s .command (handle { s with commands := rest } input).1
          (handle { s with commands := rest } input).2 :=
        .handles (by simp [inputOf?, hc]) rfl rfl rfl (fun i hi => hc ▸ List.mem_cons_of_mem _ hi)
          (.inl ⟨rfl, .inl (hc ▸ List.mem_cons_self)⟩)
      rwa [Option.some.inj h] at hp
    · contradiction
  | event =>
    simp only [perform] at h
    split at h
    · next k e rest _ he =>
      have hp : Progress s .event (handle { s with events := rest } (.event k e)).1
          (handle { s with events := rest } (.event k e)).2 :=
        .handles (by simp [inputOf?, he]) rfl rfl rfl (fun _ => id) (.inr ⟨k, e, rfl, he⟩)
      rwa [Option.some.inj h] at hp
    · contradiction
  | abandon =>
    simp only [perform] at h
    split at h
    · have hp : Progress s .abandon (s.handle .abandoned).1 (s.handle .abandoned).2 :=
        .handles rfl rfl rfl rfl (fun _ => id) (.inl ⟨rfl, .inr rfl⟩)
      rwa [Option.some.inj h] at hp
    · contradiction

/-! ### What holds under every schedule -/

structure Consistent (s : Session α) (h : History α) : Prop where
  table : s.table = ({} : Table).after h.inputs
  said : h.effects.filterMap Effect.notice? = notices (({} : Table).said h.inputs)
  /-- Events do not go the way of calls. -/
  commands : ∀ i ∈ s.commands, i.event? = none
  opened : ∀ k, .table k ∈ s.owners → k < s.table.nextConnection
  queued : ∀ p ∈ s.events, p.1 < s.table.nextConnection
  timely : Timely {} h.inputs
  /-- What ports yield is handled in order, or waits. -/
  yields : s.table.running → h.yields = Table.eventsIn h.inputs ++ s.events

variable {h : History α}

private theorem Consistent.start (timeout : Duration) : Consistent ({ timeout } : Session α) {} where
  table := rfl
  said := rfl
  commands _ hi := absurd hi List.not_mem_nil
  opened _ hk := absurd hk List.not_mem_nil
  queued _ hp := absurd hp List.not_mem_nil
  timely := trivial
  yields _ := rfl

private theorem Consistent.quiet (hc : Consistent s h) (hq : Quiet s s') : Consistent s' h where
  table := hq.table.trans hc.table
  said := hc.said
  commands i hi := (hq.commands i hi).elim (hc.commands i) id
  opened k hk := hq.table ▸ hc.opened k (hq.owners k hk)
  queued p hp := hq.table ▸ hc.queued p (hq.events ▸ hp)
  timely := hc.timely
  yields hr := by
    rw [hq.events]
    exact hc.yields (hq.table ▸ hr)

private theorem Consistent.silent (hc : Consistent s h) {effects : List (Effect α)}
    (he : effects.filterMap Effect.notice? = []) : Consistent s { h with effects := h.effects ++ effects } :=
  { hc with said := by rw [List.filterMap_append, he, List.append_nil, hc.said] }

private theorem Consistent.yield (hc : Consistent s h) {k : Nat} {e : Event} (hk : .table k ∈ s.owners) :
    Consistent { s with events := s.events ++ if s.table.running then [(k, e)] else [] }
      { h with yields := h.yields ++ [(k, e)] } where
  table := hc.table
  said := hc.said
  commands := hc.commands
  opened := hc.opened
  queued p hp := by
    rcases List.mem_append.mp hp with hp | hp
    · exact hc.queued p hp
    · split at hp
      · rw [List.mem_singleton.mp hp]
        exact hc.opened k hk
      · exact absurd hp List.not_mem_nil
  timely := hc.timely
  yields hr := by
    have hr : s.table.running := hr
    simp only [hc.yields hr, if_pos hr, List.append_assoc]

private theorem Consistent.handle (hc : Consistent s h) {rest : Session α} {input : Input}
    (ht : rest.table = s.table) (ho : rest.owners = s.owners)
    (hcmd : ∀ i ∈ rest.commands, i ∈ s.commands)
    (hin : rest.events = s.events ∧ (input ∈ s.commands ∨ input = .abandoned) ∨
      ∃ k e, input = .event k e ∧ s.events = (k, e) :: rest.events) :
    Consistent (rest.handle input).1
      ⟨h.inputs ++ [input], h.yields, h.effects ++ (rest.handle input).2⟩ := by
  have hwf : s.table.WellFormed := hc.table ▸ Table.wellFormed_after h.inputs
  have hch := Table.step_change hwf input
  have hle := hch.nextConnection_le
  have ha : Applied { rest with table := (s.table.step input).1 } (s.table.step input).2 (rest.handle input) := by
    rw [← ht]
    exact applied_outputs _ _
  have hev : (∀ k, input.connection? = some k → k < s.table.nextConnection) ∧
      s.events = input.event?.toList ++ rest.events := by
    rcases hin with ⟨he, hi⟩ | ⟨k, e, rfl, he⟩
    · have hnone : input.event? = none := hi.elim (hc.commands input) fun hi => hi ▸ rfl
      simp [Input.connection?, hnone, he]
    · refine ⟨fun j hj => ?_, he⟩
      obtain rfl := Option.some.inj hj
      exact hc.queued (k, e) (he ▸ List.mem_cons_self)
  refine ⟨?_, ?_, fun i hi => hc.commands i (hcmd i (ha.commands ▸ hi)), fun k hk => ?_, fun p hp => ?_,
    ?_, fun hr => ?_⟩
  · rw [ha.table, hc.table, Table.after_append]
    rfl
  · rw [List.filterMap_append, ha.notices, hc.said, Table.said_append, Table.notices_append, ← hc.table]
    simp
  · rw [ha.table]
    rcases ha.owners k hk with hk | ⟨c, hk⟩
    · exact Nat.lt_of_lt_of_le (hc.opened k (ho ▸ hk)) hle
    · exact hch.opened_lt hk
  · rw [ha.table]
    exact Nat.lt_of_lt_of_le (hc.queued p (hev.2 ▸ List.mem_append_right _ (ha.events ▸ hp))) hle
  · exact Table.timely_append.mpr ⟨hc.timely, hc.table ▸ hev.1, trivial⟩
  · rw [ha.table] at hr
    have hrun : s.table.running := hwf.running_of_after (show (s.table.after [input]).running from hr)
    rw [hc.yields hrun, hev.2, ha.events, Table.eventsIn_append, Table.eventsIn_cons]
    simp [Table.eventsIn]

/-- Whatever the schedule, a session is what has happened in it. -/
theorem Reached.consistent {timeout : Duration} (hs : Reached timeout s h) : Consistent s h := by
  induction hs with
  | start => exact .start timeout
  | act a _ ih => exact ih.quiet (quiet_act _ a)
  | move _ hm ih =>
    cases perform_progress hm with
    | quiet hi hy hq he =>
      rw [History.extend, hi, hy]
      simpa using (ih.quiet hq).silent he
    | yields hi hy hk hq =>
      rw [History.extend, hi, hy]
      simpa using (ih.yield hk).quiet hq
    | handles hi hy ht ho hcmd hin =>
      rw [History.extend, hi, hy]
      simpa using ih.handle ht ho hcmd hin

end RobotBridge.Session
