import RobotBridge.Proofs.Session.OneShot
import Mathlib.Data.Finsupp.WellFounded
import Mathlib.SetTheory.Ordinal.Family

/-! Moves come to an end, whatever their order: each takes a script further or leaves less to pass on. -/
namespace RobotBridge

/-- How much a script has left to do. Its next steps depend on what it is told, so that no number
bounds them. -/
noncomputable def Script.rank {α : Type} : Script α → Ordinal.{0}
  | .finish _ => 1
  | .request _ next => (⨆ r, (next r).rank + 1) + 1
  | .publish _ _ _ next => (⨆ r, (next r).rank + 1) + 1
  | .subscribe _ next => (⨆ r, (next r).rank + 1) + 1
  | .unsubscribe _ next => (⨆ r, (next r).rank + 1) + 1
  | .list next => (⨆ r, (next r).rank + 1) + 1
  | .shutdown next => (⨆ r, (next r).rank + 1) + 1
  | .print _ next => (next ()).rank + 1
  | .stream _ _ next => (⨆ r, (next r).rank + 1) + 1

/-- What a line can still give: its events, and its end. -/
def Line.load (p : Line) : Nat := p.events.length + (!p.terminated).toNat

theorem Line.load_queue (p : Line) (c : Command) : (p.queue c).load = p.load := by
  obtain ⟨_, h⟩ := p.queue_frame c
  rw [h]
  rfl

@[simp] theorem Line.load_foldl_queue (p : Line) (commands : List Command) :
    (commands.foldl queue p).load = p.load := by
  obtain ⟨_, h⟩ := p.foldl_queue_frame commands
  rw [h]
  rfl

theorem Line.load_lt_of_nextEvent {p q : Line} {e : Event} (h : p.nextEvent = (q, .ready e)) :
    q.load < p.load := by
  unfold nextEvent at h
  split at h
  · cases h
  · next ht =>
    split at h
    · next rest he =>
      obtain ⟨rfl, -⟩ := Prod.mk.inj h
      have hle : (!e.isTerminal).toNat ≤ 1 := Bool.toNat_le _
      simp_all [load]
    · next he =>
      split at h
      · cases h
      · obtain ⟨rfl, -⟩ := Prod.mk.inj h
        simp [load, ht]

theorem Line.load_dropEvents_le (p : Line) : p.dropEvents.load ≤ p.load := by
  simp [load, dropEvents]

namespace Session

variable {α : Type} {timeout : Duration} {s s' : Session α} {log : Log α} {id n : Nat}

/-! ### Scripts -/

noncomputable def Stage.rank : Stage α → Ordinal.{0}
  | .ready script => script.rank
  | .exchanging _ _ _ next => ⨆ outcome, (next outcome).rank + 1
  | .waiting next => ⨆ r, (next r).rank + 1
  | .listing next => ⨆ r, (next r).rank + 1
  | .stopping next => ⨆ r, (next r).rank + 1
  | .streaming _ _ _ next => ⨆ r, (next r).rank + 1
  | .done _ => 0

noncomputable def ranks (s : Session α) : Nat →₀ Ordinal.{0} :=
  .onFinset (Finset.range s.calls.length) (fun id => ((s.stage? id).map Stage.rank).getD 0) fun id h => by
    by_contra hid
    rw [Finset.mem_range, Nat.not_lt] at hid
    simp [stage?, call?, List.getElem?_eq_none hid] at h

theorem ranks_setCall {c : CallState α} (h : s.call? id = some c) (f : CallState α → CallState α) (j : Nat) :
    (s.setCall id f).ranks j = if id = j then (f c).stage.rank else s.ranks j := by
  simp only [ranks, Finsupp.onFinset_apply, stage?, call?, setCall, List.getElem?_modify]
  split
  · next hj =>
    subst hj
    rw [show s.calls[id]? = some c from h]
    rfl
  · simp

theorem ranks_setCall_le {f : CallState α → CallState α}
    (h : ∀ c, s.call? id = some c → (f c).stage.rank ≤ c.stage.rank) : (s.setCall id f).ranks ≤ s.ranks := by
  cases hc : s.call? id with
  | none =>
    have hs : s.setCall id f = s := by
      rw [setCall, List.modify_eq_self (List.getElem?_eq_none_iff.mp hc)]
    rw [hs]
  | some c =>
    intro j
    rw [ranks_setCall hc]
    split
    · next hj =>
      subst hj
      simpa [ranks, stage?, hc] using h c hc
    · exact le_rfl

theorem ranks_setCall_lt {c : CallState α} {f : CallState α → CallState α} (hc : s.call? id = some c)
    (h : (f c).stage.rank < c.stage.rank) : (s.setCall id f).ranks < s.ranks := by
  refine lt_of_le_of_ne (ranks_setCall_le fun c' hc' => ?_) fun heq => ?_
  · obtain rfl := Option.some.inj (hc.symm.trans hc')
    exact h.le
  · have hid := DFunLike.congr_fun heq id
    rw [ranks_setCall hc, if_pos rfl] at hid
    exact h.ne (by simpa [ranks, stage?, hc] using hid)

theorem ranks_setStage_lt {old new : Stage α} (h : s.stage? id = some old) (hlt : new.rank < old.rank) :
    (s.setStage id new).ranks < s.ranks := by
  obtain ⟨c, hc, rfl⟩ := stage?_eq_some h
  exact ranks_setCall_lt hc hlt

/-! ### What is on its way -/

/-- How much is on its way in a session. The factors leave room for what each thing leads to: a call
may open a line, the event of a line goes on to the table, and from there to a handler. -/
def load (s : Session α) : Nat :=
  s.table.running.toNat + 4 * s.commands.length + 2 * s.events.length +
    3 * (s.lines.map fun p => p.2.load).sum + (s.calls.map fun c => c.inbox.length).sum

theorem sum_map_modify {β : Type} (g : β → Nat) (f : β → β) {l : List β} {b : β} (h : l[n]? = some b) :
    ((l.modify n f).map g).sum + g b = (l.map g).sum + g (f b) := by
  induction l generalizing n with
  | nil => simp at h
  | cons a l ih =>
    cases n with
    | zero =>
      obtain rfl := Option.some.inj h
      simp only [List.modify_zero_cons, List.map_cons, List.sum_cons]
      omega
    | succ n =>
      have hl := ih h
      simp only [List.modify_succ_cons, List.map_cons, List.sum_cons]
      omega

theorem load_setLine {o : Owner} {p : Line} (h : s.lines[n]? = some (o, p)) (f : Line → Line) :
    (s.setLine n f).load + 3 * p.load = s.load + 3 * (f p).load := by
  have hsum := sum_map_modify (fun p => p.2.load) (fun p => (p.1, f p.2)) h
  simp only [load, setLine] at hsum ⊢
  omega

theorem load_setCall {c : CallState α} (h : s.call? id = some c) (f : CallState α → CallState α) :
    (s.setCall id f).load + c.inbox.length = s.load + (f c).inbox.length := by
  have hsum := sum_map_modify (fun c => c.inbox.length) f h
  simp only [load, setCall] at hsum ⊢
  omega

def Table.Output.load : Output → Nat
  | .opened .. => 3
  | .handled .. => 1
  | _ => 0

@[simp] theorem Table.load_answerAll (calls : List Nat) (r : Except CallError Unit) :
    ((Entry.answerAll calls r).map Output.load).sum = 0 := by
  simp [Entry.answerAll, Output.load, Function.comp_def]

theorem Table.load_close (t : Table) : (t.close.2.map Output.load).sum = 0 := by
  rw [close, List.map_flatMap, List.flatMap, List.sum_flatten, List.map_map]
  simp [Entry.finish, Output.load, Function.comp_def]

/-- An event opens no connection. -/
theorem Table.Change.load_le {t t' : Table} {input : Input} {outputs : List Output}
    (hc : Change t input t' outputs) :
    (outputs.map Output.load).sum ≤ (if input.event?.isSome then 1 else 3) := by
  cases hc with
  | opens => simp [Output.load, Input.event?]
  | absent | list => simp [Output.load]
  | turn _ _ ht => cases ht <;> simp [Output.load, Entry.release, Input.event?]
  | stray => simp
  | stop => cases input <;> simp [Output.load, farewell, load_close]
  | refuse => cases input <;> simp [Output.load, refusal]

theorem load_setCall_le {f : CallState α → CallState α} {d : Nat}
    (h : ∀ c, (f c).inbox.length ≤ c.inbox.length + d) : (s.setCall id f).load ≤ s.load + d := by
  cases hc : s.call? id with
  | none =>
    rw [setCall, List.modify_eq_self (List.getElem?_eq_none_iff.mp hc)]
    exact Nat.le_add_right ..
  | some c =>
    have hload := load_setCall hc f
    have hf := h c
    omega

private theorem onTableLine_le (s : Session α) (k : Nat) {f : Line → Line} (h : ∀ p, (f p).load = p.load) :
    (s.onTableLine k f).ranks ≤ s.ranks ∧ (s.onTableLine k f).load ≤ s.load := by
  unfold onTableLine
  split
  · next n hn =>
    obtain ⟨p, hp⟩ := lineOf?_eq_some hn
    have hload := load_setLine hp f
    rw [h] at hload
    exact ⟨le_rfl, by omega⟩
  · exact ⟨le_rfl, le_rfl⟩

theorem Stage.rank_answer_le (stage : Stage α) :
    (∀ r, (stage.answer r).rank ≤ stage.rank) ∧ (∀ r, (stage.answerList r).rank ≤ stage.rank) ∧
      stage.answerStop.rank ≤ stage.rank := by
  cases stage with
  | waiting next => exact ⟨fun r => (Ordinal.lt_iSup_add_one _ r).le, fun _ => le_rfl, le_rfl⟩
  | listing next => exact ⟨fun _ => le_rfl, fun r => (Ordinal.lt_iSup_add_one _ r).le, le_rfl⟩
  | stopping next => exact ⟨fun _ => le_rfl, fun _ => le_rfl, (Ordinal.lt_iSup_add_one _ ()).le⟩
  | ready | exchanging | streaming | done => exact ⟨fun _ => le_rfl, fun _ => le_rfl, le_rfl⟩

private theorem applyOutput_le (s : Session α) (output : Table.Output) :
    (s.applyOutput output).1.ranks ≤ s.ranks ∧ (s.applyOutput output).1.load ≤ s.load + output.load := by
  cases output with
  | opened k c =>
    have hnew : (s.openLine (.table k)).load = s.load + 3 := by
      simp [openLine, load, Line.load]
      omega
    exact ⟨le_rfl, hnew.le⟩
  | command k c => exact onTableLine_le s k fun p => p.load_queue c
  | dropped k => exact onTableLine_le (f := Line.dropHandle) s k fun _ => rfl
  | handled => exact ⟨ranks_setCall_le fun _ _ => le_rfl, load_setCall_le fun _ => by simp [Table.Output.load]⟩
  | released => exact ⟨ranks_setCall_le fun _ _ => le_rfl, load_setCall_le fun _ => Nat.le_add_right ..⟩
  | answered _ r =>
    exact ⟨ranks_setCall_le fun c _ => c.stage.rank_answer_le.1 r, load_setCall_le fun _ => Nat.le_add_right ..⟩
  | listed _ r =>
    exact ⟨ranks_setCall_le fun c _ => c.stage.rank_answer_le.2.1 r, load_setCall_le fun _ => Nat.le_add_right ..⟩
  | stopped =>
    exact ⟨ranks_setCall_le fun c _ => c.stage.rank_answer_le.2.2, load_setCall_le fun _ => Nat.le_add_right ..⟩

theorem applyOutputs_le (s : Session α) (outputs : List Table.Output) :
    (s.applyOutputs outputs).1.ranks ≤ s.ranks ∧
      (s.applyOutputs outputs).1.load ≤ s.load + (outputs.map Table.Output.load).sum := by
  induction outputs generalizing s with
  | nil => exact ⟨le_rfl, le_rfl⟩
  | cons output outputs ih =>
    obtain ⟨hranks, hload⟩ := applyOutput_le s output
    obtain ⟨hranks', hload'⟩ := ih (s.applyOutput output).1
    refine ⟨hranks'.trans hranks, hload'.trans ?_⟩
    simp only [List.map_cons, List.sum_cons]
    omega

/-! ### Moves -/

/-- A script has come further, or less is on its way. -/
def Descends (s' s : Session α) : Prop := s'.ranks < s.ranks ∨ s'.ranks ≤ s.ranks ∧ s'.load < s.load

noncomputable def measure (s : Session α) : (Nat →₀ Ordinal.{0}) ×ₗ Nat := toLex (s.ranks, s.load)

theorem Descends.measure_lt (h : s'.Descends s) : s'.measure < s.measure := by
  rw [measure, measure, Prod.Lex.toLex_lt_toLex]
  rcases h with hr | ⟨hr, hl⟩
  · exact .inl hr
  · exact hr.lt_or_eq.imp_right fun heq => ⟨heq, hl⟩

private theorem resume_lt {script : Script α} (h : s.stage? id = some (.ready script)) :
    (s.resume id script).1.ranks < s.ranks := by
  cases script with
  | finish a => exact ranks_setStage_lt h (by simp [Stage.rank, Script.rank])
  | request c next =>
    refine ranks_setStage_lt (s := s.openLine (.call id)) h (Order.lt_add_one_iff.mpr ?_)
    exact Ordinal.iSup_le fun outcome => Ordinal.le_iSup (fun r => (next r).rank + 1) (requestResult c outcome)
  | publish c _ _ next =>
    refine ranks_setStage_lt (s := s.openLine (.call id)) h (Order.lt_add_one_iff.mpr ?_)
    exact Ordinal.iSup_le fun outcome => Ordinal.le_iSup (fun r => (next r).rank + 1) (publishResult c outcome)
  | subscribe | unsubscribe | list | shutdown =>
    exact ranks_setStage_lt (s := { s with commands := _ }) h (lt_add_one _)
  | print | stream => exact ranks_setStage_lt h (lt_add_one _)

private theorem continueExchange_descends {line deadline : Nat} {x : Exchange}
    {next : Exchange.Outcome → Script α} {o : Owner} {p q : Line}
    (h : s.stage? id = some (.exchanging line x deadline next)) (hl : s.lines[line]? = some (o, p))
    {r : Exchange × List Exchange.Action} (hq : q.load < p.load ∨ Exchange.outcomes r.2 ≠ []) :
    (s.continueExchange id line q r.1 deadline next r.2).Descends s := by
  unfold continueExchange
  rw [performExchange_eq]
  cases hlast : (Exchange.outcomes r.2).getLast? with
  | some outcome =>
    exact .inl (ranks_setStage_lt (s := (s.setLine ..).setLine ..) h (Ordinal.lt_iSup_add_one _ outcome))
  | none =>
    have hlt := hq.resolve_right (not_not.mpr (List.getLast?_eq_none_iff.mp hlast))
    obtain ⟨c, hc, hs⟩ := stage?_eq_some h
    refine .inr ⟨ranks_setCall_le (s := s.setLine ..) fun c' hc' => ?_, ?_⟩
    · obtain rfl := Option.some.inj (hc.symm.trans hc')
      rw [hs]
      exact le_rfl
    · have hline := load_setLine hl fun _ => (Exchange.commands r.2).foldl Line.queue q
      have hcall := load_setCall (s := s.setLine line fun _ => (Exchange.commands r.2).foldl Line.queue q) hc
        fun c => { c with stage := .exchanging line r.1 deadline next }
      rw [Line.load_foldl_queue] at hline
      dsimp only [setStage] at hcall ⊢
      omega

private theorem take_descends {line deadline : Nat} {x : Exchange} {next : Exchange.Outcome → Script α}
    (h : s.stage? id = some (.exchanging line x deadline next))
    (ht : s.takeEvent id line x deadline next = some s') : s'.Descends s := by
  unfold takeEvent at ht
  cases hp : s.line? line with
  | none => simp [hp] at ht
  | some p =>
    obtain ⟨o, hl⟩ := line?_eq_some hp
    simp only [hp, Option.map_some] at ht
    split at ht
    · next q e hn =>
      have ht : s.continueExchange id line q (x.onEvent e).1 deadline next (x.onEvent e).2 = s' :=
        Option.some.inj ht
      exact ht ▸ continueExchange_descends h hl (.inl (Line.load_lt_of_nextEvent (Option.some.inj hn)))
    · obtain rfl := Option.some.inj ht
      exact .inl (ranks_setStage_lt (s := s.setLine ..) h (Ordinal.lt_iSup_add_one _ _))
    · contradiction
    · contradiction

private theorem expire_descends {line deadline : Nat} {x : Exchange} {next : Exchange.Outcome → Script α}
    (h : s.stage? id = some (.exchanging line x deadline next))
    (hx : Exchange.outcomes (x.onTimeout s.timeout).2 ≠ [])
    (ht : s.expire id line x deadline next = some s') : s'.Descends s := by
  unfold expire at ht
  split at ht
  · contradiction
  · next p hp =>
    obtain ⟨o, hl⟩ := line?_eq_some hp
    split at ht
    · have ht : s.continueExchange id line p (x.onTimeout s.timeout).1 deadline next
        (x.onTimeout s.timeout).2 = s' := Option.some.inj ht
      exact ht ▸ continueExchange_descends h hl (.inr hx)
    · contradiction

private theorem look_descends {seen : Nat} {c : CallState α} {limit : Option Nat}
    {render : Envelope → String} {next : Bool → Script α} {effects : List (Effect α)}
    (hc : s.call? id = some c) (hs : c.stage = .streaming limit seen render next)
    (h : s.look id c limit seen render next = some (s', effects)) : s'.Descends s := by
  have hstage : s.stage? id = some c.stage := by simp [stage?, hc]
  unfold look at h
  split at h
  · next rest hin =>
    obtain ⟨rfl, -⟩ := Prod.mk.inj (Option.some.inj h)
    have hload := load_setCall hc fun c => { c with inbox := rest }
    simp only [hin, List.length_cons] at hload
    exact .inr ⟨ranks_setCall_le fun _ _ => le_rfl, by omega⟩
  · next envelope rest hin =>
    obtain ⟨rfl, -⟩ := Prod.mk.inj (Option.some.inj h)
    split
    · exact .inl (ranks_setCall_lt hc (hs ▸ Ordinal.lt_iSup_add_one _ true))
    · refine .inr ⟨ranks_setCall_le fun c' hc' => ?_, ?_⟩
      · obtain rfl := Option.some.inj (hc.symm.trans hc')
        rw [hs]
        exact le_rfl
      · have hload := load_setCall hc fun c =>
          { c with inbox := rest, stage := .streaming limit (seen + 1) render next }
        simp only [hin, List.length_cons] at hload
        omega
  · split at h
    · obtain ⟨rfl, -⟩ := Prod.mk.inj (Option.some.inj h)
      exact .inl (ranks_setStage_lt hstage (hs ▸ Ordinal.lt_iSup_add_one _ false))
    · contradiction

private theorem forward_descends (h : s.forward n = some s') : s'.Descends s := by
  unfold forward at h
  split at h
  · next k p hl =>
    split at h
    · split at h
      · next q e hn =>
        have hlt := Line.load_lt_of_nextEvent hn
        split at h
        · next hr =>
          obtain rfl := Option.some.inj h
          have hload := load_setLine (s := { s with events := s.events ++ [(k, e)] }) hl fun _ => q
          have hevents : load { s with events := s.events ++ [(k, e)] } = s.load + 2 := by
            simp only [load, List.length_append, List.length_singleton]
            omega
          exact .inr ⟨le_rfl, by dsimp only [setLine] at hload ⊢; omega⟩
        · next hr =>
          obtain rfl := Option.some.inj h
          have hload := load_setLine hl fun _ => q.dropEvents
          have hle := q.load_dropEvents_le
          exact .inr ⟨le_rfl, by omega⟩
      · contradiction
    · contradiction
  · contradiction

/-- The table's answer costs no more than its outputs, and gains what stopping is worth. -/
private theorem handle_le (s : Session α) (input : Table.Input) :
    (s.handle input).1.ranks ≤ s.ranks ∧
      (s.handle input).1.load + s.table.running.toNat ≤
        s.load + (s.table.step input).1.running.toNat + ((s.table.step input).2.map Table.Output.load).sum := by
  obtain ⟨hranks, hload⟩ :=
    applyOutputs_le { s with table := (s.table.step input).1 } (s.table.step input).2
  refine ⟨hranks, ?_⟩
  rw [← handle_eq rfl] at hload
  simp only [load] at hload ⊢
  omega

private theorem handle_descends (rest : Session α) (input : Table.Input) (hwf : rest.table.WellFormed)
    (hranks : rest.ranks ≤ s.ranks)
    (hload : rest.load + (if input.event?.isSome then 1 else 3) < s.load) :
    (rest.handle input).1.Descends s := by
  obtain ⟨hr, hl⟩ := handle_le rest input
  have hc := Table.step_change hwf input
  have hrun : (rest.table.step input).1.running.toNat ≤ rest.table.running.toNat :=
    Bool.toNat_le_toNat hc.running_of
  have hout := hc.load_le
  exact .inr ⟨hr.trans hranks, by omega⟩

theorem perform_descends {m : Move} {effects : List (Effect α)} (hwf : s.table.WellFormed)
    (hlate : ∀ id n x deadline next, s.stage? id = some (.exchanging n x deadline next) →
      Exchange.outcomes (x.onTimeout s.timeout).2 ≠ [])
    (h : s.perform m = some (s', effects)) : s'.Descends s := by
  cases m with
  | resume id =>
    simp only [perform] at h
    split at h
    · next script hs =>
      have hlt := resume_lt hs
      rw [Option.some.inj h] at hlt
      exact .inl hlt
    · contradiction
  | take id =>
    simp only [perform] at h
    split at h
    · next hs =>
      obtain ⟨_, ht, heq⟩ := Option.map_eq_some_iff.mp h
      obtain ⟨rfl, -⟩ := Prod.mk.inj heq
      exact take_descends hs ht
    · contradiction
  | expire id =>
    simp only [perform] at h
    split at h
    · next hs =>
      obtain ⟨_, ht, heq⟩ := Option.map_eq_some_iff.mp h
      obtain ⟨rfl, -⟩ := Prod.mk.inj heq
      exact expire_descends hs (hlate _ _ _ _ _ hs) ht
    · contradiction
  | look id =>
    simp only [perform] at h
    split at h
    · next c hc =>
      split at h
      · next hs => exact look_descends hc hs h
      · contradiction
    · contradiction
  | forward n =>
    obtain ⟨_, ht, heq⟩ := Option.map_eq_some_iff.mp h
    obtain ⟨rfl, -⟩ := Prod.mk.inj heq
    exact forward_descends ht
  | command =>
    simp only [perform] at h
    split at h
    · next input rest hc =>
      have hd : (handle { s with commands := rest } input).1.Descends s := by
        refine handle_descends { s with commands := rest } input hwf le_rfl ?_
        simp only [load, hc, List.length_cons]
        split <;> omega
      rwa [Option.some.inj h] at hd
    · contradiction
  | event =>
    simp only [perform] at h
    split at h
    · next k e rest _ he =>
      have hd : (handle { s with events := rest } (.event k e)).1.Descends s := by
        refine handle_descends { s with events := rest } (.event k e) hwf le_rfl ?_
        simp only [load, he, List.length_cons, Table.Input.event?, Option.isSome_some, if_true]
        omega
      rwa [Option.some.inj h] at hd
    · contradiction
  | abandon =>
    simp only [perform] at h
    split at h
    · next hgone =>
      have hrun : s.table.running := by
        simp only [Bool.and_eq_true] at hgone
        exact hgone.1.1.2
      have hstep : s.table.step .abandoned = s.table.close := by simp [Table.step, hrun]
      obtain ⟨hranks, hload⟩ := handle_le s .abandoned
      rw [hstep, hrun, Table.load_close] at hload
      have hd : (s.handle .abandoned).1.Descends s := by
        refine .inr ⟨hranks, ?_⟩
        simp only [Table.close, Bool.toNat_true, Bool.toNat_false] at hload
        omega
      rwa [Option.some.inj h] at hd
    · contradiction

/-! ### Every schedule -/

/-- An exchange that runs out of time has an outcome. -/
private theorem Logged.outcomes_onTimeout (h : Logged timeout s log) {x : Exchange} {deadline : Nat}
    {next : Exchange.Outcome → Script α} (hs : s.stage? id = some (.exchanging n x deadline next)) :
    Exchange.outcomes (x.onTimeout s.timeout).2 ≠ [] := by
  obtain ⟨x₀, hx, hmade, hout⟩ := h.trace.undecided_of_errand (errand?_of_stage? hs)
  have hmade : x = x₀.after (yielded n log) := hmade
  rw [hmade, (Exchange.undecided hx hout).onTimeout]
  simp

theorem Logged.descends (h : Logged timeout s log) {m : Move} {effects : List (Effect α)}
    (hm : s.perform m = some (s', effects)) : s'.Descends s :=
  perform_descends h.trace.wired.wellFormed (fun _ _ _ _ _ => h.outcomes_onTimeout) hm

/-- No session goes on forever by itself: no endless run of moves starts in it. -/
theorem Logged.not_endless (h : Logged timeout s log) (run : Nat → Session α) (hs : run 0 = s) :
    ∃ i, ∀ m effects, (run i).perform m ≠ some (run (i + 1), effects) := by
  by_contra! hgo
  -- That an exchange ends when its time is up is known only of sessions that can be reached.
  have hlogged (i : Nat) : ∃ log, Logged timeout (run i) log := by
    induction i with
    | zero => exact ⟨log, hs ▸ h⟩
    | succ i ih =>
      obtain ⟨log, ih⟩ := ih
      obtain ⟨m, effects, hm⟩ := hgo i
      exact ⟨_, ih.move hm⟩
  obtain ⟨i, hi⟩ := WellFounded.not_rel_apply_succ (r := (· < ·)) fun i => (run i).measure
  obtain ⟨log, hl⟩ := hlogged i
  obtain ⟨m, effects, hm⟩ := hgo i
  exact hi (hl.descends hm).measure_lt

end Session

end RobotBridge
