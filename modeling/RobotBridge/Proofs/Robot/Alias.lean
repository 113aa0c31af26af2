import Mathlib.Data.List.Forall2
import RobotBridge.Proofs.Session.Errands
import RobotBridge.Proofs.Session.HandlerGuarantees
import RobotBridge.Proofs.Session.Inquiry
import RobotBridge.Robot

/-! Channels by either name: a run is the same whichever names its calls use, and all names of one channel on
the wire share one subscription. -/
namespace RobotBridge

namespace Channel

theorem resolve_wireName (c : Channel) : resolve c.wireName = c.wireName := by
  cases c <;> decide

/-- A name that has been resolved stays as it is. -/
theorem resolve_resolve (name : String) : resolve (resolve name) = resolve name := by
  cases h : ofLogicalName? name with
  | none =>
    have hself : resolve name = name := by rw [resolve, h]
    rw [hself, hself]
  | some c =>
    have hwire : resolve name = c.wireName := by rw [resolve, h]
    rw [hwire, resolve_wireName]

/-- The name of a channel stands for its name on the wire, and any other name for itself. -/
theorem resolve_eq (name : String) : resolve name = ((ofName? name).map wireName).getD name := by
  unfold resolve ofName?
  cases ofLogicalName? name with
  | some c => rfl
  | none =>
    cases h : ofWireName? name with
    | none => rfl
    | some c =>
      have hwire : c.wireName = name := by simpa using List.find?_some h
      exact hwire.symm

end Channel

namespace Robot
open Session (Act Move Record Recorded asked own)
open Session.Table (Input Output calls)

/-! ### Calls by name -/

inductive Request where
  | subscribe (channel : String)
  | unsubscribe (channel : String)
  | readData (channel : String)

inductive Answer where
  | unit (result : Except CallError Unit)
  | data (result : Except CallError Json)

namespace Request

def script : Request → Script Answer
  | subscribe channel => .unit <$> (Robot.subscribe channel).run
  | unsubscribe channel => .unit <$> (Robot.unsubscribe channel).run
  | readData channel => .data <$> (Robot.readData channel).run

def onWire : Request → Request
  | subscribe channel => subscribe (Channel.resolve channel)
  | unsubscribe channel => unsubscribe (Channel.resolve channel)
  | readData channel => readData (Channel.resolve channel)

/-- Two calls that differ at most in the name that they use for a channel. -/
inductive Alias : Request → Request → Prop
  | subscribe {a b} : Channel.resolve a = Channel.resolve b → Alias (subscribe a) (subscribe b)
  | unsubscribe {a b} : Channel.resolve a = Channel.resolve b → Alias (unsubscribe a) (unsubscribe b)
  | readData {a b} : Channel.resolve a = Channel.resolve b → Alias (readData a) (readData b)

variable {q q' : Request}

/-- A name that is resolved twice does the same. -/
theorem script_onWire (q : Request) : q.onWire.script = q.script := by
  cases q <;> simp only [onWire, script, Robot.subscribe, Robot.unsubscribe, Robot.readData, Channel.resolve_resolve]

theorem Alias.onWire_eq (h : Alias q q') : q.onWire = q'.onWire := by
  cases h with
  | subscribe h | unsubscribe h | readData h => rw [onWire, onWire, h]

def input? (id : Nat) : Request → Option Input
  | subscribe channel => some (.subscribe id (Channel.resolve channel))
  | unsubscribe channel => some (.unsubscribe id (Channel.resolve channel))
  | readData _ => none

theorem subscribe_inquires (channel : String) :
    (subscribe channel).script.Inquires .unit fun id => .subscribe id (Channel.resolve channel) := .subscribe _

theorem unsubscribe_inquires (channel : String) :
    (unsubscribe channel).script.Inquires .unit fun id => .unsubscribe id (Channel.resolve channel) := .unsubscribe _

theorem readData_oneShots (channel : String) : (readData channel).script.OneShots := by
  refine .step rfl fun outcome => ?_
  cases Session.requestResult (Channel.resolve channel) outcome with
  | error => exact .finish
  | ok => exact .finish

end Request

/-! ### Runs -/

/-- One thing in a run of such calls: a call, something that a transport or the clock does, the end of calls, or
a move of the session. -/
inductive Step where
  | request (request : Request)
  | emit (line : Nat) (e : Event)
  | dropTransport (line : Nat)
  | advance (span : Duration)
  | detach
  | move (m : Move)

namespace Step

def deed : Step → Act Answer ⊕ Move
  | request q => .inl (.call q.script)
  | emit line e => .inl (.emit line e)
  | dropTransport line => .inl (.dropTransport line)
  | advance span => .inl (.advance span)
  | detach => .inl .detach
  | move m => .inr m

def onWire : Step → Step
  | request q => request q.onWire
  | step => step

inductive Alias : Step → Step → Prop
  | request {q q'} : Request.Alias q q' → Alias (request q) (request q')
  | refl (step) : Alias step step

theorem deed_onWire (step : Step) : step.onWire.deed = step.deed := by
  cases step with
  | request q => rw [onWire, deed, Request.script_onWire, deed]
  | emit | dropTransport | advance | detach | move => rfl

theorem Alias.onWire_eq {step step' : Step} (h : Alias step step') : step.onWire = step'.onWire := by
  cases h with
  | request h => rw [onWire, onWire, h.onWire_eq]
  | refl => rfl

end Step

/-- What a session with a time limit comes to in a run, with the record of it: connections and frames, results
and handler calls. -/
def play? (timeout : Duration) (steps : List Step) : Option (Session Answer × Record Answer) :=
  Session.play? timeout (steps.map Step.deed)

variable {timeout : Duration} {steps steps' : List Step} {s s' s'' : Session Answer} {r r' r'' : Record Answer}
  {id : Nat} {q : Request} {input : Input}

/-- All names can be resolved beforehand. -/
theorem play?_onWire (timeout : Duration) (steps : List Step) :
    play? timeout (steps.map Step.onWire) = play? timeout steps := by
  rw [play?, play?, List.map_map]
  exact congrArg (Session.play? timeout) (List.map_congr_left fun step _ => step.deed_onWire)

theorem play?_alias (h : List.Forall₂ Step.Alias steps steps') : play? timeout steps = play? timeout steps' := by
  have hwire : steps.map Step.onWire = steps'.map Step.onWire := by
    induction h with
    | nil => rfl
    | cons hstep _ ih => rw [List.map_cons, List.map_cons, hstep.onWire_eq, ih]
  rw [← play?_onWire, hwire, play?_onWire]

/-! ### What the calls of a run ask for -/

def Named (r : Record Answer) : Prop := ∀ script ∈ r.scripts, ∃ q : Request, script = q.script

private theorem Named.proceed (hn : Named r) {step : Step}
    (h : Session.proceed? (s, r) step.deed = some (s', r')) : Named r' := by
  cases step with
  | request q =>
    obtain ⟨-, rfl⟩ := Prod.mk.inj (Option.some.inj h)
    intro script hm
    rcases List.mem_append.mp hm with hold | hnew
    · exact hn script hold
    · refine ⟨q, ?_⟩
      rw [Option.mem_toList, Act.script?] at hnew
      split at hnew
      · exact (Option.some.inj hnew).symm
      · contradiction
  | emit | dropTransport | advance | detach =>
    obtain ⟨-, rfl⟩ := Prod.mk.inj (Option.some.inj h)
    intro script hm
    rcases List.mem_append.mp hm with hold | hnew
    · exact hn script hold
    · exact absurd hnew List.not_mem_nil
  | move m =>
    obtain ⟨p, -, heq⟩ := Option.map_eq_some_iff.mp h
    obtain ⟨-, rfl⟩ := Prod.mk.inj heq
    exact hn

private theorem Named.play (hn : Named r)
    (h : (steps.map Step.deed).foldlM Session.proceed? (s, r) = some (s', r')) : Named r' := by
  induction steps generalizing s r with
  | nil =>
    obtain ⟨-, rfl⟩ := Prod.mk.inj (Option.some.inj h)
    exact hn
  | cons step steps ih =>
    obtain ⟨⟨s₁, r₁⟩, hstep, hrest⟩ := Option.bind_eq_some_iff.mp h
    exact ih (hn.proceed hstep) hrest

theorem recorded_of_play? (h : play? timeout steps = some (s, r)) : Recorded timeout s r :=
  Session.recorded_iff_play?.mpr ⟨_, h⟩

theorem named_of_play? (h : play? timeout steps = some (s, r)) : Named r :=
  Named.play (fun _ hm => absurd hm List.not_mem_nil) h

theorem asks_only (h : Recorded timeout s r) (hid : r.scripts[id]? = some q.script) :
    asked s r id <+: (q.input? id).toList := by
  cases q with
  | subscribe channel => exact h.asks_once hid (Request.subscribe_inquires channel)
  | unsubscribe channel => exact h.asks_once hid (Request.unsubscribe_inquires channel)
  | readData channel =>
    rw [h.asked_eq_nil hid (Request.readData_oneShots channel)]
    exact List.nil_prefix

/-- What is asked for in a run is what some call by name asks for. -/
theorem exists_request (h : Recorded timeout s r) (hn : Named r) (hm : input ∈ asked s r id) :
    ∃ q : Request, r.scripts[id]? = some q.script ∧ q.input? id = some input := by
  obtain ⟨script, hid⟩ : ∃ script, r.scripts[id]? = some script := by
    rw [← Option.isSome_iff_exists, ← Option.ne_none_iff_isSome, Ne, List.getElem?_eq_none_iff, h.scripts_length,
      ← Session.call?_eq_none]
    intro hnone
    rw [(h.unmade hnone).1] at hm
    exact absurd hm List.not_mem_nil
  obtain ⟨q, rfl⟩ := hn script (List.mem_of_getElem? hid)
  have hq := (asks_only h hid).subset hm
  exact ⟨q, hid, Option.mem_toList.mp hq⟩

/-- A call that has been taken up is among those that its number stands for. -/
theorem mem_asked (hm : input ∈ r.history.inputs) (hc : input.call? = some id) : input ∈ asked s r id :=
  (Session.handled_prefix s r id).subset (List.mem_filter.mpr ⟨hm, decide_eq_true hc⟩)

theorem asked_length_le (h : Recorded timeout s r) (hn : Named r) (id : Nat) : (asked s r id).length ≤ 1 := by
  cases hasked : asked s r id with
  | nil => exact Nat.zero_le 1
  | cons input rest =>
    obtain ⟨q, hid, hq⟩ := exists_request h hn (hasked ▸ List.mem_cons_self)
    have hle := (asks_only h hid).length_le
    rwa [hasked, hq] at hle

/-- No call is taken up twice. -/
theorem calls_nodup (h : Recorded timeout s r) (hn : Named r) : (calls r.history.inputs).Nodup := by
  rw [List.nodup_iff_count]
  intro id
  have hcount : (calls r.history.inputs).count id = (own id r.history.inputs).length := by
    rw [calls, List.count_filterMap, own, List.countP_eq_length_filter]
    exact congrArg List.length (List.filter_congr fun i _ => beq_eq_decide ..)
  rw [hcount]
  exact Nat.le_trans (Session.handled_prefix s r id).length_le (asked_length_le h hn id)

/-! ### One subscription for all names of a channel -/

structure Met (id : Nat) (channel : String) (entry : Session.Entry) (entry' : Option Session.Entry)
    (out : List Output) : Prop where
  connecting : entry.machine.state = .connecting → entry' = some entry ∧
    out = [.answered id (.error (.invalidState channel "cannot unsubscribe while connecting"))]
  active : entry.machine.state = .active →
    entry' = some { entry with machine := ⟨channel, .closing⟩, unsubscribers := [id] } ∧
      out = [.command entry.connection (.close CloseCode.normal)]
  closing : entry.machine.state = .closing →
    entry' = some { entry with unsubscribers := entry.unsubscribers ++ [id] } ∧ out = []

structure Shared (s : Session Answer) (r : Record Answer) : Prop where
  /-- Every entry was made by a call to subscribe, and is kept under the name on the wire. -/
  keyed : ∀ p ∈ s.table.entries, ∃ a, r.scripts[p.2.owner]? = some (Request.subscribe a).script ∧
    p.1 = Channel.resolve a
  /-- No two entries are for one channel on the wire. -/
  sole : ∀ p ∈ s.table.entries, ∀ q ∈ s.table.entries, Channel.resolve p.1 = Channel.resolve q.1 → p = q
  /-- A call to unsubscribe that comes to the table meets the subscription under any other name of the channel: it
  closes the connection and waits for its end, or waits with those that have asked before, or is refused as long as
  no message has come. -/
  meets : ∀ p ∈ s.table.entries, ∀ a b id input rest s' effects,
    r.scripts[p.2.owner]? = some (Request.subscribe a).script →
    r.scripts[id]? = some (Request.unsubscribe b).script → Channel.resolve a = Channel.resolve b →
    s.commands = input :: rest → input.call? = some id → s.perform .command = some (s', effects) →
    Met id p.1 p.2 (s'.table.entryOf? p.1) (s.outputsOf .command)

private theorem keyed_of_recorded (h : Recorded timeout s r) (hn : Named r) {p : String × Session.Entry}
    (hp : p ∈ s.table.entries) :
    ∃ a, r.scripts[p.2.owner]? = some (Request.subscribe a).script ∧ p.1 = Channel.resolve a := by
  rw [h.reached.consistent.table] at hp
  obtain ⟨before, later, hin, -⟩ := Session.Table.opener hp
  have hm : .subscribe p.2.owner p.1 ∈ r.history.inputs := by
    rw [hin]
    simp
  obtain ⟨q, hid, hq⟩ := exists_request h hn (mem_asked (s := s) hm rfl)
  cases q with
  | subscribe a =>
    obtain ⟨-, hname⟩ := Input.subscribe.inj (Option.some.inj hq)
    exact ⟨a, hid, hname.symm⟩
  | unsubscribe | readData => simp [Request.input?] at hq

private theorem sole_of_recorded (h : Recorded timeout s r) (hn : Named r) {p q : String × Session.Entry}
    (hp : p ∈ s.table.entries) (hq : q ∈ s.table.entries)
    (hname : Channel.resolve p.1 = Channel.resolve q.1) : p = q := by
  obtain ⟨a, -, ha⟩ := keyed_of_recorded h hn hp
  obtain ⟨b, -, hb⟩ := keyed_of_recorded h hn hq
  rw [ha, hb, Channel.resolve_resolve, Channel.resolve_resolve, ← ha, ← hb] at hname
  obtain ⟨c, entry⟩ := p
  obtain ⟨d, other⟩ := q
  obtain rfl : c = d := hname
  have hasc := h.wellFormed.ascending
  have hentry := (Session.Table.entryOf?_eq_some_iff hasc).mpr hp
  have hother := (Session.Table.entryOf?_eq_some_iff hasc).mpr hq
  rw [Option.some.inj (hentry.symm.trans hother)]

/-- The first command of the calls that wait is what the call of its number asks for. -/
private theorem command_eq (h : Recorded timeout s r) {rest : List Input} (hid : r.scripts[id]? = some q.script)
    (hcommands : s.commands = input :: rest) (hcall : input.call? = some id) : q.input? id = some input := by
  have hm : input ∈ asked s r id := by
    refine List.mem_append_right _ (List.mem_filter.mpr ⟨?_, decide_eq_true hcall⟩)
    rw [hcommands]
    exact List.mem_cons_self
  exact Option.mem_toList.mp ((asks_only h hid).subset hm)

/-- The table meets a call to unsubscribe by the entry of its channel. -/
private theorem met_of_change {t t' : Session.Table} {out : List Output} {c : String} {entry : Session.Entry}
    (hwf : t.WellFormed) (hc : Session.Table.Change t (.unsubscribe id c) t' out) (he : t.entryOf? c = some entry) :
    Met id c entry (t'.entryOf? c) out := by
  cases hc with
  | absent _ hnone =>
    rw [he] at hnone
    contradiction
  | turn _ hd ht =>
    -- Each turn is of one state, so the other two say nothing.
    cases ht with
    | early | leave | attend =>
      cases he.symm.trans hd
      rw [Session.Table.entryOf?_place_self hwf.ascending]
      constructor <;> simp
  | stop _ hs => contradiction
  | refuse hr =>
    have hm := hwf.mem_of_entryOf? he
    rw [hwf.stopped hr] at hm
    exact absurd hm List.not_mem_nil

theorem shared_of_recorded (h : Recorded timeout s r) (hn : Named r) : Shared s r where
  keyed _ hp := keyed_of_recorded h hn hp
  sole _ hp _ hq hname := sole_of_recorded h hn hp hq hname
  meets := by
    intro p hp a b id input rest s' effects howner hid hname hcommands hcall hm
    obtain ⟨a', howner', hkey⟩ := keyed_of_recorded h hn hp
    have hsame : Channel.resolve a = Channel.resolve a' := by
      have hscript := Option.some.inj (howner.symm.trans howner')
      exact (Script.subscribe.inj hscript).1
    obtain rfl : Input.unsubscribe id p.1 = input := by
      rw [hkey, ← hsame, hname]
      exact Option.some.inj (command_eq h hid hcommands hcall)
    have hi : s.inputOf? .command = some (.unsubscribe id p.1) := by rw [Session.inputOf?, hcommands, List.head?_cons]
    have hwf := h.wellFormed
    have htable := h.table_move hm
    rw [hi] at htable
    have hentry := (Session.Table.entryOf?_eq_some_iff hwf.ascending).mpr hp
    rw [Session.outputsOf_eq hi, htable]
    exact met_of_change hwf (Session.Table.step_change hwf _) hentry

/-! ### After an unsubscribe -/

/-- What has been done in a run stays done as it goes on. -/
theorem play?_extends {more : List Step} (h : play? timeout steps = some (s, r))
    (h' : play? timeout (steps ++ more) = some (s', r')) :
    r.scripts <+: r'.scripts ∧ r.history.inputs <+: r'.history.inputs := by
  rw [play?, List.map_append, Session.play?_append, ← play?, h] at h'
  exact Session.foldlM_proceed?_extends h'

/-- A call that the table has answered was taken up, as what its script asks for. -/
private theorem taken_up (h : Recorded timeout s r) (hid : r.scripts[id]? = some q.script)
    (hq : q.input? id = some input) {inputs : List Input} (hsub : inputs ⊆ r.history.inputs)
    {result : Except CallError Unit} (hm : .answered id result ∈ ({} : Session.Table).said inputs) :
    input ∈ inputs := by
  obtain ⟨w, hw, hcall⟩ := List.mem_filterMap.mp (Session.Table.mem_calls_of_answered hm)
  have hasked := (asks_only h hid).subset (mem_asked (s := s) (hsub hw) hcall)
  obtain rfl : input = w := Option.some.inj (hq.symm.trans (Option.mem_toList.mp hasked))
  exact hw

private theorem answered_of_done (h : Recorded timeout s r) {wrapped : Script Answer} {ask : Nat → Input}
    (hid : r.scripts[id]? = some wrapped) (hs : wrapped.Inquires .unit ask)
    (hd : s.stage? id = some (.done (.unit (.ok ())))) :
    .answered id (.ok ()) ∈ ({} : Session.Table).said r.history.inputs := by
  obtain ⟨result, heq, hm⟩ := h.answered_of_done hid hs hd
  cases heq
  exact hm

/-- A call to unsubscribe that is made after a call to subscribe has returned `ok`, and then returns `ok` itself,
ends the subscription, by whatever names of the channel the two were made. -/
private theorem ends_of_recorded (h : Recorded timeout s r) (h' : Recorded timeout s' r')
    (h'' : Recorded timeout s'' r'') (hn : Named r'') (hmore : r.history.inputs <+: r'.history.inputs)
    (hmore' : r'.history.inputs <+: r''.history.inputs) {i j : Nat} {a b : String} (hi : r.scripts[i]? = some (Request.subscribe a).script)
    (hj : r'.scripts[j]? = some (Request.unsubscribe b).script) (hname : Channel.resolve a = Channel.resolve b)
    (hdone : s.stage? i = some (.done (.unit (.ok ())))) (hlate : s.call? j = none)
    (hdone' : s'.stage? j = some (.done (.unit (.ok ())))) :
    (∀ p ∈ s'.table.entries, p.2.owner ≠ i) ∧ r''.given i = r'.given i := by
  have hsub : .subscribe i (Channel.resolve b) ∈ r.history.inputs :=
    taken_up h hi (congrArg (fun c => some (Input.subscribe i c)) hname) (List.Subset.refl _)
      (answered_of_done h hi (Request.subscribe_inquires a) hdone)
  have hanswered := answered_of_done h' hj (Request.unsubscribe_inquires b) hdone'
  obtain ⟨xs, hxs⟩ := hmore
  obtain ⟨ys, hys⟩ := hmore'
  -- The answer comes after all that was taken up before the call was made.
  have hnot : .answered j (.ok ()) ∉ ({} : Session.Table).said r.history.inputs := fun hm => by
    obtain ⟨w, hw, hcall⟩ := List.mem_filterMap.mp (Session.Table.mem_calls_of_answered hm)
    have hasked := mem_asked (s := s) hw hcall
    rw [(h.unmade hlate).1] at hasked
    exact absurd hasked List.not_mem_nil
  rw [← hxs, Session.Table.said_append] at hanswered
  have hafter := (List.mem_append.mp hanswered).resolve_left hnot
  obtain ⟨mid, input, later, rfl, hok⟩ := Session.Table.mem_said.mp hafter
  rw [← Session.Table.after_append] at hok
  have hsub : .subscribe i (Channel.resolve b) ∈ r.history.inputs ++ mid ++ [input] :=
    List.mem_append_left _ (List.mem_append_left _ hsub)
  have hin : r'.history.inputs = r.history.inputs ++ mid ++ [input] ++ later := by simp [← hxs]
  have hin' : r''.history.inputs = r.history.inputs ++ mid ++ [input] ++ (later ++ ys) := by
    rw [← hys, hin, List.append_assoc]
  have hsaid : .answered j (.ok ()) ∈ ({} : Session.Table).said (r.history.inputs ++ mid ++ [input]) := by
    rw [Session.Table.said_append]
    exact List.mem_append_right _ (List.mem_append_left _ hok)
  have hunsub : .unsubscribe j (Channel.resolve b) ∈ r.history.inputs ++ mid ++ [input] :=
    taken_up h' hj rfl (hin ▸ List.subset_append_left ..) hsaid
  have hnodup : (calls (r.history.inputs ++ mid ++ [input] ++ (later ++ ys))).Nodup := hin' ▸ calls_nodup h'' hn
  have hsplit : (calls (r.history.inputs ++ mid ++ input :: (later ++ ys))).Nodup := by simpa using hnodup
  obtain ⟨-, hgone, -⟩ := Session.Table.granted hsplit hunsub hok
  constructor
  · intro p hp
    rw [h'.reached.consistent.table, hin] at hp
    rw [← List.append_assoc, Session.Table.calls_append] at hnodup
    exact Session.Table.owner_ne (List.nodup_append.mp hnodup).1 hgone hsub hp
  · have hsilent : Session.Table.noticesTo i ((({} : Session.Table).after r'.history.inputs).said ys) = [] := by
      refine Session.Table.noticesTo_eq_nil.mpr fun notice hm => ?_
      refine Session.Table.not_called hnodup hgone hsub notice ?_
      rw [Session.Table.said_append, ← Session.Table.after_append, ← hin]
      exact List.mem_append_right _ hm
    rw [Record.given, Record.given, ← hys, Session.Table.said_append, Session.Table.noticesTo_append, hsilent,
      List.append_nil]

/-- Names of a channel. A name is resolved once and for all, to the wire name of the channel that it is parsed
as, if it is, and otherwise to itself. A run of calls that subscribe, unsubscribe and read comes to the same
session with the same record, if it comes to any, whichever of the names that resolve alike its calls use. In
every run all names that resolve alike share one subscription, and what is subscribed by one is unsubscribed by
any other: the table keeps nothing for the call that subscribed, and its handler is called no more. -/
theorem aliases_share (timeout : Duration) :
    (∀ name, Channel.resolve (Channel.resolve name) = Channel.resolve name ∧
      Channel.resolve name = ((Channel.ofName? name).map Channel.wireName).getD name) ∧
    (∀ steps steps', List.Forall₂ Step.Alias steps steps' → play? timeout steps = play? timeout steps') ∧
    (∀ steps s r, play? timeout steps = some (s, r) → Shared s r) ∧
    ∀ steps mid later s r s' r' s'' r'' i j a b, play? timeout steps = some (s, r) →
      play? timeout (steps ++ mid) = some (s', r') → play? timeout (steps ++ mid ++ later) = some (s'', r'') →
      r.scripts[i]? = some (Request.subscribe a).script → r'.scripts[j]? = some (Request.unsubscribe b).script →
      Channel.resolve a = Channel.resolve b → s.stage? i = some (.done (.unit (.ok ()))) → s.call? j = none →
      s'.stage? j = some (.done (.unit (.ok ()))) →
      (∀ p ∈ s'.table.entries, p.2.owner ≠ i) ∧ r''.given i = r'.given i := by
  refine ⟨fun name => ⟨Channel.resolve_resolve name, Channel.resolve_eq name⟩, fun _ _ => play?_alias, ?_, ?_⟩
  · intro steps s r h
    exact shared_of_recorded (recorded_of_play? h) (named_of_play? h)
  · intro steps mid later s r s' r' s'' r'' i j a b h h' h'' hi hj hname hdone hlate hdone'
    exact ends_of_recorded (recorded_of_play? h) (recorded_of_play? h') (recorded_of_play? h'') (named_of_play? h'')
      (play?_extends h h').2 (play?_extends h' h'').2 hi hj hname hdone hlate hdone'

def subscribing (channel : String) : List Step :=
  [.request (.subscribe channel), .move (.resume 0), .move .command, .emit 0 (.message Envelope.init.encode),
    .move (.forward 0), .move .event, .move (.resume 0)]

def unsubscribing (channel : String) : List Step :=
  [.request (.unsubscribe channel), .move (.resume 1), .move .command, .emit 0 (.closed CloseCode.normal),
    .move (.forward 0), .move .event, .move (.resume 1)]

def resubscribing (channel : String) : List Step :=
  [.request (.subscribe channel), .move (.resume 2), .move .command, .emit 1 (.message Envelope.init.encode),
    .move (.forward 1), .move .event]

theorem aliases_share_odometry :
    play? ⟨5⟩ (subscribing "ODOMETRY") = play? ⟨5⟩ (subscribing "MBOT_ODOMETRY") ∧
    ∃ s r s' r' s'' r'', play? ⟨5⟩ (subscribing "ODOMETRY") = some (s, r) ∧ Shared s r ∧
      s.table.entries.map Prod.fst = ["MBOT_ODOMETRY"] ∧ s.stage? 0 = some (.done (.unit (.ok ()))) ∧
      play? ⟨5⟩ (subscribing "ODOMETRY" ++ unsubscribing "MBOT_ODOMETRY") = some (s', r') ∧
      s'.stage? 1 = some (.done (.unit (.ok ()))) ∧
      play? ⟨5⟩ (subscribing "ODOMETRY" ++ unsubscribing "MBOT_ODOMETRY" ++ resubscribing "ODOMETRY") =
        some (s'', r'') ∧
      r''.given 2 = [.message .init] ∧ r''.given 0 = r'.given 0 := by
  obtain ⟨-, halias, hshared, hends⟩ := aliases_share ⟨5⟩
  refine ⟨halias _ _ (.cons (.request (.subscribe (by decide))) ?_), _, _, _, _, _, _, rfl,
    hshared (subscribing "ODOMETRY") _ _ rfl, rfl, rfl, rfl, rfl, rfl, rfl, ?_⟩
  · exact List.forall₂_same.mpr fun step _ => .refl step
  · exact (hends (subscribing "ODOMETRY") (unsubscribing "MBOT_ODOMETRY") (resubscribing "ODOMETRY") _ _ _ _ _ _ 0 1
      "ODOMETRY" "MBOT_ODOMETRY" rfl rfl rfl rfl rfl (by decide) rfl rfl rfl).2

end Robot

end RobotBridge
