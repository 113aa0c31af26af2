import RobotBridge.CommandLine.Run
import RobotBridge.Proofs.Session.Rest
import RobotBridge.Proofs.Session.Sole

/-! Following a channel that nobody else in the session uses: what is printed of what the handler is given,
when the call unsubscribes and what it returns, under any schedule. -/
namespace RobotBridge
open Session (Stage CallState Record Recorded Notice Move Effect asked own)
open Session.Table (Input Output Sole answersTo noticesTo freed)

/-! ### The script -/

structure Follower (α : Type) where
  channel : String
  count : Option Nat
  wrap : Except CommandLine.Failure Unit → α

namespace Follower

variable {α : Type}

def script (f : Follower α) : Script α := f.wrap <$> (CommandLine.follow f.channel f.count).run

def wire (f : Follower α) : String := Channel.resolve f.channel

def refusal (f : Follower α) (error : CallError) : α :=
  f.wrap (.error ⟨["cannot subscribe to " ++ f.channel], error⟩)

def unsubscribed (f : Follower α) : Except CallError Unit → Script α
  | .ok () => .finish (f.wrap (.ok ()))
  | .error error => .finish (f.wrap (.error ⟨["cannot unsubscribe from " ++ f.channel], error⟩))

def streamed (f : Follower α) : Bool → Script α
  | true => .unsubscribe f.wire f.unsubscribed
  | false => .finish (f.wrap (.ok ()))

def subscribed (f : Follower α) : Except CallError Unit → Script α
  | .ok () => .stream f.count CommandLine.renderPush f.streamed
  | .error error => .finish (f.refusal error)

theorem script_eq (f : Follower α) : f.script = .subscribe f.wire f.subscribed := by
  refine congrArg (Script.subscribe _) (funext fun result => ?_)
  cases result with
  | error => rfl
  | ok =>
    refine congrArg (Script.stream _ _) (funext fun reached => ?_)
    cases reached with
    | false => rfl
    | true =>
      refine congrArg (Script.unsubscribe _) (funext fun result => ?_)
      cases result <;> rfl

def Returns (a : α) (stage : Stage α) : Prop := stage = .ready (.finish a) ∨ stage = .done a

/-- Where a call that follows a channel stands, with what it has asked for, what it was answered, what it has
printed, what is in its inbox and whether its handler is let go. -/
inductive Phase (f : Follower α) (id : Nat) :
    Stage α → List Input → List (Except CallError Unit) → List String → List Notice → Bool → Prop
  | made {inbox free} : Phase f id (.ready f.script) [] [] [] inbox free
  | asks {inbox free} : Phase f id (.waiting f.subscribed) [.subscribe id f.wire] [] [] inbox free
  | refused {error stage inbox free} : Returns (f.refusal error) stage →
      Phase f id stage [.subscribe id f.wire] [.error error] [] inbox free
  | begins {inbox free} : Phase f id (.ready (f.subscribed (.ok ()))) [.subscribe id f.wire] [.ok ()] [] inbox free
  | follows {printed inbox free} : (∀ n ∈ f.count, printed.length < n) →
      Phase f id (.streaming f.count printed.length CommandLine.renderPush f.streamed) [.subscribe id f.wire] [.ok ()]
        printed inbox free
  | reaches {printed inbox free} : f.count = some printed.length →
      Phase f id (.ready (f.streamed true)) [.subscribe id f.wire] [.ok ()] printed inbox free
  | leaves {printed inbox free} : f.count = some printed.length →
      Phase f id (.waiting f.unsubscribed) [.subscribe id f.wire, .unsubscribe id f.wire] [.ok ()] printed inbox free
  | left {stage printed inbox free} : f.count = some printed.length → Returns (f.wrap (.ok ())) stage →
      Phase f id stage [.subscribe id f.wire, .unsubscribe id f.wire] [.ok (), .ok ()] printed inbox free
  | ended {stage printed} : (∀ n ∈ f.count, printed.length < n) → Returns (f.wrap (.ok ())) stage →
      Phase f id stage [.subscribe id f.wire] [.ok ()] printed [] true

variable {f : Follower α} {id : Nat} {stage : Stage α} {handled requests : List Input}
  {told : List (Except CallError Unit)} {printed : List String} {inbox given : List Notice} {free : Bool}
  {input : Input} {out : List Output}

theorem Phase.requests_prefix (h : Phase f id stage requests told printed inbox free) :
    requests <+: [.subscribe id f.wire, .unsubscribe id f.wire] := by
  cases h <;> simp

/-- All calls that are made are for the one channel. -/
theorem Phase.channel (h : Phase f id stage requests told printed inbox free) :
    ∀ input ∈ requests, input.channel? = some f.wire := by
  intro input hm
  have hm := h.requests_prefix.subset hm
  simp only [List.mem_cons, List.not_mem_nil, or_false] at hm
  rcases hm with rfl | rfl <;> rfl

theorem Phase.printed_le (h : Phase f id stage requests told printed inbox free) :
    ∀ n ∈ f.count, printed.length ≤ n := by
  intro n hn
  cases h with
  | made | asks | refused | begins => exact Nat.zero_le n
  | follows hc | ended hc => exact Nat.le_of_lt (hc n hn)
  | reaches hc | leaves hc | left hc => exact Nat.le_of_eq (Option.some.inj (hc.symm.trans hn))

/-! ### What the table says to the call -/

/-- A call that has all its answers waits for none. -/
theorem Phase.not_isAsking (h : Phase f id stage requests told printed inbox free)
    (heq : told.length = requests.length) : stage.isAsking = false := by
  cases h with
  | made | begins | follows | reaches => rfl
  | asks | leaves => simp at heq
  | refused hr | left _ hr | ended _ hr => rcases hr with rfl | rfl <;> rfl

/-- What comes into the inbox before the call looks at it changes nothing. -/
theorem Phase.quiet {inbox' : List Notice} {free' : Bool} (h : Phase f id stage requests told printed inbox free)
    (hfree : free → inbox' = inbox ∧ free' = free) : Phase f id stage requests told printed inbox' free' := by
  cases h with
  | made => exact .made
  | asks => exact .asks
  | refused hr => exact .refused hr
  | begins => exact .begins
  | follows hc => exact .follows hc
  | reaches hc => exact .reaches hc
  | leaves hc => exact .leaves hc
  | left hc hr => exact .left hc hr
  | ended hc hr =>
    obtain ⟨rfl, rfl⟩ := hfree rfl
    exact .ended hc hr

/-- The table says something to the call. -/
theorem Phase.hears (h : Phase f id stage requests told printed inbox free) {handled : List Input} {t : Session.Table}
    (hhandled : handled <+: requests) (hs : Sole f.wire id t handled (told ++ answersTo id out) given (free || freed id out))
    (hfree : free → noticesTo id out = []) :
    Phase f id (out.foldl (Stage.tell id) stage) requests (told ++ answersTo id out) printed
      (inbox ++ noticesTo id out) (free || freed id out) := by
  have hle := Nat.le_trans hs.told_le hhandled.length_le
  by_cases heq : told.length = requests.length
  · have hnone : answersTo id out = [] := by
      rw [List.length_append, heq] at hle
      exact List.length_eq_zero_iff.mp (by omega)
    rw [hnone, List.append_nil, Stage.foldl_tell_of_not_asking (h.not_isAsking heq)]
    exact h.quiet fun hf => ⟨by rw [hfree hf, List.append_nil], by rw [hf, Bool.true_or]⟩
  · cases h with
    | asks =>
      rw [Stage.foldl_tell_waiting]
      match hanswers : answersTo id out with
      | [] => exact .asks
      | [.ok ()] => exact .begins
      | [.error error] => exact .refused (.inl rfl)
      | _ :: _ :: _ => simp [hanswers] at hle
    | leaves hc =>
      rw [Stage.foldl_tell_waiting]
      match hanswers : answersTo id out with
      | [] => exact .leaves hc
      | [answer] =>
        rw [hanswers] at hs
        obtain rfl := hs.left_ok
        exact .left hc (.inl rfl)
      | _ :: _ :: _ => simp [hanswers] at hle
    | made | refused | begins | follows | reaches | left | ended => exact absurd rfl heq

/-! ### What the call does -/

private theorem Returns.script_eq {script : Script α} {a : α} (h : Returns a (.ready script)) : script = .finish a := by
  rcases h with h | h
  · exact Stage.ready.inj h
  · contradiction

/-- The script of the call goes on. -/
theorem Phase.resumes {s : Session α} {script : Script α} (hcount : ∀ n ∈ f.count, 1 ≤ n)
    (h : Phase f id (.ready script) requests told printed inbox free) :
    Phase f id (script.resumed s) (requests ++ own id (script.input? id).toList) told printed inbox free := by
  have hreturns {a : α} (hr : Returns a (.ready script)) (hp : Phase f id (.done a) requests told printed inbox free) :
      Phase f id (script.resumed s) (requests ++ own id (script.input? id).toList) told printed inbox free := by
    rw [hr.script_eq]
    rwa [← List.append_nil requests] at hp
  cases h with
  | made =>
    rw [Follower.script_eq]
    simpa [Script.resumed, Script.input?, own] using Phase.asks
  | refused hr => exact hreturns hr (.refused (.inr rfl))
  | begins =>
    have hp := @Phase.follows α f id [] inbox free hcount
    simpa [subscribed, Script.resumed, Script.input?, own] using hp
  | reaches hc => simpa [streamed, Script.resumed, Script.input?, own] using Phase.leaves hc
  | left hc hr => exact hreturns hr (.left hc (.inr rfl))
  | ended hc hr => exact hreturns hr (.ended hc (.inr rfl))

variable {limit : Option Nat} {seen : Nat} {render : Envelope → String} {next : Bool → Script α} {rest : List Notice}

/-- A call that streams is in the midst of following. -/
theorem Phase.of_streaming (h : Phase f id (.streaming limit seen render next) requests told printed inbox free) :
    limit = f.count ∧ seen = printed.length ∧ render = CommandLine.renderPush ∧ next = f.streamed ∧
      requests = [.subscribe id f.wire] ∧ told = [.ok ()] ∧ ∀ n ∈ f.count, printed.length < n := by
  cases h with
  | follows hc => exact ⟨rfl, rfl, rfl, rfl, rfl, rfl, hc⟩
  | refused hr | left _ hr | ended _ hr => rcases hr with hr | hr <;> contradiction

/-- An envelope is printed, and the call goes on to unsubscribe if it was the last. -/
theorem Phase.prints {envelope : Envelope}
    (h : Phase f id (.streaming limit seen render next) requests told printed inbox free) :
    Phase f id (if limit.any (· ≤ seen + 1) then .ready (next true) else .streaming limit (seen + 1) render next)
      requests told (printed ++ [render envelope]) rest free := by
  obtain ⟨rfl, rfl, rfl, rfl, rfl, rfl, hc⟩ := h.of_streaming
  have hlen : printed.length + 1 = (printed ++ [CommandLine.renderPush envelope]).length := by simp
  rw [hlen]
  split
  · next hreached =>
    obtain ⟨n, hn, hle⟩ := (Option.any_eq_true _ _).mp hreached
    have hlt := hc n hn
    exact .reaches (hn.trans (congrArg some (by simp at hle; omega)))
  · next hreached =>
    refine .follows fun n hn => ?_
    simp_all

/-- The handler is let go and all that it was given has been looked at. -/
theorem Phase.ends (h : Phase f id (.streaming limit seen render next) requests told printed [] true) :
    Phase f id (.ready (next false)) requests told printed [] true := by
  obtain ⟨rfl, rfl, rfl, rfl, rfl, rfl, hc⟩ := h.of_streaming
  exact .ended hc (.inl rfl)

/-! ### Under any schedule -/

/-- The call has printed what it has looked at, and the rest of what its handler was given is in its inbox. -/
structure Stands (f : Follower α) (id : Nat) (c : CallState α) (requests : List Input)
    (told : List (Except CallError Unit)) (printed : List String) (given : List Notice) (free : Bool) : Prop where
  phase : Phase f id c.stage requests told printed c.inbox free
  kept : ∃ looked, given = looked ++ c.inbox ∧
    printed = (looked.filterMap Notice.envelope?).map CommandLine.renderPush
  released : c.released = free

variable {c c' : CallState α} {s s' : Session α} {m : Move} {texts : List String}

variable {timeout : Duration} {r : Record α} {effects : List (Effect α)}

structure Followed (f : Follower α) (id : Nat) (s : Session α) (r : Record α) : Prop where
  sole : Sole f.wire id s.table (own id r.history.inputs) (r.told id) (r.given id) (r.free id)
  stands : ∀ c, s.call? id = some c →
    Stands f id c (asked s r id) (r.told id) (r.printed id) (r.given id) (r.free id)

/-- A call that is not made yet has done nothing, nor has anything been done for it. -/
theorem Followed.unmade (hf : Followed f id s r) (h : Recorded timeout s r) (hid : s.call? id = none) :
    asked s r id = [] ∧ r.told id = [] ∧ r.printed id = [] ∧ r.given id = [] ∧ r.free id = false := by
  obtain ⟨hasked, hprinted⟩ := h.unmade hid
  have hsole := hf.sole
  rw [(List.append_eq_nil_iff.mp hasked).1] at hsole
  obtain ⟨htold, hgiven, hfree⟩ := hsole.fresh_inv
  exact ⟨hasked, htold, hprinted, hgiven, hfree⟩

theorem Followed.phase (hf : Followed f id s r) (h : Recorded timeout s r) :
    ∃ stage inbox free, Phase f id stage (asked s r id) (r.told id) (r.printed id) inbox free := by
  cases hid : s.call? id with
  | none =>
    obtain ⟨hasked, htold, hprinted, -, -⟩ := hf.unmade h hid
    rw [hasked, htold, hprinted]
    exact ⟨_, [], false, .made⟩
  | some c => exact ⟨_, _, _, (hf.stands c hid).phase⟩

def first {β : Type} (f : Follower α) (xs : List β) : List β :=
  match f.count with
  | some n => xs.take n
  | none => xs

/-- What the call returns, by what it has asked for, what it was answered and what its handler was given: it
is refused, or it has printed as many as it was to, or the subscription has ended by itself before. -/
inductive Outcome (f : Follower α) (id : Nat) : List Input → List (Except CallError Unit) → List Envelope → α → Prop
  | refused {error} : Outcome f id [.subscribe id f.wire] [.error error] []
      (f.wrap (.error ⟨["cannot subscribe to " ++ f.channel], error⟩))
  | left {n delivered} : f.count = some n → n ≤ delivered.length →
      Outcome f id [.subscribe id f.wire, .unsubscribe id f.wire] [.ok (), .ok ()] delivered (f.wrap (.ok ()))
  | ended {delivered} : (∀ n ∈ f.count, delivered.length < n) →
      Outcome f id [.subscribe id f.wire] [.ok ()] delivered (f.wrap (.ok ()))

/-- What the table holds for the channel while the call waits: nothing has come yet, or more may come, or
the end that was asked for has not come. -/
inductive Waits (f : Follower α) (id : Nat) (t : Session.Table) :
    List Input → List (Except CallError Unit) → List Envelope → Prop
  | connecting {k} : t.entryOf? f.wire = some (.connecting f.wire k id [id]) →
      Waits f id t [.subscribe id f.wire] [] []
  | active {k delivered} : t.entryOf? f.wire = some (.active f.wire k id) → (∀ n ∈ f.count, delivered.length < n) →
      Waits f id t [.subscribe id f.wire] [.ok ()] delivered
  | closing {k n delivered} : t.entryOf? f.wire = some (.closing f.wire k id [id]) → f.count = some n →
      n ≤ delivered.length → Waits f id t [.subscribe id f.wire, .unsubscribe id f.wire] [.ok ()] delivered

theorem Stands.printed_prefix (h : Stands f id c requests told printed given free) :
    printed <+: (given.filterMap Notice.envelope?).map CommandLine.renderPush := by
  obtain ⟨-, ⟨looked, hgiven, hprinted⟩, -⟩ := h
  rw [hgiven, hprinted, List.filterMap_append, List.map_append]
  exact List.prefix_append ..

theorem Stands.printed_all (h : Stands f id c requests told printed given free) (hnil : c.inbox = []) :
    printed = (given.filterMap Notice.envelope?).map CommandLine.renderPush := by
  obtain ⟨-, ⟨looked, hgiven, hprinted⟩, -⟩ := h
  rw [hprinted, hgiven, hnil, List.append_nil]

/-- A call that has looked at everything, or printed as many as it is to, is done with printing. -/
theorem Stands.eq_first (h : Stands f id c requests told printed given free)
    (hall : c.inbox = [] ∨ f.count = some printed.length) :
    printed = f.first ((given.filterMap Notice.envelope?).map CommandLine.renderPush) := by
  rcases hall with hnil | hcount
  · rw [← h.printed_all hnil, first]
    split
    · next n hn => exact (List.take_of_length_le (h.phase.printed_le n hn)).symm
    · rfl
  · rw [first, hcount]
    exact List.prefix_iff_eq_take.mp h.printed_prefix

private theorem Returns.done {a b : α} (h : Returns a (.done b)) : b = a := by
  rcases h with h | h
  · contradiction
  · exact Stage.done.inj h

/-- A call that has returned has nothing left to print, and the table holds nothing for the channel. -/
theorem Stands.outcome (h : Stands f id c requests told printed given free) {t : Session.Table}
    (hs : Sole f.wire id t handled told given free) {a : α} (hdone : c.stage = .done a) :
    Outcome f id requests told (given.filterMap Notice.envelope?) a ∧ t.entryOf? f.wire = none ∧
      printed = f.first ((given.filterMap Notice.envelope?).map CommandLine.renderPush) := by
  have heq := h.eq_first
  have hlen := h.printed_prefix.length_le
  have hall := h.printed_all
  obtain ⟨hphase, ⟨looked, hgiven, -⟩, -⟩ := h
  obtain ⟨stage, inbox, released⟩ := c
  dsimp only at *
  rw [hdone] at hphase
  rw [List.length_map] at hlen
  cases hphase with
  | refused hr =>
    obtain rfl := hr.done
    cases hs with
    | refused hnone => exact ⟨.refused, hnone, heq (.inl (List.append_eq_nil_iff.mp hgiven.symm).2)⟩
  | left hc hr =>
    obtain rfl := hr.done
    cases hs with
    | left hnone => exact ⟨.left hc hlen, hnone, heq (.inr hc)⟩
  | ended hc hr =>
    obtain rfl := hr.done
    cases hs with
    | ended hnone =>
      refine ⟨.ended ?_, hnone, heq (.inl rfl)⟩
      rwa [← List.length_map CommandLine.renderPush, ← hall rfl]

/-- A call that waits when nothing moves waits for what the table holds. -/
theorem Stands.waits (h : Stands f id c requests told printed given free) {t : Session.Table}
    (hs : Sole f.wire id t requests told given free) (hready : ∀ script, c.stage ≠ .ready script)
    (hstream : ∀ limit seen render next, c.stage = .streaming limit seen render next →
      c.inbox = [] ∧ c.released = false) :
    (∃ a, c.stage = .done a) ∨ Waits f id t requests told (given.filterMap Notice.envelope?) ∧
      printed = f.first ((given.filterMap Notice.envelope?).map CommandLine.renderPush) := by
  have heq := h.eq_first
  have hlen := h.printed_prefix.length_le
  have hall := h.printed_all
  obtain ⟨hphase, ⟨looked, hgiven, -⟩, hreleased⟩ := h
  obtain ⟨stage, inbox, released⟩ := c
  dsimp only at *
  rw [List.length_map] at hlen
  cases hphase with
  | made | begins | reaches => exact absurd rfl (hready _)
  | refused hr | left _ hr | ended _ hr =>
    rcases hr with rfl | rfl
    · exact absurd rfl (hready _)
    · exact .inl ⟨_, rfl⟩
  | asks =>
    cases hs with
    | pending he => exact .inr ⟨.connecting he, heq (.inl (List.append_eq_nil_iff.mp hgiven.symm).2)⟩
  | follows hc =>
    obtain ⟨hnil, hfree⟩ := hstream _ _ _ _ rfl
    obtain rfl := hreleased.symm.trans hfree
    cases hs with
    | live he =>
      refine .inr ⟨.active he ?_, heq (.inl hnil)⟩
      rwa [← List.length_map CommandLine.renderPush, ← hall hnil]
  | leaves hc =>
    cases hs with
    | leaving he => exact .inr ⟨.closing he hc hlen, heq (.inr hc)⟩

end Follower

end RobotBridge
