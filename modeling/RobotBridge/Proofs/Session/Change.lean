import RobotBridge.Proofs.Session.Entries
import RobotBridge.Proofs.Session.Life

/-! What one input can make of a table, and the invariant that every input keeps. -/
namespace RobotBridge.Session.Table
open Entry (Live Turn)

def Input.isStop : Input → Bool
  | .shutdown _ | .abandoned => true
  | _ => false

def farewell : Input → List Output
  | .shutdown n => [.stopped n]
  | _ => []

def refusal : Input → List Output
  | .subscribe n _ => [.answered n (.error .sessionClosed), .released n]
  | .unsubscribe n _ => [.answered n (.error .sessionClosed)]
  | .list n => [.listed n (.error .sessionClosed)]
  | .shutdown n => [.stopped n]
  | .abandoned | .event _ _ => []

/-- Entries are live, in order, and hold connections of their own that were opened before. -/
structure WellFormed (t : Table) : Prop where
  ascending : Ascending t.entries
  live : ∀ p ∈ t.entries, Live p.1 p.2
  distinct : (t.entries.map fun p => p.2.connection).Nodup
  fresh : ∀ p ∈ t.entries, p.2.connection < t.nextConnection
  stopped : t.running = false → t.entries = []

/-- All that an input can make of a table. -/
inductive Change (t : Table) : Input → Table → List Output → Prop
  | opens {n c} : t.running → t.entryOf? c = none → Change t (.subscribe n c)
      { t.place c (some (.connecting c t.nextConnection n [n])) with
        nextConnection := t.nextConnection + 1 }
      [.opened t.nextConnection c]
  | absent {n c} : t.running → t.entryOf? c = none → Change t (.unsubscribe n c) t [.answered n (.ok ())]
  | turn {c entry o input out} : t.running → t.entryOf? c = some entry → Turn c entry input o out →
      Change t input (t.place c o) out
  | stray {k e} : t.running → (∀ p ∈ t.entries, p.2.connection ≠ k) → Change t (.event k e) t []
  | list {n} : t.running → Change t (.list n) t [.listed n (.ok t.states)]
  | stop {input} : t.running → input.isStop → Change t input { t with entries := [], running := false }
      (t.close.2 ++ farewell input)
  | refuse {input} : t.running = false → Change t input t (refusal input)

variable {t : Table}

theorem not_isStop_of_turn {c : String} {entry : Entry} {input : Input} {o : Option Entry}
    {out : List Output} (ht : Turn c entry input o out) : input.isStop = false := by
  cases ht <;> rfl

theorem wellFormed_empty : ({} : Table).WellFormed :=
  ⟨.nil, by simp, by simp, by simp, fun _ => rfl⟩

theorem WellFormed.mem_of_entryOf? (h : t.WellFormed) {c : String} {entry : Entry}
    (he : t.entryOf? c = some entry) : (c, entry) ∈ t.entries :=
  (entryOf?_eq_some_iff h.ascending).mp he

theorem WellFormed.live_of_entryOf? (h : t.WellFormed) {c : String} {entry : Entry}
    (he : t.entryOf? c = some entry) : Live c entry := h.live _ (h.mem_of_entryOf? he)

private theorem Change.same (h : t.WellFormed) {c : String} {entry : Entry} {input : Input}
    {out : List Output} (hr : t.running) (he : t.entryOf? c = some entry)
    (ht : Turn c entry input (some entry) out) : Change t input t out := by
  simpa only [place_self h.ascending he] using Change.turn hr he ht

private theorem change_subscribe (h : t.WellFormed) (hr : t.running) (n : Nat) (c : String) :
    Change t (.subscribe n c) (t.subscribe n c).1 (t.subscribe n c).2 := by
  unfold subscribe
  cases he : t.entryOf? c with
  | none => exact .opens hr he
  | some entry =>
    cases h.live_of_entryOf? he with
    | connecting _ => exact .turn hr he .join
    | active => exact .same h hr he .again
    | closing _ => exact .same h hr he .refuse

private theorem change_unsubscribe (h : t.WellFormed) (hr : t.running) (n : Nat) (c : String) :
    Change t (.unsubscribe n c) (t.unsubscribe n c).1 (t.unsubscribe n c).2 := by
  unfold unsubscribe
  cases he : t.entryOf? c with
  | none => exact .absent hr he
  | some entry =>
    cases h.live_of_entryOf? he with
    | connecting _ => exact .same h hr he .early
    | active => exact .turn hr he .leave
    | closing _ => exact .turn hr he .attend

theorem onEvent_of_channelOf? {k : Nat} {e : Event} {c : String} {entry : Entry}
    (hk : t.channelOf? k = some (c, entry)) :
    t.onEvent k e =
      if (entry.heed e).1.machine.state = .closed then
        (t.remove c, (entry.heed e).2 ++ (entry.heed e).1.finish (.connection c "subscription ended"))
      else (t.put c (entry.heed e).1, (entry.heed e).2) := by
  simp only [onEvent, hk]
  rfl

private theorem change_event (h : t.WellFormed) (hr : t.running) (k : Nat) (e : Event) :
    Change t (.event k e) (t.onEvent k e).1 (t.onEvent k e).2 := by
  cases hk : t.channelOf? k with
  | none =>
    have hne : ∀ p ∈ t.entries, p.2.connection ≠ k := by
      simpa [channelOf?, List.find?_eq_none] using hk
    simpa only [onEvent, hk] using Change.stray hr hne
  | some p =>
    obtain ⟨c, entry⟩ := p
    have hm : (c, entry) ∈ t.entries := List.mem_of_find?_eq_some hk
    have he := (entryOf?_eq_some_iff h.ascending).mpr hm
    have hc : entry.connection = k := by simpa using List.find?_some hk
    subst hc
    rw [onEvent_of_channelOf? hk]
    rcases (h.live _ hm).heed_cases e with ht | ⟨hend, ht⟩
    · rw [if_neg (ht.live (h.live _ hm)).state_ne_closed]
      exact .turn hr he ht
    · rw [if_pos (by rw [hend]), hend, Entry.finish_ended]
      exact .turn hr he ht

theorem step_change (h : t.WellFormed) (input : Input) :
    Change t input (t.step input).1 (t.step input).2 := by
  unfold step
  cases hr : t.running with
  | false => cases input <;> exact .refuse hr
  | true =>
    cases input with
    | subscribe n c => exact change_subscribe h hr n c
    | unsubscribe n c => exact change_unsubscribe h hr n c
    | list n => exact .list hr
    | shutdown n => exact .stop hr rfl
    | abandoned =>
      have hc : Change t .abandoned t.close.1 (t.close.2 ++ farewell .abandoned) := .stop hr rfl
      simpa only [farewell, List.append_nil] using hc
    | event k e => exact change_event h hr k e

private theorem WellFormed.opens (h : t.WellFormed) (hr : t.running) {c : String}
    (he : t.entryOf? c = none) (n : Nat) :
    { t.place c (some (.connecting c t.nextConnection n [n])) with
      nextConnection := t.nextConnection + 1 }.WellFormed := by
  have hmem {p : String × Entry} (hp : p ∈ (t.put c (.connecting c t.nextConnection n [n])).entries) :
      p = (c, .connecting c t.nextConnection n [n]) ∨ p ∈ t.entries := by
    rcases (mem_place (o := some _) h.ascending).mp hp with ⟨rfl, ho⟩ | ⟨_, hp⟩
    · exact .inl (Prod.ext rfl (Option.some.inj ho).symm)
    · exact .inr hp
  refine ⟨ascending_place h.ascending _ (some _), fun p hp => ?_, ?_, fun p hp => ?_, fun hs => ?_⟩
  · rcases hmem hp with rfl | hp
    · exact .connecting (by simp)
    · exact h.live p hp
  · have hperm := (place_perm h.ascending c (some (.connecting c t.nextConnection n [n]))).map
      fun p => p.2.connection
    rw [hperm.nodup_iff]
    simp only [Option.map_some, Option.toList_some, List.singleton_append, List.map_cons,
      remove_entries h.ascending he, List.nodup_cons]
    refine ⟨fun hm => ?_, h.distinct⟩
    obtain ⟨p, hp, hk⟩ := List.mem_map.mp hm
    exact Nat.lt_irrefl _ (hk ▸ h.fresh p hp)
  · rcases hmem hp with rfl | hp
    · exact Nat.lt_succ_self _
    · exact Nat.lt_succ_of_lt (h.fresh p hp)
  · rw [place_running, hr] at hs
    contradiction

private theorem WellFormed.turn (h : t.WellFormed) {c : String} {entry : Entry} {input : Input}
    {o : Option Entry} {out : List Output} (hr : t.running) (he : t.entryOf? c = some entry)
    (ht : Turn c entry input o out) : (t.place c o).WellFormed := by
  have hm := h.mem_of_entryOf? he
  have hmem {p : String × Entry} (hp : p ∈ (t.place c o).entries) :
      (Live p.1 p.2 ∧ p.2.connection = entry.connection) ∨ p ∈ t.entries := by
    rcases (mem_place h.ascending).mp hp with ⟨rfl, ho⟩ | ⟨_, hp⟩
    · subst ho
      exact .inl ⟨ht.live (h.live_of_entryOf? he), ht.connection⟩
    · exact .inr hp
  refine ⟨ascending_place h.ascending _ o, fun p hp => ?_, ?_, fun p hp => ?_, fun hs => ?_⟩
  · exact (hmem hp).elim And.left (h.live p)
  · have hperm := (place_perm h.ascending c o).map fun p => p.2.connection
    have hold := ((entries_perm h.ascending he).map fun p => p.2.connection).nodup_iff.mp h.distinct
    rw [hperm.nodup_iff]
    cases o with
    | none => exact (List.nodup_cons.mp hold).2
    | some entry' => simpa [ht.connection] using hold
  · rw [place_nextConnection]
    rcases hmem hp with ⟨_, hk⟩ | hp
    · exact hk ▸ h.fresh _ hm
    · exact h.fresh p hp
  · rw [place_running, hr] at hs
    contradiction

theorem Change.wellFormed {input : Input} {t' : Table} {out : List Output} (h : t.WellFormed)
    (hc : Change t input t' out) : t'.WellFormed := by
  cases hc with
  | opens hr he => exact h.opens hr he _
  | absent | stray | list | refuse => exact h
  | turn hr he ht => exact h.turn hr he ht
  | stop => exact ⟨.nil, by simp, by simp, by simp, fun _ => rfl⟩

end RobotBridge.Session.Table
