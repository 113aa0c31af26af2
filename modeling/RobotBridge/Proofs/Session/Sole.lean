import RobotBridge.Proofs.Session.Isolation
import RobotBridge.Proofs.Session.Record

/-! A call that has a channel to itself: what it has asked for, what it was answered and what its handler
was given say together what the table holds for the channel. -/
namespace RobotBridge.Session.Table
open Entry (Turn)

structure Silent (n : Nat) (out : List Output) : Prop where
  answers : answersTo n out = []
  notices : noticesTo n out = []
  freed : freed n out = false

/-- The call has nothing to do with the entries of other channels. -/
def Lone (c : String) (n : Nat) (t : Table) : Prop :=
  ∀ p ∈ t.entries, p.1 ≠ c → n ≠ p.2.owner ∧ n ∉ p.2.subscribers ∧ n ∉ p.2.unsubscribers

inductive Share (c : String) (t : Table) : Input → Table → List Output → Prop
  | turn {entry o input out} : t.entryOf? c = some entry → Turn c entry input o out →
      Share c t input (t.place c o) out
  | opens {n k t'} : t.entryOf? c = none → t'.entryOf? c = some (.connecting c k n [n]) →
      Share c t (.subscribe n c) t' [.opened k c]
  | absent {n} : t.entryOf? c = none → Share c t (.unsubscribe n c) t [.answered n (.ok ())]
  | apart {input t' out} : input.channel? ≠ some c → t'.entryOf? c = t.entryOf? c →
      (∀ n, Lone c n t → input.call? ≠ some n → Silent n out) → Share c t input t' out

/-- What the table holds of a channel that one call has to itself, with what the call has asked for, what
it was answered, what its handler was given and whether the handler is let go. -/
inductive Sole (c : String) (n : Nat) (t : Table) :
    List Input → List (Except CallError Unit) → List Notice → Bool → Prop
  | fresh : t.entryOf? c = none → Sole c n t [] [] [] false
  | pending {k} : t.entryOf? c = some (.connecting c k n [n]) → Sole c n t [.subscribe n c] [] [] false
  | live {k given} : t.entryOf? c = some (.active c k n) → Sole c n t [.subscribe n c] [.ok ()] given false
  | leaving {k given} : t.entryOf? c = some (.closing c k n [n]) →
      Sole c n t [.subscribe n c, .unsubscribe n c] [.ok ()] given false
  | refused {error} : t.entryOf? c = none → Sole c n t [.subscribe n c] [.error error] [] true
  | ended {given} : t.entryOf? c = none → Sole c n t [.subscribe n c] [.ok ()] given true
  | left {given} : t.entryOf? c = none →
      Sole c n t [.subscribe n c, .unsubscribe n c] [.ok (), .ok ()] given true

variable {t t' : Table} {c : String} {n : Nat} {input : Input} {inputs : List Input} {out : List Output}

theorem silent_of_call? (h : ∀ output ∈ out, output.call? ≠ some n) : Silent n out where
  answers := List.eq_nil_iff_forall_not_mem.mpr fun _ hr => h _ (mem_answersTo.mp hr) rfl
  notices := noticesTo_eq_nil.mpr fun _ hm => h _ hm rfl
  freed := by
    rw [freed, List.any_eq_false]
    intro output hm
    cases output <;> simp
    rintro rfl
    exact h _ hm rfl

private theorem silent_of_turn {d : String} {entry : Entry} {o : Option Entry} (h : t.WellFormed)
    (hd : t.entryOf? d = some entry) (hne : d ≠ c) (ht : Turn d entry input o out) (hl : Lone c n t)
    (hn : input.call? ≠ some n) : Silent n out := by
  refine silent_of_call? fun output hm ho => ?_
  obtain ⟨howner, hsub, hunsub⟩ := hl _ (h.mem_of_entryOf? hd) hne
  rcases ht.about hm with ⟨-, hnone⟩ | ⟨-, m, hm, hknown⟩
  · rw [hnone] at ho
    contradiction
  · obtain rfl := Option.some.inj (hm.symm.trans ho)
    rcases hknown with (hknown | hknown | hknown) | hknown
    · exact howner hknown
    · exact hsub hknown
    · exact hunsub hknown
    · exact hn hknown

theorem Change.share (h : t.WellFormed) (hc : Change t input t' out) (hr : t'.running) (c : String) :
    Share c t input t' out := by
  cases hc with
  | @opens n d _ hd =>
    by_cases hcd : d = c
    · subst hcd
      exact .opens hd (entryOf?_place_self h.ascending d (some _))
    · refine .apart (by simpa [Input.channel?] using hcd) ?_ fun m _ _ => silent_of_call? (by simp)
      exact (entryOf?_place h.ascending d c _).trans (if_neg (Ne.symm hcd))
  | @absent n d _ hd =>
    by_cases hcd : d = c
    · subst hcd
      exact .absent hd
    · refine .apart (by simpa [Input.channel?] using hcd) rfl fun m _ hm => silent_of_call? ?_
      simpa using hm
  | @turn d entry o _ _ _ hd ht =>
    by_cases hcd : d = c
    · subst hcd
      exact .turn hd ht
    · refine .apart ?_ ?_ fun m hl hm => silent_of_turn h hd hcd ht hl hm
      · have htouch := ht.touches
        cases input <;> simp_all [Input.touches, Input.channel?]
      · rw [entryOf?_place h.ascending, if_neg (Ne.symm hcd)]
  | stray => exact .apart (by simp [Input.channel?]) rfl fun m _ _ => silent_of_call? (by simp)
  | list => exact .apart (by simp [Input.channel?]) rfl fun m _ _ => ⟨rfl, rfl, rfl⟩
  | stop => contradiction
  | refuse hs => exact absurd (hs.symm.trans hr) Bool.false_ne_true

/-! ### The call to which a channel belongs -/

/-- The call asks to subscribe first, and to unsubscribe only when it is subscribed. -/
def Orderly (c : String) (n : Nat) (handled : List Input) (told : List (Except CallError Unit)) (input : Input) : Prop :=
  input.call? = some n → (handled = [] ∧ input = .subscribe n c) ∨
    (handled = [.subscribe n c] ∧ told = [.ok ()] ∧ input = .unsubscribe n c)

variable {handled : List Input} {told : List (Except CallError Unit)} {given : List Notice} {free : Bool}

private theorem Sole.turn_pending {k : Nat} {o : Option Entry} (h : t.WellFormed)
    (ht : Turn c (.connecting c k n [n]) input o out) (halone : input.channel? = some c → input.call? = some n)
    (horder : Orderly c n [.subscribe n c] [] input) :
    Sole c n (t.place c o) ([.subscribe n c] ++ own n [input]) (answersTo n out) (noticesTo n out) (freed n out) := by
  have hplaced := entryOf?_place_self h.ascending c o
  cases ht with
  | join | early => simpa using horder (halone rfl)
  | greet => simpa [own, answersTo, noticesTo, freed] using Sole.pending hplaced
  | accept => simpa [own, answersTo, noticesTo, freed, Entry.answerAll] using Sole.live hplaced
  | reject | fail | shut =>
    simpa [own, answersTo, noticesTo, freed, Entry.answerAll, Entry.release] using Sole.refused hplaced
  | reopen _ hs | push _ hs => exact absurd rfl hs

private theorem Sole.turn_live {k : Nat} {o : Option Entry} (h : t.WellFormed)
    (ht : Turn c (.active c k n) input o out) (halone : input.channel? = some c → input.call? = some n)
    (horder : Orderly c n [.subscribe n c] [.ok ()] input) :
    Sole c n (t.place c o) ([.subscribe n c] ++ own n [input]) ([.ok ()] ++ answersTo n out)
      (given ++ noticesTo n out) (freed n out) := by
  have hplaced := entryOf?_place_self h.ascending c o
  cases ht with
  | again => simpa using horder (halone rfl)
  | leave =>
    obtain rfl : _ = n := Option.some.inj (halone rfl)
    simpa [own, answersTo, noticesTo, freed] using Sole.leaving hplaced
  | reopen | push => simpa [own, answersTo, noticesTo, freed] using Sole.live hplaced
  | snap | expire =>
    simpa [own, answersTo, noticesTo, freed, Entry.release] using Sole.ended hplaced

private theorem Sole.turn_leaving {k : Nat} {o : Option Entry} (h : t.WellFormed)
    (ht : Turn c (.closing c k n [n]) input o out) (halone : input.channel? = some c → input.call? = some n)
    (horder : Orderly c n [.subscribe n c, .unsubscribe n c] [.ok ()] input) :
    Sole c n (t.place c o) ([.subscribe n c, .unsubscribe n c] ++ own n [input]) ([.ok ()] ++ answersTo n out)
      (given ++ noticesTo n out) (freed n out) := by
  have hplaced := entryOf?_place_self h.ascending c o
  cases ht with
  | refuse | attend => simpa using horder (halone rfl)
  | reopen | push => simpa [own, answersTo, noticesTo, freed] using Sole.leaving hplaced
  | part => simpa [own, answersTo, noticesTo, freed, Entry.answerAll, Entry.release] using Sole.left hplaced

private theorem Sole.frame (hs : Sole c n t handled told given free) (he : t'.entryOf? c = t.entryOf? c) :
    Sole c n t' handled told given free := by
  cases hs with
  | fresh h => exact .fresh (he.trans h)
  | pending h => exact .pending (he.trans h)
  | live h => exact .live (he.trans h)
  | leaving h => exact .leaving (he.trans h)
  | refused h => exact .refused (he.trans h)
  | ended h => exact .ended (he.trans h)
  | left h => exact .left (he.trans h)

theorem Sole.step (h : t.WellFormed) (hs : Sole c n t handled told given free) (hl : Lone c n t)
    (hc : Change t input t' out) (hr : t'.running) (halone : input.channel? = some c → input.call? = some n)
    (horder : Orderly c n handled told input) :
    Sole c n t' (handled ++ own n [input]) (told ++ answersTo n out) (given ++ noticesTo n out)
      (free || freed n out) := by
  cases hc.share h hr c with
  | apart hchannel he hsilent =>
    have hother : input.call? ≠ some n := fun hn => by
      rcases horder hn with ⟨-, rfl⟩ | ⟨-, -, rfl⟩ <;> exact hchannel rfl
    have hown : own n [input] = [] := List.filter_cons_of_neg (mt of_decide_eq_true hother)
    obtain ⟨hanswers, hnotices, hfreed⟩ := hsilent n hl hother
    simpa [hown, hanswers, hnotices, hfreed] using hs.frame he
  | opens hnone he =>
    obtain rfl : _ = n := Option.some.inj (halone rfl)
    obtain rfl : handled = [] := by simpa using horder rfl
    cases hs with
    | fresh => simpa [own, answersTo, noticesTo, freed] using Sole.pending he
  | absent hnone =>
    obtain rfl : _ = n := Option.some.inj (halone rfl)
    obtain ⟨rfl, rfl⟩ : handled = _ ∧ told = _ := by simpa using horder rfl
    cases hs with
    | live he => simp [hnone] at he
    | ended => simpa [own, answersTo, noticesTo, freed] using Sole.left hnone
  | turn he ht =>
    cases hs with
    | fresh hnone | refused hnone | ended hnone | left hnone => simp [hnone] at he
    | pending hp =>
      obtain rfl := Option.some.inj (hp.symm.trans he)
      simpa using Sole.turn_pending h ht halone horder
    | live hp =>
      obtain rfl := Option.some.inj (hp.symm.trans he)
      simpa using Sole.turn_live h ht halone horder
    | leaving hp =>
      obtain rfl := Option.some.inj (hp.symm.trans he)
      simpa using Sole.turn_leaving h ht halone horder

/-- Nothing is done for a call that has asked for nothing. -/
theorem Sole.fresh_inv (hs : Sole c n t [] told given free) : told = [] ∧ given = [] ∧ free = false := by
  cases hs
  exact ⟨rfl, rfl, rfl⟩

/-- There are no more answers than calls. -/
theorem Sole.told_le (hs : Sole c n t handled told given free) : told.length ≤ handled.length := by
  cases hs <;> simp

/-- A call that was let in is let out. -/
theorem Sole.left_ok {answer : Except CallError Unit} (hs : Sole c n t handled [.ok (), answer] given free) :
    answer = .ok () := by
  cases hs
  rfl

end RobotBridge.Session.Table
