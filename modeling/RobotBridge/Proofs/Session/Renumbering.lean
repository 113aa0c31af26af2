import RobotBridge.Proofs.Session.Connection
import RobotBridge.Proofs.Session.Replies

/-! Other numbers for connections: nothing that an entry does depends on the number it holds. -/
namespace RobotBridge.Session
open Table (Input Output)

def Entry.renumber (f : Nat → Nat) (entry : Entry) : Entry :=
  { entry with connection := f entry.connection }

namespace Table

def Input.renumber (f : Nat → Nat) : Input → Input
  | .event k e => .event (f k) e
  | input => input

@[simp] def Output.renumber (f : Nat → Nat) : Output → Output
  | .opened k c => .opened (f k) c
  | .command k c => .command (f k) c
  | .dropped k => .dropped (f k)
  | output => output

@[simp] def Output.connection? : Output → Option Nat
  | .opened k _ | .command k _ | .dropped k => some k
  | _ => none

/-- The subscribe or unsubscribe call that an output is about: the one that is answered, or whose
handler is called or let go. -/
@[simp] def Output.call? : Output → Option Nat
  | .handled n _ | .answered n _ | .released n => some n
  | _ => none

end Table

namespace Entry

variable {c : String} {entry : Entry} {o o' : Option Entry} {input : Input} {out out' : List Output}

@[simp] theorem map_renumber_answerAll (f : Nat → Nat) (calls : List Nat) (result : Except CallError Unit) :
    (answerAll calls result).map (Output.renumber f) = answerAll calls result := by
  simp [answerAll]

@[simp] theorem map_renumber_release (f : Nat → Nat) (k owner : Nat) :
    (release k owner).map (Output.renumber f) = release (f k) owner := rfl

theorem Live.renumber (f : Nat → Nat) (h : Live c entry) : Live c (entry.renumber f) := by
  cases h with
  | connecting hn => exact .connecting hn
  | active => exact .active
  | closing hn => exact .closing hn

/-- A turn is the same turn by any other number. -/
theorem Turn.renumber (f : Nat → Nat) (ht : Turn c entry input o out) :
    Turn c (entry.renumber f) (input.renumber f) (o.map (.renumber f)) (out.map (.renumber f)) := by
  cases ht with
  | join => exact .join
  | again => exact .again
  | refuse => exact .refuse
  | early => exact .early
  | leave => exact .leave
  | attend => exact .attend
  | greet => exact .greet
  | accept hf =>
    rw [List.map_cons, map_renumber_answerAll]
    exact .accept hf
  | reject hf =>
    rw [List.map_append, List.map_cons, map_renumber_answerAll, map_renumber_release]
    exact .reject hf
  | fail =>
    rw [List.map_append, map_renumber_answerAll, map_renumber_release]
    exact .fail
  | shut =>
    rw [List.map_append, map_renumber_answerAll, map_renumber_release]
    exact .shut
  | reopen hl hs => exact .reopen (hl.renumber f) hs
  | push hl hs => exact .push (hl.renumber f) hs
  | snap => exact .snap
  | expire => exact .expire
  | part he =>
    rw [List.map_append, map_renumber_answerAll, map_renumber_release]
    exact .part he

/-- An input leaves an entry no choice. -/
theorem Turn.unique (ht : Turn c entry input o out) (ht' : Turn c entry input o' out') :
    o = o' ∧ out = out' := by
  cases ht <;> cases ht' <;> simp_all [Event.isTerminal]

/-- What a turn says is about the connection of its entry, or about a call that the entry knows or
gets to know. -/
theorem Turn.about (ht : Turn c entry input o out) {output : Output} (hm : output ∈ out) :
    output.connection? = some entry.connection ∧ output.call? = none ∨
      output.connection? = none ∧ ∃ n, output.call? = some n ∧
        ((n = entry.owner ∨ n ∈ entry.subscribers ∨ n ∈ entry.unsubscribers) ∨ input.call? = some n) := by
  revert output
  cases ht <;> simp +contextual [answerAll, release, or_imp]

end Entry

namespace Table
open Entry (Turn)

variable {t : Table} {c : String} {entry : Entry} {o : Option Entry} {input : Input} {out : List Output}

/-- A table whose entry can take a turn takes it. -/
theorem WellFormed.step_turn (h : t.WellFormed) (hr : t.running) (he : t.entryOf? c = some entry)
    (ht : Turn c entry input o out) : t.step input = (t.place c o, out) := by
  have hc := step_change h input
  have hr' := hc.running hr (not_isStop_of_turn ht)
  rcases hc.frame h hr' he with ⟨o', ht', hplace⟩ | ⟨hno, _⟩
  · obtain ⟨rfl, hout⟩ := ht.unique ht'
    exact Prod.ext hplace hout.symm
  · exact absurd ht.touches hno

/-- An event of a connection that no entry holds has no effect. -/
theorem step_stray {k : Nat} (hk : ∀ p ∈ t.entries, p.2.connection ≠ k) (e : Event) :
    t.step (.event k e) = (t, []) := by
  have hnone : t.channelOf? k = none := by simpa [channelOf?, List.find?_eq_none] using hk
  cases hr : t.running <;> simp [step, hr, onEvent, hnone]

end Table

end RobotBridge.Session
