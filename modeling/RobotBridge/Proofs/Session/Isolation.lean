import Mathlib.Data.List.Basic
import Mathlib.Data.List.Induction
import RobotBridge.Proofs.Session.Delivery
import RobotBridge.Proofs.Session.Renumbering

/-! One channel among all others: the part of a run that is about it, run alone, comes to the same
entry and says the same, but for the numbers of connections. -/
namespace RobotBridge.Session.Table
open Entry (Turn)

def Input.channel? : Input → Option String
  | .subscribe _ d | .unsubscribe _ d => some d
  | _ => none

def openedFor (c : String) (outputs : List Output) : List Nat :=
  outputs.filterMap fun
    | .opened k d => if d = c then some k else none
    | _ => none

def callsFor (c : String) (inputs : List Input) : List Nat :=
  calls (inputs.filter fun input => input.channel? = some c)

/-- The input is a call for a channel, or an event of one of its connections. -/
def Input.isWithin (c : String) (connections : List Nat) (input : Input) : Bool :=
  input.channel? = some c || input.connection?.any (· ∈ connections)

def Output.isWithin (connections calls : List Nat) (output : Output) : Bool :=
  output.connection?.any (· ∈ connections) || output.call?.any (· ∈ calls)

def rank (connections : List Nat) (k : Nat) : Nat := connections.idxOf k

/-- The inputs of a channel with its connections, which are numbered from zero. -/
def isolate (c : String) (connections : List Nat) (inputs : List Input) : List Input :=
  (inputs.filter (Input.isWithin c connections)).map (Input.renumber (rank connections))

variable {t t' u : Table} {c : String} {input : Input} {out : List Output} {connections ns : List Nat} {count : Nat}
  {inputs before later : List Input}

/-! ### The numbers of connections -/

theorem openedFor_append (c : String) (xs ys : List Output) :
    openedFor c (xs ++ ys) = openedFor c xs ++ openedFor c ys := List.filterMap_append

theorem mem_openedFor {k : Nat} {outputs : List Output} :
    k ∈ openedFor c outputs ↔ .opened k c ∈ outputs := by
  rw [openedFor, List.mem_filterMap]
  constructor
  · rintro ⟨output, hm, ho⟩
    cases output <;> simp_all
  · exact fun hm => ⟨_, hm, by simp⟩

private theorem Change.opened_eq (hc : Change t input t' out) {k : Nat} (hk : .opened k c ∈ out) :
    k = t.nextConnection ∧ out = [.opened k c] ∧ t'.nextConnection = t.nextConnection + 1 := by
  cases hc with
  | opens =>
    obtain ⟨rfl, rfl⟩ : k = t.nextConnection ∧ _ := by simpa using hk
    exact ⟨rfl, rfl, rfl⟩
  | absent | stray | list => simp at hk
  | turn _ _ ht => cases ht <;> simp [Entry.answerAll, Entry.release] at hk
  | stop => cases input <;> simp [close, Entry.finish, Entry.answerAll, farewell] at hk
  | refuse => cases input <;> simp [refusal] at hk

theorem WellFormed.opened_bounds (h : t.WellFormed) {k : Nat} (hk : .opened k c ∈ t.said inputs) :
    t.nextConnection ≤ k ∧ k < (t.after inputs).nextConnection := by
  obtain ⟨before, input, later, rfl, hi⟩ := mem_said.mp hk
  have hc := step_change (h.after before) input
  have hge := h.nextConnection_le_after before
  have hle := (h.after (before ++ [input])).nextConnection_le_after later
  rw [← after_append, List.append_assoc, List.singleton_append, after_append t before [input]] at hle
  obtain ⟨rfl, _, hnext⟩ := hc.opened_eq hi
  refine ⟨hge, Nat.lt_of_lt_of_le ?_ hle⟩
  exact Nat.lt_of_lt_of_eq (Nat.lt_succ_self _) hnext.symm

/-- The number of a connection says what channel it is for. -/
theorem WellFormed.opened_unique (h : t.WellFormed) {k : Nat} {d : String}
    (hc : .opened k c ∈ t.said inputs) (hd : .opened k d ∈ t.said inputs) : c = d := by
  induction inputs generalizing t with
  | nil => exact absurd hc List.not_mem_nil
  | cons input inputs ih =>
    have hstep := step_change h input
    rw [said_cons, List.mem_append] at hc hd
    have hlate {e : String} (he : .opened k e ∈ (t.step input).1.said inputs) {f : String} :
        .opened k f ∉ (t.step input).2 := fun hf => by
      have hge := ((h.step input).opened_bounds he).1
      exact absurd (hstep.opened_lt hf) (Nat.not_lt.mpr hge)
    rcases hc with hc | hc
    · rcases hd with hd | hd
      · obtain ⟨_, hout, _⟩ := hstep.opened_eq hc
        rw [hout, List.mem_singleton] at hd
        exact (Output.opened.inj hd).2.symm
      · exact absurd hc (hlate hd)
    · rcases hd with hd | hd
      · exact absurd hd (hlate hc)
      · exact ih (h.step input) hc hd

/-- Later connections have greater numbers. -/
theorem WellFormed.openedFor_ascending (h : t.WellFormed) (c : String) (inputs : List Input) :
    (openedFor c (t.said inputs)).Pairwise (· < ·) := by
  induction inputs generalizing t with
  | nil => exact .nil
  | cons input inputs ih =>
    rw [said_cons, openedFor_append]
    refine List.pairwise_append.mpr ⟨?_, ih (h.step input), fun j hj k hk => ?_⟩
    · cases hf : openedFor c (t.step input).2 with
      | nil => exact .nil
      | cons k ks =>
        have hk : .opened k c ∈ (t.step input).2 := mem_openedFor.mp (hf ▸ List.mem_cons_self)
        rw [← hf, ((step_change h input).opened_eq hk).2.1]
        simp [openedFor]
    · have hlt := (step_change h input).opened_lt (mem_openedFor.mp hj)
      exact Nat.lt_of_lt_of_le hlt ((h.step input).opened_bounds (mem_openedFor.mp hk)).1

theorem rank_lt {j k : Nat} (h : connections.Pairwise (· < ·)) (hj : j ∈ connections)
    (hk : k ∈ connections) (hlt : j < k) : rank connections j < rank connections k := by
  rcases Nat.lt_trichotomy (rank connections j) (rank connections k) with hi | hi | hi
  · exact hi
  · exact absurd ((List.idxOf_inj hj).mp hi) (Nat.ne_of_lt hlt)
  · have hgt := List.pairwise_iff_getElem.mp h _ _ (List.idxOf_lt_length_iff.mpr hk)
      (List.idxOf_lt_length_iff.mpr hj) hi
    rw [List.getElem_idxOf, List.getElem_idxOf] at hgt
    exact absurd hlt (Nat.lt_asymm hgt)

/-! ### One channel told apart -/

structure Apart (c : String) (connections ns : List Nat) (t : Table) : Prop where
  connection : ∀ p ∈ t.entries, p.2.connection ∈ connections ↔ p.1 = c
  call : ∀ p ∈ t.entries, ∀ n, n = p.2.owner ∨ n ∈ p.2.subscribers ∨ n ∈ p.2.unsubscribers →
    (n ∈ ns ↔ p.1 = c)

theorem mem_callsFor {n : Nat} (h : (calls inputs).Nodup) {input : Input} (hm : input ∈ inputs)
    (hn : input.call? = some n) {d : String} (hd : input.channel? = some d) :
    n ∈ callsFor c inputs ↔ d = c := by
  rw [callsFor, calls, List.mem_filterMap]
  constructor
  · rintro ⟨other, hother, ho⟩
    obtain ⟨hother, hc⟩ := List.mem_filter.mp hother
    obtain rfl := eq_of_call? h hm hother hn ho
    exact Option.some.inj (hd.symm.trans (of_decide_eq_true hc))
  · rintro rfl
    exact ⟨input, List.mem_filter.mpr ⟨hm, decide_eq_true hd⟩, hn⟩

theorem apart_after (h : (calls (before ++ later)).Nodup) (c : String) :
    Apart c (openedFor c (({} : Table).said (before ++ later))) (callsFor c (before ++ later))
      (({} : Table).after before) where
  connection := by
    rintro ⟨d, entry⟩ hp
    have hopened : .opened entry.connection d ∈ ({} : Table).said (before ++ later) := by
      obtain ⟨first, rest, rfl, ho⟩ := opener hp
      exact mem_said.mpr ⟨first, _, rest ++ later, by simp, ho⟩
    rw [mem_openedFor]
    exact ⟨fun hc => wellFormed_empty.opened_unique hopened hc, fun hd => hd ▸ hopened⟩
  call := by
    rintro ⟨d, entry⟩ hp n hn
    have hmade : ∃ input ∈ before ++ later, input.call? = some n ∧ input.channel? = some d := by
      rcases hn with rfl | hn | hn
      · obtain ⟨first, rest, rfl, _⟩ := opener hp
        exact ⟨.subscribe entry.owner d, by simp, rfl, rfl⟩
      · have hm := mem_of_mem_pending (mem_pending_subscribe hp hn)
        exact ⟨_, List.mem_append_left _ hm, rfl, rfl⟩
      · have hm := mem_of_mem_pending (mem_pending_unsubscribe hp hn)
        exact ⟨_, List.mem_append_left _ hm, rfl, rfl⟩
    obtain ⟨input, hm, hcall, hd⟩ := hmade
    exact mem_callsFor h hm hcall hd

/-- One table holds of a channel what another holds, and nothing else, with connections numbered
anew; so many have been opened. -/
structure Mirrors (c : String) (connections : List Nat) (count : Nat) (t u : Table) : Prop where
  wellFormed : u.WellFormed
  running : u.running
  next : u.nextConnection = count
  entry : u.entryOf? c = (t.entryOf? c).map (.renumber (rank connections))
  alone : ∀ p ∈ u.entries, p.1 = c

theorem Input.isWithin_of_turn {d : String} {entry : Entry} {o : Option Entry}
    (hk : entry.connection ∈ connections ↔ d = c) (ht : Turn d entry input o out) :
    input.isWithin c connections ↔ d = c := by
  have htouch := ht.touches
  cases input with
  | subscribe n e | unsubscribe n e =>
    obtain rfl : e = d := htouch
    simp [Input.isWithin, Input.channel?, Input.connection?, Input.event?]
  | event k e =>
    obtain rfl : k = entry.connection := htouch
    simp [Input.isWithin, Input.channel?, Input.connection?, Input.event?, hk]
  | list | shutdown | abandoned => exact absurd htouch id

theorem Output.isWithin_of_turn {d : String} {entry : Entry} {o : Option Entry}
    (hk : entry.connection ∈ connections ↔ d = c)
    (hold : ∀ n, n = entry.owner ∨ n ∈ entry.subscribers ∨ n ∈ entry.unsubscribers → (n ∈ ns ↔ d = c))
    (hcall : ∀ n, input.call? = some n → (n ∈ ns ↔ input.channel? = some c))
    (ht : Turn d entry input o out) {output : Output} (hm : output ∈ out) :
    output.isWithin connections ns ↔ d = c := by
  rcases ht.about hm with ⟨hk', hn⟩ | ⟨hk', n, hn, hknown⟩
  · rw [Output.isWithin, hk', hn]
    simp [hk]
  · have hmem : n ∈ ns ↔ d = c := by
      rcases hknown with hknown | hin
      · exact hold n hknown
      · have hd : input.channel? = some d := by cases ht <;> first | rfl | cases hin
        rw [hcall n hin, hd, Option.some.injEq]
    rw [Output.isWithin, hk', hn]
    simp [hmem]

/-- What is not about a channel leaves its mirror as it is. -/
private theorem Mirrors.frame (hu : Mirrors c connections count t u) (he : t'.entryOf? c = t.entryOf? c) :
    Mirrors c connections count t' u := { hu with entry := he ▸ hu.entry }

private theorem Mirrors.turn (hu : Mirrors c connections count t u) (h : t.WellFormed) {entry : Entry}
    {o : Option Entry} (he : t.entryOf? c = some entry) (ht : Turn c entry input o out) :
    Mirrors c connections count (t.place c o) (u.step (input.renumber (rank connections))).1 ∧
      (u.step (input.renumber (rank connections))).2 = out.map (.renumber (rank connections)) := by
  have he' := hu.entry
  rw [he, Option.map_some] at he'
  have hwf := hu.wellFormed.step (input.renumber (rank connections))
  rw [hu.wellFormed.step_turn hu.running he' (ht.renumber _)] at hwf ⊢
  refine ⟨⟨hwf, ?_, ?_, ?_, fun p hp => ?_⟩, rfl⟩
  · rw [place_running, hu.running]
  · rw [place_nextConnection, hu.next]
  · rw [entryOf?_place_self hu.wellFormed.ascending, entryOf?_place_self h.ascending]
  · rcases (mem_place hu.wellFormed.ascending).mp hp with ⟨hpc, _⟩ | ⟨_, hp⟩
    · exact hpc
    · exact hu.alone p hp

private theorem Mirrors.opens (hu : Mirrors c connections count t u) (h : t.WellFormed)
    (he : t.entryOf? c = none) (hnext : rank connections t.nextConnection = count) (n : Nat) :
    Mirrors c connections (count + 1)
        { t.place c (some (.connecting c t.nextConnection n [n])) with
          nextConnection := t.nextConnection + 1 } (u.step (.subscribe n c)).1 ∧
      (u.step (.subscribe n c)).2 = [.opened (rank connections t.nextConnection) c] := by
  have he' := hu.entry
  rw [he, Option.map_none] at he'
  have hwf := hu.wellFormed.step (.subscribe n c)
  have hstep : u.step (.subscribe n c) =
      ({ u.place c (some (.connecting c u.nextConnection n [n])) with
          nextConnection := u.nextConnection + 1 }, [.opened u.nextConnection c]) := by
    simp [Table.step, hu.running, subscribe, he', place, Subscription.new]
  rw [hstep] at hwf ⊢
  rw [← hu.next] at hnext
  refine ⟨⟨hwf, ?_, ?_, ?_, fun p hp => ?_⟩, ?_⟩
  · rw [place_running, hu.running]
  · rw [hu.next]
  · have hplaced := entryOf?_place_self h.ascending c (some (.connecting c t.nextConnection n [n]))
    have hplaced' := entryOf?_place_self hu.wellFormed.ascending c
      (some (.connecting c u.nextConnection n [n]))
    refine hplaced'.trans ?_
    rw [← hnext]
    exact (congrArg (Option.map (Entry.renumber (rank connections))) hplaced).symm
  · rcases (mem_place hu.wellFormed.ascending).mp hp with ⟨hpc, _⟩ | ⟨_, hp⟩
    · exact hpc
    · exact hu.alone p hp
  · rw [hnext]

private theorem openedFor_turn {d : String} {entry : Entry} {o : Option Entry}
    (ht : Turn d entry input o out) : openedFor c out = [] := by
  cases ht <;> simp [openedFor, Entry.answerAll, Entry.release]

/-- What one input does to a channel it does to the mirror, if the input is about the channel. -/
private theorem Mirrors.step (h : t.WellFormed) (hu : Mirrors c connections count t u)
    (ha : Apart c connections ns t) (hc : Change t input t' out) (hr : t'.running)
    (hcall : ∀ n, input.call? = some n → (n ∈ ns ↔ input.channel? = some c))
    (hnew : ∀ k d, .opened k d ∈ out → (k ∈ connections ↔ d = c))
    (hnext : ∀ k, .opened k c ∈ out → rank connections k = count) :
    let count' := count + (openedFor c out).length
    if input.isWithin c connections then
      Mirrors c connections count' t' (u.step (input.renumber (rank connections))).1 ∧
        (u.step (input.renumber (rank connections))).2 = out.map (.renumber (rank connections)) ∧
        ∀ output ∈ out, output.isWithin connections ns
    else Mirrors c connections count' t' u ∧ ∀ output ∈ out, ¬output.isWithin connections ns := by
  dsimp only
  cases hc with
  | @opens n d _ he =>
    have hin : (Input.subscribe n d).isWithin c connections ↔ d = c := by
      simp [Input.isWithin, Input.channel?, Input.connection?, Input.event?]
    have hk := hnew t.nextConnection d (List.mem_singleton_self _)
    split
    · next hd =>
      obtain rfl := hin.mp hd
      obtain ⟨hm, hout⟩ := hu.opens h he (hnext _ (List.mem_singleton_self _)) n
      refine ⟨?_, hout, fun output ho => ?_⟩
      · rw [show openedFor d [.opened t.nextConnection d] = [t.nextConnection] by simp [openedFor]]
        exact hm
      · rw [List.mem_singleton.mp ho]
        simp [Output.isWithin, hk]
    · next hd =>
      rw [hin] at hd
      rw [show openedFor c [.opened t.nextConnection d] = [] by simp [openedFor, hd]]
      refine ⟨hu.frame ?_, fun output ho => ?_⟩
      · exact (entryOf?_place h.ascending d c _).trans (if_neg (Ne.symm hd))
      · rw [List.mem_singleton.mp ho]
        simp [Output.isWithin, hk, hd]
  | @absent n d _ he =>
    have hin : (Input.unsubscribe n d).isWithin c connections ↔ d = c := by
      simp [Input.isWithin, Input.channel?, Input.connection?, Input.event?]
    have hn : n ∈ ns ↔ d = c := by simpa [Input.channel?] using hcall n rfl
    split
    · next hd =>
      obtain rfl := hin.mp hd
      have he' := hu.entry
      rw [he, Option.map_none] at he'
      have hstep : u.step (.unsubscribe n d) = (u, [.answered n (.ok ())]) := by
        simp [Table.step, hu.running, unsubscribe, he']
      refine ⟨?_, ?_, fun output ho => ?_⟩
      · exact hstep ▸ hu
      · rw [show Input.renumber _ (Input.unsubscribe n d) = .unsubscribe n d from rfl, hstep]
        rfl
      · rw [List.mem_singleton.mp ho]
        simp [Output.isWithin, hn]
    · next hd =>
      rw [hin] at hd
      refine ⟨hu, fun output ho => ?_⟩
      rw [List.mem_singleton.mp ho]
      simp [Output.isWithin, hn, hd]
  | @turn d entry o _ _ _ he ht =>
    have hm := h.mem_of_entryOf? he
    have hk := ha.connection _ hm
    have hin := Input.isWithin_of_turn hk ht
    rw [openedFor_turn ht]
    have hout {output : Output} (ho : output ∈ out) : output.isWithin connections ns ↔ d = c :=
      Output.isWithin_of_turn hk (ha.call _ hm) hcall ht ho
    split
    · next hd =>
      obtain rfl := hin.mp hd
      obtain ⟨hm, hsaid⟩ := hu.turn h he ht
      exact ⟨hm, hsaid, fun output ho => (hout ho).mpr rfl⟩
    · next hd =>
      rw [hin] at hd
      refine ⟨hu.frame ?_, fun output ho hw => hd ((hout ho).mp hw)⟩
      rw [entryOf?_place h.ascending, if_neg (Ne.symm hd)]
  | @stray k e _ hno =>
    split
    · next hin =>
      have hk : k ∈ connections := by
        simpa [Input.isWithin, Input.channel?, Input.connection?, Input.event?] using hin
      have hno' : ∀ p ∈ u.entries, p.2.connection ≠ rank connections k := by
        rintro ⟨d, entry'⟩ hp heq
        obtain rfl : d = c := hu.alone _ hp
        have he' := (entryOf?_eq_some_iff hu.wellFormed.ascending).mpr hp
        rw [hu.entry, Option.map_eq_some_iff] at he'
        obtain ⟨entry, he, rfl⟩ := he'
        have hm := h.mem_of_entryOf? he
        have hmem : entry.connection ∈ connections := (ha.connection _ hm).mpr rfl
        exact hno _ hm ((List.idxOf_inj hmem).mp heq)
      rw [Input.renumber, step_stray hno']
      exact ⟨hu, rfl, fun _ ho => absurd ho List.not_mem_nil⟩
    · exact ⟨hu, fun _ ho => absurd ho List.not_mem_nil⟩
  | list =>
    rw [if_neg (by simp [Input.isWithin, Input.channel?, Input.connection?, Input.event?])]
    refine ⟨hu, fun output ho => ?_⟩
    rw [List.mem_singleton.mp ho]
    simp [Output.isWithin]
  | stop => exact absurd hr Bool.false_ne_true
  | refuse hs => exact absurd (hs.symm.trans hr) Bool.false_ne_true

/-! ### Whole runs -/

theorem isolate_append (c : String) (connections : List Nat) (xs ys : List Input) :
    isolate c connections (xs ++ ys) = isolate c connections xs ++ isolate c connections ys := by
  simp [isolate]

private theorem rank_opened {k : Nat} (hk : .opened k c ∈ ((({} : Table).after before).step input).2) :
    rank (openedFor c (({} : Table).said (before ++ input :: later))) k =
      (openedFor c (({} : Table).said before)).length := by
  obtain ⟨rfl, hout, _⟩ := (step_change (wellFormed_after before) input).opened_eq hk
  have hold : (({} : Table).after before).nextConnection ∉ openedFor c (({} : Table).said before) :=
    fun hm => Nat.lt_irrefl _ (wellFormed_empty.opened_bounds (mem_openedFor.mp hm)).2
  have hthis : openedFor c ((({} : Table).after before).step input).2 =
      [(({} : Table).after before).nextConnection] := by
    rw [hout]
    simp [openedFor]
  rw [said_append, said_cons, openedFor_append, openedFor_append, hthis, rank,
    List.idxOf_append_of_notMem hold]
  simp

private theorem mirrors_after (h : (calls inputs).Nodup) (hrun : ∀ input ∈ inputs, input.isStop = false)
    (hin : inputs = before ++ later) :
    let connections := openedFor c (({} : Table).said inputs)
    Mirrors c connections (openedFor c (({} : Table).said before)).length
        (({} : Table).after before) (({} : Table).after (isolate c connections before)) ∧
      ({} : Table).said (isolate c connections before) =
        ((({} : Table).said before).filter (Output.isWithin connections (callsFor c inputs))).map
          (.renumber (rank connections)) := by
  intro connections
  induction before using List.reverseRecOn generalizing later with
  | nil => exact ⟨⟨wellFormed_empty, rfl, rfl, rfl, fun _ hp => absurd hp List.not_mem_nil⟩, rfl⟩
  | append_singleton before input ih =>
    rw [List.append_assoc, List.singleton_append] at hin
    obtain ⟨hm, hsaid⟩ := ih hin
    have hc := step_change (wellFormed_after before) input
    have hr : ((({} : Table).after before).step input).1.running := by
      have hr : (({} : Table).after (before ++ [input])).running :=
        wellFormed_empty.running_after rfl fun i hi =>
          hrun i (by rw [hin, List.append_cons]; exact List.mem_append_left _ hi)
      rwa [after_append] at hr
    have hcall : ∀ n, input.call? = some n → (n ∈ callsFor c inputs ↔ input.channel? = some c) := by
      intro n hn
      obtain ⟨d, hd⟩ : ∃ d, input.channel? = some d := by
        cases input <;> first | exact ⟨_, rfl⟩ | cases hn
      rw [mem_callsFor h (hin ▸ List.mem_append_right _ List.mem_cons_self) hn hd, hd, Option.some.injEq]
    have hmem {output : Output} (ho : output ∈ ((({} : Table).after before).step input).2) :
        output ∈ ({} : Table).said inputs := mem_said.mpr ⟨before, input, later, hin, ho⟩
    have hnew (k : Nat) (d : String) (ho : .opened k d ∈ ((({} : Table).after before).step input).2) :
        k ∈ connections ↔ d = c :=
      ⟨fun hk => wellFormed_empty.opened_unique (hmem ho) (mem_openedFor.mp hk),
        fun hd => mem_openedFor.mpr (hd ▸ hmem ho)⟩
    have hnext (k : Nat) (ho : .opened k c ∈ ((({} : Table).after before).step input).2) :
        rank connections k = (openedFor c (({} : Table).said before)).length := by
      rw [show connections = openedFor c _ from rfl, hin]
      exact rank_opened ho
    have ha := apart_after (hin ▸ h) c
    rw [← hin] at ha
    have hstep := hm.step (wellFormed_after before) ha hc hr hcall hnew hnext
    rw [isolate_append, after_append, said_append, after_append, said_append, hsaid, List.filter_append,
      List.map_append, after_cons, after_nil, said_cons, said_nil, List.append_nil, openedFor_append,
      List.length_append]
    dsimp only at hstep
    split at hstep
    · next hw =>
      obtain ⟨hm', hout, hall⟩ := hstep
      have hone : isolate c connections [input] = [input.renumber (rank connections)] := by
        simp [isolate, hw]
      rw [hone, List.filter_eq_self.mpr hall, ← hout]
      exact ⟨hm', by simp⟩
    · next hw =>
      obtain ⟨hm', hnone⟩ := hstep
      have hone : isolate c connections [input] = [] := by simp [isolate, hw]
      rw [hone, List.filter_eq_nil_iff.mpr hnone]
      exact ⟨hm', rfl⟩

/-- A call that comes in has a number of its own, and the table is not stopped. Then the inputs of a
channel, run alone with its connections numbered from zero in their order, come to the same entry
for the channel and say just what the whole run says about its calls and its connections, in the
same order. An event of a connection that the entry of its channel does not hold has no effect. -/
theorem isolated_run (inputs : List Input) (c : String) (h : (calls inputs).Nodup)
    (hrun : ∀ input ∈ inputs, input.isStop = false) :
    let connections := openedFor c (({} : Table).said inputs)
    let alone := isolate c connections inputs
    (∀ j ∈ connections, ∀ k ∈ connections, j < k → rank connections j < rank connections k) ∧
    (({} : Table).after alone).entryOf? c =
      ((({} : Table).after inputs).entryOf? c).map (.renumber (rank connections)) ∧
    ({} : Table).said alone =
      ((({} : Table).said inputs).filter (Output.isWithin connections (callsFor c inputs))).map
        (.renumber (rank connections)) ∧
    ∀ before later k d, inputs = before ++ later → .opened k d ∈ ({} : Table).said before →
      (∀ entry, (({} : Table).after before).entryOf? d = some entry → entry.connection ≠ k) →
      ∀ e, (({} : Table).after before).step (.event k e) = (({} : Table).after before, []) := by
  intro connections alone
  obtain ⟨hm, hsaid⟩ := mirrors_after (c := c) h hrun (List.append_nil inputs).symm
  refine ⟨fun j hj k hk hlt => ?_, hm.entry, hsaid, ?_⟩
  · exact rank_lt (wellFormed_empty.openedFor_ascending c inputs) hj hk hlt
  · rintro before later k d rfl hopened hgone e
    refine step_stray (fun p hp hpk => ?_) e
    have hwf := wellFormed_after before
    obtain ⟨first, rest, hbefore, ho⟩ := opener hp
    have hother : .opened k p.1 ∈ ({} : Table).said before :=
      hpk ▸ mem_said.mpr ⟨first, _, rest, hbefore, ho⟩
    obtain rfl := wellFormed_empty.opened_unique hopened hother
    exact hgone p.2 ((entryOf?_eq_some_iff hwf.ascending).mpr hp) hpk

/-- Two channels take turns, and one of them ends and begins again; its late event goes nowhere. -/
theorem isolated_run_resubscribed :
    let inputs : List Input := [.subscribe 0 "B", .subscribe 1 "A", .event 0 .opened, .event 1 .opened,
      .event 1 (.message Envelope.init.encode), .list 9, .unsubscribe 2 "A", .unsubscribe 3 "B",
      .event 1 (.closed 1000), .subscribe 4 "A", .event 1 (.failed "late"), .event 2 .opened]
    (calls inputs).Nodup ∧ (∀ input ∈ inputs, input.isStop = false) ∧
      (({} : Table).after [.subscribe 1 "A", .event 0 .opened, .event 0 (.message Envelope.init.encode),
        .unsubscribe 2 "A", .event 0 (.closed 1000), .subscribe 4 "A", .event 0 (.failed "late"),
        .event 1 .opened]).entryOf? "A" = some (.connecting "A" 1 4 [4]) ∧
      (({} : Table).after (inputs.take 10)).step (.event 1 (.failed "late")) =
        (({} : Table).after (inputs.take 10), []) := by
  intro inputs
  have h : (calls inputs).Nodup := by decide
  have hrun : ∀ input ∈ inputs, input.isStop = false := by simp [inputs, Input.isStop]
  obtain ⟨_, hentry, _, hstray⟩ := isolated_run inputs "A" h hrun
  refine ⟨h, hrun, hentry, ?_⟩
  refine hstray (inputs.take 10) (inputs.drop 10) 1 "A" rfl ?_ ?_ _
  · exact .tail _ (.head _)
  · intro entry he
    obtain rfl : Entry.connecting "A" 2 4 [4] = entry := Option.some.inj he
    simp

end RobotBridge.Session.Table
