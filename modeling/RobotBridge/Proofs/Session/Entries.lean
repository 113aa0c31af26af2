import RobotBridge.Session.Table

/-! The entries of a table as a map: one entry a channel, in ascending order of channels. -/
namespace RobotBridge.Session.Table

def Ascending (entries : List (String × Entry)) : Prop := entries.Pairwise fun a b => a.1 < b.1

theorem setEntry_perm (c : String) (e : Entry) {l : List (String × Entry)} (h : Ascending l) :
    (setEntry c e l).Perm ((c, e) :: l.filter fun p => p.1 ≠ c) := by
  induction l with
  | nil => exact .refl _
  | cons p rest ih =>
    obtain ⟨d, f⟩ := p
    obtain ⟨hd, hrest⟩ := List.pairwise_cons.mp h
    rw [setEntry]
    split
    · next heq =>
      subst heq
      have hkeep : rest.filter (fun p => p.1 ≠ c) = rest :=
        List.filter_eq_self.mpr fun p hp => by simpa using (String.ne_of_lt (hd p hp)).symm
      rw [List.filter_cons_of_neg (by simp), hkeep]
    · next hne =>
      rw [List.filter_cons_of_pos (by simpa using Ne.symm hne)]
      split
      · next hlt =>
        have hkeep : rest.filter (fun p => p.1 ≠ c) = rest :=
          List.filter_eq_self.mpr fun p hp => by
            simpa using (String.ne_of_lt (String.lt_trans hlt (hd p hp))).symm
        rw [hkeep]
      · exact ((ih hrest).cons _).trans (.swap _ _ _)

theorem ascending_setEntry (c : String) (e : Entry) {l : List (String × Entry)} (h : Ascending l) :
    Ascending (setEntry c e l) := by
  induction l with
  | nil => exact List.pairwise_singleton _ _
  | cons p rest ih =>
    obtain ⟨d, f⟩ := p
    obtain ⟨hd, hrest⟩ := List.pairwise_cons.mp h
    rw [setEntry]
    split
    · next heq => exact List.pairwise_cons.mpr ⟨heq ▸ hd, hrest⟩
    · next hne =>
      split
      · next hlt =>
        refine List.pairwise_cons.mpr ⟨fun p hp => ?_, h⟩
        rcases List.mem_cons.mp hp with rfl | hp
        · exact hlt
        · exact String.lt_trans hlt (hd p hp)
      · next hge =>
        refine List.pairwise_cons.mpr ⟨fun p hp => ?_, ih hrest⟩
        rcases List.mem_cons.mp ((setEntry_perm c e hrest).subset hp) with rfl | hp
        · exact String.not_le.mp fun hle => hne (String.le_antisymm (String.not_lt.mp hge) hle).symm
        · exact hd p (List.mem_filter.mp hp).1

theorem lookup_eq_some_iff {l : List (String × Entry)} (h : Ascending l) {c : String} {e : Entry} :
    l.lookup c = some e ↔ (c, e) ∈ l := by
  induction l with
  | nil => simp
  | cons p rest ih =>
    obtain ⟨d, f⟩ := p
    obtain ⟨hd, hrest⟩ := List.pairwise_cons.mp h
    rw [List.lookup_cons, List.mem_cons, Prod.mk.injEq]
    by_cases hc : c = d
    · subst hc
      have hno : (c, e) ∉ rest := fun hm => String.lt_irrefl c (hd _ hm)
      simp [hno, eq_comm]
    · simpa [beq_false_of_ne hc, hc] using ih hrest

theorem setEntry_self {l : List (String × Entry)} (h : Ascending l) {c : String} {e : Entry}
    (he : (c, e) ∈ l) : setEntry c e l = l := by
  induction l with
  | nil => simp at he
  | cons p rest ih =>
    obtain ⟨d, f⟩ := p
    obtain ⟨hd, hrest⟩ := List.pairwise_cons.mp h
    rw [setEntry]
    rcases List.mem_cons.mp he with hp | hm
    · cases hp
      simp
    · have hlt : d < c := hd _ hm
      rw [if_neg (String.ne_of_lt hlt).symm, if_neg (String.lt_asymm hlt), ih hrest hm]

variable {t : Table}

theorem entryOf?_eq_some_iff (h : Ascending t.entries) {c : String} {e : Entry} :
    t.entryOf? c = some e ↔ (c, e) ∈ t.entries := lookup_eq_some_iff h

theorem entryOf?_eq_none_iff (h : Ascending t.entries) {c : String} :
    t.entryOf? c = none ↔ ∀ p ∈ t.entries, p.1 ≠ c := by
  rw [Option.eq_none_iff_forall_ne_some]
  constructor
  · rintro hn ⟨d, e⟩ hp rfl
    exact hn e ((entryOf?_eq_some_iff h).mpr hp)
  · intro hn e he
    exact hn _ ((entryOf?_eq_some_iff h).mp he) rfl

def place (t : Table) (c : String) : Option Entry → Table
  | some e => t.put c e
  | none => t.remove c

@[simp] theorem place_running (t : Table) (c : String) (o : Option Entry) :
    (t.place c o).running = t.running := by cases o <;> rfl

@[simp] theorem place_nextConnection (t : Table) (c : String) (o : Option Entry) :
    (t.place c o).nextConnection = t.nextConnection := by cases o <;> rfl

theorem place_perm (h : Ascending t.entries) (c : String) (o : Option Entry) :
    (t.place c o).entries.Perm ((o.map (Prod.mk c)).toList ++ (t.remove c).entries) := by
  cases o with
  | some e => exact setEntry_perm c e h
  | none => exact .refl _

theorem ascending_place (h : Ascending t.entries) (c : String) (o : Option Entry) :
    Ascending (t.place c o).entries := by
  cases o with
  | some e => exact ascending_setEntry c e h
  | none => exact h.filter _

theorem place_self (h : Ascending t.entries) {c : String} {e : Entry} (he : t.entryOf? c = some e) :
    t.place c (some e) = t := by
  have hm := (entryOf?_eq_some_iff h).mp he
  simp [place, put, setEntry_self h hm]

theorem mem_place (h : Ascending t.entries) {c : String} {o : Option Entry} {p : String × Entry} :
    p ∈ (t.place c o).entries ↔ (p.1 = c ∧ o = some p.2) ∨ (p.1 ≠ c ∧ p ∈ t.entries) := by
  rw [(place_perm h c o).mem_iff]
  obtain ⟨d, e⟩ := p
  cases o with
  | none => simp [remove, and_comm]
  | some f => simp [remove, and_comm, @eq_comm _ e]

theorem entryOf?_place (h : Ascending t.entries) (c d : String) (o : Option Entry) :
    (t.place c o).entryOf? d = if d = c then o else t.entryOf? d := by
  ext e
  rw [entryOf?_eq_some_iff (ascending_place h c o), mem_place h]
  split
  · next hd => simp [hd]
  · next hd => simp [hd, entryOf?_eq_some_iff h]

theorem entryOf?_place_self (h : Ascending t.entries) (c : String) (o : Option Entry) :
    (t.place c o).entryOf? c = o := by
  rw [entryOf?_place h, if_pos rfl]

/-- The entry of a channel and all the others. -/
theorem entries_perm (h : Ascending t.entries) {c : String} {e : Entry} (he : t.entryOf? c = some e) :
    t.entries.Perm ((c, e) :: (t.remove c).entries) := by
  have hp := place_perm h c (some e)
  rwa [place_self h he] at hp

theorem remove_entries (h : Ascending t.entries) {c : String} (he : t.entryOf? c = none) :
    (t.remove c).entries = t.entries :=
  List.filter_eq_self.mpr fun p hp => by simpa using (entryOf?_eq_none_iff h).mp he p hp

end RobotBridge.Session.Table
