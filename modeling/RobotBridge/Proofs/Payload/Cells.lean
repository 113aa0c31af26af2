import RobotBridge.Proofs.Payload.Grid

/-! Which cell of a grid a coordinate reads. The size of a grid is what the server says, and the index of
a cell is a checked word of 64 bits: a coordinate reads the cell at its own place or none, and a place
beyond the word is a fault. -/
namespace RobotBridge.OccupancyGrid
open Json Base64

variable {g : OccupancyGrid} {x y x' y' : UInt64} {v : Int8} {i : Nat}

def Within (g : OccupancyGrid) (x y : UInt64) : Prop := x < g.width ∧ y < g.height

instance (g : OccupancyGrid) (x y : UInt64) : Decidable (g.Within x y) := inferInstanceAs (Decidable (_ ∧ _))

/-- The place of a coordinate row by row, in unbounded numbers. -/
def place (g : OccupancyGrid) (x y : UInt64) : Nat := y.toNat * g.width.toNat + x.toNat

/-- A coordinate reads the stored cell of an index: whatever the cells are, it gives this one. -/
def Reads (g : OccupancyGrid) (x y : UInt64) (i : Nat) : Prop :=
  i < g.cells.length ∧ ∀ cells, cells.length = g.cells.length → cell { g with cells } x y = .ok cells[i]?

/-- A grid with an answer to every coordinate: within it the cell at the place, if there is one, and
outside it none. -/
def Exact (g : OccupancyGrid) : Prop :=
  ∀ x y, g.cell x y = .ok (if g.Within x y then g.cells[g.place x y]? else none)

def Apart (g : OccupancyGrid) : Prop :=
  ∀ x y x' y' i, g.Reads x y i → g.Reads x' y' i → x = x' ∧ y = y'

/-! ### Places -/

theorem place_lt (h : g.Within x y) : g.place x y < g.width.toNat * g.height.toNat := by
  have hx : x.toNat < g.width.toNat := UInt64.lt_iff_toNat_lt.mp h.1
  have hy : y.toNat + 1 ≤ g.height.toNat := UInt64.lt_iff_toNat_lt.mp h.2
  calc
    g.place x y < y.toNat * g.width.toNat + g.width.toNat := Nat.add_lt_add_left hx _
    _ = g.width.toNat * (y.toNat + 1) := by rw [Nat.mul_comm, Nat.mul_succ]
    _ ≤ _ := Nat.mul_le_mul_left _ hy

theorem place_injective (h : g.Within x y) (h' : g.Within x' y') (heq : g.place x y = g.place x' y') :
    x = x' ∧ y = y' := by
  have hx : x.toNat < g.width.toNat := UInt64.lt_iff_toNat_lt.mp h.1
  have hx' : x'.toNat < g.width.toNat := UInt64.lt_iff_toNat_lt.mp h'.1
  have hpos : 0 < g.width.toNat := Nat.zero_lt_of_lt hx
  have hrow (x y : UInt64) (hx : x.toNat < g.width.toNat) : g.place x y / g.width.toNat = y.toNat := by
    rw [place, Nat.mul_comm, Nat.mul_add_div hpos, Nat.div_eq_of_lt hx, Nat.add_zero]
  have hcolumn (x y : UInt64) (hx : x.toNat < g.width.toNat) : g.place x y % g.width.toNat = x.toNat := by
    rw [place, Nat.mul_comm, Nat.mul_add_mod, Nat.mod_eq_of_lt hx]
  constructor
  · rw [← UInt64.toNat_inj, ← hcolumn x y hx, ← hcolumn x' y' hx', heq]
  · rw [← UInt64.toNat_inj, ← hrow x y hx, ← hrow x' y' hx', heq]

/-- Every place of the grid has a coordinate. -/
theorem exists_place {n : Nat} (hn : n < g.width.toNat * g.height.toNat) :
    ∃ x y, g.Within x y ∧ g.place x y = n := by
  have hpos : 0 < g.width.toNat := Nat.pos_of_mul_pos_right (Nat.zero_lt_of_lt hn)
  have hx : n % g.width.toNat < g.width.toNat := Nat.mod_lt _ hpos
  have hy : n / g.width.toNat < g.height.toNat := Nat.div_lt_of_lt_mul hn
  have hxword := UInt64.toNat_ofNat_of_lt' (Nat.lt_trans hx g.width.toNat_lt)
  have hyword := UInt64.toNat_ofNat_of_lt' (Nat.lt_trans hy g.height.toNat_lt)
  refine ⟨.ofNat (n % g.width.toNat), .ofNat (n / g.width.toNat), ⟨?_, ?_⟩, ?_⟩
  · rw [UInt64.lt_iff_toNat_lt, hxword]
    exact hx
  · rw [UInt64.lt_iff_toNat_lt, hyword]
    exact hy
  · rw [place, hxword, hyword]
    exact Nat.div_add_mod' n g.width.toNat

/-! ### Reading a cell -/

theorem checked_eq_ok {n : Nat} {w : UInt64} : checked n = .ok w ↔ w.toNat = n := by
  unfold checked
  split
  case isTrue h =>
    rw [Except.ok.injEq, ← UInt64.toNat_inj, UInt64.toNat_ofNatLT]
    exact eq_comm
  case isFalse h =>
    refine iff_of_false nofun ?_
    rintro rfl
    exact h w.toNat_lt

theorem checked_eq_error {n : Nat} {f : Fault} : checked n = .error f ↔ UInt64.size ≤ n := by
  unfold checked
  split
  case isTrue h => exact iff_of_false nofun (Nat.not_le_of_lt h)
  case isFalse h => exact iff_of_true rfl (Nat.le_of_not_lt h)

/-- The product is checked before the sum, which is never less. -/
theorem index_eq (g : OccupancyGrid) (x y : UInt64) : g.index x y = checked (g.place x y) := by
  unfold index
  cases hstart : checked (y.toNat * g.width.toNat) with
  | ok start =>
    rw [place, ← checked_eq_ok.mp hstart]
    rfl
  | error f =>
    have hbeyond : UInt64.size ≤ g.place x y :=
      Nat.le_trans (checked_eq_error.mp hstart) (Nat.le_add_right _ _)
    exact (checked_eq_error.mpr hbeyond).symm

theorem cell_of_within (h : g.Within x y) :
    g.cell x y = (checked (g.place x y)).map fun i => g.cells[i.toNat]? := by
  have hin : ¬(g.width ≤ x ∨ g.height ≤ y) := by
    rw [not_or, UInt64.not_le, UInt64.not_le]
    exact h
  rw [cell, if_neg hin, index_eq]
  cases checked (g.place x y) <;> rfl

theorem cell_of_not_within (h : ¬g.Within x y) : g.cell x y = .ok none := by
  rw [cell, if_pos]
  rwa [Within, not_and_or, UInt64.not_lt, UInt64.not_lt] at h

theorem cell_of_lt (h : g.Within x y) (hword : g.place x y < UInt64.size) :
    g.cell x y = .ok g.cells[g.place x y]? := by
  rw [cell_of_within h, checked, dif_pos hword, Except.map, UInt64.toNat_ofNatLT]

theorem cell_of_size_le (h : g.Within x y) (hbeyond : UInt64.size ≤ g.place x y) :
    g.cell x y = .error .overflow := by
  rw [cell_of_within h, checked_eq_error.mpr hbeyond]
  rfl

/-- All that asking for a cell can come to. -/
theorem cell_cases (g : OccupancyGrid) (x y : UInt64) :
    (¬g.Within x y ∧ g.cell x y = .ok none) ∨
    (g.Within x y ∧ g.place x y < UInt64.size ∧ g.cell x y = .ok g.cells[g.place x y]?) ∨
    g.Within x y ∧ UInt64.size ≤ g.place x y ∧ g.cell x y = .error .overflow := by
  by_cases h : g.Within x y
  · refine .inr ?_
    rcases Nat.lt_or_ge (g.place x y) UInt64.size with hword | hbeyond
    · exact .inl ⟨h, hword, cell_of_lt h hword⟩
    · exact .inr ⟨h, hbeyond, cell_of_size_le h hbeyond⟩
  · exact .inl ⟨h, cell_of_not_within h⟩

theorem cell_eq_some : g.cell x y = .ok (some v) ↔
    g.Within x y ∧ g.place x y < UInt64.size ∧ g.cells[g.place x y]? = some v := by
  rcases g.cell_cases x y with ⟨h, hcell⟩ | ⟨h, hword, hcell⟩ | ⟨-, hbeyond, hcell⟩
  · simp [hcell, h]
  · simp [hcell, h, hword]
  · simp [hcell, Nat.not_lt_of_ge hbeyond]

theorem cell_eq_none : g.cell x y = .ok none ↔
    ¬g.Within x y ∨ g.place x y < UInt64.size ∧ g.cells.length ≤ g.place x y := by
  rcases g.cell_cases x y with ⟨h, hcell⟩ | ⟨h, hword, hcell⟩ | ⟨h, hbeyond, hcell⟩
  · simp [hcell, h]
  · simp [hcell, h, hword]
  · simp [hcell, h, Nat.not_lt_of_ge hbeyond]

theorem cell_eq_error : g.cell x y = .error .overflow ↔ g.Within x y ∧ UInt64.size ≤ g.place x y := by
  rcases g.cell_cases x y with ⟨h, hcell⟩ | ⟨-, hword, hcell⟩ | ⟨h, hbeyond, hcell⟩
  · simp [hcell, h]
  · simp [hcell, Nat.not_le_of_lt hword]
  · simp [hcell, h, hbeyond]

theorem reads_iff : g.Reads x y i ↔
    g.Within x y ∧ g.place x y < UInt64.size ∧ g.place x y = i ∧ i < g.cells.length := by
  constructor
  · rintro ⟨hi, hreads⟩
    -- all cells are alike but the one of index `i`, so what is read tells the index
    have hmarked := hreads ((List.replicate g.cells.length 0).set i 1) (by simp)
    rw [List.getElem?_set_self (by simpa using hi)] at hmarked
    obtain ⟨hwithin, hword, hread⟩ := cell_eq_some.mp hmarked
    refine ⟨hwithin, hword, ?_, hi⟩
    by_contra hne
    have hother : (List.replicate g.cells.length (0 : Int8))[g.place x y]? = some 1 := by
      rw [← hread]
      exact (List.getElem?_set_ne (Ne.symm hne)).symm
    obtain ⟨_, hone⟩ := List.getElem?_eq_some_iff.mp hother
    rw [List.getElem_replicate] at hone
    exact absurd hone (by decide)
  · rintro ⟨hwithin, hword, rfl, hi⟩
    exact ⟨hi, fun cells _ => cell_of_lt (g := { g with cells }) hwithin hword⟩

theorem apart (g : OccupancyGrid) : g.Apart := by
  intro x y x' y' i hreads hreads'
  obtain ⟨hwithin, -, hi, -⟩ := reads_iff.mp hreads
  obtain ⟨hwithin', -, hi', -⟩ := reads_iff.mp hreads'
  exact place_injective hwithin hwithin' (hi.trans hi'.symm)

/-- A grid whose places do not all fit the word has a coordinate whose index is a fault. -/
theorem exact_iff : g.Exact ↔ g.width.toNat * g.height.toNat ≤ UInt64.size := by
  constructor
  · intro h
    by_contra hsize
    obtain ⟨x, y, hwithin, hplace⟩ := exists_place (Nat.lt_of_not_le hsize)
    have hfault := cell_of_size_le hwithin (Nat.le_of_eq hplace.symm)
    rw [h x y] at hfault
    contradiction
  · intro hsize x y
    split
    case isTrue h => exact cell_of_lt h (Nat.lt_of_lt_of_le (place_lt h) hsize)
    case isFalse h => exact cell_of_not_within h

/-- A coordinate reads the cell at its own place, nothing without such a cell, and it fails within the grid
when its place is beyond the word. No two read the same stored cell, and no one fails exactly when
all places of the grid fit the word. -/
theorem cell_own (g : OccupancyGrid) :
    (∀ x y v, g.cell x y = .ok (some v) ↔
      g.Within x y ∧ g.place x y < UInt64.size ∧ g.cells[g.place x y]? = some v) ∧
    (∀ x y, g.cell x y = .ok none ↔
      ¬g.Within x y ∨ g.place x y < UInt64.size ∧ g.cells.length ≤ g.place x y) ∧
    (∀ x y, g.cell x y = .error .overflow ↔ g.Within x y ∧ UInt64.size ≤ g.place x y) ∧
    g.Apart ∧ (g.Exact ↔ g.width.toNat * g.height.toNat ≤ UInt64.size) :=
  ⟨fun _ _ _ => cell_eq_some, fun _ _ => cell_eq_none, fun _ _ => cell_eq_error, g.apart, exact_iff⟩

/-- The members of a grid of one cell that is half as wide as the word is large, with three rows. -/
def wideMembers : List (String × Json) :=
  [("cells", .string "Bw=="), ("height", .integer 3), ("meters_per_cell", .integer 1), ("num_cells", .integer 1),
    ("origin_x", .integer 0), ("origin_y", .integer 0), ("width", .integer 9223372036854775808)]

def wideGrid : OccupancyGrid := ⟨9223372036854775808, 3, .ofInt 1, .ofInt 0, .ofInt 0, 1, [7]⟩

/-- The third row begins beyond the word, where a grid of one cell has none. -/
theorem cell_wideGrid : ofJson (.object wideMembers) = .ok wideGrid ∧
    wideGrid.cell 0 0 = .ok (some 7) ∧ wideGrid.cell 0 2 = .error .overflow ∧
    wideGrid.cells[wideGrid.place 0 2]? = none ∧ ¬wideGrid.Exact := by
  have hmembers : ∀ members, Json.object wideMembers = .object members → Ascending members := by
    rintro members ⟨⟩
    unfold Ascending
    decide
  have hsends : Sends (.object wideMembers) wideGrid "Bw==" :=
    ⟨rfl, rfl, ⟨_, rfl, .integer 1⟩, ⟨_, rfl, .integer 0⟩, ⟨_, rfl, .integer 0⟩, rfl, rfl⟩
  have hread : ofJson (.object wideMembers) = .ok wideGrid :=
    (ofJson_eq_ok hmembers).mpr ⟨"Bw==", [7], hsends, canonical_encode [7], signed_iff.mpr rfl⟩
  have hfirst : wideGrid.cell 0 0 = .ok (some 7) := cell_eq_some.mpr (by decide)
  have hfault : wideGrid.cell 0 2 = .error .overflow := cell_eq_error.mpr (by decide)
  refine ⟨hread, hfirst, hfault, by decide, ?_⟩
  intro hexact
  rw [hexact] at hfault
  contradiction

end RobotBridge.OccupancyGrid
