import IndexAdvisor.Filter.Basic
import IndexAdvisor.Proofs.Program.Search
import Mathlib.Data.Int.Order.Basic
import Mathlib.Order.Lattice

/-!
# What is said about the last column of a key

A seek and the bound that ends its range each say something about every column of their key:
`rangeFindings` are the columns, relations and constants, and `recordRange` records exactly these
(`recordRange_eq`).

The entries between a seek and its bound satisfy the comparison of the seek with the constant `a`
that is in the last register of the key there, and fail the comparison of the bound with the
constant `b` that is in the register when the bound is reached. A finding about the last column is
sound if all such entries satisfy it, whatever the order of the values is (`SoundBetween`).

> `soundBetween_iff`: the findings are sound exactly when an equation is found only if `a` and `b`
> are one constant and the range is left in the direction in which it was entered.

The two ends are matched by the number of the register and not by what it holds, so a register that
is loaded again in between makes two equations out of a range (`between_reloaded`).
-/

namespace IndexAdvisor

/-! ## Relations of values -/

namespace Relation

/-- Whether two values of an ordered domain stand in the relation. -/
def Holds {α : Type} [LinearOrder α] : Relation → α → α → Prop
  | eq, v, a => v = a
  | ne, v, a => v ≠ a
  | lt, v, a => v < a
  | le, v, a => v ≤ a
  | gt, v, a => a < v
  | ge, v, a => a ≤ v

/-- What SQL says by an operator between two values. -/
def SqlHolds {α : Type} [LinearOrder α] (operator : String) (v a : α) : Prop :=
  match operator with
  | "=" => v = a
  | "!=" => v ≠ a
  | "<" => v < a
  | "<=" => v ≤ a
  | ">" => a < v
  | ">=" => a ≤ v
  | _ => False

/-- A relation is written as the operator that says it. -/
theorem sqlHolds_sql {α : Type} [LinearOrder α] (r : Relation) (v a : α) :
    SqlHolds r.sql v a ↔ r.Holds v a := by
  cases r with
  | eq | ne | lt | le | gt | ge => exact Iff.rfl

theorem holds_negate {α : Type} [LinearOrder α] (r : Relation) (v a : α) :
    r.negate.Holds v a ↔ ¬r.Holds v a := by
  cases r with
  | eq => exact Iff.rfl
  | ne => exact not_not.symm
  | lt => exact not_lt.symm
  | le => exact not_le.symm
  | gt => exact not_lt.symm
  | ge => exact not_le.symm

end Relation

/-- Whether an edge is met by a walk upwards. -/
def Edge.ascends : Edge → Bool
  | .ge | .gt => true
  | .le | .lt => false

section

variable {α : Type} [LinearOrder α] {entry exit : Edge}

/-- Between two edges at one value that are met in one direction there is at most this value. -/
theorem eq_of_between (h : entry.ascends = exit.ascends) {v a : α}
    (hentry : entry.relation.Holds v a) (hexit : ¬exit.relation.Holds v a) : v = a := by
  cases entry <;> cases exit <;> cases h <;>
    simp only [Edge.relation, Relation.Holds, not_lt, not_le] at hentry hexit
  · exact absurd hentry (not_le_of_gt hexit)
  · exact le_antisymm hexit hentry
  · exact absurd hexit (lt_asymm hentry)
  · exact absurd hentry (not_lt_of_ge hexit)
  · exact absurd hentry (not_le_of_gt hexit)
  · exact le_antisymm hentry hexit
  · exact absurd hexit (lt_asymm hentry)
  · exact absurd hentry (not_lt_of_ge hexit)

/-- Otherwise some order has a value between the edges that is neither of their constants. -/
theorem exists_between {a b : String} (h : ¬(a = b ∧ entry.ascends = exit.ascends)) :
    ∃ (value : String → Int) (v : Int), entry.relation.Holds v (value a) ∧
      ¬exit.relation.Holds v (value b) ∧ v ≠ value a ∧ v ≠ value b := by
  by_cases hdir : entry.ascends = exit.ascends
  · -- the constants differ, so they may lie on either side of one, in the order of the walk
    have hab : a ≠ b := fun hab => h ⟨hab, hdir⟩
    rcases hup : entry.ascends with _ | _
    · refine ⟨fun c => if c = a then 2 else 0, 1, ?_⟩
      cases entry <;> cases exit <;> cases hdir <;> cases hup <;>
        simp [Edge.relation, Relation.Holds, hab.symm]
    · refine ⟨fun c => if c = a then 0 else 2, 1, ?_⟩
      cases entry <;> cases exit <;> cases hdir <;> cases hup <;>
        simp [Edge.relation, Relation.Holds, hab.symm]
  · -- the range is open to one side
    refine ⟨fun _ => 0, if entry.ascends then 1 else -1, ?_⟩
    cases entry <;> cases exit <;> simp [Edge.ascends] at hdir <;>
      simp [Edge.ascends, Edge.relation, Relation.Holds]

end

namespace Filter

variable {s : Scene} {l l' : Ledger} {pos q : Nat} {i : Instr} {which : RangeEnd}

/-! ## Findings about a key -/

/-- What an end of a range says about one column of its key. -/
structure KeyFinding where
  place : Nat
  column : String
  relation : Relation
  constant : Option String
  deriving DecidableEq

/-- What an instruction at an end of a range says about the columns of its key. -/
def rangeFindings (s : Scene) (l : Ledger) (pos : Nat) (i : Instr) (which : RangeEnd) :
    List KeyFinding :=
  match s.openings.of? i pos, rangeEdge? which i with
  | some id, some (edge, key) =>
    match l.usage? id with
    | none => []
    | some u =>
      let columns := keyColumns u s.schema key
      let last := lastRelation s.program pos edge key which
      columns.zipIdx.map fun c =>
        { place := c.2, column := c.1, relation := if c.2 + 1 == columns.length then last else .eq,
          constant := key.first.bind fun first => s.valueIn? pos (registerAfter first c.2) }
  | _, _ => []

/-- Records one finding about a key. -/
def recordFinding (id : Nat) (l : Ledger) (f : KeyFinding) : Ledger :=
  match f.constant with
  | some constant =>
    (l.record id .filter f.column).recordFilter id (comparisonText f.column f.relation.sql constant)
  | none => l.record id .filter f.column

/-- An end of a range records its findings and nothing else. -/
theorem recordRange_eq (s : Scene) (l : Ledger) (pos : Nat) (i : Instr) (which : RangeEnd) :
    recordRange s l pos i which =
      match s.openings.of? i pos with
      | none => l
      | some id => (rangeFindings s l pos i which).foldl (recordFinding id) l := by
  unfold recordRange rangeFindings
  rcases s.openings.of? i pos with _ | id
  · rfl
  · rcases rangeEdge? which i with _ | ⟨edge, key⟩
    · rfl
    · dsimp only
      rcases l.usage? id with _ | u
      · rfl
      · dsimp only
        rw [List.foldl_map]
        rfl

theorem length_keyColumns_le (u : Usage) (schema : Schema) {key : KeyRun} (hcount : 1 ≤ key.count) :
    (keyColumns u schema key).length ≤ key.count := by
  unfold keyColumns
  split
  · exact List.length_take_le _ _
  · rcases u.rowidColumn? schema with _ | column
    · exact Nat.zero_le _
    · exact hcount

theorem lastRelation_eq (p : Program) (pos : Nat) (edge : Edge) (key : KeyRun) (which : RangeEnd) :
    lastRelation p pos edge key which = .eq ∨ lastRelation p pos edge key which =
      loneRelation edge which := by
  unfold lastRelation
  split
  · exact .inr rfl
  · next otherKey _ =>
    extract_lets pinned
    by_cases h : (pinned || (which == .exit && key.count < otherKey.count)) = true
    · exact .inl (if_pos h)
    · exact .inr (if_neg h)

/-- What is found about the last column of a key: a constant is one in the last register. -/
theorem rangeFindings_last {edge : Edge} {key : KeyRun} {first : Int} {f : KeyFinding}
    (hedge : rangeEdge? which i = some (edge, key)) (hfirst : key.first = some first)
    (hcount : 1 ≤ key.count) (hf : f ∈ rangeFindings s l pos i which)
    (hlast : f.place + 1 = key.count) :
    f.relation = lastRelation s.program pos edge key which ∧
      f.constant = s.valueIn? pos (registerAfter first (key.count - 1 : Nat)) := by
  unfold rangeFindings at hf
  split at hf
  · next hedge' =>
    obtain ⟨rfl, rfl⟩ := Prod.mk.inj (Option.some.inj (hedge.symm.trans hedge'))
    split at hf
    · cases hf
    · next u _ =>
      obtain ⟨⟨column, place⟩, hmem, rfl⟩ := List.mem_map.1 hf
      obtain ⟨hlt, -⟩ := List.getElem?_eq_some_iff.1 (List.mem_zipIdx_iff_getElem?.1 hmem)
      have hle := length_keyColumns_le u s.schema hcount
      dsimp only at hlast hlt ⊢
      have hlength : place + 1 = (keyColumns u s.schema key).length := by omega
      rw [if_pos (beq_iff_eq.2 hlength), hfirst, Option.bind_some, ← hlast, Nat.add_sub_cancel]
      exact ⟨rfl, rfl⟩
  · cases hf

/-! ## The two ends together -/

/-- The instruction at `pos` enters a range of an index by `n` columns and the one at `q` leaves it,
by the same number of columns; `a` and `b` are what the last register of the key holds at either. -/
structure RangePair (s : Scene) (l : Ledger) (pos q : Nat) (i j : Instr) (entry exit : Edge)
    (n : Nat) (a b : String) : Prop where
  enters : s.program.at? pos = some i
  leaves : s.program.at? q = some j
  positive : 1 ≤ n
  index : ∃ id u, s.openings.of? i pos = some id ∧ l.usage? id = some u ∧ u.isIndex = true ∧
    n ≤ (s.schema.columnsOfIndex u.name).length
  keys : ∃ key other first, rangeEdge? .entry i = some (entry, key) ∧
    rangeEdge? .exit j = some (exit, other) ∧ key.count = n ∧ other.count = n ∧
    key.first = some first ∧
    s.program.searchForward pos (isPartner .exit key) (turnsLoop key.cursor) = some q ∧
    s.valueIn? pos (registerAfter first (n - 1 : Nat)) = some a ∧
    s.valueIn? q (registerAfter first (n - 1 : Nat)) = some b

/-- The values between the edges of a range satisfy all that is found about the column at a
place. -/
def SoundBetween (entry exit : Edge) (a b : String) (findings : List KeyFinding) (place : Nat) :
    Prop :=
  ∀ (α : Type) [LinearOrder α] (value : String → α) (v : α),
    entry.relation.Holds v (value a) → ¬exit.relation.Holds v (value b) →
      ∀ f ∈ findings, f.place = place → ∀ c, f.constant = some c → f.relation.Holds v (value c)

variable {j : Instr} {entry exit : Edge} {n : Nat} {a b : String}

/-- What the seek finds about the last column of its key. -/
theorem RangePair.entry_finding (h : RangePair s l pos q i j entry exit n a b) {f : KeyFinding}
    (hlast : f.place + 1 = n) (hf : f ∈ rangeFindings s l pos i .entry) :
    (f.relation = .eq ∨ f.relation = entry.relation) ∧ f.constant = some a := by
  obtain ⟨key, other, first, hentry, -, hkey, -, hfirst, -, ha, -⟩ := h.keys
  have hpositive := h.positive
  obtain ⟨hrelation, hconstant⟩ := rangeFindings_last hentry hfirst (by omega) hf (by omega)
  rw [hkey, ha] at hconstant
  rw [hrelation]
  exact ⟨lastRelation_eq .., hconstant⟩

/-- The bound is the partner of the seek, so its key begins at the same register. -/
theorem RangePair.exit_first (h : RangePair s l pos q i j entry exit n a b) {other : KeyRun}
    (hexit : rangeEdge? .exit j = some (exit, other)) :
    ∃ key first, rangeEdge? .entry i = some (entry, key) ∧ key.first = some first ∧
      other.first = some first := by
  obtain ⟨key, -, first, hentry, -, -, -, hfirst, hsearch, -⟩ := h.keys
  obtain ⟨-, j', hj', hpartner⟩ := Program.searchForward_some hsearch
  obtain rfl := Option.some.inj (h.leaves.symm.trans hj')
  rw [isPartner, hexit, Option.any_some, KeyRun.meets, Bool.and_eq_true, beq_iff_eq,
    beq_iff_eq] at hpartner
  exact ⟨key, first, hentry, hfirst, hpartner.2.trans hfirst⟩

/-- What the bound finds about the last column of its key. -/
theorem RangePair.exit_finding (h : RangePair s l pos q i j entry exit n a b) {f : KeyFinding}
    (hlast : f.place + 1 = n) (hf : f ∈ rangeFindings s l' q j .exit) :
    (f.relation = .eq ∨ f.relation = exit.relation.negate) ∧ f.constant = some b := by
  obtain ⟨key, other, first, hentry, hexit, -, hother, hfirst, -, -, hb⟩ := h.keys
  have hpositive := h.positive
  obtain ⟨key', first', hentry', hfirst', hother'⟩ := h.exit_first hexit
  obtain ⟨-, rfl⟩ := Prod.mk.inj (Option.some.inj (hentry.symm.trans hentry'))
  obtain rfl := Option.some.inj (hfirst.symm.trans hfirst')
  obtain ⟨hrelation, hconstant⟩ := rangeFindings_last hexit hother' (by omega) hf (by omega)
  rw [hother, hb] at hconstant
  rw [hrelation]
  exact ⟨lastRelation_eq .., hconstant⟩

/-- The seek finds an equation exactly if the two edges pin the key. -/
theorem RangePair.entry_eq_iff (h : RangePair s l pos q i j entry exit n a b) :
    (∃ f ∈ rangeFindings s l pos i .entry, f.place + 1 = n ∧ f.relation = .eq) ↔
      pinsKey entry exit = true := by
  obtain ⟨key, other, first, hentry, hexit, hkey, hother, hfirst, hsearch, -⟩ := h.keys
  obtain ⟨id, u, hid, hu, hindex, hwidth⟩ := h.index
  have hpositive := h.positive
  have hlastRelation : lastRelation s.program pos entry key .entry =
      if pinsKey entry exit then .eq else entry.relation := by
    have hpartner : partner? s.program pos key .entry = some (exit, other) := by
      rw [partner?, hsearch, Option.bind_some, h.leaves, Option.bind_some, hexit]
    simp [lastRelation, hpartner, hkey, hother, loneRelation]
  constructor
  · rintro ⟨f, hf, hlast, heq⟩
    obtain ⟨hrelation, -⟩ := rangeFindings_last hentry hfirst (by omega) hf (by omega)
    rw [heq, hlastRelation] at hrelation
    split at hrelation
    · next hpins => exact hpins
    · cases entry <;> cases hrelation
  · intro hpins
    have hlength : (keyColumns u s.schema key).length = n := by
      rw [keyColumns, if_pos hindex, List.length_take, hkey, Usage.entryColumns, if_pos hindex,
        List.length_append]
      omega
    have hlt : n - 1 < (keyColumns u s.schema key).length := by omega
    have hmem : ((keyColumns u s.schema key)[n - 1], n - 1) ∈ (keyColumns u s.schema key).zipIdx :=
      List.mem_zipIdx_iff_getElem?.2 (List.getElem?_eq_getElem hlt)
    unfold rangeFindings
    rw [hid, hentry]
    dsimp only
    rw [hu]
    refine ⟨_, List.mem_map.2 ⟨(_, n - 1), hmem, rfl⟩, ?_, ?_⟩
    · show n - 1 + 1 = n
      omega
    · have hplace : n - 1 + 1 = (keyColumns u s.schema key).length := by omega
      dsimp only
      rw [if_pos (beq_iff_eq.2 hplace), hlastRelation, if_pos hpins]

/-- The findings are sound exactly when an equation is found only between edges at one constant that
are met in one direction. -/
theorem RangePair.sound_iff (l' : Ledger) (h : RangePair s l pos q i j entry exit n a b) :
    SoundBetween entry exit a b (rangeFindings s l pos i .entry ++
      rangeFindings s l' q j .exit) (n - 1) ↔
      ((∃ f ∈ rangeFindings s l pos i .entry ++ rangeFindings s l' q j .exit,
          f.place = n - 1 ∧ f.relation = .eq) → a = b ∧ entry.ascends = exit.ascends) := by
  have hplace (f : KeyFinding) : f.place = n - 1 ↔ f.place + 1 = n := by
    have hpositive := h.positive
    omega
  simp only [SoundBetween, hplace]
  constructor
  · rintro hsound ⟨f, hf, hlast, heq⟩
    refine Classical.byContradiction fun hno => ?_
    obtain ⟨value, v, hentry, hexit, hva, hvb⟩ := exists_between hno
    have hsound := hsound Int value v hentry hexit f hf hlast
    rcases List.mem_append.1 hf with hf | hf
    · have hholds := hsound a (h.entry_finding hlast hf).2
      rw [heq] at hholds
      exact hva hholds
    · have hholds := hsound b (h.exit_finding hlast hf).2
      rw [heq] at hholds
      exact hvb hholds
  · intro honly α _ value v hentry hexit f hf hlast c hc
    -- an equation is about one constant, and every other finding is what the edge itself says
    have hequation (heq : f.relation = .eq) : v = value a ∧ a = b := by
      obtain ⟨hab, hdir⟩ := honly ⟨f, hf, hlast, heq⟩
      rw [← hab] at hexit
      exact ⟨eq_of_between hdir hentry hexit, hab⟩
    rcases List.mem_append.1 hf with hf | hf
    · obtain ⟨hrelation, hconstant⟩ := h.entry_finding hlast hf
      obtain rfl := Option.some.inj (hconstant.symm.trans hc)
      rcases hrelation with heq | heq
      · rw [heq]
        exact (hequation heq).1
      · rw [heq]
        exact hentry
    · obtain ⟨hrelation, hconstant⟩ := h.exit_finding hlast hf
      obtain rfl := Option.some.inj (hconstant.symm.trans hc)
      rcases hrelation with heq | heq
      · rw [heq, ← (hequation heq).2]
        exact (hequation heq).1
      · rw [heq, Relation.holds_negate]
        exact hexit

/-- A bound whose own partner is the seek finds an equation only if the two edges pin the key. -/
theorem RangePair.pins_of_exit_eq (h : RangePair s l pos q i j entry exit n a b) {other : KeyRun}
    (hexit : rangeEdge? .exit j = some (exit, other))
    (hpartner : partner? s.program q other .exit = rangeEdge? .entry i) {f : KeyFinding}
    (hlast : f.place + 1 = n) (hf : f ∈ rangeFindings s l' q j .exit) (heq : f.relation = .eq) :
    pinsKey entry exit = true := by
  obtain ⟨key, other', first, hentry, hexit', hkey, hother, hfirst, hsearch, -⟩ := h.keys
  obtain ⟨-, rfl⟩ := Prod.mk.inj (Option.some.inj (hexit.symm.trans hexit'))
  have hpositive := h.positive
  have hlastRelation : lastRelation s.program q exit other .exit =
      if pinsKey entry exit then .eq else exit.relation.negate := by
    rw [hentry] at hpartner
    simp [lastRelation, hpartner, hkey, hother, loneRelation]
  obtain ⟨-, first', -, -, hother'⟩ := h.exit_first hexit
  have hrelation := (rangeFindings_last hexit hother' (by omega) hf (by omega)).1
  rw [heq, hlastRelation] at hrelation
  split at hrelation
  · next hpins => exact hpins
  · cases exit <;> cases hrelation

theorem ascends_eq_of_pinsKey (h : pinsKey entry exit = true) : entry.ascends = exit.ascends := by
  cases entry <;> cases exit <;> first | rfl | cases h

/-- The findings of a seek and its bound about the last column of their key are sound exactly when
there is an equation among them only if the register holds one constant at both and the range is
left in the direction in which it is entered. The seek finds an equation exactly if the two edges
pin the key, and so does the bound if it takes the seek for its partner; then the constants alone
decide. -/
theorem soundBetween_iff (l' : Ledger) (h : RangePair s l pos q i j entry exit n a b) :
    (SoundBetween entry exit a b (rangeFindings s l pos i .entry ++
      rangeFindings s l' q j .exit) (n - 1) ↔
      ((∃ f ∈ rangeFindings s l pos i .entry ++ rangeFindings s l' q j .exit,
          f.place = n - 1 ∧ f.relation = .eq) → a = b ∧ entry.ascends = exit.ascends)) ∧
    ((∃ f ∈ rangeFindings s l pos i .entry, f.place = n - 1 ∧ f.relation = .eq) ↔
      pinsKey entry exit = true) ∧
    ∀ other, rangeEdge? .exit j = some (exit, other) →
      partner? s.program q other .exit = rangeEdge? .entry i →
      (SoundBetween entry exit a b (rangeFindings s l pos i .entry ++
        rangeFindings s l' q j .exit) (n - 1) ↔
        (pinsKey entry exit = true → a = b)) := by
  have hplace (f : KeyFinding) : f.place = n - 1 ↔ f.place + 1 = n := by
    have hpositive := h.positive
    omega
  have hsound := h.sound_iff l'
  simp only [hplace] at hsound ⊢
  refine ⟨hsound, h.entry_eq_iff, fun other hexit hpartner => ?_⟩
  rw [hsound]
  constructor
  · intro honly hpins
    obtain ⟨f, hf, hlast, heq⟩ := h.entry_eq_iff.2 hpins
    exact (honly ⟨f, List.mem_append_left _ hf, hlast, heq⟩).1
  · rintro hconstants ⟨f, hf, hlast, heq⟩
    have hpins : pinsKey entry exit = true := by
      rcases List.mem_append.1 hf with hf | hf
      · exact h.entry_eq_iff.1 ⟨f, hf, hlast, heq⟩
      · exact h.pins_of_exit_eq hexit hpartner hlast hf heq
    exact ⟨hconstants hpins, ascends_eq_of_pinsKey hpins⟩

/-! ## A register that is loaded again -/

/-- Enters a range of cursor 1 at the content of register 1. -/
def enterRange : Instr :=
  { address := 2, name := "SeekGE", p1 := some "1", p3 := some "1", p4 := some "1" }

/-- Leaves a range of cursor 1 behind the content of register 1. -/
def leaveRange : Instr :=
  { address := 4, name := "IdxGT", p1 := some "1", p3 := some "1", p4 := some "1" }

/-- A range of an index on names that is entered at one constant and left behind another one, both
loaded into one register. -/
def reloading (low high : String) : Scene :=
  let program : Program := ⟨[
    { address := 0, name := "OpenRead", p1 := some "1", p2 := some "3" },
    { address := 1, name := "String8", p2 := some "1", p4 := some low },
    enterRange,
    { address := 3, name := "String8", p2 := some "1", p4 := some high },
    leaveRange,
    { address := 5, name := "IdxRowid", p1 := some "1", p2 := some "2" },
    { address := 6, name := "ResultRow", p1 := some "2", p2 := some "1" },
    { address := 7, name := "Next", p1 := some "1", p2 := some "4" }]⟩
  let users : Table :=
    { name := "users", rootPage := 2, columns := ["id", "name"], primaryKey := some "id" }
  let byName : Index :=
    { name := "users_name", table := "users", rootPage := 3, columns := ["name"] }
  let schema : Schema := { tables := [users], indexes := [byName] }
  { program, schema, openings := (Openings.scan .empty schema program).2, tokens := [] }

/-- What the program of `reloading` opens. -/
def reloadingOpened (low high : String) : Ledger :=
  (Openings.scan .empty (reloading low high).schema (reloading low high).program).1

theorem reloading_pair {last constant : String}
    (h : last = "a" ∧ constant = "'a'" ∨ last = "m" ∧ constant = "'m'") :
    RangePair (reloading "a" last) (reloadingOpened "a" last) 2 4 enterRange
    leaveRange .ge .gt 1 "'a'"
      constant := by
  rcases h with ⟨rfl, rfl⟩ | ⟨rfl, rfl⟩ <;> exact {
    enters := rfl
    leaves := rfl
    positive := Nat.le_refl 1
    index := ⟨0, _, by decide +kernel, rfl, by decide +kernel, by decide +kernel⟩
    keys := ⟨⟨1, some 1, 1⟩, ⟨1, some 1, 1⟩, 1, by decide +kernel, by decide +kernel, rfl, rfl, rfl,
      by decide +kernel, by decide +kernel, by decide +kernel⟩ }

/-- Where the register is loaded with one constant twice, the two equations are sound. -/
theorem soundBetween_point :
    RangePair (reloading "a" "a") (reloadingOpened "a" "a") 2 4 enterRange leaveRange .ge
    .gt 1 "'a'" "'a'" ∧
    SoundBetween .ge .gt "'a'" "'a'"
      (rangeFindings (reloading "a" "a") (reloadingOpened "a" "a") 2 enterRange .entry ++
        rangeFindings (reloading "a" "a") (reloadingOpened "a" "a") 4 leaveRange .exit) 0 :=
  ⟨reloading_pair (.inl ⟨rfl, rfl⟩),
    (soundBetween_iff (reloadingOpened "a" "a") (reloading_pair (.inl ⟨rfl, rfl⟩))).1.2
    fun _ => ⟨rfl, rfl⟩⟩

/-- The range from `'a'` to `'m'` is reported as two equations when both constants go through one
register, though entries between the two satisfy neither. -/
theorem between_reloaded :
    RangePair (reloading "a" "m") (reloadingOpened "a" "m") 2 4 enterRange leaveRange .ge
    .gt 1 "'a'" "'m'" ∧
    ((record (reloading "a" "m") (reloadingOpened "a" "m")).usage? 0).map (·.filters.toList) =
      some ["\"name\"='a'", "\"name\"='m'"] ∧
    ¬SoundBetween .ge .gt "'a'" "'m'"
      (rangeFindings (reloading "a" "m") (reloadingOpened "a" "m") 2 enterRange .entry ++
        rangeFindings (reloading "a" "m") (reloadingOpened "a" "m") 4 leaveRange .exit) 0 := by
  refine ⟨reloading_pair (.inr ⟨rfl, rfl⟩), by decide +kernel, fun hsound => ?_⟩
  have hfinding : KeyFinding.mk 0 "name" .eq (some "'a'") ∈
      rangeFindings (reloading "a" "m") (reloadingOpened "a" "m") 2 enterRange .entry := by
    decide +kernel
  -- in an order with `'a'` at 0 and `'m'` at 1 the entry 1 is in the range
  have hone : (1 : Int) = 0 := hsound Int (fun c => if c = "'a'" then 0 else 1) 1
    (by simp [Edge.relation, Relation.Holds]) (by simp [Edge.relation, Relation.Holds])
    _ (List.mem_append_left _ hfinding) rfl "'a'" rfl
  exact absurd hone (by decide)

end Filter

end IndexAdvisor
