import IndexAdvisor.Json.Record
import IndexAdvisor.Proofs.Json.Document

/-!
# Writing and reading the values of a type

A `Codec` is the two directions between the values of a type and JSON, with the values that its
reader is wide enough for. It is `Lawful` if what it writes is plain and is read back, and what it
reads is never wider than that. These three laws are those of a type's parts, so that they go from
the fields of a record to the record and from the items of a list to the list.

> `Lawful.roundTrips`: a lawful codec loses nothing on the way through a document.
-/

namespace IndexAdvisor.Json

/-- How the values of a type are written and read. -/
structure Codec (α : Type) where
  write : α → Json
  read? : Json → Option α
  /-- The values whose numbers are in the range that is read. -/
  Fits : α → Prop

namespace Codec

variable {α : Type} (c : Codec α)

/-- The document of a value. -/
def document (x : α) : String := (c.write x).render

/-- The value that a document says. -/
def ofDocument? (text : String) : Option α := (parse? text).bind c.read?

/-- A list of values, as an array. -/
def list : Codec (List α) where
  write xs := .array (xs.map c.write)
  read? := list? c.read?
  Fits xs := ∀ x ∈ xs, c.Fits x

/-- What makes a codec go both ways. -/
structure Lawful : Prop where
  plain : ∀ x, Plain (c.write x)
  read_write : ∀ x, c.Fits x → c.read? (c.write x) = some x
  fits : ∀ v x, c.read? v = some x → c.Fits x

/-- What a codec has to do on the way through a document. -/
structure RoundTrips : Prop where
  /-- Every value is read back from its document, the order of its sets included. -/
  written : ∀ x, c.Fits x → c.ofDocument? (c.document x) = some x
  /-- However a document spells a value, the document of that value has the same value. -/
  respelled : ∀ text x, c.ofDocument? text = some x → c.ofDocument? (c.document x) = some x
  /-- No document has a value that could not be written. -/
  ranged : ∀ text x, c.ofDocument? text = some x → c.Fits x

variable {c}

theorem Lawful.roundTrips (h : c.Lawful) : c.RoundTrips := by
  have hwritten : ∀ x, c.Fits x → c.ofDocument? (c.document x) = some x := by
    intro x hx
    rw [ofDocument?, document, parse?_render (h.plain x), Option.bind_some]
    exact h.read_write x hx
  have hranged : ∀ text x, c.ofDocument? text = some x → c.Fits x := by
    intro text x hx
    obtain ⟨v, -, hv⟩ := Option.bind_eq_some_iff.1 hx
    exact h.fits v x hv
  exact ⟨hwritten, fun text x hx => hwritten x (hranged text x hx), hranged⟩

end Codec

/-! ## Numbers -/

theorem int64?_number {n : Int} (h : fitsInt64 n = true) : int64? (.number n) = some n := by
  simp [int64?, int?, h]

theorem nat?_ofNat {max n : Nat} (h : n ≤ max) : nat? max (.ofNat n) = some n := by
  simp [nat?, ofNat, h]

theorem fits_of_int64? {v : Json} {n : Int} (h : int64? v = some n) : fitsInt64 n = true :=
  (Option.filter_eq_some_iff.1 h).2

theorem le_of_nat? {max n : Nat} {v : Json} (h : nat? max v = some n) : n ≤ max := by
  unfold nat? at h
  split at h
  · split at h
    · next hrange =>
      cases h
      omega
    · simp at h
  · simp at h

/-! ## Texts -/

theorem nullOr?_ofString? (s : Option String) : nullOr? string? (ofString? s) = some s := by
  cases s <;> rfl

theorem plain_ofString? (s : Option String) : Plain (ofString? s) := by
  cases s with
  | none => exact .null
  | some s => exact .string s

/-! ## Lists -/

theorem plain_array_map {α : Type} {write : α → Json} {xs : List α} (h : ∀ x, Plain (write x)) :
    Plain (.array (xs.map write)) := by
  refine .array fun v hv => ?_
  obtain ⟨x, -, rfl⟩ := List.mem_map.1 hv
  exact h x

theorem list?_map {α : Type} {write : α → Json} {read? : Json → Option α} {xs : List α}
    (h : ∀ x ∈ xs, read? (write x) = some x) : list? read? (.array (xs.map write)) = some xs := by
  rw [list?, items?, Option.bind_some, List.mapM_map]
  induction xs with
  | nil => rfl
  | cons x xs ih =>
    have hx := h x List.mem_cons_self
    have hxs := ih fun y hy => h y (List.mem_cons_of_mem x hy)
    simp [hx, hxs]

theorem plain_ofStrings (texts : List String) : Plain (ofStrings texts) := plain_array_map .string

theorem list?_ofStrings (texts : List String) : list? string? (ofStrings texts) = some texts :=
  list?_map fun _ _ => rfl

/-- What holds of every value that is read holds of every item of a list that is read. -/
theorem forall_mem_of_list? {α : Type} {read? : Json → Option α} {P : α → Prop} {v : Json}
    {xs : List α} (hread : ∀ v x, read? v = some x → P x) (h : list? read? v = some xs) :
    ∀ x ∈ xs, P x := by
  obtain ⟨items, -, hitems⟩ := Option.bind_eq_some_iff.1 h
  clear h
  induction items generalizing xs with
  | nil =>
    cases hitems
    simp
  | cons item items ih =>
    simp only [List.mapM_cons, Option.bind_eq_bind, Option.bind_eq_some_iff, Option.pure_def,
      Option.some.injEq] at hitems
    obtain ⟨x, hx, rest, hrest, rfl⟩ := hitems
    exact List.forall_mem_cons.2 ⟨hread item x hx, ih hrest⟩

theorem Codec.Lawful.list {α : Type} {c : Codec α} (h : c.Lawful) : c.list.Lawful where
  plain _ := plain_array_map h.plain
  read_write _ hxs := list?_map fun x hx => h.read_write x (hxs x hx)
  fits _ _ hread := forall_mem_of_list? h.fits hread

/-! ## Records -/

/-- In an object without repeats, every field has the value under its name. -/
theorem find?_of_mem {fields : List (String × Json)} (hnodup : (fields.map Prod.fst).Nodup)
    {f : Field} {v : Json} (h : (f.name, v) ∈ fields) : f.find? fields = some v := by
  have hfilter : fields.filter (·.1 == f.name) = [(f.name, v)] := by
    induction fields with
    | nil => simp at h
    | cons g fields ih =>
      rw [List.map_cons, List.nodup_cons] at hnodup
      rcases List.mem_cons.1 h with rfl | hmem
      · have hrest : ∀ e ∈ fields, ¬(e.1 == f.name) = true := by
          intro e he heq
          exact hnodup.1 (List.mem_map.2 ⟨e, he, beq_iff_eq.1 heq⟩)
        rw [List.filter_cons_of_pos (by simp), List.filter_eq_nil_iff.2 hrest]
      · have hne : ¬(g.1 == f.name) = true := by
          intro heq
          exact hnodup.1 (List.mem_map.2 ⟨_, hmem, (beq_iff_eq.1 heq).symm⟩)
        rw [List.filter_cons, if_neg hne, ih hnodup.2 hmem]
  rw [Field.find?, hfilter]

theorem mapM_find? {declared : List Field} {fields all : List (String × Json)}
    (hnames : declared.map Field.name = fields.map Prod.fst) (hnodup : (all.map Prod.fst).Nodup)
    (hsub : fields ⊆ all) : declared.mapM (Field.find? all) = some (fields.map Prod.snd) := by
  induction fields generalizing declared with
  | nil =>
    rw [List.map_nil, List.map_eq_nil_iff] at hnames
    rw [hnames]
    rfl
  | cons field fields ih =>
    cases declared with
    | nil => simp at hnames
    | cons f declared =>
      obtain ⟨hname, hnames⟩ := List.cons.inj hnames
      have hf : f.find? all = some field.2 := find?_of_mem hnodup (hsub (by simp [hname]))
      have hrest := ih hnames fun e he => hsub (List.mem_cons_of_mem field he)
      simp [hf, hrest]

/-- An object that has the declared fields is read as their values. -/
theorem record?_object {declared : List Field} {fields : List (String × Json)}
    (hnames : declared.map Field.name = fields.map Prod.fst)
    (hnodup : (declared.map Field.name).Nodup) :
    record? declared (.object fields) = some (fields.map Prod.snd) :=
  mapM_find? hnames (hnames ▸ hnodup) (List.Subset.refl fields)

end IndexAdvisor.Json
