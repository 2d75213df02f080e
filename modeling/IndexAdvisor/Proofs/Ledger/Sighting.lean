import IndexAdvisor.Proofs.Ledger.Records
import IndexAdvisor.Scene

/-!
# Sightings

What a search for findings enters is seen at a row of the program: a `Sighting` is a note with the
row it stems from, and `Sighted` says that a ledger comes from another one by entering just what is
seen in a list of sightings. Every column that is seen is one that its entry has, a comparison
begins with such a column (`Sighting.Begins`), and a column of an index is seen at a row that
addresses the index through its cursor (`Sighting.Through`).

`Sees` says of a change that it enters the same sightings whatever was found before. The lemmas here
put sightings together as the changes are put together. A change that enters what is seen records
(`Sees.records`).
-/

namespace IndexAdvisor

/-- A note, and the position of the row it stems from. -/
structure Sighting where
  position : Nat
  note : Note
  deriving DecidableEq

variable {s : Scene} {base l k m : Ledger} {seen more : List Sighting} {f g : Ledger → Ledger}
  {pos id : Nat}

/-- A column of an index is seen at a row that addresses the index. -/
def Sighting.Through (s : Scene) (l : Ledger) (x : Sighting) : Prop :=
  ∀ id clause column u, x.note = .column id clause column → l.usage? id = some u →
    u.isIndex = true →
    s.entryAt? x.position = some id

theorem Sighting.Through.of_skeleton_eq {x : Sighting} (h : x.Through s l)
    (hk : k.skeleton = l.skeleton) :
    x.Through s k := by
  intro id clause column u hnote hu hindex
  obtain ⟨v, hv, hbare⟩ := Ledger.usage?_of_skeleton_eq hk hu
  rw [← Usage.isIndex_of_bare_eq hbare] at hindex
  exact h id clause column v hnote hv hindex

/-- A comparison begins with a column that its entry has. -/
def Sighting.Begins (schema : Schema) (l : Ledger) (x : Sighting) : Prop :=
  ∀ id text u, x.note = .filter id text → l.usage? id = some u →
    ∃ column ∈ u.entryColumns schema, ∃ rest, text = quoteName column ++ rest

theorem Sighting.Begins.of_skeleton_eq {schema : Schema} {x : Sighting} (h : x.Begins schema l)
    (hk : k.skeleton = l.skeleton) : x.Begins schema k := by
  intro id text u hnote hu
  obtain ⟨v, hv, hbare⟩ := Ledger.usage?_of_skeleton_eq hk hu
  rw [← Usage.entryColumns_of_bare_eq hbare]
  exact h id text v hnote hv

/-! ## Ledgers that have what was seen -/

/-- The second ledger has what is seen, and nothing else but what the first one has. -/
structure Sighted (s : Scene) (l : Ledger) (seen : List Sighting) (k : Ledger) : Prop where
  eq : k = l.enterAll (seen.map Sighting.note)
  fits : ∀ x ∈ seen, x.note.Fits s.schema l
  through : ∀ x ∈ seen, x.Through s l
  begins : ∀ x ∈ seen, x.Begins s.schema l

theorem sighted_nil (s : Scene) (l : Ledger) : Sighted s l [] l := ⟨rfl, nofun, nofun, nofun⟩

theorem Sighted.skeleton_eq (h : Sighted s l seen k) : k.skeleton = l.skeleton := by
  rw [h.eq, Ledger.skeleton_enterAll]

theorem Sighted.append (hlk : Sighted s l seen k) (hkm : Sighted s k more m) :
    Sighted s l (seen ++ more) m where
  eq := by rw [List.map_append, Ledger.enterAll_append, ← hlk.eq, hkm.eq]
  fits x hx := by
    rcases List.mem_append.1 hx with hx | hx
    · exact hlk.fits x hx
    · exact Ledger.fits_of_skeleton_eq (hkm.fits x hx) hlk.skeleton_eq.symm
  through x hx := by
    rcases List.mem_append.1 hx with hx | hx
    · exact hlk.through x hx
    · exact (hkm.through x hx).of_skeleton_eq hlk.skeleton_eq.symm
  begins x hx := by
    rcases List.mem_append.1 hx with hx | hx
    · exact hlk.begins x hx
    · exact (hkm.begins x hx).of_skeleton_eq hlk.skeleton_eq.symm

/-! ## Changes that enter what is seen -/

/-- A change enters what is seen into every ledger with the entries of `base`. -/
def Sees (s : Scene) (base : Ledger) (seen : List Sighting) (f : Ledger → Ledger) : Prop :=
  ∀ l, l.skeleton = base.skeleton → Sighted s l seen (f l)

theorem Sees.sighted (h : Sees s base seen f) : Sighted s base seen (f base) := h base rfl

theorem Sees.records (h : Sees s base seen f) : Ledger.Records s.schema base f := by
  refine ⟨seen.map Sighting.note, ?_, fun l hl => (h l hl).eq⟩
  intro n hn
  obtain ⟨x, hx, rfl⟩ := List.mem_map.1 hn
  exact h.sighted.fits x hx

theorem sees_id (s : Scene) (base : Ledger) : Sees s base [] fun l => l :=
  fun l _ => sighted_nil s l

theorem Sees.then (hf : Sees s base seen f) (hg : Sees s base more g) :
    Sees s base (seen ++ more) fun l => g (f l) := by
  intro l hl
  have hfl := hf l hl
  exact hfl.append (hg (f l) (hfl.skeleton_eq.trans hl))

/-- It is enough to look at the ledgers with the entries of `base`. -/
theorem Sees.congr (hg : Sees s base seen g) (h : ∀ l, l.skeleton = base.skeleton → f l = g l) :
    Sees s base seen f := by
  intro l hl
  rw [h l hl]
  exact hg l hl

theorem sees_record {clause : Clause} {column : String}
    (hfits : (Note.column id clause column).Fits s.schema base)
    (hthrough : ∀ u, base.usage? id = some u → u.isIndex = true → s.entryAt? pos = some id) :
    Sees s base [⟨pos, .column id clause column⟩] fun l => l.record id clause column := by
  intro l hl
  refine ⟨rfl, fun x hx => ?_, fun x hx => ?_, fun x hx => ?_⟩
  · obtain rfl := List.mem_singleton.1 hx
    exact Ledger.fits_of_skeleton_eq hfits hl
  · obtain rfl := List.mem_singleton.1 hx
    refine Sighting.Through.of_skeleton_eq ?_ hl
    rintro _ _ _ u ⟨⟩ hu hindex
    exact hthrough u hu hindex
  · obtain rfl := List.mem_singleton.1 hx
    rintro _ _ _ ⟨⟩

/-- A comparison of a column that the entry has. -/
theorem sees_recordFilter {clause : Clause} {column rest text : String}
    (hfits : (Note.column id clause column).Fits s.schema base)
    (htext : text = quoteName column ++ rest) :
    Sees s base [⟨pos, .filter id text⟩] fun l => l.recordFilter id text := by
  intro l hl
  refine ⟨rfl, fun x hx => ?_, fun x hx => ?_, fun x hx => ?_⟩
  · obtain rfl := List.mem_singleton.1 hx
    trivial
  · obtain rfl := List.mem_singleton.1 hx
    rintro _ _ _ _ ⟨⟩
  · obtain rfl := List.mem_singleton.1 hx
    refine Sighting.Begins.of_skeleton_eq ?_ hl
    rintro _ _ u ⟨⟩ hu
    exact ⟨column, hfits u hu, rest, htext⟩

theorem sees_foldl {α : Type} {step : Ledger → α → Ledger} {found : α → List Sighting} (as : List α)
    (h : ∀ a ∈ as, Sees s base (found a) fun l => step l a) :
    Sees s base (as.flatMap found) fun l => as.foldl step l := by
  induction as with
  | nil => exact sees_id s base
  | cons a as ih =>
    have hrest := ih fun b hb => h b (List.mem_cons_of_mem a hb)
    exact (h a (List.mem_cons_self ..)).then hrest

/-- What is found, if anything is, where the skeleton tells what. -/
theorem sees_found {β : Type} (found : Ledger → Option β) (step : Ledger → β → Ledger)
    {told : β → List Sighting} (hfound : ∀ l, found l.skeleton = found l)
    (h : ∀ b, found base = some b → Sees s base (told b) fun l => step l b) :
    Sees s base ((found base).elim [] told) fun l => (found l).elim l (step l) := by
  rcases hbase : found base with _ | b
  · apply (sees_id s base).congr
    intro l hl
    rw [Ledger.eq_of_skeleton_eq hfound hl, hbase, Option.elim_none]
  · apply (h b hbase).congr
    intro l hl
    rw [Ledger.eq_of_skeleton_eq hfound hl, hbase, Option.elim_some]

end IndexAdvisor
