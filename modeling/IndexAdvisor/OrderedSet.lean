/-!
# Sets in the order of first insertion

Findings are sets whose order is the order of discovery: a new element goes to the end, a repeated
one changes nothing. The elements are held as a list without repeats; `toList` is the view through
which every other operation is described.

Models `IndexSet`, as far as the findings use it.
-/

namespace IndexAdvisor

/-- A finite set that remembers the order in which its elements arrived. -/
structure OrderedSet (α : Type) where
  /-- The elements, oldest first. -/
  toList : List α
  nodup : toList.Nodup

namespace OrderedSet

variable {α : Type}

theorem ext {s t : OrderedSet α} (h : s.toList = t.toList) : s = t := by
  cases s; cases t; cases h; rfl

instance [DecidableEq α] : DecidableEq (OrderedSet α) := fun s t =>
  decidable_of_iff (s.toList = t.toList) ⟨ext, fun h => h ▸ rfl⟩

/-- The set without elements. -/
def empty : OrderedSet α := ⟨[], List.nodup_nil⟩

instance : Inhabited (OrderedSet α) := ⟨empty⟩

/-- Whether nothing has been inserted yet. -/
def isEmpty (s : OrderedSet α) : Bool := s.toList.isEmpty

variable [DecidableEq α]

/-- Puts a new element at the end; an element already present leaves the set as it is. -/
def insert (s : OrderedSet α) (a : α) : OrderedSet α :=
  if h : a ∈ s.toList then s
  else ⟨s.toList ++ [a], by
    simp only [List.nodup_append, s.nodup, List.nodup_cons, List.not_mem_nil, not_false_eq_true,
      List.nodup_nil, and_self, List.mem_singleton, forall_eq, true_and]
    exact fun b hb e => h (e ▸ hb)⟩

/-- Inserts the elements of a list from left to right. -/
def insertAll (s : OrderedSet α) (as : List α) : OrderedSet α := as.foldl insert s

/-- The elements of a list, each at its first place. -/
def ofList (as : List α) : OrderedSet α := empty.insertAll as

omit [DecidableEq α] in
@[simp] theorem toList_empty : (empty : OrderedSet α).toList = [] := rfl

theorem toList_insert (s : OrderedSet α) (a : α) :
    (s.insert a).toList = if a ∈ s.toList then s.toList else s.toList ++ [a] := by
  unfold insert; split <;> rfl

theorem insert_of_mem {s : OrderedSet α} {a : α} (h : a ∈ s.toList) : s.insert a = s := by
  simp [insert, h]

@[simp] theorem mem_insert {s : OrderedSet α} {a b : α} :
    b ∈ (s.insert a).toList ↔ b ∈ s.toList ∨ b = a := by
  rw [toList_insert]; split
  · next h => exact ⟨Or.inl, fun h' => h'.elim id fun e => e ▸ h⟩
  · simp

theorem toList_prefix_insert (s : OrderedSet α) (a : α) : s.toList <+: (s.insert a).toList := by
  rw [toList_insert]; split
  · exact List.prefix_refl _
  · exact List.prefix_append _ _

end OrderedSet

end IndexAdvisor
