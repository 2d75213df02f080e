import IndexAdvisor.Json.Record
import Mathlib.Data.List.Basic

/-!
# What a record says about one field

A record may be an object or an array, so a field is looked for under its name in the one and at its
place in the other: `Json.part?`. A field that may be left out has the value that the record says or
else the declared one (`record?_defaulted`).
-/

namespace IndexAdvisor

/-- A list that is read item by item has at each place what is read there. -/
theorem getElem?_mapM {α β : Type} {f : α → Option β} {as : List α} {bs : List β}
    (h : as.mapM f = some bs) {n : Nat} {a : α} (ha : as[n]? = some a) :
    ∃ b, f a = some b ∧ bs[n]? = some b := by
  induction as generalizing bs n with
  | nil => cases ha
  | cons first as ih =>
    rw [List.mapM_cons] at h
    obtain ⟨b, hb, h⟩ := Option.bind_eq_some_iff.1 h
    obtain ⟨rest, hrest, h⟩ := Option.bind_eq_some_iff.1 h
    obtain rfl := Option.some.inj h
    cases n with
    | zero =>
      obtain rfl := Option.some.inj ha
      exact ⟨b, hb, rfl⟩
    | succ n => exact ih hrest ha

theorem length_of_mapM {α β : Type} {f : α → Option β} {as : List α} {bs : List β}
    (h : as.mapM f = some bs) :
    bs.length = as.length := by
  induction as generalizing bs with
  | nil =>
    obtain rfl := Option.some.inj h
    rfl
  | cons a as ih =>
    rw [List.mapM_cons] at h
    obtain ⟨b, -, h⟩ := Option.bind_eq_some_iff.1 h
    obtain ⟨rest, hrest, h⟩ := Option.bind_eq_some_iff.1 h
    obtain rfl := Option.some.inj h
    exact congrArg Nat.succ (ih hrest)

namespace Json

/-- What a record says about the field of a name that is declared at a place. -/
def part? (place : Nat) (name : String) : Json → Option Json
  | object fields => fields.lookup name
  | array items => items[place]?
  | _ => none

theorem lookup_eq_head? (fields : List (String × Json)) (name : String) :
    fields.lookup name = (fields.filter (·.1 == name)).head?.map Prod.snd := by
  induction fields with
  | nil => rfl
  | cons field fields ih =>
    obtain ⟨key, value⟩ := field
    by_cases hname : key = name
    · simp [hname]
    · have hne : (name == key) = false := beq_false_of_ne (Ne.symm hname)
      rw [List.lookup_cons, hne, ih, List.filter_cons_of_neg]
      simpa using hname

/-- The value of a field in an object. -/
theorem find?_defaulted {fields : List (String × Json)} {name : String} {usual v : Json}
    (h : Field.find? fields (.defaulted name usual) = some v) :
    v = (fields.lookup name).getD usual := by
  rw [Field.find?, Field.name] at h
  rw [lookup_eq_head?]
  split at h
  · next hnone =>
    rw [hnone]
    exact (Option.some.inj h).symm
  · next hone =>
    rw [hone]
    exact (Option.some.inj h).symm
  · cases h

variable {declared : List Field} {v : Json} {values : List Json}

/-- The value of a field that may be left out: what the record says about it, or what is
declared. -/
theorem record?_defaulted (h : v.record? declared = some values) {place : Nat} {name : String}
    {usual : Json} (hplace : declared[place]? = some (.defaulted name usual)) :
    values[place]? = some ((v.part? place name).getD usual) := by
  cases v with
  | object fields =>
    obtain ⟨value, hfind, hvalue⟩ := getElem?_mapM h hplace
    rw [hvalue, find?_defaulted hfind, part?]
  | array items =>
    rw [record?] at h
    split at h
    · cases h
    · next hle =>
      obtain ⟨rest, hrest, rfl⟩ := Option.map_eq_some_iff.1 h
      rw [List.getElem?_append, part?]
      split
      · next hlt => rw [List.getElem?_eq_getElem hlt, Option.getD_some]
      · next hge =>
        have hbeyond : (declared.drop items.length)[place - items.length]? =
            some (.defaulted name usual) := by
          rw [List.getElem?_drop, Nat.add_sub_cancel' (Nat.le_of_not_lt hge), hplace]
        obtain ⟨value, hvalue, hget⟩ := getElem?_mapM hrest hbeyond
        obtain rfl := Option.some.inj hvalue
        rw [hget, List.getElem?_eq_none (Nat.le_of_not_lt hge), Option.getD_none]
  | _ => cases h

theorem length_record? (h : v.record? declared = some values) :
    values.length = declared.length := by
  cases v with
  | object fields => exact length_of_mapM h
  | array items =>
    rw [record?] at h
    split at h
    · cases h
    · next hle =>
      obtain ⟨rest, hrest, rfl⟩ := Option.map_eq_some_iff.1 h
      rw [List.length_append, length_of_mapM hrest, List.length_drop,
        Nat.add_sub_cancel' (Nat.le_of_not_lt hle)]
  | _ => cases h

end Json

end IndexAdvisor
