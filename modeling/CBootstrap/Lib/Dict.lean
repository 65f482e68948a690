import Mathlib.Data.List.Nodup
import Mathlib.Tactic.SplitIfs

/-!
# Dictionaries

A dictionary is a list of items with distinct keys, in the order in which the keys were first
assigned.  Assigning to a key that is there keeps its place, and assigning to a new one puts it
at the end.  The laws are about `get?`: what an assignment (`get?_set`) and a whole sequence of
them (`get?_update`) change, and which items `get?` finds (`mem_items`).
-/

/-- Items with distinct keys. -/
structure Dict (α β : Type) where
  items : List (α × β)
  nodup : (items.map Prod.fst).Nodup

namespace Dict

variable {α β : Type} [DecidableEq α]

/-! ## Assignment -/

/-- Assign to a key of a list of items. -/
def setItem (key : α) (value : β) : List (α × β) → List (α × β)
  | [] => [(key, value)]
  | item :: items =>
      if item.1 = key then (key, value) :: items else item :: setItem key value items

/-- A key that is there keeps its place, a new one goes to the end. -/
lemma map_fst_setItem (key : α) (value : β) (items : List (α × β)) :
    (setItem key value items).map Prod.fst =
      if key ∈ items.map Prod.fst then items.map Prod.fst else items.map Prod.fst ++ [key] := by
  induction items with
  | nil => rfl
  | cons item items ih =>
      rw [setItem]
      by_cases hkey : item.1 = key
      · simp [hkey]
      · rw [if_neg hkey, List.map_cons, ih, List.map_cons]
        have hmem : key ∈ item.1 :: items.map Prod.fst ↔ key ∈ items.map Prod.fst := by
          simp [Ne.symm hkey]
        simp only [hmem]
        split_ifs
        · rfl
        · rfl

/-- The value of a key. -/
def get? (d : Dict α β) (key : α) : Option β := d.items.lookup key

/-- `d[key] = value`. -/
def set (d : Dict α β) (key : α) (value : β) : Dict α β where
  items := setItem key value d.items
  nodup := by
    rw [map_fst_setItem]
    split_ifs with hkey
    · exact d.nodup
    · exact (List.nodup_append_comm).mp (List.nodup_cons.mpr ⟨hkey, d.nodup⟩)

/-- The dictionary without items. -/
def empty : Dict α β := ⟨[], List.nodup_nil⟩

/-- Assign all items of another dictionary. -/
def update (d other : Dict α β) : Dict α β :=
  other.items.foldl (fun d item => d.set item.1 item.2) d

/-! ## Lookup -/

@[simp] lemma get?_empty (key : α) : (empty : Dict α β).get? key = none := rfl

lemma lookup_cons_if (a k : α) (b : β) (items : List (α × β)) :
    ((a, b) :: items).lookup k = if k = a then some b else items.lookup k := by
  by_cases hk : k = a
  · rw [if_pos hk, hk, List.lookup_cons_self]
  · rw [if_neg hk, List.lookup_cons, beq_false_of_ne hk]

lemma lookup_setItem (key k : α) (value : β) (items : List (α × β)) :
    (setItem key value items).lookup k = if k = key then some value else items.lookup k := by
  induction items with
  | nil => exact lookup_cons_if key k value []
  | cons item items ih =>
      obtain ⟨a, b⟩ := item
      rw [setItem]
      by_cases hkey : a = key
      · rw [if_pos hkey, lookup_cons_if, lookup_cons_if, hkey]
        split_ifs
        · rfl
        · rfl
      · rw [if_neg hkey, lookup_cons_if, ih, lookup_cons_if]
        by_cases hk : k = a
        · rw [if_pos hk, if_pos hk, if_neg (by rw [hk]; exact hkey)]
        · rw [if_neg hk, if_neg hk]

/-- An assignment changes its own key only. -/
@[simp] lemma get?_set (d : Dict α β) (key k : α) (value : β) :
    (d.set key value).get? k = if k = key then some value else d.get? k :=
  lookup_setItem key k value d.items

lemma lookup_eq_none_of_notMem {items : List (α × β)} {key : α}
    (h : key ∉ items.map Prod.fst) : items.lookup key = none := by
  rw [List.lookup_eq_none_iff]
  rintro item hitem
  have hne : key ≠ item.1 := by
    rintro rfl
    exact h (List.mem_map_of_mem hitem)
  simpa using hne

/-- The items are what `get?` finds. -/
lemma mem_items {d : Dict α β} {key : α} {value : β} :
    (key, value) ∈ d.items ↔ d.get? key = some value := by
  obtain ⟨items, hnodup⟩ := d
  show (key, value) ∈ items ↔ items.lookup key = some value
  induction items with
  | nil => simp
  | cons item items ih =>
      obtain ⟨a, b⟩ := item
      rw [List.map_cons, List.nodup_cons] at hnodup
      rw [List.mem_cons, lookup_cons_if, Prod.mk.injEq, ih hnodup.2]
      by_cases hkey : key = a
      · subst hkey
        simp [lookup_eq_none_of_notMem hnodup.1, eq_comm]
      · simp [hkey]

/-- An update changes the keys of the other dictionary only. -/
lemma get?_update (d other : Dict α β) (key : α) :
    (d.update other).get? key = (other.get? key).or (d.get? key) := by
  obtain ⟨items, hnodup⟩ := other
  show (items.foldl (fun d item => d.set item.1 item.2) d).get? key =
    (items.lookup key).or (d.get? key)
  induction items generalizing d with
  | nil => rfl
  | cons item items ih =>
      obtain ⟨a, b⟩ := item
      rw [List.map_cons, List.nodup_cons] at hnodup
      rw [List.foldl_cons, ih _ hnodup.2, get?_set, lookup_cons_if]
      by_cases hkey : key = a
      · simp [hkey, lookup_eq_none_of_notMem hnodup.1]
      · simp [hkey]

end Dict
