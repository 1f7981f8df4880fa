import PencilPuzzle.Register

/-!
# Filing items

An item that is looked up in a register and added where it is missing gets a place of its own: what
was filed before stays where it is, no item has two places, and only the new item can have made the
register longer. The same then holds of a list of items that are filed one after the other.
-/

namespace PencilPuzzle

variable {α : Type} {before middle after : Array α} {item : α} {items : List α} {place : Nat}
  {places : List Nat}

def Distinct (items : Array α) : Prop :=
  ∀ (i j : Nat) (item : α), items[i]? = some item → items[j]? = some item → i = j

theorem Distinct.nodup_toList (distinct : Distinct before) : before.toList.Nodup := by
  refine List.pairwise_iff_getElem.mpr fun i j inside inside' earlier same => ?_
  refine absurd (distinct i j before.toList[i] ?_ ?_) (Nat.ne_of_lt earlier)
  · exact (Array.getElem?_toList ..).symm.trans (List.getElem?_eq_getElem inside)
  · exact (Array.getElem?_toList ..).symm.trans (same ▸ List.getElem?_eq_getElem inside')

def Extends (before after : Array α) : Prop :=
  ∀ (i : Nat) (item : α), before[i]? = some item → after[i]? = some item

theorem Extends.refl (items : Array α) : Extends items items := fun _ _ here => here

theorem Extends.push (items : Array α) (item : α) : Extends items (items.push item) := by
  intro i other here
  have inside : i < items.size := (Array.getElem?_eq_some_iff.mp here).1
  rw [Array.getElem?_push, if_neg (Nat.ne_of_lt inside)]
  exact here

theorem Extends.isPrefix (extended : Extends before after) : before.toList <+: after.toList := by
  refine List.prefix_iff_getElem?.mpr fun i inside => ?_
  rw [Array.getElem?_toList]
  exact extended i _ ((Array.getElem?_toList ..).symm.trans (List.getElem?_eq_getElem inside))

theorem Extends.size_le (extended : Extends before after) : before.size ≤ after.size := by
  rw [← Array.length_toList, ← Array.length_toList]
  exact extended.isPrefix.length_le

theorem Extends.trans (first : Extends before middle) (second : Extends middle after) :
    Extends before after :=
  fun i item here => second i item (first i item here)

theorem Extends.map_getElem? (extended : Extends before after)
    (here : places.map (before[·]?) = items.map some) :
    places.map (after[·]?) = items.map some := by
  induction places generalizing items with
  | nil => exact here
  | cons place places ih =>
    cases items with
    | nil => simp at here
    | cons item items =>
      obtain ⟨first, rest⟩ := List.cons.inj here
      rw [List.map_cons, List.map_cons, ih rest, extended place item first]

/-! ### One item -/

/-- The item has its place afterwards, and nothing else has changed. -/
structure Files (before after : Array α) (item : α) (place : Nat) : Prop where
  kept : Extends before after
  filed : after[place]? = some item
  new : ∀ i < after.size, i < before.size ∨ i = place
  distinct : Distinct before → Distinct after

variable [DecidableEq α] {key : α → Nat} {register : Register key}

theorem Register.files_found (found : register.find? item = some place) :
    Files register.items register.items item place := by
  rw [Register.find?_eq, lastIndex?, lastIndexBelow?_eq_some] at found
  exact ⟨Extends.refl _, found.2.1, fun i inside => .inl inside, id⟩

theorem Register.files_push (absent : register.find? item = none) :
    Files register.items (register.push item).items item register.size := by
  rw [Register.find?_eq, lastIndex?, lastIndexBelow?_eq_none] at absent
  change Files register.items (register.items.push item) item register.items.size
  have older {i : Nat} {other : α} (here : register.items[i]? = some other) :
      i < register.items.size := (Array.getElem?_eq_some_iff.mp here).1
  refine ⟨Extends.push _ _, Array.getElem?_push_size, fun i inside => ?_, ?_⟩
  · rw [Array.size_push] at inside
    omega
  · intro distinct i j other here there
    rw [Array.getElem?_push] at here there
    split at here <;> split at there
    · omega
    · cases here
      exact absurd there (absent j (older there))
    · cases there
      exact absurd here (absent i (older here))
    · exact distinct i j other here there

/-! ### Lists of items -/

omit [DecidableEq α]

/-- All items have their places afterwards, and nothing else has changed. -/
structure FilesAll (before after : Array α) (items : List α) (places : List Nat) : Prop where
  kept : Extends before after
  filed : places.map (after[·]?) = items.map some
  new : ∀ i < after.size, i < before.size ∨ i ∈ places
  distinct : Distinct before → Distinct after

theorem FilesAll.nil : FilesAll before before [] [] :=
  ⟨Extends.refl _, rfl, fun _ inside => .inl inside, id⟩

theorem FilesAll.cons (first : Files before middle item place)
    (rest : FilesAll middle after items places) :
    FilesAll before after (item :: items) (place :: places) where
  kept := first.kept.trans rest.kept
  filed := by
    rw [List.map_cons, List.map_cons, rest.filed, rest.kept place item first.filed]
  new i inside := by
    obtain early | late := rest.new i inside
    · obtain old | same := first.new i early
      · exact .inl old
      · exact .inr (same ▸ List.mem_cons_self ..)
    · exact .inr (List.mem_cons_of_mem place late)
  distinct old := rest.distinct (first.distinct old)

theorem FilesAll.mem_or (files : FilesAll before after items places) (member : item ∈ after) :
    item ∈ before ∨ item ∈ items := by
  obtain ⟨i, here⟩ := Array.mem_iff_getElem?.mp member
  obtain old | filed := files.new i (Array.getElem?_eq_some_iff.mp here).1
  · have there := Array.getElem?_eq_getElem old
    cases here.symm.trans (files.kept i _ there)
    exact .inl (Array.mem_of_getElem? there)
  · have listed : after[i]? ∈ places.map (after[·]?) := List.mem_map_of_mem filed
    rw [files.filed, here] at listed
    obtain ⟨_, known, same⟩ := List.mem_map.mp listed
    exact .inr (Option.some.inj same ▸ known)

end PencilPuzzle
