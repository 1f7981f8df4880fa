import Mathlib.Algebra.BigOperators.Ring.Finset
import Mathlib.Algebra.CharP.Two
import Mathlib.Algebra.Field.ZMod
import Mathlib.Data.List.GetD
import Mathlib.Tactic.Ring
import PencilPuzzle.Graph.FaceSet
import PencilPuzzle.Proofs.Graph.Loop

/-!
# Inside and outside

Tiles that are laid one after the other, each so that its new sides hang together at corners that no
earlier tile has, leave no holes. On such tiles every set of sides with an even number at each corner
has an inside: a set of tiles such that a side belongs to the set exactly when it has the inside on
one hand and the outside on the other. Taking the last tile away settles on which hand it lies, since
its new sides are all in the set or all outside of it, and what is left is even again.
-/

namespace PencilPuzzle.Graph

/-! ### Tiles without holes -/

section Tiles

variable {α : Type}

/-- The sides at two places that follow each other meet at a corner of no earlier tile. -/
def Meets (earlier : List (List α)) (tile : List α) (i j : Nat) : Prop :=
  i < tile.length ∧ j = placeAfter tile.length i ∧
    ∃ corner, tile[j]? = some corner ∧ ∀ other ∈ earlier, corner ∉ other

/-- The side at a place is one of an earlier tile, which runs along it the other way. -/
def Shares (earlier : List (List α)) (tile : List α) (i : Nat) : Prop :=
  ∃ other ∈ earlier, ∃ j start stop, tile[i]? = some start ∧
    tile[placeAfter tile.length i]? = some stop ∧
    other[j]? = some stop ∧ other[placeAfter other.length j]? = some start

/-- The sides that no earlier tile has hang together at new corners. -/
def Attaches (earlier : List (List α)) (tile : List α) : Prop :=
  ∃ base < tile.length, ∀ i < tile.length,
    Shares earlier tile i ∨ Relation.EqvGen (Meets earlier tile) base i

/-- Each tile attaches to those before it. -/
def Shelled (tiles : List (List α)) : Prop :=
  ∀ earlier tile later, tiles = earlier ++ tile :: later → Attaches earlier tile

theorem Shelled.of_append {tiles : List (List α)} {tile : List α} (shelled : Shelled (tiles ++ [tile])) :
    Shelled tiles ∧ Attaches tiles tile := by
  constructor
  · rintro earlier other later rfl
    exact shelled earlier other (later ++ [tile]) (by simp)
  · exact shelled tiles tile [] rfl

end Tiles

/-! ### Marks that are even at every vertex -/

variable {cycles : List (List Nat)} {cycle : List Nat} {mark : Edge → ZMod 2} {edge : Edge}

def allSides (cycles : List (List Nat)) : Finset Edge := (cycles.flatMap sides).toFinset

theorem mem_allSides : edge ∈ allSides cycles ↔ ∃ cycle ∈ cycles, edge ∈ sides cycle := by
  rw [allSides, List.mem_toFinset, List.mem_flatMap]

/-- The marks of the sides sum to zero around every vertex. -/
def EvenOn (edges : Finset Edge) (mark : Edge → ZMod 2) : Prop :=
  ∀ v, ∑ edge ∈ edges with v ∈ edge.ends, mark edge = 0

theorem EvenOn.add {edges : Finset Edge} {other : Edge → ZMod 2} (even : EvenOn edges mark)
    (even' : EvenOn edges other) : EvenOn edges fun edge => mark edge + other edge := by
  intro v
  rw [Finset.sum_add_distrib, even v, even' v, add_zero]

theorem EvenOn.of_subset {edges fewer : Finset Edge} (even : EvenOn edges mark)
    (subset : fewer ⊆ edges) (rest : ∀ edge ∉ fewer, mark edge = 0) : EvenOn fewer mark := by
  intro v
  rw [← even v]
  apply Finset.sum_subset (Finset.filter_subset_filter _ subset)
  intro edge member outside
  refine rest edge fun inside => outside (Finset.mem_filter.mpr ⟨inside, ?_⟩)
  exact (Finset.mem_filter.mp member).2

private theorem evenOn_of_countP {edges : Finset Edge} {list : List Edge} (distinct : list.Nodup)
    (subset : ∀ edge ∈ list, edge ∈ edges) (even : ∀ v, Even (list.countP (v ∈ ·.ends)))
    (value : ZMod 2) : EvenOn edges fun edge => if edge ∈ list then value else 0 := by
  intro v
  have around : (edges.filter (v ∈ ·.ends)).filter (· ∈ list) =
      (list.filter (v ∈ ·.ends)).toFinset := by
    ext edge
    simp only [Finset.mem_filter, List.mem_toFinset, List.mem_filter, decide_eq_true_eq]
    exact ⟨fun h => ⟨h.2, h.1.2⟩, fun h => ⟨⟨subset edge h.1, h.2⟩, h.1⟩⟩
  obtain ⟨half, twice⟩ := even v
  rw [← Finset.sum_filter, around, Finset.sum_const,
    List.toFinset_card_of_nodup (distinct.filter _), ← List.countP_eq_length_filter, twice,
    ← two_mul, mul_comm, mul_nsmul, CharTwo.two_nsmul]

/-! ### Taking the last tile away -/

/-- Around a corner that no earlier tile has, all sides are those of the last one. -/
theorem mem_filter_allSides_of_new {v : Nat} (new : ∀ other ∈ cycles, v ∉ other) :
    edge ∈ (allSides (cycles ++ [cycle])).filter (v ∈ ·.ends) ↔ edge ∈ sides cycle ∧ v ∈ edge.ends := by
  rw [Finset.mem_filter, mem_allSides]
  constructor
  · rintro ⟨⟨other, listed, member⟩, ends⟩
    rcases List.mem_append.mp listed with earlier | last
    · exact absurd (mem_of_mem_sides member ends) (new other earlier)
    · cases List.mem_singleton.mp last
      exact ⟨member, ends⟩
  · rintro ⟨member, ends⟩
    exact ⟨⟨cycle, by simp, member⟩, ends⟩

section Last

variable (distinct : cycle.Nodup) (long : 3 ≤ cycle.length)
  (even : EvenOn (allSides (cycles ++ [cycle])) mark)
include distinct long even

private theorem Meets.mark_eq {i j : Nat} (meets : Meets cycles cycle i j) :
    (sides cycle)[i]?.map mark = (sides cycle)[j]?.map mark := by
  obtain ⟨inside, rfl, v, corner, new⟩ := meets
  have further := placeAfter_lt inside
  obtain ⟨s, here⟩ : ∃ s, (sides cycle)[i]? = some s :=
    ⟨_, List.getElem?_eq_getElem (by rw [length_sides]; exact inside)⟩
  obtain ⟨t, there⟩ : ∃ t, (sides cycle)[placeAfter cycle.length i]? = some t :=
    ⟨_, List.getElem?_eq_getElem (by rw [length_sides]; exact further)⟩
  have different : s ≠ t := by
    rintro rfl
    have same := (List.getElem?_inj (by rw [length_sides]; exact inside)
      (nodup_sides distinct long)).mp (here.trans there.symm)
    exact placeAfter_ne (by omega) same.symm
  have touches : v ∈ s.ends ∧ v ∈ t.ends := by
    obtain ⟨_, w, _, next, rfl⟩ := getElem?_sides.mp here
    obtain ⟨w', _, start, _, rfl⟩ := getElem?_sides.mp there
    cases next.symm.trans corner
    cases start.symm.trans corner
    simp
  have onlyTwo : (allSides (cycles ++ [cycle])).filter (v ∈ ·.ends) = {s, t} := by
    obtain ⟨a, b, _, pair⟩ := filter_sides distinct long (List.mem_of_getElem? corner)
    have isSide (x : Edge) : x ∈ sides cycle ∧ v ∈ x.ends ↔ x = a ∨ x = b := by
      have listed : x ∈ (sides cycle).filter (v ∈ ·.ends) ↔ x ∈ [a, b] := by rw [pair]
      simpa using listed
    have first := (isSide s).mp ⟨List.mem_of_getElem? here, touches.1⟩
    have second := (isSide t).mp ⟨List.mem_of_getElem? there, touches.2⟩
    ext x
    rw [mem_filter_allSides_of_new new, isSide, Finset.mem_insert, Finset.mem_singleton]
    rcases first with rfl | rfl <;> rcases second with rfl | rfl
    · exact absurd rfl different
    · exact Iff.rfl
    · exact or_comm
    · exact absurd rfl different
  have sum := even v
  rw [onlyTwo, Finset.sum_pair different, CharTwo.add_eq_zero] at sum
  rw [here, there, Option.map_some, Option.map_some, sum]

private theorem mark_eq_of_eqvGen {i j : Nat} (hang : Relation.EqvGen (Meets cycles cycle) i j) :
    (sides cycle)[i]?.map mark = (sides cycle)[j]?.map mark := by
  induction hang with
  | rel i j meets => exact meets.mark_eq distinct long even
  | refl i => rfl
  | symm i j _ ih => exact ih.symm
  | trans i j k _ _ first second => exact first.trans second

/-- The new sides of the last tile are all marked or all not. -/
theorem Attaches.exists_value (attaches : Attaches cycles cycle) :
    ∃ value, ∀ side ∈ sides cycle, side ∉ allSides cycles → mark side = value := by
  obtain ⟨base, inside, hang⟩ := attaches
  obtain ⟨first, start⟩ : ∃ first, (sides cycle)[base]? = some first :=
    ⟨_, List.getElem?_eq_getElem (by rw [length_sides]; exact inside)⟩
  refine ⟨mark first, fun side isSide new => ?_⟩
  obtain ⟨i, here⟩ := List.mem_iff_getElem?.mp isSide
  have bound := (List.getElem?_eq_some_iff.mp here).1
  rw [length_sides] at bound
  rcases hang i bound with ⟨other, earlier, j, v, w, tail, head, head', tail'⟩ | hang
  · refine absurd (mem_allSides.mpr ⟨other, earlier, ?_⟩) new
    obtain ⟨v', w', tail'', head'', rfl⟩ := getElem?_sides.mp here
    cases tail.symm.trans tail''
    cases head.symm.trans head''
    exact mem_sides.mpr ⟨j, w, v, head', tail', Edge.joining_comm v w⟩
  · have same := mark_eq_of_eqvGen distinct long even hang
    rw [start, here] at same
    exact (Option.some.inj same).symm

end Last

theorem sum_sides_append (cycles : List (List Nat)) (cycle : List Nat) (inside : Nat → ZMod 2)
    (value : ZMod 2) (edge : Edge) :
    (∑ f ∈ Finset.range (cycles ++ [cycle]).length,
        if edge ∈ sides ((cycles ++ [cycle]).getD f []) then
          (if f = cycles.length then value else inside f) else 0) =
      (∑ f ∈ Finset.range cycles.length, if edge ∈ sides (cycles.getD f []) then inside f else 0) +
        if edge ∈ sides cycle then value else 0 := by
  have last : (cycles ++ [cycle]).getD cycles.length [] = cycle := by
    rw [List.getD_append_right _ _ _ _ (Nat.le_refl _), Nat.sub_self, List.getD_cons_zero]
  rw [List.length_append, List.length_singleton, Finset.sum_range_succ, last, if_pos rfl]
  congr 1
  apply Finset.sum_congr rfl
  intro f member
  have bound := Finset.mem_range.mp member
  rw [if_neg (Nat.ne_of_lt bound), List.getD_append _ _ _ _ bound]

/-- On tiles without holes a set of sides that is even everywhere is the boundary of some tiles. -/
theorem Shelled.exists_inside (shelled : Shelled cycles)
    (simple : ∀ cycle ∈ cycles, cycle.Nodup ∧ 3 ≤ cycle.length)
    (within : ∀ edge ∉ allSides cycles, mark edge = 0) (even : EvenOn (allSides cycles) mark) :
    ∃ inside : Nat → ZMod 2, ∀ edge, mark edge =
      ∑ f ∈ Finset.range cycles.length, if edge ∈ sides (cycles.getD f []) then inside f else 0 := by
  induction cycles using List.reverseRecOn generalizing mark with
  | nil => exact ⟨fun _ => 0, fun edge => by rw [within edge (by simp [allSides])]; rfl⟩
  | append_singleton cycles cycle ih =>
    obtain ⟨shelled, attaches⟩ := shelled.of_append
    obtain ⟨distinct, long⟩ := simple cycle (by simp)
    obtain ⟨value, new⟩ := attaches.exists_value distinct long even
    -- Turning the last tile over takes the marks off its new sides.
    have within' : ∀ edge ∉ allSides cycles,
        mark edge + (if edge ∈ sides cycle then value else 0) = 0 := by
      intro edge outside
      by_cases isSide : edge ∈ sides cycle
      · rw [if_pos isSide, new edge isSide outside, CharTwo.add_self_eq_zero]
      · rw [if_neg isSide, add_zero]
        apply within edge
        intro member
        obtain ⟨other, listed, isOther⟩ := mem_allSides.mp member
        rcases List.mem_append.mp listed with earlier | last
        · exact outside (mem_allSides.mpr ⟨other, earlier, isOther⟩)
        · exact isSide (List.mem_singleton.mp last ▸ isOther)
    have turned := even.add (evenOn_of_countP (nodup_sides distinct long)
      (fun side isSide => mem_allSides.mpr ⟨cycle, by simp, isSide⟩)
      (fun v => countP_sides distinct (by omega) v ▸ even_two_mul _) value)
    have subset : allSides cycles ⊆ allSides (cycles ++ [cycle]) := by
      intro edge member
      obtain ⟨other, listed, isOther⟩ := mem_allSides.mp member
      exact mem_allSides.mpr ⟨other, List.mem_append_left _ listed, isOther⟩
    obtain ⟨inside, bounds⟩ := ih shelled
      (fun other listed => simple other (List.mem_append_left _ listed)) within'
      (turned.of_subset subset within')
    refine ⟨fun f => if f = cycles.length then value else inside f, fun edge => ?_⟩
    rw [sum_sides_append, ← bounds edge, add_assoc, CharTwo.add_self_eq_zero, add_zero]

/-! ### The inside of a loop -/

variable {graph : Graph} {loop : List Nat} {inside : Nat → Bool} {e f g : Nat}

/-- The edges of the loop are those with the inside on one hand only. -/
def Encloses (graph : Graph) (loop : List Nat) (inside : Nat → Bool) : Prop :=
  ∀ e < graph.edges.size, e ∈ loop ↔ Odd ((graph.facesOf e).countP inside)

theorem Encloses.iff_of_one (encloses : graph.Encloses loop inside) (bound : e < graph.edges.size)
    (one : graph.facesOf e = [f]) : e ∈ loop ↔ inside f = true := by
  rw [encloses e bound, one, List.countP_cons, List.countP_nil]
  cases inside f <;> decide

theorem Encloses.iff_of_two (encloses : graph.Encloses loop inside) (bound : e < graph.edges.size)
    (two : graph.facesOf e = [f, g]) : e ∈ loop ↔ inside f ≠ inside g := by
  rw [encloses e bound, two, List.countP_cons, List.countP_cons, List.countP_nil]
  cases inside f <;> cases inside g <;> decide

theorem Encloses.iff_of_pair (encloses : graph.Encloses loop inside) (bound : e < graph.edges.size)
    (two : graph.facesOf e = [f, g] ∨ graph.facesOf e = [g, f]) : e ∈ loop ↔ inside f ≠ inside g := by
  rcases two with two | two
  · exact encloses.iff_of_two bound two
  · exact (encloses.iff_of_two bound two).trans ne_comm

theorem mem_boundaryEdges {faces : List Nat} : e ∈ graph.boundaryEdges faces ↔
    ∃ f ∈ graph.facesOf e, f ∈ faces ∧ ∀ g ∈ graph.facesOf e, g ≠ f → g ∉ faces := by
  simp only [boundaryEdges, mem_ascendingSet, List.mem_flatMap, List.mem_filter, Bool.not_eq_true',
    List.any_eq_false, Bool.and_eq_true, decide_eq_true_eq, not_and]
  constructor
  · rintro ⟨f, member, has, alone⟩
    exact ⟨f, mem_facesOf_of_mem has, member, alone⟩
  · rintro ⟨f, has, member, alone⟩
    exact ⟨f, member, (mem_facesOf.mp has).2, alone⟩

theorem sum_facesOf (graph : Graph) (value : Nat → ZMod 2) (e : Nat) :
    ∑ f ∈ Finset.range graph.faces.size, (if e ∈ graph.edgesOf f then value f else 0) =
      ((graph.facesOf e).countP fun f => value f = 1 : Nat) := by
  have bits (x : ZMod 2) : x = if x = 1 then 1 else 0 := by
    revert x
    decide
  have faces : (Finset.range graph.faces.size).filter (e ∈ graph.edgesOf ·) =
      (graph.facesOf e).toFinset := by
    ext f
    rw [Finset.mem_filter, Finset.mem_range, List.mem_toFinset, mem_facesOf]
  rw [← Finset.sum_filter, faces, Finset.sum_congr rfl fun f _ => bits (value f), Finset.sum_boole,
    List.countP_eq_length_filter, ← List.toFinset_card_of_nodup ((graph.nodup_facesOf e).filter _),
    List.toFinset_filter]
  simp

private theorem getD_vertices (graph : Graph) (f : Nat) :
    (graph.faces.toList.map Face.vertices).getD f [] = graph.verticesOf f := by
  simp [verticesOf, List.getD_eq_getElem?_getD]

section Faces

variable (wellFormed : graph.WellFormed)
include wellFormed

private theorem WellFormed.simple_of_mem (member : cycle ∈ graph.faces.toList.map Face.vertices) :
    cycle.Nodup ∧ 3 ≤ cycle.length := by
  obtain ⟨f, here⟩ := List.mem_iff_getElem?.mp member
  have bound : f < graph.faces.size := by simpa using (List.getElem?_eq_some_iff.mp here).1
  have around : graph.verticesOf f = cycle := by
    rw [← getD_vertices, List.getD_eq_getElem?_getD, here, Option.getD_some]
  exact around ▸ ⟨wellFormed.simple f, wellFormed.long f bound⟩

theorem WellFormed.mem_allSides_of_getElem? (here : graph.edges[e]? = some edge) :
    edge ∈ allSides (graph.faces.toList.map Face.vertices) := by
  obtain ⟨f, bound, isSide⟩ := wellFormed.exists_side here
  refine mem_allSides.mpr ⟨_, ?_, isSide⟩
  obtain ⟨beyond, _⟩ | listed := graph.verticesOf_cases f
  · omega
  · exact listed

theorem WellFormed.mem_sides_iff (here : graph.edges[e]? = some edge) :
    edge ∈ sides (graph.verticesOf f) ↔ e ∈ graph.edgesOf f := by
  rw [wellFormed.mem_edgesOf]
  constructor
  · exact fun member => ⟨edge, member, here⟩
  · rintro ⟨side, member, there⟩
    cases here.symm.trans there
    exact member

theorem WellFormed.mem_filterMap_iff (here : graph.edges[e]? = some edge) :
    edge ∈ loop.filterMap (graph.edges[·]?) ↔ e ∈ loop := by
  rw [List.mem_filterMap]
  constructor
  · rintro ⟨f, member, there⟩
    exact wellFormed.distinct f e edge there here ▸ member
  · exact fun member => ⟨e, member, here⟩

/-- On a graph without holes every loop has an inside. -/
theorem Ring.exists_inside (shelled : Shelled (graph.faces.toList.map Face.vertices))
    (ring : graph.Ring loop) : ∃ inside, graph.Encloses loop inside := by
  have subset : ∀ edge ∈ loop.filterMap (graph.edges[·]?),
      edge ∈ allSides (graph.faces.toList.map Face.vertices) := by
    intro edge member
    obtain ⟨e, _, here⟩ := List.mem_filterMap.mp member
    exact wellFormed.mem_allSides_of_getElem? here
  have even (v : Nat) : Even ((loop.filterMap (graph.edges[·]?)).countP (v ∈ ·.ends)) := by
    rw [← degree_eq_countP]
    obtain none | two := ring.degree_cases v
    · exact none ▸ Even.zero
    · exact two ▸ even_two
  obtain ⟨value, bounds⟩ := shelled.exists_inside (fun _ member => wellFormed.simple_of_mem member)
    (fun edge outside => if_neg fun member => outside (subset edge member))
    (evenOn_of_countP (nodup_filterMap_edges wellFormed ring.distinct) subset even 1)
  refine ⟨fun f => value f = 1, fun e bound => ?_⟩
  obtain ⟨edge, here⟩ : ∃ edge, graph.edges[e]? = some edge := ⟨_, Array.getElem?_eq_getElem bound⟩
  have sum := bounds edge
  simp only [getD_vertices, wellFormed.mem_sides_iff here, wellFormed.mem_filterMap_iff here,
    List.length_map, Array.length_toList] at sum
  rw [sum_facesOf] at sum
  rw [← ZMod.natCast_eq_one_iff_odd, ← sum]
  by_cases member : e ∈ loop <;> simp [member]

end Faces

end PencilPuzzle.Graph
