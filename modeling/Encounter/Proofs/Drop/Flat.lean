import Encounter.Script.Basic

/-!
# Drop requests as flat lists

A request is written as a flat list of numbers: the mesos, then an item and a quantity for each
stack. Reading such a list gives the request back, and no other list is read.
-/

namespace Encounter

/-- Items and quantities in turn. -/
def ItemDrop.pairs (items : List ItemDrop) : List UInt32 :=
  items.flatMap fun drop => [drop.item.val, drop.quantity]

namespace DropRequest

/-- The flat list of a request: the least and the most mesos, their chance, then an item and its
quantity for each stack. -/
def args (request : DropRequest) : List UInt32 :=
  request.mesos.min :: request.mesos.max :: request.mesos.chance :: ItemDrop.pairs request.items

/-- What is read are the stacks of which these are the pairs. -/
private theorem itemsOfPairs?_eq_some_iff {pairs : List UInt32} {items : List ItemDrop} :
    itemsOfPairs? pairs = some items ↔ ItemDrop.pairs items = pairs := by
  fun_induction itemsOfPairs? pairs generalizing items with
  | case1 => cases items <;> simp [ItemDrop.pairs]
  | case2 => cases items <;> simp [ItemDrop.pairs]
  | case3 item quantity rest ih =>
    rw [Option.map_eq_some_iff]
    constructor
    · rintro ⟨others, hrest, rfl⟩
      simpa [ItemDrop.pairs] using ih.1 hrest
    · intro hpairs
      cases items with
      | nil => cases hpairs
      | cons drop others =>
        obtain ⟨hitem, hquantity, hrest⟩ : drop.item.val = item ∧ drop.quantity = quantity ∧
            ItemDrop.pairs others = rest := by simpa [ItemDrop.pairs] using hpairs
        subst hitem hquantity
        exact ⟨others, ih.2 hrest, rfl⟩

/-- Pairs are read off any list of even length. -/
private theorem isSome_itemsOfPairs?_iff (pairs : List UInt32) :
    (itemsOfPairs? pairs).isSome ↔ pairs.length % 2 = 0 := by
  fun_induction itemsOfPairs? pairs with
  | case1 => simp
  | case2 => simp
  | case3 item quantity rest ih =>
    rw [Option.isSome_map, ih, List.length_cons, List.length_cons]
    omega

/-- A request is read off its flat list and off no other. -/
theorem ofArgs?_eq_some_iff {args : List UInt32} {request : DropRequest} :
    ofArgs? args = some request ↔ request.args = args := by
  unfold ofArgs?
  split
  · next min max chance pairs =>
    rw [Option.map_eq_some_iff]
    constructor
    · rintro ⟨items, hitems, rfl⟩
      rw [DropRequest.args, itemsOfPairs?_eq_some_iff.1 hitems]
    · intro hargs
      obtain ⟨⟨least, most, parts⟩, items⟩ := request
      simp only [DropRequest.args, List.cons.injEq] at hargs
      obtain ⟨rfl, rfl, rfl, hpairs⟩ := hargs
      exact ⟨items, itemsOfPairs?_eq_some_iff.2 hpairs, rfl⟩
  · next hshort =>
    refine iff_of_false (by simp) ?_
    rintro rfl
    exact hshort _ _ _ _ rfl

/-- A list is read if it has three numbers for the mesos and two for each item. -/
private theorem isSome_ofArgs?_iff (args : List UInt32) :
    (ofArgs? args).isSome ↔ 3 ≤ args.length ∧ args.length % 2 = 1 := by
  unfold ofArgs?
  split
  · next min max chance pairs =>
    rw [Option.isSome_map, isSome_itemsOfPairs?_iff]
    simp only [List.length_cons]
    omega
  · next hshort =>
    refine iff_of_false (by simp) ?_
    rintro ⟨hlong, -⟩
    obtain ⟨min, max, chance, pairs, rfl⟩ : ∃ min max chance pairs,
        args = min :: max :: chance :: pairs := by
      match args, hlong with
      | min :: max :: chance :: pairs, _ => exact ⟨min, max, chance, pairs, rfl⟩
    exact hshort _ _ _ _ rfl

/-- The stacks are added in the order in which they are asked for. -/
private theorem foldl_withItem (request : DropRequest) (items : List ItemDrop) :
    items.foldl (fun request drop => request.withItem drop.item drop.quantity) request =
      ⟨request.mesos, request.items ++ items⟩ := by
  induction items generalizing request with
  | nil => simp
  | cons drop items ih =>
    rw [List.foldl_cons, ih, withItem, List.append_assoc, List.singleton_append]

end DropRequest

/-- Flat lists and requests belong to each other: a list is read exactly if it has an odd length of
three at least, and then the request has that flat list; every request is read off its flat list, and
is made by adding its stacks in order to its mesos. If a list is not read, the error tells its
length. -/
theorem Script.readDrops_exact (args : List UInt32) :
    (∀ request, readDrops args = done request ↔ request.args = args) ∧
    ((∃ request, readDrops args = done request) ↔ 3 ≤ args.length ∧ args.length % 2 = 1) ∧
    (∀ error, readDrops args = fail error ↔
      ¬ (3 ≤ args.length ∧ args.length % 2 = 1) ∧ error = .malformedDropArgs args.length) ∧
    ∀ request : DropRequest, readDrops request.args = done request ∧
      request = request.items.foldl (fun built drop => built.withItem drop.item drop.quantity)
        (.ofMesos request.mesos.min request.mesos.max request.mesos.chance) := by
  have hdone : ∀ args request, readDrops args = done request ↔ request.args = args := by
    intro args request
    rw [← DropRequest.ofArgs?_eq_some_iff, readDrops]
    split <;> simp [*]
  have hsome := DropRequest.isSome_ofArgs?_iff args
  refine ⟨hdone args, ?_, fun error => ?_, fun request => ⟨(hdone _ _).2 rfl, ?_⟩⟩
  · rw [← hsome, Option.isSome_iff_exists]
    exact exists_congr fun request => (hdone args request).trans DropRequest.ofArgs?_eq_some_iff.symm
  · rw [← hsome, readDrops]
    cases hread : DropRequest.ofArgs? args with
    | none => simp [eq_comm]
    | some request => simp
  · rw [DropRequest.foldl_withItem]
    rfl

end Encounter
