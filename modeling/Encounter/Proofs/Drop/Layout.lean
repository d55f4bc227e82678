import Encounter.Drop

/-!
# How drops scatter

A drop lies on its point, or beside it by the distance of its slot and of what it is: items and mesos
keep different distances (`DropRequest.shift`). Slots of one parity lie on one side, and on either
side the distances grow with the slot, also from the last item to the mesos. So no two drops meet.

Coordinates have 32 bits and wrap. The distances are exact as long as no number on the way to them
overflows (`DropRequest.InRange`).
-/

namespace Encounter
namespace DropRequest

/-- How far to the side a slot lies, in numbers without bounds. -/
def offset (slot : Nat) (step : Int) : Int :=
  if slot % 2 = 0 then (step * (slot + 1)).tdiv 2 else -(step * ((slot / 2 : Nat) : Int))

section Offset

variable {slot later : Nat} {step wider : Int}

/-- The slots on the right move out by one step each, from half a step beyond the point. -/
private theorem offset_of_even (h : slot % 2 = 0) (hstep : 0 ≤ step) :
    offset slot step = step * (slot / 2 : Nat) + step / 2 := by
  have hdouble : step * (slot + 1) = step + step * (slot / 2 : Nat) * 2 := by
    have hslot : (slot : Int) = 2 * (slot / 2 : Nat) := by omega
    grind
  have hpos : 0 ≤ step * ((slot : Int) + 1) := Int.mul_nonneg hstep (by omega)
  rw [offset, if_pos h, Int.tdiv_eq_ediv_of_nonneg hpos, hdouble, Int.add_mul_ediv_right _ _ (by decide)]
  omega

/-- The slots on the left move out by one step each, from the point. -/
private theorem offset_of_odd (h : slot % 2 = 1) :
    offset slot step = -(step * (slot / 2 : Nat)) := by
  rw [offset, if_neg (by omega)]

/-- More steps that are not narrower lead farther. -/
private theorem steps_lt_steps {near far : Nat} (h : near < far) (hstep : 0 < step)
    (hwider : step ≤ wider) :
    step * (near : Int) < wider * (far : Int) :=
  calc step * (near : Int)
    _ < step * far := Int.mul_lt_mul_of_pos_left (by omega) hstep
    _ ≤ wider * far := Int.mul_le_mul_of_nonneg_right hwider (by omega)

/-- Of two slots on the right, the later one lies farther out, also with a wider step. -/
private theorem offset_lt_offset (heven : slot % 2 = 0) (hsame : later % 2 = 0) (hlt : slot < later)
    (hstep : 0 < step) (hwider : step ≤ wider) : offset slot step < offset later wider := by
  have hmore : slot / 2 < later / 2 := by omega
  have hout := steps_lt_steps hmore hstep hwider
  rw [offset_of_even heven (by omega), offset_of_even hsame (by omega)]
  omega

/-- Of two slots on the left, the later one lies farther out, also with a wider step. -/
private theorem offset_lt_offset_of_odd (hodd : slot % 2 = 1) (hsame : later % 2 = 1)
    (hlt : slot < later) (hstep : 0 < step) (hwider : step ≤ wider) :
    offset later wider < offset slot step := by
  have hmore : slot / 2 < later / 2 := by omega
  rw [offset_of_odd hodd, offset_of_odd hsame]
  exact Int.neg_lt_neg (steps_lt_steps hmore hstep hwider)

/-- The even slots lie on the right. -/
private theorem offset_pos (heven : slot % 2 = 0) (hslot : 0 < slot) (hstep : 0 < step) :
    0 < offset slot step := by
  rw [offset_of_even heven (by omega)]
  have hout : 0 < step * (slot / 2 : Nat) := Int.mul_pos hstep (by omega)
  omega

/-- The odd slots but for the first lie on the left. -/
private theorem offset_neg (hodd : slot % 2 = 1) (hslot : 1 < slot) (hstep : 0 < step) :
    offset slot step < 0 := by
  rw [offset_of_odd hodd]
  have hout : 0 < step * (slot / 2 : Nat) := Int.mul_pos hstep (by omega)
  omega

end Offset

/-- The step that places the drop at that index: the mesos come behind the items. -/
def stepAt (request : DropRequest) (n : Nat) : Int32 :=
  if n < request.items.length then itemSpread else mesoSpread

/-- How far to the side the drop at that index lies, in numbers without bounds. -/
def shift (request : DropRequest) (n : Nat) : Int := offset (n + 1) (request.stepAt n).toInt

private theorem stepAt_pos (request : DropRequest) (n : Nat) : 0 < (request.stepAt n).toInt := by
  unfold stepAt
  split <;> decide

private theorem stepAt_le (request : DropRequest) {n m : Nat} (h : n < m) :
    (request.stepAt n).toInt ≤ (request.stepAt m).toInt := by
  unfold stepAt
  split <;> split <;> first | decide | omega

@[simp] theorem shift_zero (request : DropRequest) : request.shift 0 = 0 := by
  rw [shift, offset_of_odd rfl]
  simp

/-- On the right the drops lie ever farther out. -/
private theorem shift_lt_shift (request : DropRequest) {n m : Nat} (hn : (n + 1) % 2 = 0)
    (hm : (m + 1) % 2 = 0) (h : n < m) : request.shift n < request.shift m :=
  offset_lt_offset hn hm (by omega) (request.stepAt_pos n) (request.stepAt_le h)

/-- On the left the drops lie ever farther out. -/
private theorem shift_lt_shift_of_odd (request : DropRequest) {n m : Nat} (hn : (n + 1) % 2 = 1)
    (hm : (m + 1) % 2 = 1) (h : n < m) : request.shift m < request.shift n :=
  offset_lt_offset_of_odd hn hm (by omega) (request.stepAt_pos n) (request.stepAt_le h)

/-- The parity of the slot tells the side. -/
private theorem shift_pos_iff (request : DropRequest) (n : Nat) :
    0 < request.shift n ↔ (n + 1) % 2 = 0 := by
  by_cases heven : (n + 1) % 2 = 0
  · exact iff_of_true (offset_pos heven (by omega) (request.stepAt_pos n)) heven
  · refine iff_of_false ?_ heven
    by_cases hfirst : n = 0
    · simp [hfirst]
    · have hleft : request.shift n < 0 := offset_neg (by omega) (by omega) (request.stepAt_pos n)
      omega

private theorem shift_neg_iff (request : DropRequest) {n : Nat} (hn : 0 < n) :
    request.shift n < 0 ↔ (n + 1) % 2 = 1 := by
  constructor
  · have hright := request.shift_pos_iff n
    omega
  · exact fun hodd => offset_neg hodd (by omega) (request.stepAt_pos n)

/-- No two drops lie equally far to the same side. -/
private theorem shift_ne_shift (request : DropRequest) {n m : Nat} (h : n < m) :
    request.shift n ≠ request.shift m := by
  have hn := request.shift_pos_iff n
  have hm := request.shift_pos_iff m
  by_cases heven : (n + 1) % 2 = 0
  · by_cases hsame : (m + 1) % 2 = 0
    · exact Int.ne_of_lt (request.shift_lt_shift heven hsame h)
    · omega
  · by_cases hsame : (m + 1) % 2 = 0
    · omega
    · exact Int.ne_of_gt (request.shift_lt_shift_of_odd (by omega) (by omega) h)

/-- Neighbouring items on one side lie 25 apart. -/
private theorem shift_add_two (request : DropRequest) {n : Nat} (h : n + 2 < request.items.length) :
    request.shift (n + 2) =
      if (n + 1) % 2 = 0 then request.shift n + 25 else request.shift n - 25 := by
  have hfirst : (request.stepAt n).toInt = 25 := by
    rw [stepAt, if_pos (by omega)]
    rfl
  have hsecond : (request.stepAt (n + 2)).toInt = 25 := by
    rw [stepAt, if_pos h]
    rfl
  unfold shift
  rw [hfirst, hsecond]
  split
  · next heven =>
    rw [offset_of_even heven (by decide), offset_of_even (by omega) (by decide)]
    omega
  · next hodd =>
    rw [offset_of_odd (by omega), offset_of_odd (by omega)]
    omega

/-- A number that 32 bits hold. -/
def Fits (n : Int) : Prop := -2147483648 ≤ n ∧ n ≤ 2147483647

instance (n : Int) : Decidable (Fits n) := inferInstanceAs (Decidable (_ ∧ _))

private theorem bmod_of_fits {n : Int} (h : Fits n) : n.bmod 4294967296 = n := by
  obtain ⟨hlow, hhigh⟩ := h
  apply Int.bmod_eq_of_le <;> omega

private theorem toInt_add_of_fits {a b : Int32} (h : Fits (a.toInt + b.toInt)) :
    (a + b).toInt = a.toInt + b.toInt :=
  (Int32.toInt_add a b).trans (bmod_of_fits h)

private theorem toInt_mul_of_fits {a b : Int32} (h : Fits (a.toInt * b.toInt)) :
    (a * b).toInt = a.toInt * b.toInt :=
  (Int32.toInt_mul a b).trans (bmod_of_fits h)

private theorem toInt_neg_of_fits {a : Int32} (h : Fits (-a.toInt)) : (-a).toInt = -a.toInt :=
  (Int32.toInt_neg a).trans (bmod_of_fits h)

/-- Do 32 bits hold every number on the way from a slot to its distance? -/
def SpreadFits (slot : Nat) (step : Int) : Prop :=
  Fits slot ∧
  if slot % 2 = 0 then Fits (slot + 1) ∧ Fits (step * (slot + 1))
  else Fits (step * (slot / 2 : Nat)) ∧ Fits (-(step * (slot / 2 : Nat)))

/-- With no overflow on the way, the distance is the exact one. -/
theorem toInt_spread {index : Nat} {step : Int32} (h : SpreadFits (index + 1) step.toInt) :
    (spread (slotAt index) step).toInt = offset (index + 1) step.toInt := by
  obtain ⟨hslot, hway⟩ := h
  have hindex : (Int32.ofNat index).toInt = index :=
    Int32.toInt_ofNat_of_lt (by have := hslot.2; omega)
  have hexact : (slotAt index).toInt = (index + 1 : Nat) := by
    have hsum : ((index + 1 : Nat) : Int) = (Int32.ofNat index).toInt + (1 : Int32).toInt := by
      rw [hindex]
      rfl
    rw [hsum] at hslot ⊢
    exact toInt_add_of_fits hslot
  have hparity : slotAt index % 2 = 0 ↔ (index + 1) % 2 = 0 := by
    rw [← Int32.toInt_inj, Int32.toInt_mod, hexact, Int.tmod_eq_emod_of_nonneg (by omega)]
    show ((index + 1 : Nat) : Int) % 2 = 0 ↔ _
    omega
  rw [spread, offset]
  split
  · next heven =>
    rw [if_pos (hparity.1 heven)] at hway ⊢
    have hnext : (slotAt index + 1).toInt = (index + 1 : Nat) + 1 := by
      rw [← hexact] at hway ⊢
      exact toInt_add_of_fits hway.1
    rw [← hnext] at hway ⊢
    rw [Int32.toInt_div_of_ne_right _ _ (by decide), toInt_mul_of_fits hway.2]
    rfl
  · next hodd =>
    rw [if_neg fun heven => hodd (hparity.2 heven)] at hway ⊢
    have hhalf : (slotAt index / 2).toInt = ((index + 1) / 2 : Nat) := by
      rw [Int32.toInt_div_of_ne_right _ _ (by decide), hexact, Int.tdiv_eq_ediv_of_nonneg (by omega)]
      rfl
    rw [← hhalf] at hway ⊢
    have hproduct := toInt_mul_of_fits hway.1
    rw [← hproduct] at hway ⊢
    exact toInt_neg_of_fits hway.2

/-- At slot 85 899 346 the distance would fit, but 25 times the next slot does not. -/
example : offset 85899346 25 = 1073741837 ∧ spread (slotAt 85899345) 25 = -1073741810 := by decide

private theorem getElem?_placeItems (origin : Position) (index : Nat) (items : List ItemDrop)
    (n : Nat) :
    (placeItems origin index items)[n]? = items[n]?.map fun drop =>
      ⟨.item drop, origin.offsetX (spread (slotAt (index + n)) itemSpread)⟩ := by
  induction items generalizing index n with
  | nil => simp [placeItems]
  | cons drop rest ih =>
    cases n with
    | zero => simp [placeItems]
    | succ n =>
      have hindex : index + (n + 1) = index + 1 + n := by omega
      rw [placeItems, List.getElem?_cons_succ, List.getElem?_cons_succ, ih, hindex]

@[simp] theorem length_placeItems (origin : Position) (index : Nat) (items : List ItemDrop) :
    (placeItems origin index items).length = items.length := by
  induction items generalizing index with
  | nil => rfl
  | cons drop rest ih => simp [placeItems, ih]

private theorem map_kind_placeItems (origin : Position) (index : Nat) (items : List ItemDrop) :
    (placeItems origin index items).map DropPlacement.kind = items.map .item := by
  induction items generalizing index with
  | nil => rfl
  | cons drop rest ih => simp [placeItems, ih]

/-- The mesos come behind the items. -/
private theorem layout_eq_append (request : DropRequest) (origin : Position) :
    request.layout origin = placeItems origin 0 request.items ++
      if request.mesos.isEnabled then
        [⟨.mesos request.mesos, origin.offsetX (spread (slotAt request.items.length) mesoSpread)⟩]
      else [] := by
  unfold layout
  split <;> simp

theorem map_kind_layout (request : DropRequest) (origin : Position) :
    (request.layout origin).map DropPlacement.kind = request.items.map .item ++
      (if request.mesos.isEnabled then [.mesos request.mesos] else []) := by
  rw [layout_eq_append, List.map_append, map_kind_placeItems]
  split <;> rfl

/-- Each drop lies beside the point by the distance of its slot. -/
theorem position_of_getElem?_layout {request : DropRequest} {origin : Position} {n : Nat}
    {drop : DropPlacement} (h : (request.layout origin)[n]? = some drop) :
    drop.position = origin.offsetX (spread (slotAt n) (request.stepAt n)) := by
  rw [layout_eq_append] at h
  unfold stepAt
  by_cases hn : n < request.items.length
  · rw [List.getElem?_append_left (by simpa using hn), getElem?_placeItems, Nat.zero_add] at h
    obtain ⟨item, -, rfl⟩ := Option.map_eq_some_iff.1 h
    rw [if_pos hn]
  · rw [List.getElem?_append_right (by simpa using hn), length_placeItems] at h
    split at h
    · obtain ⟨hlast, rfl⟩ := List.getElem?_eq_some_iff.1 h
      simp only [List.length_singleton] at hlast
      have hend : n = request.items.length := by omega
      simp [hend]
    · simp at h

/-- A point that is moved takes its drops along, also where coordinates wrap. -/
theorem layout_moved (request : DropRequest) (origin : Position) (dx dy : Int32) :
    request.layout ⟨origin.x + dx, origin.y + dy⟩ = (request.layout origin).map fun drop =>
      { drop with position := ⟨drop.position.x + dx, drop.position.y + dy⟩ } := by
  have hmoved : ∀ distance, (⟨origin.x + dx, origin.y + dy⟩ : Position).offsetX distance =
      ⟨(origin.offsetX distance).x + dx, (origin.offsetX distance).y + dy⟩ := by
    intro distance
    simp only [Position.offsetX, Position.mk.injEq, and_true]
    ac_rfl
  have hitems : ∀ index items, placeItems ⟨origin.x + dx, origin.y + dy⟩ index items =
      (placeItems origin index items).map fun drop =>
        { drop with position := ⟨drop.position.x + dx, drop.position.y + dy⟩ } := by
    intro index items
    induction items generalizing index with
    | nil => rfl
    | cons drop rest ih => rw [placeItems, placeItems, List.map_cons, ih, hmoved]
  rw [layout_eq_append, layout_eq_append, hitems, List.map_append, hmoved]
  split <;> rfl

/-- Do 32 bits hold every coordinate of the drops, and every number on the way to it? -/
def InRange (request : DropRequest) (origin : Position) : Prop :=
  ∀ n, n < (request.layout origin).length →
    SpreadFits (n + 1) (request.stepAt n).toInt ∧ Fits (origin.x.toInt + request.shift n)

/-- Up to 53 687 090 drops only the coordinates themselves can overflow. -/
theorem inRange_of_length_le {request : DropRequest} {origin : Position}
    (hcount : (request.layout origin).length ≤ 53687090)
    (h : ∀ n, n < (request.layout origin).length → Fits (origin.x.toInt + request.shift n)) :
    request.InRange origin := by
  refine fun n hn => ⟨?_, h n hn⟩
  have hstep : (request.stepAt n).toInt = 25 ∨ (request.stepAt n).toInt = 40 := by
    unfold stepAt
    split
    · exact .inl rfl
    · exact .inr rfl
  unfold SpreadFits Fits
  rcases hstep with hstep | hstep <;> rw [hstep] <;> split <;> omega

/-- Without overflow a drop lies beside the point by its shift. -/
theorem toInt_x_of_getElem?_layout {request : DropRequest} {origin : Position} {n : Nat}
    {drop : DropPlacement} (h : request.InRange origin)
    (hdrop : (request.layout origin)[n]? = some drop) :
    drop.position.x.toInt = origin.x.toInt + request.shift n := by
  obtain ⟨hway, hend⟩ := h n (List.getElem?_eq_some_iff.1 hdrop).1
  have hexact : (spread (slotAt n) (request.stepAt n)).toInt = request.shift n := toInt_spread hway
  rw [← hexact] at hend ⊢
  rw [position_of_getElem?_layout hdrop]
  exact toInt_add_of_fits hend

/-- The drops are the items in their order, each with its quantity, and then the mesos if they can
drop. They keep to the height of the point. With no overflow, the first lies on the point; of the
others, counted from 1, the even ones lie to the right and the odd ones to the left, each farther out
than those before it on its side, and neighbouring items on one side lie 25 apart. No two drops lie at
the same place, and moving the point moves all of them alike. -/
theorem layout_scatters (request : DropRequest) (origin : Position)
    (h : request.InRange origin) :
    let placed := request.layout origin
    placed.map DropPlacement.kind = request.items.map .item ++
      (if request.mesos.isEnabled then [.mesos request.mesos] else []) ∧
    (∀ drop ∈ placed, drop.position.y = origin.y) ∧
    (∀ drop, placed[0]? = some drop → drop.position.x = origin.x) ∧
    (∀ (n : Nat) (drop : DropPlacement), 0 < n → placed[n]? = some drop →
      (origin.x < drop.position.x ↔ (n + 1) % 2 = 0) ∧
      (drop.position.x < origin.x ↔ (n + 1) % 2 = 1)) ∧
    (∀ (n m : Nat) (drop later : DropPlacement), n < m →
      placed[n]? = some drop → placed[m]? = some later →
      (origin.x < drop.position.x → origin.x < later.position.x →
        drop.position.x < later.position.x) ∧
      (drop.position.x < origin.x → later.position.x < origin.x →
        later.position.x < drop.position.x)) ∧
    (∀ (n : Nat) (drop next : DropPlacement), n + 2 < request.items.length →
      placed[n]? = some drop → placed[n + 2]? = some next → next.position.x.toInt =
        if (n + 1) % 2 = 0 then drop.position.x.toInt + 25 else drop.position.x.toInt - 25) ∧
    (placed.map fun drop => drop.position.x).Nodup ∧
    (∀ dx dy, request.layout ⟨origin.x + dx, origin.y + dy⟩ = placed.map fun drop =>
      { drop with position := ⟨drop.position.x + dx, drop.position.y + dy⟩ }) ∧
    ∀ (moved : Position) (dx dy : Int), request.InRange moved →
      moved.x.toInt = origin.x.toInt + dx → moved.y.toInt = origin.y.toInt + dy →
      ∀ (n : Nat) (drop other : DropPlacement), placed[n]? = some drop →
        (request.layout moved)[n]? = some other →
        other.position.x.toInt = drop.position.x.toInt + dx ∧
        other.position.y.toInt = drop.position.y.toInt + dy := by
  intro placed
  have hx : ∀ {n drop}, placed[n]? = some drop →
      drop.position.x.toInt = origin.x.toInt + request.shift n := toInt_x_of_getElem?_layout h
  have hy : ∀ {point : Position} {n : Nat} {drop : DropPlacement},
      (request.layout point)[n]? = some drop → drop.position.y = point.y := by
    intro point n drop hdrop
    rw [position_of_getElem?_layout hdrop, Position.offsetX]
  refine ⟨request.map_kind_layout origin, ?_, ?_, ?_, ?_, ?_, ?_, request.layout_moved origin, ?_⟩
  · intro drop hdrop
    obtain ⟨n, hn⟩ := List.getElem?_of_mem hdrop
    exact hy hn
  · intro drop hfirst
    rw [← Int32.toInt_inj, hx hfirst, shift_zero, Int.add_zero]
  · intro n drop hn hdrop
    have hright := request.shift_pos_iff n
    have hleft := request.shift_neg_iff hn
    rw [Int32.lt_iff_toInt_lt, Int32.lt_iff_toInt_lt, hx hdrop]
    omega
  · intro n m drop later hlt hdrop hlater
    have hn := request.shift_pos_iff n
    have hm := request.shift_pos_iff m
    simp only [Int32.lt_iff_toInt_lt, hx hdrop, hx hlater]
    constructor
    · intro hright hsame
      have hout := request.shift_lt_shift (hn.1 (by omega)) (hm.1 (by omega)) hlt
      omega
    · intro hleft hsame
      have hout := request.shift_lt_shift_of_odd (n := n) (m := m) (by omega) (by omega) hlt
      omega
  · intro n drop next hn hdrop hnext
    rw [hx hdrop, hx hnext, request.shift_add_two hn]
    split <;> omega
  · apply List.pairwise_iff_getElem.2
    intro n m hn hm hlt
    simp only [List.length_map] at hn hm
    have hne := request.shift_ne_shift hlt
    simp only [List.getElem_map, ne_eq, ← Int32.toInt_inj]
    rw [hx (List.getElem?_eq_getElem hn), hx (List.getElem?_eq_getElem hm)]
    omega
  · intro moved dx dy hmoved hdx hdy n drop other hdrop hother
    rw [hx hdrop, toInt_x_of_getElem?_layout hmoved hother, hy hother, hy hdrop]
    omega

/-- Three items on the point and beside it, and mesos to the right of them. -/
theorem layout_scatters_four :
    let request : DropRequest :=
      ⟨⟨5, 10, 1000000⟩, [⟨⟨4031161⟩, 1⟩, ⟨⟨4031162⟩, 2⟩, ⟨⟨4031163⟩, 3⟩]⟩
    let origin : Position := ⟨-60, 5⟩
    request.InRange origin ∧
    ((request.layout origin).map fun drop => drop.position.x) = [-60, -23, -85, 40] ∧
    ((request.layout origin).map fun drop => drop.position.x).Nodup := by
  intro request origin
  have h : request.InRange origin := inRange_of_length_le (by decide) (by decide)
  obtain ⟨-, -, -, -, -, -, hnodup, -⟩ := layout_scatters request origin h
  exact ⟨h, by decide, hnodup⟩

end DropRequest
end Encounter
